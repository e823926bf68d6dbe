import DynDynser.Helpers.Names
import DynDynser.Helpers.Publish
/-!
# The grammar of domain names

What `DomainName::parse` is meant to accept: labels of letters, digits and
hyphens between dots, with at most one dot after the last. The parser
lowers the input before it looks at it, and measures it before it takes
the dot off. So it accepts the Kelvin sign for a `k`, and a name of 253
characters without a dot at its end only; on every other input it accepts
what the grammar has (`parsesGrammar_iff`). Whatever it makes of an input
parses to itself and is safe where domains are used (`canonical_of_parse`).
-/

namespace DynDynser

open Text

/-! ## The grammar -/

/-- **A label**: 1 to 63 letters, digits and hyphens, with no hyphen at
either end. -/
structure Label (l : List Char) : Prop where
  nonempty : l ≠ []
  short : l.length ≤ 63
  chars : ∀ c ∈ l, isAsciiAlphanumeric c = true ∨ c = '-'
  start : l.head? ≠ some '-'
  finish : l.getLast? ≠ some '-'

/-- Labels of a domain name: the last is not all digits. -/
structure Labels (labels : List (List Char)) : Prop where
  nonempty : labels ≠ []
  each : ∀ l ∈ labels, Label l
  tld : ∀ l, labels.getLast? = some l → l.all isAsciiDigit = false

/-- **The grammar**: labels with dots between them, of at most 253
characters in all, and at most one dot after them. -/
def Grammar (text : List Char) : Prop :=
  ∃ labels, Labels labels ∧ (['.'].intercalate labels).length ≤ 253 ∧
    (text = ['.'].intercalate labels ∨ text = ['.'].intercalate labels ++ ['.'])

/-- The characters of a name. -/
def NameChar (c : Char) : Prop := isAsciiAlphanumeric c = true ∨ c = '-' ∨ c = '.'

instance (c : Char) : Decidable (NameChar c) := inferInstanceAs (Decidable (_ ∨ _))

/-! ## Labels between dots -/

theorem Label.no_dot {l : List Char} (h : Label l) : '.' ∉ l := by
  intro hdot
  exact absurd (h.chars _ hdot) (by decide)

/-- Labels do not end with a dot. -/
theorem Labels.getLast?_ne {labels : List (List Char)} (h : Labels labels) :
    (['.'].intercalate labels).getLast? ≠ some '.' := by
  intro hlast
  -- the label after that dot would be empty
  have hmem := Lists.nil_mem_splitOn hlast
  rw [List.splitOn_intercalate '.' (fun l hl => (h.each l hl).no_dot) h.nonempty] at hmem
  exact (h.each [] hmem).nonempty rfl

/-- The labels of a text are what is between its dots. -/
theorem grammar_iff {text : List Char} : Grammar text ↔
    Labels ((stripSuffixChar '.' text).splitOn '.') ∧ (stripSuffixChar '.' text).length ≤ 253 := by
  constructor
  · rintro ⟨labels, hlabels, hlen, htext⟩
    have hstrip : stripSuffixChar '.' text = ['.'].intercalate labels := by
      unfold stripSuffixChar
      rcases htext with rfl | rfl
      · rw [if_neg hlabels.getLast?_ne]
      · rw [if_pos (by simp), List.dropLast_concat]
    rw [hstrip, List.splitOn_intercalate '.' (fun l hl => (hlabels.each l hl).no_dot)
      hlabels.nonempty]
    exact ⟨hlabels, hlen⟩
  · rintro ⟨hlabels, hlen⟩
    have hjoin : ['.'].intercalate ((stripSuffixChar '.' text).splitOn '.') =
        stripSuffixChar '.' text := List.intercalate_splitOn '.'
    refine ⟨_, hlabels, by rwa [hjoin], ?_⟩
    rw [hjoin]
    unfold stripSuffixChar
    split
    · next hdot => exact Or.inr (List.dropLast_append_getLast? _ hdot).symm
    · exact Or.inl rfl

/-- The characters of a text of the grammar. -/
theorem Grammar.chars {text : List Char} (h : Grammar text) {c : Char} (hc : c ∈ text) :
    NameChar c := by
  obtain ⟨labels, hlabels, -, htext⟩ := h
  have hname : ∀ x ∈ ['.'].intercalate labels, NameChar x := by
    refine Lists.forall_mem_intercalate (Or.inr (Or.inr rfl)) fun l hl x hx => ?_
    rcases (hlabels.each l hl).chars x hx with h | h
    · exact Or.inl h
    · exact Or.inr (Or.inl h)
  rcases htext with rfl | rfl
  · exact hname c hc
  · rcases List.mem_append.mp hc with hc | hc
    · exact hname c hc
    · exact Or.inr (Or.inr (List.mem_singleton.mp hc))

/-- **A dot after a name makes no difference to the grammar.** -/
theorem grammar_dotted {text : List Char} (hdot : text.getLast? ≠ some '.') :
    Grammar (text ++ ['.']) ↔ Grammar text := by
  have hstrip : stripSuffixChar '.' (text ++ ['.']) = text := by
    unfold stripSuffixChar
    rw [if_pos (by simp), List.dropLast_concat]
  have hbare : stripSuffixChar '.' text = text := if_neg hdot
  rw [grammar_iff, grammar_iff, hstrip, hbare]

/-! ## The checks of the parser -/

/-- A letter, a digit or a hyphen is an ASCII character. -/
theorem toNat_lt_of_alphanumeric {c : Char} (h : isAsciiAlphanumeric c = true ∨ c = '-') :
    c.toNat < 128 := by
  rcases h with h | rfl
  · simp only [isAsciiAlphanumeric, isAsciiDigit, Bool.or_eq_true, Bool.and_eq_true,
      decide_eq_true_eq] at h
    omega
  · decide

/-- ASCII characters are a byte each. -/
theorem byteLen_eq_length {cs : List Char} (h : ∀ c ∈ cs, c.toNat < 128) :
    byteLen cs = cs.length := by
  induction cs with
  | nil => rfl
  | cons c cs ih =>
    have hsize : c.utf8Size = 1 := by
      refine Char.utf8Size_eq_one_iff.mpr (UInt32.le_iff_toNat_le.mpr ?_)
      have hlt : c.val.toNat < 128 := h c List.mem_cons_self
      have hmax : (127 : UInt32).toNat = 127 := rfl
      omega
    have hrest : byteLen cs = cs.length := ih fun x hx => h x (List.mem_cons_of_mem _ hx)
    unfold byteLen at hrest ⊢
    rw [List.map_cons, List.sum_cons, hsize, hrest, List.length_cons]
    omega

/-- **The checks of a label are its grammar.** -/
theorem checkLabel_iff {l : List Char} : checkLabel l = .ok () ↔ Label l := by
  unfold checkLabel
  by_cases hchars : ∀ c ∈ l, isAsciiAlphanumeric c = true ∨ c = '-'
  · have hall : l.all (fun c => isAsciiAlphanumeric c || c == '-') = true := by
      simpa using hchars
    rw [byteLen_eq_length fun c hc => toNat_lt_of_alphanumeric (hchars c hc)]
    constructor
    · intro h
      split_ifs at h with h₁ h₂ h₃
      exact ⟨fun hnil => h₁ (Or.inl hnil), by omega, hchars, fun hs => h₂ (Or.inl hs),
        fun hf => h₂ (Or.inr hf)⟩
    · intro h
      have hlen := h.short
      rw [if_neg (by rintro (hnil | hlong); exacts [h.nonempty hnil, by omega]),
        if_neg (by rintro (hs | hf); exacts [h.start hs, h.finish hf]), hall]
      rfl
  · constructor
    · intro h
      split_ifs at h with h₁ h₂ h₃
      rw [Bool.not_eq_true', Bool.not_eq_false] at h₃
      exact absurd (by simpa using h₃) hchars
    · intro h
      exact absurd h.chars hchars

theorem checkLabels_iff {labels : List (List Char)} :
    checkLabels labels = .ok () ↔ ∀ l ∈ labels, Label l := by
  induction labels with
  | nil => simp [checkLabels]
  | cons l ls ih =>
    rw [checkLabels, List.forall_mem_cons, ← ih, ← checkLabel_iff]
    cases checkLabel l with
    | error e => simp [bind, Except.bind]
    | ok u => simp [bind, Except.bind]

/-- The checks a name passes, in their order. -/
theorem parse_eq_ok_checks {s : String} {d : DomainName} : DomainName.parse s = .ok d ↔
    (spelled s ≠ [] ∧ byteLen (spelled s) ≤ 253) ∧
      checkLabels ((stripSuffixChar '.' (spelled s)).splitOn '.') = .ok () ∧
      (∀ l, ((stripSuffixChar '.' (spelled s)).splitOn '.').getLast? = some l →
        l.all isAsciiDigit = false) ∧
      d.inner.toList = spelled s := by
  have hinner : (⟨String.ofList (spelled s)⟩ : DomainName) = d ↔ d.inner.toList = spelled s := by
    constructor
    · rintro rfl
      exact String.toList_ofList
    · intro h
      rw [← h, String.ofList_toList]
  rw [← hinner]
  unfold DomainName.parse
  dsimp only
  rw [show toLowercase (trimChars s.toList) = spelled s from rfl]
  by_cases hlen : spelled s = [] ∨ byteLen (spelled s) > 253
  · rw [if_pos hlen]
    constructor
    · intro h
      cases h
    · rintro ⟨⟨hne, hle⟩, -⟩
      rcases hlen with hnil | hlong
      · exact absurd hnil hne
      · omega
  rw [if_neg hlen]
  obtain ⟨hne, hle⟩ := not_or.mp hlen
  rw [not_lt] at hle
  rw [and_iff_right ⟨hne, hle⟩]
  cases checkLabels ((stripSuffixChar '.' (spelled s)).splitOn '.') with
  | error e => simp [bind, Except.bind]
  | ok u =>
    simp only [bind, Except.bind, true_and]
    cases ((stripSuffixChar '.' (spelled s)).splitOn '.').getLast? with
    | none => simp
    | some tld =>
      simp only [Option.any_some, Option.some.injEq, forall_eq']
      split
      · next htld =>
        constructor
        · intro h
          cases h
        · rintro ⟨hfalse, -⟩
          rw [htld] at hfalse
          cases hfalse
      · next htld =>
        rw [Bool.not_eq_true] at htld
        rw [Except.ok.injEq, and_iff_right htld]

/-- **What is accepted**: an input that is in the grammar once it is
trimmed and in lower case, and is then of at most 253 characters with its
dot. -/
theorem parse_eq_ok_iff {s : String} {d : DomainName} : DomainName.parse s = .ok d ↔
    Grammar (spelled s) ∧ (spelled s).length ≤ 253 ∧ d.inner.toList = spelled s := by
  have hlabels : (∀ l ∈ (stripSuffixChar '.' (spelled s)).splitOn '.', Label l) →
      byteLen (spelled s) = (spelled s).length := by
    intro h
    have hall : ∀ c ∈ spelled s, c.toNat < 128 :=
      forall_mem_of_labels (by decide) fun l hl c hc =>
        toNat_lt_of_alphanumeric ((h l hl).chars c hc)
    exact byteLen_eq_length hall
  have hstrip : (stripSuffixChar '.' (spelled s)).length ≤ (spelled s).length := by
    unfold stripSuffixChar
    split
    · rw [List.length_dropLast]
      omega
    · exact le_rfl
  rw [parse_eq_ok_checks, checkLabels_iff, grammar_iff]
  constructor
  · rintro ⟨⟨-, hlen⟩, hall, htld, hd⟩
    rw [hlabels hall] at hlen
    exact ⟨⟨⟨List.splitOn_ne_nil _ _, hall, htld⟩, by omega⟩, hlen, hd⟩
  · rintro ⟨⟨⟨-, hall, htld⟩, -⟩, hlen, hd⟩
    refine ⟨⟨fun hnil => ?_, by rwa [hlabels hall]⟩, hall, htld, hd⟩
    -- the one label of an empty input would be empty
    rw [hnil] at hall
    exact (hall [] (by simp [stripSuffixChar])).nonempty rfl

/-! ## Lower case -/

/-- The Kelvin sign, whose lower case is a `k`. -/
def kelvin : Char := Char.ofNat 0x212a

/-- A character, with a `k` for the Kelvin sign. -/
def plain (c : Char) : Char := if c = kelvin then 'k' else c

theorem NameChar.toNat_lt {c : Char} (h : NameChar c) : c.toNat < 128 := by
  rcases h with h | rfl | rfl
  · exact toNat_lt_of_alphanumeric (Or.inl h)
  · decide
  · decide

/-- A run of capitals leads to ASCII only from ASCII and from the Kelvin
sign. -/
theorem lowercaseRuns_ascii : ∀ r ∈ lowercaseRuns, r = (0x41, 0x5a, 1, 32) ∨
    r = (0x212a, 0x212a, 1, -8383) ∨ (128 : ℤ) ≤ r.1 + r.2.2.2 := by
  decide +kernel

/-- A number of 128 or more is the code of no ASCII character. -/
theorem not_nameChar_ofNat {n : ℕ} (h : 128 ≤ n) : ¬ NameChar (Char.ofNat n) := by
  intro hname
  have hlt := hname.toNat_lt
  by_cases hvalid : n.isValidChar
  · have hcode : (Char.ofNat n).toNat = n := by
      rw [Char.ofNat, dif_pos hvalid]
      rfl
    omega
  · rw [Char.ofNat, dif_neg hvalid] at hname
    exact absurd hname (by decide)

/-- The lower case of a character of a name is one character. -/
theorem toLowercaseChar_of_nameChar {c : Char} (h : NameChar c) :
    toLowercaseChar c = [c.toLower] ∧ NameChar c.toLower := by
  have key : ∀ i : Fin 128, NameChar (Char.ofNat i) →
      toLowercaseChar (Char.ofNat i) = [(Char.ofNat i).toLower] ∧
        NameChar (Char.ofNat i).toLower := by
    decide +kernel
  have hc := key ⟨c.toNat, h.toNat_lt⟩
  rw [Char.ofNat_toNat] at hc
  exact hc h

/-- **What is lowered to characters of a name**: those characters, and the
Kelvin sign. -/
theorem nameChar_toLowercaseChar {c : Char} :
    (∀ x ∈ toLowercaseChar c, NameChar x) ↔ NameChar (plain c) := by
  unfold plain
  by_cases hkelvin : c = kelvin
  · subst hkelvin
    have hlow : toLowercaseChar kelvin = ['k'] := by decide
    have hletter : NameChar 'k' := by decide
    rw [if_pos rfl, hlow]
    exact iff_of_true (fun x hx => by rwa [List.mem_singleton.mp hx]) hletter
  rw [if_neg hkelvin]
  constructor
  · intro hall
    unfold toLowercaseChar at hall
    split_ifs at hall with hdotted
    · exact absurd (hall (Char.ofNat 0x307) (by simp)) (by decide)
    cases hfind : lowercaseRuns.find? (inRun c.toNat) with
    | none =>
      rw [hfind] at hall
      exact hall c (List.mem_singleton_self c)
    | some r =>
      rw [hfind] at hall
      have hname := hall _ (List.mem_singleton_self _)
      have hin := List.find?_some hfind
      simp only [inRun, Bool.and_eq_true, decide_eq_true_eq] at hin
      rcases lowercaseRuns_ascii r (List.mem_of_find?_eq_some hfind) with rfl | rfl | hlarge
      · -- a capital letter
        obtain ⟨⟨hlo, hhi⟩, -⟩ := hin
        dsimp only at hlo hhi
        refine Or.inl ?_
        simp only [isAsciiAlphanumeric, Bool.or_eq_true, Bool.and_eq_true, decide_eq_true_eq]
        omega
      · -- the Kelvin sign
        obtain ⟨⟨hlo, hhi⟩, -⟩ := hin
        dsimp only at hlo hhi
        have hcode : c.toNat = 0x212a := by omega
        refine absurd ?_ hkelvin
        rw [← Char.ofNat_toNat c, hcode]
        rfl
      · exact absurd hname (not_nameChar_ofNat (by omega))
  · intro hname x hx
    obtain ⟨hlower, hlow⟩ := toLowercaseChar_of_nameChar hname
    rw [hlower] at hx
    rw [List.mem_singleton.mp hx]
    exact hlow

/-- It is lowered letter by letter. -/
theorem toLowercaseChar_plain {c : Char} (h : NameChar (plain c)) :
    toLowercaseChar c = [(plain c).toLower] := by
  by_cases hkelvin : c = kelvin
  · subst hkelvin
    decide
  · unfold plain at h ⊢
    rw [if_neg hkelvin] at h ⊢
    exact (toLowercaseChar_of_nameChar h).1

theorem toLowercase_plain {cs : List Char} (h : ∀ c ∈ cs, NameChar (plain c)) :
    toLowercase cs = (cs.map plain).map Char.toLower := by
  unfold toLowercase
  induction cs with
  | nil => rfl
  | cons c cs ih =>
    rw [List.flatMap_cons, toLowercaseChar_plain (h c List.mem_cons_self),
      ih fun x hx => h x (List.mem_cons_of_mem _ hx)]
    rfl

/-! ## The grammar and lower case -/

/-- Lower-casing moves no character to or from a dot or a hyphen, -/
theorem toLower_eq_iff {c x : Char} (hx : x = '.' ∨ x = '-') : c.toLower = x ↔ c = x := by
  rcases toLower_eq_or c with h | ⟨i, rfl⟩
  · rw [h]
  · have key : ∀ i : Fin 26,
        ((Char.ofNat (65 + i)).toLower = '.' ↔ Char.ofNat (65 + i) = '.') ∧
          ((Char.ofNat (65 + i)).toLower = '-' ↔ Char.ofNat (65 + i) = '-') := by decide
    rcases hx with rfl | rfl
    · exact (key i).1
    · exact (key i).2

/-- keeps letters and digits what they are, -/
theorem isAsciiAlphanumeric_toLower (c : Char) :
    isAsciiAlphanumeric c.toLower = isAsciiAlphanumeric c := by
  rcases toLower_eq_or c with h | ⟨i, rfl⟩
  · rw [h]
  · have key : ∀ i : Fin 26, isAsciiAlphanumeric (Char.ofNat (65 + i)).toLower =
        isAsciiAlphanumeric (Char.ofNat (65 + i)) := by decide
    exact key i

theorem isAsciiDigit_toLower (c : Char) : isAsciiDigit c.toLower = isAsciiDigit c := by
  rcases toLower_eq_or c with h | ⟨i, rfl⟩
  · rw [h]
  · have key : ∀ i : Fin 26, isAsciiDigit (Char.ofNat (65 + i)).toLower =
        isAsciiDigit (Char.ofNat (65 + i)) := by decide
    exact key i

/-- and so makes no label and no name. -/
theorem label_toLower {l : List Char} : Label (l.map Char.toLower) ↔ Label l := by
  have hhead : (l.map Char.toLower).head? = some '-' ↔ l.head? = some '-' := by
    rw [List.head?_map]
    cases l.head? <;> simp [toLower_eq_iff]
  have hlast : (l.map Char.toLower).getLast? = some '-' ↔ l.getLast? = some '-' := by
    rw [List.getLast?_map]
    cases l.getLast? <;> simp [toLower_eq_iff]
  have hchars : (∀ c ∈ l.map Char.toLower, isAsciiAlphanumeric c = true ∨ c = '-') ↔
      ∀ c ∈ l, isAsciiAlphanumeric c = true ∨ c = '-' := by
    simp [isAsciiAlphanumeric_toLower, toLower_eq_iff]
  constructor
  · rintro ⟨hne, hshort, hall, hstart, hfinish⟩
    exact ⟨by simpa using hne, by simpa using hshort, hchars.mp hall, fun h => hstart (hhead.mpr h),
      fun h => hfinish (hlast.mpr h)⟩
  · rintro ⟨hne, hshort, hall, hstart, hfinish⟩
    exact ⟨by simpa using hne, by simpa using hshort, hchars.mpr hall, fun h => hstart (hhead.mp h),
      fun h => hfinish (hlast.mp h)⟩

theorem labels_toLower {labels : List (List Char)} :
    Labels (labels.map (List.map Char.toLower)) ↔ Labels labels := by
  have htld : (∀ l, (labels.map (List.map Char.toLower)).getLast? = some l →
        l.all isAsciiDigit = false) ↔
      ∀ l, labels.getLast? = some l → l.all isAsciiDigit = false := by
    rw [List.getLast?_map]
    cases labels.getLast? <;> simp [isAsciiDigit_toLower]
  constructor
  · rintro ⟨hne, heach, hlast⟩
    exact ⟨by simpa using hne,
      fun l hl => label_toLower.mp (heach _ (List.mem_map_of_mem hl)), htld.mp hlast⟩
  · rintro ⟨hne, heach, hlast⟩
    refine ⟨by simpa using hne, fun l hl => ?_, htld.mpr hlast⟩
    obtain ⟨l, hmem, rfl⟩ := List.mem_map.mp hl
    exact label_toLower.mpr (heach l hmem)

theorem stripSuffixChar_toLower (cs : List Char) :
    stripSuffixChar '.' (cs.map Char.toLower) = (stripSuffixChar '.' cs).map Char.toLower := by
  have hlast : (cs.map Char.toLower).getLast? = some '.' ↔ cs.getLast? = some '.' := by
    rw [List.getLast?_map]
    cases cs.getLast? <;> simp [toLower_eq_iff]
  unfold stripSuffixChar
  by_cases h : cs.getLast? = some '.'
  · rw [if_pos (hlast.mpr h), if_pos h, List.map_dropLast]
  · rw [if_neg fun h' => h (hlast.mp h'), if_neg h]

/-- **The grammar does not see the case of letters.** -/
theorem grammar_toLower {cs : List Char} : Grammar (cs.map Char.toLower) ↔ Grammar cs := by
  rw [grammar_iff, grammar_iff, stripSuffixChar_toLower, List.length_map,
    Lists.splitOn_map fun c => toLower_eq_iff (Or.inl rfl), labels_toLower]

/-! ## What the parser accepts -/

/-- An input of which everything is lowered to characters of a name is
lowered letter by letter. -/
theorem spelled_plain {s : String} (h : ∀ c ∈ trimChars s.toList, NameChar (plain c)) :
    spelled s = ((trimChars s.toList).map plain).map Char.toLower := toLowercase_plain h

variable {s : String} {d : DomainName}

/-- **The parser accepts** what is in the grammar with a `k` for each
Kelvin sign, where it is of at most 253 characters with its dot, -/
theorem exists_parse_eq_ok : (∃ d, DomainName.parse s = .ok d) ↔
    Grammar ((trimChars s.toList).map plain) ∧ (trimChars s.toList).length ≤ 253 := by
  constructor
  · rintro ⟨d, h⟩
    obtain ⟨hgrammar, hlen, -⟩ := parse_eq_ok_iff.mp h
    have hplain : ∀ c ∈ trimChars s.toList, NameChar (plain c) := fun c hc =>
      nameChar_toLowercaseChar.mp fun x hx => hgrammar.chars (List.mem_flatMap.mpr ⟨c, hc, hx⟩)
    rw [spelled_plain hplain] at hgrammar hlen
    exact ⟨grammar_toLower.mp hgrammar, by simpa using hlen⟩
  · rintro ⟨hgrammar, hlen⟩
    have hspelled := spelled_plain fun c hc => hgrammar.chars (List.mem_map_of_mem hc)
    refine ⟨⟨String.ofList (spelled s)⟩, parse_eq_ok_iff.mpr ⟨?_, ?_, String.toList_ofList⟩⟩
    · rw [hspelled]
      exact grammar_toLower.mpr hgrammar
    · rw [hspelled]
      simpa using hlen

/-- and makes of it that, in lower case. -/
theorem toList_of_parse_eq_ok (h : DomainName.parse s = .ok d) :
    d.inner.toList = ((trimChars s.toList).map plain).map Char.toLower := by
  rw [(parse_eq_ok_iff.mp h).2.2]
  obtain ⟨hgrammar, -⟩ := exists_parse_eq_ok.mp ⟨d, h⟩
  exact spelled_plain fun c hc => hgrammar.chars (List.mem_map_of_mem hc)

/-- What is in the grammar has no Kelvin sign. -/
theorem Grammar.not_mem_kelvin {text : List Char} (h : Grammar text) : kelvin ∉ text := by
  intro hmem
  exact absurd (h.chars hmem) (by decide)

theorem map_plain {cs : List Char} (h : kelvin ∉ cs) : cs.map plain = cs := by
  refine (List.map_congr_left fun c hc => ?_).trans (List.map_id cs)
  unfold plain
  rw [if_neg (by rintro rfl; exact h hc)]
  rfl

/-- **The parser accepts the grammar** on an input: it accepts it if it is
in the grammar when trimmed, and makes of it that, in lower case; and it
makes no difference to it whether a dot is put after it. -/
structure ParsesGrammar (s : String) : Prop where
  accepts : (∃ d, DomainName.parse s = .ok d) ↔ Grammar (trimChars s.toList)
  result : ∀ d, DomainName.parse s = .ok d →
    d.inner.toList = (trimChars s.toList).map Char.toLower
  dotted : (trimChars s.toList).getLast? ≠ some '.' →
    ((∃ d, DomainName.parse s = .ok d) ↔
      ∃ d, DomainName.parse (String.ofList (trimChars s.toList ++ ['.'])) = .ok d)

/-- A trimmed text does not begin with white space. -/
theorem head_trimChars {cs rest : List Char} {c : Char} (h : trimChars cs = c :: rest) :
    isWhitespace c = false := by
  have hprefix : trimChars cs <+: cs.dropWhile isWhitespace := List.rdropWhile_prefix _ _
  obtain ⟨tail, htail⟩ := hprefix
  rw [h, List.cons_append] at htail
  have hnot := List.head?_dropWhile_not isWhitespace cs
  rw [← htail] at hnot
  exact hnot

/-- What a dot is put after stays trimmed. -/
theorem trimChars_dotted (cs : List Char) :
    trimChars (trimChars cs ++ ['.']) = trimChars cs ++ ['.'] := by
  have hdrop : (trimChars cs ++ ['.']).dropWhile isWhitespace = trimChars cs ++ ['.'] := by
    cases h : trimChars cs with
    | nil => decide
    | cons c rest =>
      rw [List.cons_append, List.dropWhile_cons_of_neg (by simp [head_trimChars h])]
  rw [trimChars, hdrop, List.rdropWhile_concat_neg _ _ _ (by decide)]

/-- What is taken off is one character at most. -/
theorem length_le_stripSuffixChar (x : Char) (cs : List Char) :
    cs.length ≤ (stripSuffixChar x cs).length + 1 := by
  unfold stripSuffixChar
  split
  · rw [List.length_dropLast]
    omega
  · omega

theorem getLast?_map_plain (cs : List Char) :
    (cs.map plain).getLast? = some '.' ↔ cs.getLast? = some '.' := by
  have hplain : ∀ c, plain c = '.' ↔ c = '.' := by
    intro c
    unfold plain
    split
    · next h =>
      subst h
      decide
    · exact Iff.rfl
  rw [List.getLast?_map]
  cases cs.getLast? <;> simp [hplain]

/-- **Where the parser departs from the grammar**: it accepts a Kelvin sign
for a `k`, and it refuses a name of 253 characters with a dot after it. -/
theorem parsesGrammar_iff (s : String) : ParsesGrammar s ↔
    ¬ (kelvin ∈ trimChars s.toList ∧ Grammar ((trimChars s.toList).map plain) ∧
      (trimChars s.toList).length ≤ 253) ∧
    ¬ (Grammar (trimChars s.toList) ∧
      (stripSuffixChar '.' (trimChars s.toList)).length = 253) := by
  have hdotted : (trimChars s.toList).getLast? ≠ some '.' →
      ((∃ d, DomainName.parse (String.ofList (trimChars s.toList ++ ['.'])) = .ok d) ↔
        Grammar ((trimChars s.toList).map plain) ∧ (trimChars s.toList).length + 1 ≤ 253) := by
    intro hlast
    have hplain : plain '.' = '.' := by decide
    rw [exists_parse_eq_ok, String.toList_ofList, trimChars_dotted, List.map_append,
      List.map_singleton, hplain, grammar_dotted fun h => hlast ((getLast?_map_plain _).mp h),
      List.length_append, List.length_singleton]
  have haccepted := exists_parse_eq_ok (s := s)
  have hresult := fun d => toList_of_parse_eq_ok (s := s) (d := d)
  revert hdotted haccepted hresult
  generalize ht : trimChars s.toList = t
  intro hdotted haccepted hresult
  constructor
  · rintro ⟨haccepts, -, hdot⟩
    rw [ht] at haccepts hdot
    constructor
    · rintro ⟨hkelvin, hplain⟩
      exact (haccepts.mp (haccepted.mpr hplain)).not_mem_kelvin hkelvin
    · rintro ⟨hgrammar, hlen⟩
      have hok := haccepts.mpr hgrammar
      have hfits := (haccepted.mp hok).2
      unfold stripSuffixChar at hlen
      split at hlen
      · -- the dot is the 254th character
        rw [List.length_dropLast] at hlen
        omega
      · -- the dot would be
        next hlast =>
        have hlonger := ((hdotted hlast).mp ((hdot hlast).mp hok)).2
        omega
  · rintro ⟨hkelvin, hlong⟩
    -- what is accepted has no Kelvin sign
    have hno : (∃ d, DomainName.parse s = .ok d) → kelvin ∉ t := fun hok hmem =>
      hkelvin ⟨hmem, haccepted.mp hok⟩
    have hgrammar : (∃ d, DomainName.parse s = .ok d) → Grammar t := by
      intro hok
      have hg := (haccepted.mp hok).1
      rwa [map_plain (hno hok)] at hg
    refine ⟨?_, fun d hd => ?_, ?_⟩
    · rw [ht]
      refine ⟨hgrammar, fun hg => haccepted.mpr ?_⟩
      rw [map_plain hg.not_mem_kelvin]
      refine ⟨hg, ?_⟩
      have hshort := (grammar_iff.mp hg).2
      have hne : (stripSuffixChar '.' t).length ≠ 253 := fun h => hlong ⟨hg, h⟩
      have hle := length_le_stripSuffixChar '.' t
      omega
    · rw [hresult d hd, ht, map_plain (hno ⟨d, hd⟩)]
    · rw [ht]
      intro hlast
      rw [hdotted hlast]
      constructor
      · intro hok
        obtain ⟨hg, hlen⟩ := haccepted.mp hok
        have hne : t.length ≠ 253 := fun h => hlong ⟨hgrammar hok, by
          unfold stripSuffixChar
          rwa [if_neg hlast]⟩
        exact ⟨hg, by omega⟩
      · rintro ⟨hg, hlen⟩
        exact haccepted.mpr ⟨hg, by omega⟩

namespace Sample

/-- A name with a Kelvin sign in it. -/
def kelvinName : String := String.ofList [kelvin, '.', 'e', 'u']

/-- Labels of 253 characters in all. -/
def longLabels : List (List Char) :=
  [List.replicate 63 'a', List.replicate 63 'a', List.replicate 63 'a', List.replicate 61 'a']

def longName : String := String.ofList (['.'].intercalate longLabels)

theorem labels_longLabels : Labels longLabels := by
  have hlabel : ∀ n, 0 < n → n ≤ 63 → Label (List.replicate n 'a') := by
    intro n hpos hle
    have hmem : ∀ c ∈ List.replicate n 'a', c = 'a' := fun c hc => (List.mem_replicate.mp hc).2
    have hhead : (List.replicate n 'a').head? ≠ some '-' := fun h =>
      absurd (hmem _ (List.mem_of_head? h)) (by decide)
    have hlast : (List.replicate n 'a').getLast? ≠ some '-' := fun h =>
      absurd (hmem _ (List.mem_of_getLast? h)) (by decide)
    refine ⟨?_, by simpa using hle, ?_, hhead, hlast⟩
    · intro hnil
      have hlen := congrArg List.length hnil
      rw [List.length_replicate, List.length_nil] at hlen
      omega
    · intro c hc
      rw [hmem c hc]
      decide
  refine ⟨by decide, fun l hl => ?_, ?_⟩
  · have hl' : l = List.replicate 63 'a' ∨ l = List.replicate 61 'a' := by
      simpa only [longLabels, List.mem_cons, List.not_mem_nil, or_false, or_self, or_self_left]
        using hl
    rcases hl' with rfl | rfl
    · exact hlabel 63 (by decide) (by decide)
    · exact hlabel 61 (by decide) (by decide)
  · intro l hl
    obtain rfl := Option.some.inj hl
    decide

/-- It is trimmed, has 253 characters, and no dot at its end. -/
theorem longName_shape : trimChars longName.toList = ['.'].intercalate longLabels ∧
    (['.'].intercalate longLabels).length = 253 ∧
    (['.'].intercalate longLabels).getLast? ≠ some '.' ∧
    kelvin ∉ ['.'].intercalate longLabels := by
  unfold longName
  rw [String.toList_ofList]
  decide +kernel

end Sample

/-- **A Kelvin sign is accepted, and a dot makes a difference.** Neither
input is parsed as the grammar says. -/
theorem grammar_missed :
    DomainName.parse Sample.kelvinName = .ok ⟨"k.eu"⟩ ∧ ¬ ParsesGrammar Sample.kelvinName ∧
      Grammar Sample.longName.toList ∧ ¬ ParsesGrammar Sample.longName := by
  have hkelvin : DomainName.parse Sample.kelvinName = .ok ⟨"k.eu"⟩ := rfl
  obtain ⟨htrim, hlen, hlast, hno⟩ := Sample.longName_shape
  have hgrammar : Grammar (['.'].intercalate Sample.longLabels) :=
    ⟨_, Sample.labels_longLabels, by omega, Or.inl rfl⟩
  refine ⟨hkelvin, fun hparses => ?_, ?_, fun hparses => ?_⟩
  · have hname := hparses.accepts.mp ⟨_, hkelvin⟩
    exact hname.not_mem_kelvin (by decide)
  · rw [Sample.longName, String.toList_ofList]
    exact hgrammar
  · have hok : ∃ d, DomainName.parse Sample.longName = .ok d := by
      rw [exists_parse_eq_ok, htrim, map_plain hno]
      exact ⟨hgrammar, by omega⟩
    -- with its dot it is of 254 characters
    have hdotted := (hparses.dotted (by rwa [htrim])).mp hok
    have hlong := (exists_parse_eq_ok.mp hdotted).2
    rw [String.toList_ofList, trimChars_dotted, htrim, List.length_append, hlen] at hlong
    exact absurd hlong (by decide)

/-! ## What has been parsed -/

/-- Lower case has no lower case of its own. -/
theorem toLower_toLower (c : Char) : c.toLower.toLower = c.toLower := by
  rcases toLower_eq_or c with h | ⟨i, rfl⟩
  · rw [h, h]
  · have key : ∀ i : Fin 26, (Char.ofNat (65 + i)).toLower.toLower =
        (Char.ofNat (65 + i)).toLower := by decide
    exact key i

/-- The characters of a parsed domain: those of names, in lower case. -/
def LowerNameChar (c : Char) : Prop := NameChar c ∧ c.toLower = c

instance (c : Char) : Decidable (LowerNameChar c) := inferInstanceAs (Decidable (_ ∧ _))

/-- **What holds of them** is found out one by one. -/
theorem LowerNameChar.forall {P : Char → Prop} [DecidablePred P]
    (key : ∀ i : Fin 128, LowerNameChar (Char.ofNat i) → P (Char.ofNat i)) {c : Char}
    (h : LowerNameChar c) : P c := by
  have hc := key ⟨c.toNat, h.1.toNat_lt⟩
  rw [Char.ofNat_toNat] at hc
  exact hc h

theorem lowerNameChar_of_mem (h : DomainName.parse s = .ok d) {c : Char}
    (hc : c ∈ d.inner.toList) : LowerNameChar c := by
  constructor
  · rw [(parse_eq_ok_iff.mp h).2.2] at hc
    exact (parse_eq_ok_iff.mp h).1.chars hc
  · rw [toList_of_parse_eq_ok h] at hc
    obtain ⟨x, -, rfl⟩ := List.mem_map.mp hc
    exact toLower_toLower x

/-- **They are spelled as they stand**: trimming and lower-casing leave
them alone. -/
theorem spelled_of_lower {u : String} (h : ∀ c ∈ u.toList, LowerNameChar c) :
    spelled u = u.toList := by
  have hspace : ∀ c ∈ u.toList, isWhitespace c = false := fun c hc =>
    LowerNameChar.forall (P := fun c => isWhitespace c = false) (by decide +kernel) (h c hc)
  have hlower : ∀ c ∈ u.toList, toLowercaseChar c = [c] := by
    intro c hc
    rw [(toLowercaseChar_of_nameChar (h c hc).1).1, (h c hc).2]
  have htrim : trimChars u.toList = u.toList := by
    have hdrop : u.toList.dropWhile isWhitespace = u.toList :=
      List.dropWhile_eq_self_iff.mpr fun hpos => by simp [hspace _ (List.getElem_mem hpos)]
    unfold trimChars
    rw [hdrop]
    exact List.rdropWhile_eq_self_iff.mpr fun hne => by simp [hspace _ (List.getLast_mem hne)]
  unfold spelled
  rw [htrim]
  exact (List.flatMap_congr hlower).trans (List.flatMap_singleton' _)

/-- **A domain that is canonical and safe**: it parses to itself, and can
be used as it stands for a key, for the document of a request and for a
fully qualified name. -/
structure Canonical (d : DomainName) : Prop where
  idempotent : DomainName.parse d.inner = .ok d
  chars : ∀ c ∈ d.inner.toList, ('a' ≤ c ∧ c ≤ 'z') ∨ ('0' ≤ c ∧ c ≤ '9') ∨ c = '-' ∨ c = '.'
  short : d.inner.length ≤ 253
  labels : ∀ l ∈ (stripSuffixChar '.' d.inner.toList).splitOn '.', l ≠ []
  /-- The document of a change has it as it is. -/
  escaped : xmlEscape d.inner = d.inner
  /-- The file of a record set is in its directory, and among those the
  server looks at. -/
  file : ∀ r : ResourceRecordSet, r.name = d.inner →
    '/' ∉ r.makeFilename.toList ∧ endsWith r.makeFilename ddnsJsonFileExt = true
  /-- It is the file of no other domain, -/
  determined : ∀ (r r' : ResourceRecordSet) (d' : DomainName), r.name = d.inner →
    r'.name = d'.inner → r.makeFilename = r'.makeFilename → d = d'
  /-- and no other client with that directory has its key. -/
  keyed : ∀ (conf conf' : ConfigClient) (ip ip' : IpAddr),
    conf'.s3DdnsJsonDirectory = conf.s3DdnsJsonDirectory → conf.domain = d →
    putKey conf' ip' = putKey conf ip → conf'.domain = d
  /-- Its fully qualified form ends with one dot, -/
  qualified : ∃ cs, (DynDynserServer.fixedName d.inner).toList = cs ++ ['.'] ∧
    cs.getLast? ≠ some '.'
  /-- and is a domain. -/
  accepted : (DynDynserServer.fixedName d.inner).length ≤ 253 →
    DomainName.parse (DynDynserServer.fixedName d.inner) =
      .ok ⟨DynDynserServer.fixedName d.inner⟩

/-- Domains are told apart by their text. -/
theorem DomainName.eq_of_toList {d d' : DomainName} (h : d.inner.toList = d'.inner.toList) :
    d = d' := by
  cases d
  cases d'
  exact congrArg DomainName.mk (String.toList_injective h)

/-- **Every domain that is parsed is canonical and safe.** -/
theorem canonical_of_parse (s : String) (d : DomainName) (h : DomainName.parse s = .ok d) :
    Canonical d := by
  have hchars : ∀ c ∈ d.inner.toList, LowerNameChar c := fun c hc => lowerNameChar_of_mem h hc
  obtain ⟨hgrammar, hlen, hd⟩ := parse_eq_ok_iff.mp h
  rw [← hd] at hgrammar hlen
  have hself : spelled d.inner = d.inner.toList := spelled_of_lower hchars
  have hdetermined : ∀ (r r' : ResourceRecordSet) (d' : DomainName), r.name = d.inner →
      r'.name = d'.inner → r.makeFilename = r'.makeFilename → d = d' := by
    intro r r' d' hr hr' hfile
    unfold ResourceRecordSet.makeFilename at hfile
    have hlist := congrArg String.toList hfile
    rw [String.toList_append, String.toList_append, hr, hr'] at hlist
    exact DomainName.eq_of_toList (List.append_cancel_right hlist)
  -- the fully qualified form has the characters of the domain, and a dot
  have hfixed : ∀ c ∈ (DynDynserServer.fixedName d.inner).toList, LowerNameChar c := by
    intro c hc
    rw [fixedName_toList] at hc
    rcases List.mem_append.mp hc with hc | hc
    · refine hchars c ?_
      unfold stripSuffixChar at hc
      split at hc
      · exact List.mem_of_mem_dropLast hc
      · exact hc
    · rw [List.mem_singleton.mp hc]
      decide
  have hnodot : (stripSuffixChar '.' d.inner.toList).getLast? ≠ some '.' := by
    rw [hd]
    exact DomainName.no_second_dot h
  exact {
    idempotent := parse_eq_ok_iff.mpr ⟨by rwa [hself], by rwa [hself], hself.symm⟩
    chars := fun c hc => LowerNameChar.forall (P := fun c =>
      ('a' ≤ c ∧ c ≤ 'z') ∨ ('0' ≤ c ∧ c ≤ '9') ∨ c = '-' ∨ c = '.') (by decide +kernel)
      (hchars c hc)
    short := by
      rw [← String.length_toList]
      exact hlen
    labels := fun l hl => ((grammar_iff.mp hgrammar).1.each l hl).nonempty
    escaped := by
      have hplain : d.inner.toList.any xmlSpecial = false := by
        rw [List.any_eq_false]
        intro c hc
        exact LowerNameChar.forall (P := fun c => ¬ xmlSpecial c = true) (by decide +kernel)
          (hchars c hc)
      unfold xmlEscape
      rw [hplain]
      exact if_neg Bool.false_ne_true
    file := by
      intro r hr
      unfold endsWith ResourceRecordSet.makeFilename
      rw [String.toList_append, hr, List.isSuffixOf_iff_suffix, List.mem_append]
      refine ⟨?_, List.suffix_append _ _⟩
      rintro (hslash | hslash)
      · exact DomainName.no_slash h hslash
      · exact absurd hslash (by decide)
    determined := hdetermined
    keyed := by
      rintro conf conf' ip ip' hdir rfl hkey
      have hinner := (putKey_eq_iff hdir).mp hkey
      exact DomainName.eq_of_toList (congrArg String.toList hinner)
    qualified := ⟨_, fixedName_toList _, hnodot⟩
    accepted := by
      intro hshort
      have hspelled := spelled_of_lower hfixed
      refine parse_eq_ok_iff.mpr ⟨?_, ?_, hspelled.symm⟩
      · -- its labels are those of the domain
        rw [hspelled, fixedName_toList, grammar_dotted hnodot]
        exact ⟨_, (grammar_iff.mp hgrammar).1, by
          rw [List.intercalate_splitOn '.']
          exact (grammar_iff.mp hgrammar).2, Or.inl (List.intercalate_splitOn '.').symm⟩
      · rw [hspelled, String.length_toList]
        exact hshort }

/-- The domain of the test certificate, with capitals and blanks around
it. -/
theorem canonical_augs : Canonical ⟨"augs.sarif.example"⟩ :=
  canonical_of_parse " Augs.SARIF.example " ⟨"augs.sarif.example"⟩ rfl

end DynDynser
