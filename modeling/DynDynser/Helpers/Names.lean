import DynDynser.Common.Lists
import DynDynser.Helpers.Changes
import DynDynser.Model.Config
/-!
# Accepted domain names

A domain name that is accepted is what the input is when trimmed and
lower-cased: labels of letters, digits and hyphens, with a dot at the end
where the input has one. Inputs that differ only in the case of ASCII
letters are accepted as the same name, and one dot at the end makes no
other difference than that dot.
-/

namespace DynDynser

/-! ## What is accepted -/

/-- The characters of an accepted label. -/
theorem checkLabel_eq_ok {label : List Char} (h : checkLabel label = .ok ()) :
    label ≠ [] ∧ ∀ c ∈ label, isAsciiAlphanumeric c = true ∨ c = '-' := by
  unfold checkLabel at h
  split_ifs at h with h₁ h₂ h₃
  rw [Bool.not_eq_true', Bool.not_eq_false] at h₃
  refine ⟨fun hnil => h₁ (Or.inl hnil), fun c hc => ?_⟩
  simpa using List.all_eq_true.mp h₃ c hc

theorem checkLabels_eq_ok {labels : List (List Char)} (h : checkLabels labels = .ok ()) :
    ∀ label ∈ labels, checkLabel label = .ok () := by
  induction labels with
  | nil => simp
  | cons l ls ih =>
    rw [checkLabels] at h
    cases hl : checkLabel l with
    | error e =>
      rw [hl] at h
      cases h
    | ok u =>
      rw [hl] at h
      intro label hmem
      rcases List.mem_cons.mp hmem with rfl | hmem
      · exact hl
      · exact ih h label hmem

/-- An input in the form it is checked in. -/
def spelled (s : String) : List Char := toLowercase (trimChars s.toList)

variable {s s' : String} {d d' : DomainName}

/-- **What is accepted is the input, trimmed and in lower case**, and its
labels have passed the checks. -/
theorem DomainName.parse_eq_ok (h : DomainName.parse s = .ok d) :
    d.inner.toList = spelled s ∧
      ∀ label ∈ (stripSuffixChar '.' (spelled s)).splitOn '.', checkLabel label = .ok () := by
  unfold DomainName.parse at h
  dsimp only at h
  split at h
  · cases h
  · cases hlabels : checkLabels ((stripSuffixChar '.' (spelled s)).splitOn '.') with
    | error e =>
      unfold spelled at hlabels
      rw [hlabels] at h
      cases h
    | ok u =>
      have hok := checkLabels_eq_ok hlabels
      unfold spelled at hlabels
      rw [hlabels] at h
      simp only [bind, Except.bind] at h
      split at h
      · cases h
      · cases h
        exact ⟨String.toList_ofList, hok⟩

/-- What is left without the dot. -/
theorem mem_stripSuffixChar {x c : Char} {cs : List Char} (h : c ∈ cs) :
    c = x ∨ c ∈ stripSuffixChar x cs := by
  unfold stripSuffixChar
  split
  · next hlast =>
    rw [← List.dropLast_append_getLast? x hlast, List.mem_append] at h
    rcases h with h | h
    · exact Or.inr h
    · exact Or.inl (List.mem_singleton.mp h)
  · exact Or.inr h

/-- What holds of the characters of the labels, and of the dot, holds of
those of the name. -/
theorem forall_mem_of_labels {P : Char → Prop} {cs : List Char} (hdot : P '.')
    (h : ∀ label ∈ (stripSuffixChar '.' cs).splitOn '.', ∀ c ∈ label, P c) : ∀ c ∈ cs, P c := by
  intro c hc
  rcases mem_stripSuffixChar (x := '.') hc with rfl | hc
  · exact hdot
  · have hjoin : ['.'].intercalate ((stripSuffixChar '.' cs).splitOn '.') =
        stripSuffixChar '.' cs := List.intercalate_splitOn '.'
    have hall := Lists.forall_mem_intercalate hdot h
    rw [hjoin] at hall
    exact hall c hc

/-- The characters of an accepted name. -/
theorem DomainName.chars (h : DomainName.parse s = .ok d) {c : Char} (hc : c ∈ spelled s) :
    isAsciiAlphanumeric c = true ∨ c = '-' ∨ c = '.' := by
  obtain ⟨-, hlabels⟩ := DomainName.parse_eq_ok h
  have hall : ∀ x ∈ spelled s, isAsciiAlphanumeric x = true ∨ x = '-' ∨ x = '.' := by
    refine forall_mem_of_labels (Or.inr (Or.inr rfl)) fun label hlabel x hx => ?_
    rcases (checkLabel_eq_ok (hlabels label hlabel)).2 x hx with halnum | hhyphen
    · exact Or.inl halnum
    · exact Or.inr (Or.inl hhyphen)
  exact hall c hc

/-- **A domain name has no slash in it.** -/
theorem DomainName.no_slash (h : DomainName.parse s = .ok d) : '/' ∉ d.inner.toList := by
  rw [(DomainName.parse_eq_ok h).1]
  intro hslash
  exact absurd (DomainName.chars h hslash) (by decide)

/-- Without its dot, an accepted name ends with no other. -/
theorem DomainName.no_second_dot (h : DomainName.parse s = .ok d) :
    (stripSuffixChar '.' (spelled s)).getLast? ≠ some '.' := by
  obtain ⟨-, hlabels⟩ := DomainName.parse_eq_ok h
  intro hlast
  -- the label after the last dot would be empty
  have hmem := Lists.nil_mem_splitOn hlast
  exact (checkLabel_eq_ok (hlabels [] hmem)).1 rfl

/-! ## The case of letters -/

/-- A character has no other case, or it is a capital letter. -/
theorem toLower_eq_or (c : Char) : c.toLower = c ∨ ∃ i : Fin 26, c = Char.ofNat (65 + i) := by
  by_cases h : c.val ≥ 'A'.val ∧ c.val ≤ 'Z'.val
  · right
    have hlo : 65 ≤ c.toNat := h.1
    have hhi : c.toNat ≤ 90 := h.2
    refine ⟨⟨c.toNat - 65, by omega⟩, ?_⟩
    have hsum : 65 + (c.toNat - 65) = c.toNat := by omega
    rw [hsum, Char.ofNat_toNat]
  · exact Or.inl (dif_neg h)

/-- The case of an ASCII letter is lost in lower-casing, -/
theorem toLowercaseChar_toLower (c : Char) : toLowercaseChar c.toLower = toLowercaseChar c := by
  rcases toLower_eq_or c with h | ⟨i, rfl⟩
  · rw [h]
  · have key : ∀ i : Fin 26, toLowercaseChar (Char.ofNat (65 + i)).toLower =
        toLowercaseChar (Char.ofNat (65 + i)) := by decide
    exact key i

/-- and makes no white space. -/
theorem isWhitespace_toLower (c : Char) : isWhitespace c.toLower = isWhitespace c := by
  rcases toLower_eq_or c with h | ⟨i, rfl⟩
  · rw [h]
  · have key : ∀ i : Fin 26, isWhitespace (Char.ofNat (65 + i)).toLower =
        isWhitespace (Char.ofNat (65 + i)) := by decide
    exact key i

theorem trimChars_toLower (cs : List Char) :
    trimChars (cs.map Char.toLower) = (trimChars cs).map Char.toLower := by
  have hcomp : isWhitespace ∘ Char.toLower = isWhitespace := funext isWhitespace_toLower
  unfold trimChars List.rdropWhile
  rw [List.dropWhile_map, hcomp, ← List.map_reverse, List.dropWhile_map, hcomp, List.map_reverse]

/-- **Inputs that differ in case are spelled alike.** -/
theorem toLowercase_trimChars_toLower (cs : List Char) :
    toLowercase (trimChars (cs.map Char.toLower)) = toLowercase (trimChars cs) := by
  unfold toLowercase
  rw [trimChars_toLower, List.flatMap_map]
  exact List.flatMap_congr fun c _ => toLowercaseChar_toLower c

/-! ## The dot at the end -/

/-- White space is its own lower case. -/
theorem toLowercaseChar_of_isWhitespace {c : Char} (h : isWhitespace c = true) :
    toLowercaseChar c = [c] := by
  have key : ∀ n ∈ [0x09, 0x0a, 0x0b, 0x0c, 0x0d, 0x20, 0x85, 0xa0, 0x1680, 0x2000, 0x2001, 0x2002,
      0x2003, 0x2004, 0x2005, 0x2006, 0x2007, 0x2008, 0x2009, 0x200a, 0x2028, 0x2029, 0x202f, 0x205f,
      0x3000], toLowercaseChar (Char.ofNat n) = [Char.ofNat n] := by decide
  have hmem := key c.toNat (by
    simp only [isWhitespace, Bool.or_eq_true, Bool.and_eq_true, decide_eq_true_eq, beq_iff_eq] at h
    simp only [List.mem_cons, List.not_mem_nil, or_false]
    omega)
  rwa [Char.ofNat_toNat] at hmem

/-- No accepted name has white space in it. -/
theorem DomainName.not_isWhitespace (h : DomainName.parse s = .ok d) {c : Char}
    (hc : c ∈ spelled s) : isWhitespace c = false := by
  by_contra hspace
  have hws : isWhitespace c = true := by simpa using hspace
  simp only [isWhitespace, Bool.or_eq_true, Bool.and_eq_true, decide_eq_true_eq, beq_iff_eq] at hws
  rcases DomainName.chars h hc with halnum | rfl | rfl
  · simp only [isAsciiAlphanumeric, isAsciiDigit, Bool.or_eq_true, Bool.and_eq_true,
      decide_eq_true_eq] at halnum
    omega
  · exact absurd hws (by decide)
  · exact absurd hws (by decide)

/-- Without a dot at its end, an input is spelled as its domain is. -/
theorem spelled_of_no_dot (hdot : s.toList.getLast? ≠ some '.') :
    spelled s = toLowercase (trimChars (domainOf s).toList) := by
  unfold spelled domainOf stripSuffixChar
  rw [if_neg hdot, String.toList_ofList, toLowercase_trimChars_toLower]

/-- **With a dot at its end, it is spelled with a dot more.** -/
theorem spelled_of_dot (h : DomainName.parse s = .ok d) (hdot : s.toList.getLast? = some '.') :
    spelled s = toLowercase (trimChars (domainOf s).toList) ++ ['.'] := by
  obtain ⟨cs, hcs⟩ := List.getLast?_eq_some_iff.mp hdot
  have hdomain : (domainOf s).toList = cs.map Char.toLower := by
    unfold domainOf stripSuffixChar
    rw [String.toList_ofList, if_pos hdot, hcs, List.dropLast_concat]
  -- the dot keeps the end of the input from being trimmed
  have htrim : trimChars (cs ++ ['.']) = cs.dropWhile isWhitespace ++ ['.'] := by
    have hdrop : (cs ++ ['.']).dropWhile isWhitespace = cs.dropWhile isWhitespace ++ ['.'] := by
      rw [List.dropWhile_append]
      split
      · next hnil =>
        rw [List.isEmpty_iff.mp hnil]
        rfl
      · rfl
    unfold trimChars
    rw [hdrop, List.rdropWhile_concat_neg _ _ _ (by decide)]
  have hspelled : spelled s = toLowercase (cs.dropWhile isWhitespace) ++ ['.'] := by
    unfold spelled toLowercase
    rw [hcs, htrim, List.flatMap_append]
    rfl
  -- and what comes before it ends with no white space, or a label would
  have hend : (cs.dropWhile isWhitespace).rdropWhile isWhitespace = cs.dropWhile isWhitespace := by
    refine List.rdropWhile_eq_self_iff.mpr fun hne hws => ?_
    have hlast := List.getLast_mem hne
    have hmem : (cs.dropWhile isWhitespace).getLast hne ∈ spelled s := by
      rw [hspelled, List.mem_append]
      refine Or.inl (List.mem_flatMap.mpr ⟨_, hlast, ?_⟩)
      rw [toLowercaseChar_of_isWhitespace hws]
      exact List.mem_singleton_self _
    rw [DomainName.not_isWhitespace h hmem] at hws
    cases hws
  rw [hspelled, hdomain, toLowercase_trimChars_toLower]
  unfold trimChars
  rw [hend]

/-- **Spellings of one domain differ by the dot alone.** -/
theorem strip_spelled_eq (h : DomainName.parse s = .ok d) (h' : DomainName.parse s' = .ok d')
    (hsame : domainOf s = domainOf s') :
    stripSuffixChar '.' (spelled s) = stripSuffixChar '.' (spelled s') := by
  have hstrip : ∀ cs : List Char, stripSuffixChar '.' (cs ++ ['.']) = cs := by
    intro cs
    unfold stripSuffixChar
    rw [if_pos (by simp), List.dropLast_concat]
  -- where one of them has a dot, what is left of it ends with no other
  have key : ∀ {s s' : String} {d : DomainName}, DomainName.parse s = .ok d →
      domainOf s = domainOf s' → s.toList.getLast? = some '.' → s'.toList.getLast? ≠ some '.' →
      stripSuffixChar '.' (spelled s) = stripSuffixChar '.' (spelled s') := by
    intro s s' d h hsame hdot hdot'
    have hno := DomainName.no_second_dot h
    rw [spelled_of_dot h hdot, hstrip] at hno ⊢
    rw [spelled_of_no_dot hdot', ← hsame]
    unfold stripSuffixChar
    rw [if_neg hno]
  by_cases hdot : s.toList.getLast? = some '.'
  · by_cases hdot' : s'.toList.getLast? = some '.'
    · rw [spelled_of_dot h hdot, spelled_of_dot h' hdot', hsame]
    · exact key h hsame hdot hdot'
  · by_cases hdot' : s'.toList.getLast? = some '.'
    · exact (key h' hsame.symm hdot' hdot).symm
    · rw [spelled_of_no_dot hdot, spelled_of_no_dot hdot', hsame]

/-- **They are the same exactly where both have it or neither does.** -/
theorem spelled_eq_iff (h : DomainName.parse s = .ok d) (h' : DomainName.parse s' = .ok d')
    (hsame : domainOf s = domainOf s') :
    spelled s = spelled s' ↔ (s.toList.getLast? = some '.' ↔ s'.toList.getLast? = some '.') := by
  have hne : ∀ cs : List Char, cs ++ ['.'] ≠ cs := fun cs heq => by
    simpa using congrArg List.length heq
  by_cases hdot : s.toList.getLast? = some '.'
  · by_cases hdot' : s'.toList.getLast? = some '.'
    · rw [spelled_of_dot h hdot, spelled_of_dot h' hdot', hsame]
      simp [hdot, hdot']
    · rw [spelled_of_dot h hdot, spelled_of_no_dot hdot', hsame]
      simp [hdot, hdot', hne]
  · by_cases hdot' : s'.toList.getLast? = some '.'
    · rw [spelled_of_no_dot hdot, spelled_of_dot h' hdot', hsame]
      simp [hdot, hdot', (hne _).symm]
    · rw [spelled_of_no_dot hdot, spelled_of_no_dot hdot', hsame]
      simp [hdot, hdot']

end DynDynser
