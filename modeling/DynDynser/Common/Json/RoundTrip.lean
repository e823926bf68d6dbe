import DynDynser.Common.Json.Parse
/-!
# Reading what was written

`parse_write`: a plain value written in any layout reads back as itself.
The induction is over the value, and carries the text that follows it,
since an array's items are read one after the other out of one text. What
follows matters to an integer alone, whose digits have no end mark;
`Ends` is what every writer puts there.
-/

namespace Json

open Text

/-! ## String literals -/

/-- Every control character has a two-digit escape, and the reader's value
of it is the character. -/
theorem escape_hexPair {b : UInt8} (h : b.toNat < 0x20) (rest : Bytes) :
    escape (0x75 :: 0x30 :: 0x30 :: UInt8.ofNat (hexDigit (b.toNat / 16)) ::
      UInt8.ofNat (hexDigit (b.toNat % 16)) :: rest) = some (some [b], rest) := by
  have key : ∀ m : Fin 0x20, hexVal? (UInt8.ofNat (hexDigit (m / 16))).toNat = some (m.val / 16) ∧
      hexVal? (UInt8.ofNat (hexDigit (m % 16))).toNat = some (m.val % 16) ∧
      String.utf8EncodeChar (Char.ofNat m) = [UInt8.ofNat m] := by decide
  obtain ⟨hhi, hlo, henc⟩ := key ⟨b.toNat, h⟩
  have hzero : hexVal? (0x30 : UInt8).toNat = some 0 := by decide
  have hn : ((0 * 16 + 0) * 16 + b.toNat / 16) * 16 + b.toNat % 16 = b.toNat := by omega
  have hlt : b.toNat < 0xd800 := by omega
  rw [UInt8.ofNat_toNat] at henc
  have hhex : hex4 (0x30 :: 0x30 :: UInt8.ofNat (hexDigit (b.toNat / 16)) ::
      UInt8.ofNat (hexDigit (b.toNat % 16)) :: rest) = some (b.toNat, rest) := by
    simp only [hex4, hzero, hhi, hlo, Option.bind_eq_bind, Option.bind_some, Option.pure_def, hn]
  rw [escape, if_neg (by decide), if_neg (by decide), if_neg (by decide), if_neg (by decide),
    if_neg (by decide), if_neg (by decide), if_neg (by decide), if_neg (by decide), if_pos rfl,
    unicodeEscape, hhex]
  simp [hlt, henc]

/-- Reading one escaped byte consumes its escape and yields the byte. -/
theorem literal_escapeByte (f : ℕ) (b : UInt8) (rest : Bytes) :
    literal (f + 1) (escapeByte b ++ rest) =
      (literal f rest).map fun p => (p.1.map (b :: ·), p.2) := by
  have hstep : ∀ t, escape t = some (some [b], rest) →
      literal (f + 1) (0x5c :: t) = (literal f rest).map fun p => (p.1.map (b :: ·), p.2) := by
    intro t ht
    rw [literal, if_neg (by decide), if_pos rfl, ht, Option.bind_eq_bind, Option.bind_some]
    dsimp only
    rcases literal f rest with _ | ⟨_ | cs, rest'⟩ <;> rfl
  unfold escapeByte
  split_ifs with h₁ h₂ h₃ h₄ h₅ h₆ h₇ h₈
  · exact hstep _ (by rw [h₁]; rfl)
  · exact hstep _ (by rw [h₂]; rfl)
  · exact hstep _ (by rw [h₃]; rfl)
  · exact hstep _ (by rw [h₄]; rfl)
  · exact hstep _ (by rw [h₅]; rfl)
  · exact hstep _ (by rw [h₆]; rfl)
  · exact hstep _ (by rw [h₇]; rfl)
  · exact hstep _ (escape_hexPair h₈ rest)
  · rw [List.singleton_append, literal, if_neg h₁, if_neg h₂, if_neg h₈]
    rcases literal f rest with _ | ⟨_ | cs, rest'⟩ <;> rfl

/-- A literal's contents read back, whatever the bytes. -/
theorem literal_flatMap (bs rest : Bytes) :
    ∀ f, bs.length < f → literal f (bs.flatMap escapeByte ++ 0x22 :: rest) = some (some bs, rest) := by
  induction bs with
  | nil =>
    intro f hf
    obtain ⟨f, rfl⟩ : ∃ g, f = g + 1 := ⟨f - 1, by simp at hf; omega⟩
    simp [literal]
  | cons b bs ih =>
    intro f hf
    obtain ⟨f, rfl⟩ : ∃ g, f = g + 1 := ⟨f - 1, by simp at hf; omega⟩
    rw [List.flatMap_cons, List.append_assoc, literal_escapeByte,
      ih f (by simpa using hf)]
    rfl

theorem length_le_flatMap_escapeByte (bs : Bytes) : bs.length ≤ (bs.flatMap escapeByte).length := by
  induction bs with
  | nil => simp
  | cons b bs ih =>
    have : 1 ≤ (escapeByte b).length := by
      unfold escapeByte
      split_ifs <;> simp
    rw [List.flatMap_cons, List.length_append, List.length_cons]
    omega

/-- **A string literal reads back as the string.** -/
theorem string_unquoted (s : String) (rest : Bytes) :
    string (unquoted s ++ rest) = some (some s, rest) := by
  have hlen := length_le_flatMap_escapeByte (utf8 s)
  rw [string, unquoted, List.append_assoc, List.singleton_append,
    literal_flatMap _ _ _ (by simp only [List.length_append, List.length_cons]; omega)]
  simp

/-! ## Integers -/

/-- What may stand after a value: nothing, white space, a comma or a
closing bracket. -/
def Ends (rest : Bytes) : Prop :=
  ∀ b ∈ rest.head?, isWs b = true ∨ b = 0x2c ∨ b = 0x5d ∨ b = 0x7d

theorem ends_nil : Ends [] := by simp [Ends]

/-- None of these continues a number. -/
theorem Ends.not_number {rest : Bytes} (h : Ends rest) {b : UInt8} (hb : b ∈ rest.head?) :
    isDigit b = false ∧ b ≠ 0x2e ∧ b ≠ 0x65 ∧ b ≠ 0x45 := by
  obtain hw | rfl | rfl | rfl := h b hb
  · simp only [isWs, Bool.or_eq_true, beq_iff_eq] at hw
    rcases hw with ((rfl | rfl) | rfl) | rfl <;> decide
  all_goals decide

theorem Ends.takeWhile_isDigit {ds rest : Bytes} (h : Ends rest) (hd : ∀ b ∈ ds, isDigit b = true) :
    (ds ++ rest).takeWhile isDigit = ds ∧ (ds ++ rest).dropWhile isDigit = rest := by
  cases rest with
  | nil =>
    constructor
    · have htake : (ds ++ []).takeWhile isDigit = ds ++ [].takeWhile isDigit :=
        List.takeWhile_append_of_pos hd
      rw [htake, List.takeWhile_nil, List.append_nil]
    · have hdrop : (ds ++ []).dropWhile isDigit = [].dropWhile isDigit :=
        List.dropWhile_append_of_pos hd
      rw [hdrop, List.dropWhile_nil]
  | cons b rest =>
    have hb : isDigit b = false := (h.not_number rfl).1
    rw [List.takeWhile_append_of_pos hd, List.dropWhile_append_of_pos hd]
    simp [hb]

theorem Ends.fraction_exponent {rest : Bytes} (h : Ends rest) :
    (fraction rest >>= exponent) = some rest := by
  cases rest with
  | nil => rfl
  | cons b rest =>
    obtain ⟨-, hdot, he, hE⟩ := h.not_number (b := b) rfl
    have hfrac : fraction (b :: rest) = some (b :: rest) := by
      unfold fraction
      split
      · next hb => exact absurd (List.cons.inj hb).1 hdot
      · rfl
    rw [hfrac, Option.bind_eq_bind, Option.bind_some, exponent, if_neg (by simp [he, hE])]

theorem decimal_no_leading_zero (n : ℕ) :
    ¬ (decimal n = [] ∨ ((decimal n).head? = some 0x30 ∧ decimal n ≠ [0x30])) := by
  rintro (h | ⟨h, h'⟩)
  · exact decimal_ne_nil n h
  · obtain ⟨-, h₀⟩ | ⟨b, bs, hb, hne, -⟩ := decimal_head n
    · exact h' h₀
    · rw [hb] at h
      exact hne (by simpa using h)

/-- The digits of a numeral, read with a sign before them or without. -/
theorem unsigned_decimal (neg : Bool) (whole : Bytes) {n : ℕ} (hn : neg = true → n ≠ 0)
    {rest : Bytes} (h : Ends rest) :
    unsigned neg whole (decimal n ++ rest) =
      some (.int (if neg then -(n : ℤ) else n), rest) := by
  obtain ⟨htake, hdrop⟩ := h.takeWhile_isDigit fun b => isDigit_of_mem_decimal (n := n)
  have hsign : ¬ (neg = true ∧ n = 0) := fun hz => hn hz.1 hz.2
  simp only [unsigned, htake, hdrop, if_neg (decimal_no_leading_zero n), h.fraction_exponent,
    readDecimal_decimal, Option.map_some]
  rw [if_pos ⟨trivial, hsign⟩]

/-- **An integer literal reads back as the integer.** -/
theorem number_integer (z : ℤ) {rest : Bytes} (h : Ends rest) :
    number (integer z ++ rest) = some (.int z, rest) := by
  cases z with
  | ofNat n =>
    obtain ⟨b, bs, hb⟩ := List.exists_cons_of_ne_nil (decimal_ne_nil n)
    have hdigit : isDigit b = true :=
      isDigit_of_mem_decimal (n := n) (by rw [hb]; exact List.mem_cons_self)
    have hnum : number (decimal n ++ rest) =
        unsigned false (decimal n ++ rest) (decimal n ++ rest) := by
      rw [hb, List.cons_append]
      unfold number
      split
      · next heq =>
        rw [(List.cons.inj heq).1] at hdigit
        exact absurd hdigit (by decide)
      · rfl
    rw [integer, hnum, unsigned_decimal false _ (by simp) h]
    simp
  | negSucc n =>
    rw [integer, List.cons_append, number, unsigned_decimal true _ (by simp) h]
    simp [Int.negSucc_eq]

/-! ## Values -/

section

variable {L : Layout}

theorem ends_writeItems (n : ℕ) (xs : List Value) (rest : Bytes) :
    Ends (writeItems L n xs ++ rest) := by
  intro b hb
  cases xs with
  | nil =>
    have hws := L.brk_ws n
    rw [writeItems] at hb
    cases hbrk : L.brk n with
    | nil => simp_all
    | cons c cs =>
      simp only [hbrk, List.cons_append, List.head?_cons, Option.mem_def, Option.some.injEq] at hb
      exact Or.inl (hws b (by rw [hbrk, ← hb]; exact List.mem_cons_self))
  | cons x xs => simp_all [writeItems]

theorem ends_writeFields (n : ℕ) (fs : List (String × Value)) (rest : Bytes) :
    Ends (writeFields L n fs ++ rest) := by
  intro b hb
  cases fs with
  | nil =>
    have hws := L.brk_ws n
    rw [writeFields] at hb
    cases hbrk : L.brk n with
    | nil => simp_all
    | cons c cs =>
      simp only [hbrk, List.cons_append, List.head?_cons, Option.mem_def, Option.some.injEq] at hb
      exact Or.inl (hws b (by rw [hbrk, ← hb]; exact List.mem_cons_self))
  | cons f fs => simp_all [writeFields]

/-- A written integer starts with a digit or a minus sign. -/
theorem integer_head (z : ℤ) : ∃ b bs, integer z = b :: bs ∧ (isDigit b = true ∨ b = 0x2d) := by
  cases z with
  | ofNat n =>
    obtain ⟨b, bs, hb⟩ := List.exists_cons_of_ne_nil (decimal_ne_nil n)
    exact ⟨b, bs, hb, Or.inl (isDigit_of_mem_decimal (n := n) (by rw [hb]; exact List.mem_cons_self))⟩
  | negSucc n => exact ⟨_, _, rfl, Or.inr rfl⟩

/-- Such a byte is none of the marks a value is told apart by. -/
theorem not_mark_of_digit {b : UInt8} (h : isDigit b = true ∨ b = 0x2d) :
    isWs b = false ∧ b ≠ 0x22 ∧ b ≠ 0x5b ∧ b ≠ 0x7b ∧ b ≠ 0x6e ∧ b ≠ 0x74 ∧ b ≠ 0x66 ∧
      b ≠ 0x5d ∧ b ≠ 0x7d := by
  obtain h | rfl := h
  · have hne : ∀ c : UInt8, isDigit c = false → b ≠ c := by
      rintro c hc rfl
      rw [h] at hc
      cases hc
    refine ⟨?_, hne _ rfl, hne _ rfl, hne _ rfl, hne _ rfl, hne _ rfl, hne _ rfl, hne _ rfl,
      hne _ rfl⟩
    simp [isWs, hne 0x20 rfl, hne 0x09 rfl, hne 0x0a rfl, hne 0x0d rfl]
  · decide

/-- A written value starts with a byte that is neither white space nor a
closing bracket. -/
theorem write_head {v : Value} (hv : Plain v) (n : ℕ) :
    ∃ b bs, write L n v = b :: bs ∧ isWs b = false ∧ b ≠ 0x5d ∧ b ≠ 0x7d := by
  cases hv with
  | null => exact ⟨_, _, rfl, by decide⟩
  | bool b => cases b <;> exact ⟨_, _, rfl, by decide⟩
  | int z =>
    obtain ⟨b, bs, hb, hd⟩ := integer_head z
    obtain ⟨hw, -, -, -, -, -, -, h₁, h₂⟩ := not_mark_of_digit hd
    exact ⟨b, bs, by rw [write, hb], hw, h₁, h₂⟩
  | str s => exact ⟨_, _, rfl, by decide⟩
  | @arr xs h => cases xs <;> exact ⟨_, _, rfl, by decide⟩
  | @obj fs h =>
    rcases fs with _ | ⟨⟨k, x⟩, fs⟩ <;> exact ⟨_, _, rfl, by decide⟩

/-- What the reader owes a value: it reads back, after white space and
before anything that may follow, on enough fuel. -/
def Reads (L : Layout) (v : Value) : Prop :=
  ∀ (n : ℕ) (ws rest : Bytes) (f : ℕ), (∀ b ∈ ws, isWs b = true) → Ends rest →
    (write L n v).length < f → value f (ws ++ (write L n v ++ rest)) = some (v, rest)

theorem skipWs_write {v : Value} (hv : Plain v) (n : ℕ) {ws : Bytes}
    (hws : ∀ b ∈ ws, isWs b = true) (rest : Bytes) :
    skipWs (ws ++ (write L n v ++ rest)) = write L n v ++ rest := by
  obtain ⟨b, bs, hb, hnot, -⟩ := write_head (L := L) hv n
  rw [skipWs_append hws, hb, List.cons_append, skipWs_cons_of_not hnot]

/-- Items read back one after the other: the induction is on the items
after the first. -/
theorem items_write {n : ℕ} {rest : Bytes} : ∀ (xs : List Value) (x : Value) (f : ℕ),
    (∀ y ∈ x :: xs, Reads L y) →
    (write L (n + 1) x ++ writeItems L n xs).length < f →
    items f (L.brk (n + 1) ++ (write L (n + 1) x ++ (writeItems L n xs ++ rest))) =
      some (x :: xs, rest) := by
  intro xs
  induction xs with
  | nil =>
    intro x f hread hf
    obtain ⟨f, rfl⟩ : ∃ g, f = g + 1 := ⟨f - 1, by omega⟩
    have hx := hread x List.mem_cons_self (n + 1) _ _ f (L.brk_ws (n + 1))
      (ends_writeItems (L := L) n [] rest) (by simp [writeItems] at hf; omega)
    have hend : skipWs (writeItems L n [] ++ rest) = 0x5d :: rest := by
      rw [writeItems, List.append_assoc, skipWs_append (L.brk_ws n)]
      rfl
    simp [items, hx, hend]
  | cons y ys ih =>
    intro x f hread hf
    obtain ⟨f, rfl⟩ : ∃ g, f = g + 1 := ⟨f - 1, by omega⟩
    simp only [writeItems, List.length_append, List.length_cons] at hf
    have hx := hread x List.mem_cons_self (n + 1) _ _ f (L.brk_ws (n + 1))
      (ends_writeItems (L := L) n (y :: ys) rest) (by omega)
    have hys := ih y f (fun z hz => hread z (List.mem_cons_of_mem _ hz))
      (by simp only [List.length_append]; omega)
    have hcomma : skipWs (writeItems L n (y :: ys) ++ rest) =
        0x2c :: (L.brk (n + 1) ++ (write L (n + 1) y ++ (writeItems L n ys ++ rest))) := by
      rw [writeItems, List.cons_append, skipWs_cons_of_not (by decide)]
      simp only [List.append_assoc]
    simp [items, hx, hcomma, hys]

/-- And so do fields, key by key. -/
theorem fields_write {n : ℕ} {rest : Bytes} : ∀ (fs : List (String × Value)) (k : String)
    (x : Value) (f : ℕ), (∀ g ∈ (k, x) :: fs, Reads L g.2) →
    (write L (n + 1) x ++ writeFields L n fs).length < f →
    fields f (L.brk (n + 1) ++ (0x22 :: (unquoted k ++
        (0x3a :: (L.gap ++ (write L (n + 1) x ++ (writeFields L n fs ++ rest))))))) =
      some (((k, x) :: fs).map fun g => (some g.1, g.2), rest) := by
  have hkey : ∀ (k : String) (t : Bytes), string (unquoted k ++ (0x3a :: t)) =
      some (some k, 0x3a :: t) := fun k t => string_unquoted k _
  intro fs
  induction fs with
  | nil =>
    intro k x f hread hf
    obtain ⟨f, rfl⟩ : ∃ g, f = g + 1 := ⟨f - 1, by omega⟩
    have hx := hread (k, x) List.mem_cons_self (n + 1) _ _ f L.gap_ws
      (ends_writeFields (L := L) n [] rest)
      (show (write L (n + 1) x).length < f by simp [writeFields] at hf; omega)
    have hend : skipWs (writeFields L n [] ++ rest) = 0x7d :: rest := by
      rw [writeFields, List.append_assoc, skipWs_append (L.brk_ws n)]
      rfl
    have hopen : ∀ t, skipWs (L.brk (n + 1) ++ (0x22 :: t)) = 0x22 :: t := fun t => by
      rw [skipWs_append (L.brk_ws (n + 1)), skipWs_cons_of_not (by decide)]
    have hcolon : ∀ t, skipWs (0x3a :: t) = 0x3a :: t := fun t =>
      skipWs_cons_of_not (by decide)
    simp [fields, hopen, hkey, hcolon, hx, hend]
  | cons g gs ih =>
    obtain ⟨k', y⟩ := g
    intro k x f hread hf
    obtain ⟨f, rfl⟩ : ∃ g, f = g + 1 := ⟨f - 1, by omega⟩
    simp only [writeFields, List.length_append, List.length_cons] at hf
    have hx := hread (k, x) List.mem_cons_self (n + 1) _ _ f L.gap_ws
      (ends_writeFields (L := L) n ((k', y) :: gs) rest) (show (write L (n + 1) x).length < f by omega)
    have hgs := ih k' y f (fun z hz => hread z (List.mem_cons_of_mem _ hz))
      (by simp only [List.length_append]; omega)
    have hcomma : skipWs (writeFields L n ((k', y) :: gs) ++ rest) =
        0x2c :: (L.brk (n + 1) ++ (0x22 :: (unquoted k' ++
          (0x3a :: (L.gap ++ (write L (n + 1) y ++ (writeFields L n gs ++ rest))))))) := by
      rw [writeFields, List.cons_append, skipWs_cons_of_not (by decide)]
      simp only [List.append_assoc, List.cons_append]
    have hopen : ∀ t, skipWs (L.brk (n + 1) ++ (0x22 :: t)) = 0x22 :: t := fun t => by
      rw [skipWs_append (L.brk_ws (n + 1)), skipWs_cons_of_not (by decide)]
    have hcolon : ∀ t, skipWs (0x3a :: t) = 0x3a :: t := fun t =>
      skipWs_cons_of_not (by decide)
    simp [fields, hopen, hkey, hcolon, hx, hcomma, hgs]

/-- Keys that were written are strings again. -/
theorem mapM_some_keys (fs : List (String × Value)) :
    (fs.map fun g => (some g.1, g.2)).mapM
      (fun (p : Option String × Value) => p.1.map (·, p.2)) = some fs := by
  induction fs with
  | nil => rfl
  | cons f fs ih => simp [ih]

/-- **Every plain value reads back**, by induction over the value. -/
theorem reads_of_plain (v : Value) : Plain v → Reads L v := by
  induction v using Value.induction with
  | null =>
    intro hv n ws rest f hws hrest hf
    obtain ⟨f, rfl⟩ : ∃ g, f = g + 1 := ⟨f - 1, by omega⟩
    rw [value, skipWs_write hv n hws]
    rfl
  | bool b =>
    intro hv n ws rest f hws hrest hf
    obtain ⟨f, rfl⟩ : ∃ g, f = g + 1 := ⟨f - 1, by omega⟩
    rw [value, skipWs_write hv n hws]
    cases b <;> rfl
  | int z =>
    intro hv n ws rest f hws hrest hf
    obtain ⟨f, rfl⟩ : ∃ g, f = g + 1 := ⟨f - 1, by omega⟩
    obtain ⟨b, bs, hb, hd⟩ := integer_head z
    obtain ⟨-, h₁, h₂, h₃, h₄, h₅, h₆, -⟩ := not_mark_of_digit hd
    have hnum := number_integer z hrest
    rw [value, skipWs_write hv n hws]
    rw [hb, List.cons_append] at hnum
    simp [write, hb, h₁, h₂, h₃, h₄, h₅, h₆, hnum]
  | str s =>
    intro hv n ws rest f hws hrest hf
    obtain ⟨f, rfl⟩ : ∃ g, f = g + 1 := ⟨f - 1, by omega⟩
    rw [value, skipWs_write hv n hws, write, List.cons_append]
    simp [string_unquoted]
  | arr xs ih =>
    intro hv n ws rest f hws hrest hf
    obtain ⟨f, rfl⟩ : ∃ g, f = g + 1 := ⟨f - 1, by omega⟩
    rw [value, skipWs_write hv n hws]
    cases hv with
    | arr hplain =>
      cases xs with
      | nil => rfl
      | cons x xs =>
        have hx := hplain x List.mem_cons_self
        simp only [write, List.length_cons, List.length_append] at hf
        have hitems := @items_write L n rest xs x f
          (fun y hy => ih y hy (hplain y hy)) (by simp only [List.length_append]; omega)
        obtain ⟨b, bs, hb, hnot, hb₁, -⟩ := @write_head L _ hx (n + 1)
        -- the first item opens the array: no closing bracket comes first
        have hhead : ∀ t, (skipWs (L.brk (n + 1) ++ (write L (n + 1) x ++ t))).head? ≠ some 0x5d := by
          intro t
          rw [skipWs_write hx (n + 1) (L.brk_ws (n + 1)), hb]
          simpa using hb₁
        simp only [write, List.cons_append, List.append_assoc, if_neg (hhead _), hitems]
        simp
  | obj fs ih =>
    intro hv n ws rest f hws hrest hf
    obtain ⟨f, rfl⟩ : ∃ g, f = g + 1 := ⟨f - 1, by omega⟩
    rw [value, skipWs_write hv n hws]
    cases hv with
    | obj hplain =>
      rcases fs with _ | ⟨⟨k, x⟩, fs⟩
      · rfl
      · simp only [write, List.length_cons, List.length_append] at hf
        have hfields := @fields_write L n rest fs k x f
          (fun y hy => ih y hy (hplain y hy)) (by simp only [List.length_append]; omega)
        have hhead : ∀ t, (skipWs (L.brk (n + 1) ++ (0x22 :: t))).head? ≠ some 0x7d := by
          intro t
          rw [skipWs_append (L.brk_ws (n + 1)), skipWs_cons_of_not (by decide)]
          simp
        have hkeys := mapM_some_keys ((k, x) :: fs)
        simp only [write, List.cons_append, List.append_assoc, if_neg (hhead _), hfields,
          Option.bind_eq_bind, Option.bind_some, hkeys]
        simp
  | raw bs =>
    intro hv
    cases hv

/-- **A written text parses to the value it was written from.** -/
theorem parse_write {v : Value} (hv : Plain v) (n : ℕ) : parse (write L n v) = some v := by
  have h := @reads_of_plain L v hv n [] [] ((write L n v).length + 1) (by simp) ends_nil
    (Nat.lt_succ_self _)
  rw [List.nil_append, List.append_nil] at h
  rw [parse, h]
  rfl

/-- In particular the pretty text does. -/
theorem parse_pretty {v : Value} (hv : Plain v) : parse (pretty v) = some v :=
  parse_write hv 0

end

end Json
