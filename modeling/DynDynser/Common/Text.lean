import Mathlib.Data.Nat.Digits.Lemmas
/-!
# Bytes and their text forms

Byte strings, and the four text forms the formats above them are made
of: UTF-8, decimal numerals, hexadecimal digits and white space. Each
form has its reader beside its writer, with the law that the reader
undoes the writer.
-/

namespace Text

/-- A byte string. -/
abbrev Bytes : Type := List UInt8

/-- What is read back is told apart by its text. -/
theorem injective_of_read {α β : Type} {read : β → Option α} {write : α → β}
    (h : ∀ a, read (write a) = some a) : Function.Injective write := by
  intro a b heq
  have hread := congrArg read heq
  rw [h a, h b] at hread
  exact Option.some.inj hread

/-! ## UTF-8 -/

/-- The UTF-8 bytes of a string. -/
def utf8 (s : String) : Bytes := s.toUTF8.data.toList

/-- The string some bytes are the UTF-8 of, if there is one. -/
def ofUtf8? (bs : Bytes) : Option String := String.fromUTF8? ⟨bs.toArray⟩

@[simp] theorem ofUtf8?_utf8 (s : String) : ofUtf8? (utf8 s) = some s := by
  simp only [ofUtf8?, utf8, Array.toArray_toList]
  rw [String.fromUTF8?]
  simp [s.isValidUTF8, String.fromUTF8]

theorem utf8_injective : Function.Injective utf8 := injective_of_read ofUtf8?_utf8

/-- The bytes a string is read from are its own. -/
theorem ofUtf8?_eq_some {bs : Bytes} {s : String} : ofUtf8? bs = some s ↔ bs = utf8 s := by
  constructor
  · intro h
    unfold ofUtf8? String.fromUTF8? at h
    split at h
    · rw [← Option.some.inj h]
      rfl
    · cases h
  · rintro rfl
    exact ofUtf8?_utf8 s

/-! ## Decimal numerals -/

/-- Is the byte an ASCII digit? -/
def isDigit (b : UInt8) : Bool := 0x30 ≤ b.toNat && b.toNat ≤ 0x39

/-- The ASCII digit of a number below ten. -/
def digitByte (d : ℕ) : UInt8 := UInt8.ofNat (0x30 + d)

/-- The decimal numeral of a number, without leading zeros. -/
def decimal (n : ℕ) : Bytes :=
  if n = 0 then [0x30] else (Nat.digits 10 n).reverse.map digitByte

/-- The number a row of digits names. -/
def readDecimal (ds : Bytes) : ℕ := ds.foldl (fun n b => 10 * n + (b.toNat - 0x30)) 0

theorem toNat_digitByte {d : ℕ} (h : d < 10) : (digitByte d).toNat = 0x30 + d := by
  simp only [digitByte, UInt8.toNat_ofNat']
  omega

theorem isDigit_digitByte {d : ℕ} (h : d < 10) : isDigit (digitByte d) = true := by
  simp only [isDigit, toNat_digitByte h, Bool.and_eq_true, decide_eq_true_eq]
  omega

theorem decimal_ne_nil (n : ℕ) : decimal n ≠ [] := by
  unfold decimal
  split
  · simp
  · next h => simpa [Nat.digits_ne_nil_iff_ne_zero] using h

theorem isDigit_of_mem_decimal {n : ℕ} {b : UInt8} (hb : b ∈ decimal n) : isDigit b = true := by
  unfold decimal at hb
  split at hb
  · obtain rfl := List.mem_singleton.1 hb
    decide
  · obtain ⟨d, hd, rfl⟩ := List.mem_map.1 hb
    exact isDigit_digitByte (Nat.digits_lt_base (by decide) (List.mem_reverse.1 hd))

/-- A numeral starts with a zero only if it is the numeral of zero. -/
theorem decimal_head (n : ℕ) :
    (n = 0 ∧ decimal n = [0x30]) ∨ ∃ b bs, decimal n = b :: bs ∧ b ≠ 0x30 ∧ n ≠ 0 := by
  rcases Nat.eq_zero_or_pos n with rfl | hpos
  · exact Or.inl ⟨rfl, rfl⟩
  · have hn : n ≠ 0 := by omega
    have hne : Nat.digits 10 n ≠ [] := Nat.digits_ne_nil_iff_ne_zero.2 hn
    refine Or.inr ⟨digitByte ((Nat.digits 10 n).getLast hne),
      ((Nat.digits 10 n).dropLast.reverse.map digitByte), ?_, ?_, hn⟩
    · rw [decimal, if_neg hn]
      conv_lhs => rw [← List.dropLast_append_getLast hne]
      simp
    · have hlt := Nat.digits_lt_base (by decide : 1 < 10) (List.getLast_mem hne)
      have hnz := Nat.getLast_digit_ne_zero 10 hn
      intro hz
      have := congrArg UInt8.toNat hz
      rw [toNat_digitByte hlt] at this
      simp only [UInt8.toNat_ofNat] at this
      omega

/-- **Reading a numeral gives the number back.** -/
@[simp] theorem readDecimal_decimal (n : ℕ) : readDecimal (decimal n) = n := by
  unfold decimal readDecimal
  split
  · next h => simpa using h.symm
  · rw [List.foldl_map, List.foldl_reverse]
    conv_rhs => rw [← Nat.ofDigits_digits 10 n]
    have hlt : ∀ d ∈ Nat.digits 10 n, d < 10 := fun d => Nat.digits_lt_base (by decide)
    -- both sides fold over the digits, the lowest one outermost
    revert hlt
    induction Nat.digits 10 n with
    | nil => intro _; rfl
    | cons d ds ih =>
      intro hlt
      have hd : d < 10 := hlt d List.mem_cons_self
      rw [List.foldr_cons, Nat.ofDigits_cons, ih fun x hx => hlt x (List.mem_cons_of_mem _ hx),
        toNat_digitByte hd]
      omega

/-! ## Hexadecimal digits -/

/-- The code of the lower-case hexadecimal digit of a number below
sixteen. -/
def hexDigit (n : ℕ) : ℕ := if n < 10 then 48 + n else 87 + n

/-- The value of a hexadecimal digit, in either case. -/
def hexVal? (c : ℕ) : Option ℕ :=
  if 48 ≤ c ∧ c ≤ 57 then some (c - 48)
  else if 97 ≤ c ∧ c ≤ 102 then some (c - 87)
  else if 65 ≤ c ∧ c ≤ 70 then some (c - 55)
  else none

theorem hexVal?_hexDigit {n : ℕ} (h : n < 16) : hexVal? (hexDigit n) = some n := by
  unfold hexVal? hexDigit
  split_ifs <;> first | omega | (congr 1; omega)

/-- The two digits of a byte, the high half first. -/
def hexPair (b : UInt8) : List Char :=
  [Char.ofNat (hexDigit (b.toNat / 16)), Char.ofNat (hexDigit (b.toNat % 16))]

/-- Bytes as lower-case hexadecimal text. -/
def hexEncode (bs : Bytes) : String := String.ofList (bs.flatMap hexPair)

/-- The bytes a row of hexadecimal digits names, two digits a byte. -/
def hexDecodeChars : List Char → Option Bytes
  | [] => some []
  | [_] => none
  | c :: d :: cs => do
    let hi ← hexVal? c.toNat
    let lo ← hexVal? d.toNat
    let bs ← hexDecodeChars cs
    return UInt8.ofNat (16 * hi + lo) :: bs

/-- The bytes some hexadecimal text names. -/
def hexDecode? (s : String) : Option Bytes := hexDecodeChars s.toList

theorem toNat_ofNat_hexDigit {n : ℕ} (h : n < 16) :
    (Char.ofNat (hexDigit n)).toNat = hexDigit n := by
  have key : ∀ m : Fin 16, (Char.ofNat (hexDigit m)).toNat = hexDigit m := by decide
  exact key ⟨n, h⟩

/-- **Hexadecimal text reads back as the bytes it was made from.** -/
@[simp] theorem hexDecode?_hexEncode (bs : Bytes) : hexDecode? (hexEncode bs) = some bs := by
  simp only [hexDecode?, hexEncode, String.toList_ofList]
  induction bs with
  | nil => rfl
  | cons b bs ih =>
    have hlt : b.toNat < 256 := b.toNat_lt
    have hhi : b.toNat / 16 < 16 := by omega
    have hlo : b.toNat % 16 < 16 := by omega
    have hb : UInt8.ofNat (16 * (b.toNat / 16) + b.toNat % 16) = b := by
      rw [Nat.div_add_mod, UInt8.ofNat_toNat]
    rw [List.flatMap_cons, hexPair]
    simp only [List.cons_append, List.nil_append, hexDecodeChars, toNat_ofNat_hexDigit hhi,
      toNat_ofNat_hexDigit hlo, hexVal?_hexDigit hhi, hexVal?_hexDigit hlo, ih,
      Option.bind_eq_bind, Option.bind_some, Option.pure_def, hb]

/-! ## White space -/

/-- The four white-space bytes of the data formats: space, tab, line feed
and carriage return. -/
def isWs (b : UInt8) : Bool := b == 0x20 || b == 0x09 || b == 0x0a || b == 0x0d

/-- What follows the leading white space. -/
def skipWs (bs : Bytes) : Bytes := bs.dropWhile isWs

theorem skipWs_append {ws rest : Bytes} (h : ∀ b ∈ ws, isWs b = true) :
    skipWs (ws ++ rest) = skipWs rest := by
  rw [skipWs, skipWs, List.dropWhile_append_of_pos h]

@[simp] theorem skipWs_cons_of_not {b : UInt8} {rest : Bytes} (h : isWs b = false) :
    skipWs (b :: rest) = b :: rest := by
  simp [skipWs, h]

/-! ## Rows -/

/-- A row of texts reads back when each of them does. -/
theorem mapM_map_eq_some {α β : Type} {read : β → Option α} {write : α → β}
    (h : ∀ a, read (write a) = some a) (xs : List α) : (xs.map write).mapM read = some xs := by
  induction xs with
  | nil => rfl
  | cons x xs ih =>
    rw [List.map_cons, List.mapM_cons, h x, ih]
    rfl

end Text
