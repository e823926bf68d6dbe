import DynDynser.Common.Text
/-!
# JSON values and how they are written

The values of RFC 8259, with integers in place of general numbers, and
one writer for every layout. A layout is the white space put before an
item at each nesting depth and after a colon; its fields carry that it is
white space and nothing else. `pretty` is the layout with one item to a
line and two spaces a level.

`Value.raw` keeps a piece of text whole. A reader leaves it where the text is
grammatical and names none of the other values: a number with a fraction
or an exponent, a string that is not Unicode.
-/

namespace Json

open Text

/-- A JSON value. -/
inductive Value where
  | null
  | bool (b : Bool)
  | int (z : ℤ)
  | str (s : String)
  | arr (xs : List Value)
  | obj (fs : List (String × Value))
  | raw (lexeme : Bytes)

namespace Value

/-- Induction over a value, arrays and objects through their members. -/
@[elab_as_elim] theorem induction {P : Value → Prop} (null : P null) (bool : ∀ b, P (bool b))
    (int : ∀ z, P (int z)) (str : ∀ s, P (str s)) (arr : ∀ xs, (∀ x ∈ xs, P x) → P (arr xs))
    (obj : ∀ fs, (∀ f ∈ fs, P f.2) → P (obj fs)) (raw : ∀ bs, P (raw bs)) : ∀ v, P v
  | .null => null
  | .bool b => bool b
  | .int z => int z
  | .str s => str s
  | .arr xs => arr xs fun x _ => induction null bool int str arr obj raw x
  | .obj fs => obj fs fun f _ => induction null bool int str arr obj raw f.2
  | .raw bs => raw bs
termination_by v => sizeOf v
decreasing_by
  · have := List.sizeOf_lt_of_mem ‹x ∈ xs›
    simp only [Value.arr.sizeOf_spec]
    omega
  · have := List.sizeOf_lt_of_mem ‹f ∈ fs›
    obtain ⟨k, x⟩ := f
    simp only [Value.obj.sizeOf_spec, Prod.mk.sizeOf_spec] at this ⊢
    omega

end Value

/-! ## Writing -/

/-- A byte inside a string literal: the quotation mark, the backslash and
the control characters are escaped, every other byte stands for itself. -/
def escapeByte (b : UInt8) : Bytes :=
  if b = 0x22 then [0x5c, 0x22]
  else if b = 0x5c then [0x5c, 0x5c]
  else if b = 0x08 then [0x5c, 0x62]
  else if b = 0x09 then [0x5c, 0x74]
  else if b = 0x0a then [0x5c, 0x6e]
  else if b = 0x0c then [0x5c, 0x66]
  else if b = 0x0d then [0x5c, 0x72]
  else if b.toNat < 0x20 then
    [0x5c, 0x75, 0x30, 0x30, UInt8.ofNat (hexDigit (b.toNat / 16)),
      UInt8.ofNat (hexDigit (b.toNat % 16))]
  else [b]

/-- A string literal, after its opening quotation mark. -/
def unquoted (s : String) : Bytes := (utf8 s).flatMap escapeByte ++ [0x22]

/-- An integer literal. -/
def integer : ℤ → Bytes
  | .ofNat n => decimal n
  | .negSucc n => 0x2d :: decimal (n + 1)

/-- Where a writer puts white space. -/
structure Layout where
  /-- Before an item, and before a closing bracket, at a nesting depth. -/
  brk : ℕ → Bytes
  /-- After a colon. -/
  gap : Bytes
  brk_ws : ∀ n, ∀ b ∈ brk n, isWs b = true
  gap_ws : ∀ b ∈ gap, isWs b = true

mutual

/-- A value at nesting depth `n`. -/
def write (L : Layout) (n : ℕ) : Value → Bytes
  | .null => [0x6e, 0x75, 0x6c, 0x6c]
  | .bool true => [0x74, 0x72, 0x75, 0x65]
  | .bool false => [0x66, 0x61, 0x6c, 0x73, 0x65]
  | .int z => integer z
  | .str s => 0x22 :: unquoted s
  | .arr [] => [0x5b, 0x5d]
  | .arr (x :: xs) => 0x5b :: (L.brk (n + 1) ++ write L (n + 1) x ++ writeItems L n xs)
  | .obj [] => [0x7b, 0x7d]
  | .obj ((k, x) :: fs) =>
    0x7b :: (L.brk (n + 1) ++ 0x22 :: unquoted k ++ 0x3a :: L.gap ++ write L (n + 1) x ++
      writeFields L n fs)
  | .raw lexeme => lexeme

/-- The items of an array after its first, and the closing bracket. -/
def writeItems (L : Layout) (n : ℕ) : List Value → Bytes
  | [] => L.brk n ++ [0x5d]
  | x :: xs => 0x2c :: (L.brk (n + 1) ++ write L (n + 1) x ++ writeItems L n xs)

/-- The fields of an object after its first, and the closing brace. -/
def writeFields (L : Layout) (n : ℕ) : List (String × Value) → Bytes
  | [] => L.brk n ++ [0x7d]
  | (k, x) :: fs =>
    0x2c :: (L.brk (n + 1) ++ 0x22 :: unquoted k ++ 0x3a :: L.gap ++ write L (n + 1) x ++
      writeFields L n fs)

end

/-- One item to a line, two spaces a level. -/
def Layout.pretty : Layout where
  brk n := 0x0a :: List.replicate (2 * n) 0x20
  gap := [0x20]
  brk_ws n b hb := by
    obtain rfl | hb := List.mem_cons.1 hb
    · rfl
    · rw [List.eq_of_mem_replicate hb]
      rfl
  gap_ws b hb := by
    rw [List.mem_singleton.1 hb]
    rfl

/-- No white space at all. -/
def Layout.compact : Layout where
  brk _ := []
  gap := []
  brk_ws _ _ hb := absurd hb List.not_mem_nil
  gap_ws _ hb := absurd hb List.not_mem_nil

/-- A value as text with one item to a line. -/
def pretty (v : Value) : Bytes := write .pretty 0 v

/-- **A value no part of which is kept as text**: what a program builds,
as opposed to what it may read. -/
inductive Plain : Value → Prop where
  | null : Plain .null
  | bool (b : Bool) : Plain (.bool b)
  | int (z : ℤ) : Plain (.int z)
  | str (s : String) : Plain (.str s)
  | arr {xs : List Value} : (∀ x ∈ xs, Plain x) → Plain (.arr xs)
  | obj {fs : List (String × Value)} : (∀ f ∈ fs, Plain f.2) → Plain (.obj fs)

end Json
