import DynDynser.Common.Json.RoundTrip
/-!
# Canonical text

The canonical text of a value: no white space, and the fields of every
object in the order of their keys, compared by UTF-16 code units. Numbers
are written in exact decimal, which is their canonical form below `2 ^ 53`
in magnitude; every number here is an integer.
-/

namespace Json

open Text

/-- The UTF-16 code units of a character. -/
def utf16 (c : Char) : List ℕ :=
  let n := c.toNat
  if n < 0x10000 then [n]
  else [0xd800 + (n - 0x10000) / 0x400, 0xdc00 + (n - 0x10000) % 0x400]

/-- Does the first key come before the second? -/
def keyLt (k k' : String) : Bool := decide (k.toList.flatMap utf16 < k'.toList.flatMap utf16)

/-- Put a field in front of the first field with a greater key. -/
def insertField (k : String) (v : Value) : List (String × Value) → List (String × Value)
  | [] => [(k, v)]
  | (k', v') :: fs =>
    if keyLt k k' then (k, v) :: (k', v') :: fs else (k', v') :: insertField k v fs

mutual

/-- A value with the fields of its objects in order. -/
def sortFields : Value → Value
  | .arr xs => .arr (sortFieldsList xs)
  | .obj fs => .obj (sortFieldsObject fs)
  | v => v

/-- The items of an array, each with its fields in order. -/
def sortFieldsList : List Value → List Value
  | [] => []
  | x :: xs => sortFields x :: sortFieldsList xs

/-- The fields of an object in order. -/
def sortFieldsObject : List (String × Value) → List (String × Value)
  | [] => []
  | (k, x) :: fs => insertField k (sortFields x) (sortFieldsObject fs)

end

/-- The canonical text of a value. -/
def canonical (v : Value) : Bytes := write .compact 0 (sortFields v)

/-- **A value with an exact canonical text**: its integers are below
`2 ^ 53` in magnitude, and no object has a key twice. -/
inductive Exact : Value → Prop where
  | null : Exact .null
  | bool (b : Bool) : Exact (.bool b)
  | int {z : ℤ} : z.natAbs < 2 ^ 53 → Exact (.int z)
  | str (s : String) : Exact (.str s)
  | arr {xs : List Value} : (∀ x ∈ xs, Exact x) → Exact (.arr xs)
  | obj {fs : List (String × Value)} : (fs.map Prod.fst).Nodup → (∀ f ∈ fs, Exact f.2) →
      Exact (.obj fs)

theorem Exact.plain {v : Value} (h : Exact v) : Plain v := by
  induction h with
  | null => exact .null
  | bool b => exact .bool b
  | int _ => exact .int _
  | str s => exact .str s
  | arr _ ih => exact .arr ih
  | obj _ _ ih => exact .obj ih

/-! ## What the canonical text determines -/

theorem mem_insertField {k : String} {v : Value} {fs : List (String × Value)}
    {f : String × Value} : f ∈ insertField k v fs ↔ f = (k, v) ∨ f ∈ fs := by
  induction fs with
  | nil => simp [insertField]
  | cons g fs ih =>
    unfold insertField
    split
    · simp
    · rw [List.mem_cons, ih, List.mem_cons]
      tauto

theorem mem_sortFieldsObject {fs : List (String × Value)} {f : String × Value}
    (h : f ∈ sortFieldsObject fs) : ∃ g ∈ fs, f = (g.1, sortFields g.2) := by
  induction fs with
  | nil => simp [sortFieldsObject] at h
  | cons g fs ih =>
    rw [sortFieldsObject, mem_insertField] at h
    rcases h with rfl | h
    · exact ⟨g, List.mem_cons_self, rfl⟩
    · obtain ⟨g', hg', hf⟩ := ih h
      exact ⟨g', List.mem_cons_of_mem _ hg', hf⟩

theorem sortFieldsList_eq_map (xs : List Value) : sortFieldsList xs = xs.map sortFields := by
  induction xs with
  | nil => rfl
  | cons x xs ih => rw [sortFieldsList, ih, List.map_cons]

/-- Ordering the fields keeps a value plain. -/
theorem plain_sortFields (v : Value) : Plain v → Plain (sortFields v) := by
  induction v using Value.induction with
  | null => exact id
  | bool b => exact id
  | int z => exact id
  | str s => exact id
  | arr xs ih =>
    intro hv
    cases hv with
    | arr hplain =>
      rw [sortFields, sortFieldsList_eq_map]
      refine .arr fun y hy => ?_
      obtain ⟨x, hx, rfl⟩ := List.mem_map.mp hy
      exact ih x hx (hplain x hx)
  | obj fs ih =>
    intro hv
    cases hv with
    | obj hplain =>
      rw [sortFields]
      refine .obj fun f hf => ?_
      obtain ⟨g, hg, rfl⟩ := mem_sortFieldsObject hf
      exact ih g hg (hplain g hg)
  | raw bs => exact id

/-- **The canonical text determines the value up to the order of fields**,
since the reader undoes the writer. -/
theorem sortFields_eq_of_canonical {v w : Value} (hv : Plain v) (hw : Plain w)
    (h : canonical v = canonical w) : sortFields v = sortFields w := by
  unfold canonical at h
  have hread := congrArg parse h
  rw [parse_write (plain_sortFields v hv), parse_write (plain_sortFields w hw)] at hread
  exact Option.some.inj hread

end Json
