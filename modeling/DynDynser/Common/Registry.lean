import DynDynser.Common.Prog
import DynDynser.Common.Upsert
import Mathlib.Data.Set.Insert
/-!
# A registry kept by letter

A registry has one entry for each of its names, and is written to by
letter. Anyone may hand a letter in; from time to time a clerk takes a
batch of the letters received and enters what they say, in order. The
rules of the registry say what a letter is about, what it says, and which
letters are in order: nothing else is ever entered.

What an entry says is then what a letter in order says (`entry_of_run`);
where all the letters in order about a name say the same, the order in
which the clerks work makes no difference (`entry_of_unanimous`).
-/

namespace Registry

open Interact

variable {L κ ν : Type} [DecidableEq κ]

/-- The rules of a registry. -/
structure Rules (L κ ν : Type) where
  name : L → κ
  value : L → ν
  inOrder : L → Prop

/-- The letters received so far, and the entries. -/
structure State (L κ ν : Type) where
  received : Set L
  entries : κ → Option ν

/-- A letter is handed in, or a batch of letters is entered. -/
inductive Action (L : Type) where
  | receive (l : L)
  | enter (batch : List L)

/-- **What an action does.** Only letters that were received and are in
order are entered. -/
def Step (rules : Rules L κ ν) (s : State L κ ν) : Action L → State L κ ν → Prop
  | .receive l, s' => s' = { s with received := insert l s.received }
  | .enter batch, s' => (∀ l ∈ batch, l ∈ s.received ∧ rules.inOrder l) ∧
      s' = { s with entries := Upsert.applyAll rules.name rules.value s.entries batch }

/-- The states along a list of actions. -/
abbrev Run (rules : Rules L κ ν) : State L κ ν → List (Action L) → State L κ ν → Prop :=
  Along (Step rules)

variable {rules : Rules L κ ν} {s s' : State L κ ν} {a : Action L} {actions : List (Action L)}

/-- An action forgets no letter, and adds only the one it hands in. -/
theorem Step.mem_received (h : Step rules s a s') {l : L} :
    l ∈ s'.received ↔ l ∈ s.received ∨ a = .receive l := by
  cases a with
  | receive l' =>
    obtain rfl := h
    rw [Set.mem_insert_iff, or_comm, Action.receive.injEq, eq_comm (a := l)]
  | enter batch =>
    obtain ⟨-, rfl⟩ := h
    simp

/-- The letters received at the end of a run. -/
theorem Run.mem_received (h : Run rules s actions s') {l : L} :
    l ∈ s'.received ↔ l ∈ s.received ∨ .receive l ∈ actions := by
  induction actions generalizing s with
  | nil =>
    obtain rfl := along_nil.mp h
    simp
  | cons a actions ih =>
    obtain ⟨m, hm, h⟩ := h
    rw [ih h, Step.mem_received hm, List.mem_cons, or_assoc, eq_comm (a := Action.receive l)]

/-- What an action does to an entry: nothing, or it becomes what a letter
of the batch says, one that was received and is in order. -/
theorem Step.entry_cases (h : Step rules s a s') (k : κ) :
    s'.entries k = s.entries k ∨
      ∃ l ∈ s.received, rules.inOrder l ∧ rules.name l = k ∧ s'.entries k = some (rules.value l) := by
  cases a with
  | receive l =>
    obtain rfl := h
    exact Or.inl rfl
  | enter batch =>
    obtain ⟨hbatch, rfl⟩ := h
    have hentry := Upsert.applyAll_apply rules.name rules.value s.entries batch k
    cases hlast : Upsert.last? rules.name batch k with
    | none =>
      rw [hlast] at hentry
      exact Or.inl hentry
    | some l =>
      rw [hlast] at hentry
      have hl : l ∈ batch := List.mem_reverse.mp (List.mem_of_find?_eq_some hlast)
      have hname : rules.name l = k := by simpa using List.find?_some hlast
      exact Or.inr ⟨l, (hbatch l hl).1, (hbatch l hl).2, hname, hentry⟩

/-- **Nothing is entered but letters in order.** At the end of a run an
entry is what it was, or what a letter received and in order says. -/
theorem Run.entry_cases (h : Run rules s actions s') (k : κ) :
    s'.entries k = s.entries k ∨
      ∃ l ∈ s'.received, rules.inOrder l ∧ rules.name l = k ∧
        s'.entries k = some (rules.value l) := by
  induction actions generalizing s with
  | nil =>
    obtain rfl := along_nil.mp h
    exact Or.inl rfl
  | cons a actions ih =>
    obtain ⟨m, hm, h⟩ := h
    rcases ih h with heq | hletter
    · rcases Step.entry_cases hm k with hsame | ⟨l, hl, horder, hname, hvalue⟩
      · exact Or.inl (heq.trans hsame)
      · have hl' : l ∈ s'.received :=
          (Run.mem_received h).mpr (Or.inl ((Step.mem_received hm).mpr (Or.inl hl)))
        exact Or.inr ⟨l, hl', horder, hname, heq.trans hvalue⟩
    · exact Or.inr hletter

/-- A batch that names `k` is entered in the run. -/
def Entered (rules : Rules L κ ν) (actions : List (Action L)) (k : κ) : Prop :=
  ∃ batch, .enter batch ∈ actions ∧ ∃ l ∈ batch, rules.name l = k

/-- **The order of the clerks' work makes no difference** to a name all
the letters in order agree about: once a batch that names it is entered,
the entry is what they say, and stays so. -/
theorem Run.entry_of_unanimous (h : Run rules s actions s') {k : κ} {v : ν}
    (hvalue : ∀ l ∈ s'.received, rules.inOrder l → rules.name l = k → rules.value l = v)
    (hentered : Entered rules actions k) : s'.entries k = some v := by
  obtain ⟨batch, hmem, l, hl, hname⟩ := hentered
  obtain ⟨before, after, rfl⟩ := List.append_of_mem hmem
  obtain ⟨m, -, m', hm, hafter⟩ := along_append.mp h
  obtain ⟨hbatch, rfl⟩ := hm
  -- the entry as the batch leaves it
  have hlast : ∃ l', Upsert.last? rules.name batch k = some l' := by
    refine Option.isSome_iff_exists.mp (List.find?_isSome.mpr ⟨l, List.mem_reverse.mpr hl, ?_⟩)
    simpa using hname
  obtain ⟨l', hlast⟩ := hlast
  have hl' : l' ∈ batch := List.mem_reverse.mp (List.mem_of_find?_eq_some hlast)
  have hname' : rules.name l' = k := by simpa using List.find?_some hlast
  have hreceived : l' ∈ s'.received := (Run.mem_received hafter).mpr (Or.inl (hbatch l' hl').1)
  have hthen := Upsert.applyAll_apply rules.name rules.value m.entries batch k
  rw [hlast, Option.map_some, Option.some_or, hvalue l' hreceived (hbatch l' hl').2 hname'] at hthen
  -- and as the rest of the run leaves it
  rcases Run.entry_cases hafter k with heq | ⟨c, hc, horder, hcname, hcvalue⟩
  · exact heq.trans hthen
  · rw [hcvalue, hvalue c hc horder hcname]

end Registry
