import Mathlib.Logic.Function.Basic
import Mathlib.Data.List.Basic
/-!
# Batches of upserts

A table maps keys to values; an upsert creates or replaces the value of
one key. A batch is applied from the left, so a key ends with what the
last upsert of it wrote. Applying the end of a batch once more changes
nothing, which is what makes it safe to be interrupted after a batch and
to begin again with what is left of it.
-/

namespace Upsert

variable {κ ν β : Type} [DecidableEq κ] (key : β → κ) (val : β → ν)

/-- Apply a batch to a table. -/
def applyAll (m : κ → Option ν) (l : List β) : κ → Option ν :=
  l.foldl (fun m b => Function.update m (key b) (some (val b))) m

@[simp] theorem applyAll_nil (m : κ → Option ν) : applyAll key val m [] = m := rfl

@[simp] theorem applyAll_cons (m : κ → Option ν) (b : β) (l : List β) :
    applyAll key val m (b :: l) = applyAll key val (Function.update m (key b) (some (val b))) l :=
  rfl

theorem applyAll_append (m : κ → Option ν) (l₁ l₂ : List β) :
    applyAll key val m (l₁ ++ l₂) = applyAll key val (applyAll key val m l₁) l₂ :=
  List.foldl_append

/-- A batch made of other things, one upsert for each. -/
theorem applyAll_map {γ : Type} (f : γ → β) (m : κ → Option ν) (l : List γ) :
    applyAll key val m (l.map f) = applyAll (key ∘ f) (val ∘ f) m l :=
  List.foldl_map

/-- The last upsert of a key in a batch. -/
def last? (l : List β) (k : κ) : Option β := l.reverse.find? fun b => key b = k

theorem last?_cons (b : β) (l : List β) (k : κ) :
    last? key (b :: l) k = (last? key l k).or (if key b = k then some b else none) := by
  simp only [last?, List.reverse_cons, List.find?_append, List.find?_cons, List.find?_nil]
  by_cases hb : key b = k <;> simp [hb]

/-- **The last upsert of a key decides its value**, and a key no upsert
names keeps the value it had. -/
theorem applyAll_apply (m : κ → Option ν) (l : List β) (k : κ) :
    applyAll key val m l k = ((last? key l k).map val).or (m k) := by
  induction l generalizing m with
  | nil => rfl
  | cons b l ih =>
    rw [applyAll_cons, ih, last?_cons]
    cases last? key l k with
    | some c => rfl
    | none =>
      by_cases hb : key b = k
      · subst hb
        simp
      · simp [hb, Function.update_of_ne (Ne.symm hb)]

/-- A key no upsert names is left alone. -/
theorem applyAll_of_not_mem (m : κ → Option ν) {l : List β} {k : κ} (h : ∀ b ∈ l, key b ≠ k) :
    applyAll key val m l k = m k := by
  have hl : last? key l k = none := by
    rw [last?, List.find?_eq_none]
    intro b hb
    simpa using h b (List.mem_reverse.1 hb)
  rw [applyAll_apply, hl]
  rfl

/-- An upsert that no later one overrides is what its key ends with. -/
theorem applyAll_of_last (m : κ → Option ν) {l₁ l₂ : List β} {b : β}
    (h : ∀ c ∈ l₂, key c ≠ key b) :
    applyAll key val m (l₁ ++ b :: l₂) (key b) = some (val b) := by
  rw [applyAll_append, applyAll_cons, applyAll_of_not_mem key val _ h, Function.update_self]

/-- A key all upserts of which agree ends with what they write. -/
theorem applyAll_of_agreed (m : κ → Option ν) {l : List β} {b : β} (hb : b ∈ l)
    (h : ∀ c ∈ l, key c = key b → val c = val b) : applyAll key val m l (key b) = some (val b) := by
  rw [applyAll_apply]
  cases hlast : last? key l (key b) with
  | none =>
    have hnone := List.find?_eq_none.mp hlast b (List.mem_reverse.mpr hb)
    exact absurd (decide_eq_true rfl) hnone
  | some c =>
    have hc := List.mem_reverse.mp (List.mem_of_find?_eq_some hlast)
    have hkey : key c = key b := by simpa using List.find?_some hlast
    rw [← h c hc hkey]
    rfl

/-- **Applying the end of a batch again changes nothing.** -/
theorem applyAll_suffix {l s : List β} (h : s <:+ l) (m : κ → Option ν) :
    applyAll key val (applyAll key val m l) s = applyAll key val m l := by
  obtain ⟨p, rfl⟩ := h
  funext k
  rw [applyAll_apply, applyAll_append, applyAll_apply key val (applyAll key val m p)]
  cases last? key s k <;> rfl

end Upsert
