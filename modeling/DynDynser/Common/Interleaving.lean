import DynDynser.Common.Prog
/-!
# Programs running side by side

A history is the events of several programs in the order the world saw
them, each with the program it is of. In an interleaving every program
has made a run of its own, `History.events`, and the world has taken the
steps of all of them in the order of the history.
-/

namespace Interact

/-- Events in order, each with the program it is of. -/
abbrev History (ι ℓ : Type) : Type := List (ι × ℓ)

namespace History

variable {ι ℓ : Type} [DecidableEq ι] {h h₁ h₂ : History ι ℓ} {i j : ι} {e : ℓ}

/-- The events of one program. -/
def events (h : History ι ℓ) (i : ι) : List ℓ := (h.filter fun x => x.1 = i).map Prod.snd

@[simp] theorem events_nil : events ([] : History ι ℓ) i = [] := rfl

@[simp] theorem events_append : events (h₁ ++ h₂) i = events h₁ i ++ events h₂ i := by
  simp [events]

@[simp] theorem events_cons_self : events ((i, e) :: h) i = e :: events h i := by
  simp [events]

theorem events_cons_of_ne (hne : j ≠ i) : events ((j, e) :: h) i = events h i := by
  simp [events, hne]

/-- A run of one program, as a history. -/
def ofRun (i : ι) (t : List ℓ) : History ι ℓ := t.map fun e => (i, e)

@[simp] theorem events_ofRun_self {t : List ℓ} : events (ofRun i t) i = t := by
  induction t with
  | nil => rfl
  | cons e t ih =>
    change events ((i, e) :: ofRun i t) i = _
    rw [events_cons_self, ih]

theorem events_ofRun_of_ne {t : List ℓ} (hne : j ≠ i) : events (ofRun j t) i = [] := by
  induction t with
  | nil => rfl
  | cons e t ih =>
    change events ((j, e) :: ofRun j t) i = _
    rw [events_cons_of_ne hne, ih]

omit [DecidableEq ι] in
@[simp] theorem map_snd_ofRun {t : List ℓ} : (ofRun i t).map Prod.snd = t := by
  simp [ofRun, Function.comp_def]

/-- A run of `j` in front of the last event of a run of `i`: the events of
either are its run. -/
theorem events_inserted (hne : i ≠ j) (t u : List ℓ) (e : ℓ) :
    events (ofRun i t ++ ofRun j u ++ [(i, e)]) i = t ++ [e] ∧
      events (ofRun i t ++ ofRun j u ++ [(i, e)]) j = u ∧
      ∀ k, k ≠ i → k ≠ j → events (ofRun i t ++ ofRun j u ++ [(i, e)]) k = [] := by
  refine ⟨?_, ?_, fun k hi hj => ?_⟩
  · simp [events_ofRun_of_ne hne.symm]
  · simp [events_ofRun_of_ne hne, events_cons_of_ne hne]
  · simp [events_ofRun_of_ne hi.symm, events_ofRun_of_ne hj.symm, events_cons_of_ne hi.symm]

/-- An event of a program stands in the history. -/
theorem mem_events : e ∈ events h i ↔ (i, e) ∈ h := by
  simp [events]

end History

variable {ι Op : Type} {Ans : Op → Type} {ε α σ : Type} [DecidableEq ι]

/-- **An interleaving**: a history every program has its part in, and the
states it takes the world through. -/
structure Interleaving (procs : ι → Prog Op Ans ε α) (step : σ → Event Op Ans → σ → Prop) (s : σ)
    (h : History ι (Event Op Ans)) (s' : σ) : Prop where
  admits : ∀ i, (procs i).Admits (h.events i)
  along : Along step s (h.map Prod.snd) s'

variable {procs : ι → Prog Op Ans ε α} {step : σ → Event Op Ans → σ → Prop} {s s' : σ}
variable {h before after : History ι (Event Op Ans)}

/-- An interleaving seen up to an earlier point is one. -/
theorem Interleaving.of_append (hi : Interleaving procs step s (before ++ after) s') :
    ∃ m, Interleaving procs step s before m ∧ Along step m (after.map Prod.snd) s' := by
  obtain ⟨m, h₁, h₂⟩ := along_append.mp (List.map_append ▸ hi.along)
  refine ⟨m, ⟨fun i => ?_, h₁⟩, h₂⟩
  have hadmits := hi.admits i
  rw [History.events_append] at hadmits
  exact hadmits.of_append

end Interact
