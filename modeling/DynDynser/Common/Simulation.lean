import DynDynser.Common.Interleaving
import Mathlib.Data.List.Induction
/-!
# Rules for interleavings

How to say something of many programs at once without looking at them all
together. An *induction* follows a history event by event, each of them
made by a program in a state its own events explain. A *forward
simulation* pairs the states of the world with those of a simpler machine
and lets that machine take steps of its own for every event. A *footprint*
is what one program and the world have in common: what the others do
outside it, that program cannot tell from their doing nothing.
-/

namespace Interact

variable {ι Op : Type} {Ans : Op → Type} {ε α σ : Type} [DecidableEq ι]
variable {procs : ι → Prog Op Ans ε α} {step : σ → Event Op Ans → σ → Prop} {s s' : σ}
variable {h : History ι (Event Op Ans)}

/-- The interleaving in which nothing has happened. -/
theorem Interleaving.nil : Interleaving procs step s [] s :=
  ⟨fun i => (procs i).admits_nil, rfl⟩

/-- A program that has not begun makes a run of its own. -/
theorem Interleaving.append_run {m : σ} {i : ι} {t : List (Event Op Ans)}
    (hi : Interleaving procs step s h m) (hnew : h.events i = []) (hadmits : (procs i).Admits t)
    (halong : Along step m t s') : Interleaving procs step s (h ++ History.ofRun i t) s' where
  admits j := by
    rw [History.events_append]
    by_cases hj : i = j
    · subst hj
      rw [hnew, History.events_ofRun_self]
      exact hadmits
    · rw [History.events_ofRun_of_ne hj, List.append_nil]
      exact hi.admits j
  along := by
    rw [List.map_append, History.map_snd_ofRun]
    exact along_append.mpr ⟨m, hi.along, halong⟩

/-- The run of one program is an interleaving. -/
theorem Interleaving.ofRun {i : ι} {t : List (Event Op Ans)} (hadmits : (procs i).Admits t)
    (halong : Along step s t s') : Interleaving procs step s (History.ofRun i t) s' := by
  have h := Interleaving.nil.append_run rfl hadmits halong
  rwa [List.nil_append] at h

/-- **A history can be cut where a program is** at some point of its run. -/
theorem History.exists_split {ℓ : Type} {h : History ι ℓ} {i : ι} {t₁ t₂ : List ℓ}
    (hsplit : h.events i = t₁ ++ t₂) :
    ∃ before after, h = before ++ after ∧ before.events i = t₁ ∧ after.events i = t₂ := by
  induction h generalizing t₁ with
  | nil =>
    obtain ⟨rfl, rfl⟩ := List.nil_eq_append_iff.mp hsplit
    exact ⟨[], [], rfl, rfl, rfl⟩
  | cons x h ih =>
    obtain ⟨j, e⟩ := x
    by_cases hj : j = i
    · subst hj
      rw [events_cons_self] at hsplit
      rcases List.cons_eq_append_iff.mp hsplit with ⟨rfl, rfl⟩ | ⟨t, rfl, hrest⟩
      · exact ⟨[], (j, e) :: h, rfl, rfl, events_cons_self⟩
      · obtain ⟨before, after, rfl, rfl, hafter⟩ := ih hrest
        exact ⟨(j, e) :: before, after, rfl, events_cons_self, hafter⟩
    · rw [events_cons_of_ne hj] at hsplit
      obtain ⟨before, after, rfl, rfl, hafter⟩ := ih hsplit
      exact ⟨(j, e) :: before, after, rfl, events_cons_of_ne hj, hafter⟩

/-- **Induction along an interleaving.** What holds at the start, and is
handed on by every event of the history, holds at its end. -/
theorem Interleaving.induction (hi : Interleaving procs step s h s')
    {I : History ι (Event Op Ans) → σ → Prop} (hnil : I [] s)
    (hstep : ∀ before i e after m m', h = before ++ (i, e) :: after →
      Interleaving procs step s before m → Interleaving procs step s (before ++ [(i, e)]) m' →
      step m e m' → I before m → I (before ++ [(i, e)]) m') : I h s' := by
  have hprefix : ∀ before after, h = before ++ after →
      ∀ m, Interleaving procs step s before m → I before m := by
    intro before
    induction before using List.reverseRecOn with
    | nil =>
      intro after hsplit m hm
      obtain rfl := along_nil.mp hm.along
      exact hnil
    | append_singleton before x ih =>
      intro after hsplit m' hm'
      obtain ⟨i, e⟩ := x
      obtain ⟨m, hm, hlast⟩ := hm'.of_append
      obtain ⟨_, hlast, rfl⟩ := hlast
      have hsplit' : h = before ++ (i, e) :: after := by rw [hsplit, List.append_assoc]; rfl
      exact hstep before i e after m _ hsplit' hm hm' hlast (ih _ hsplit' m hm)
  exact hprefix h [] (List.append_nil h).symm s' hi

/-- **Forward simulation.** Where every event is answered by steps of the
machine that keep the two states related, the machine has a run of its own
from the first pair of states to a last one. The relation may look at the
history so far and at what the machine did in answer to it. -/
theorem Interleaving.simulated (hi : Interleaving procs step s h s') {τ ℓ : Type}
    {machine : τ → ℓ → τ → Prop} {R : History ι (Event Op Ans) → σ → List ℓ → τ → Prop} {a : τ}
    (hstart : R [] s [] a)
    (hstep : ∀ before i e after m m' ls b, h = before ++ (i, e) :: after →
      Interleaving procs step s (before ++ [(i, e)]) m' → step m e m' → R before m ls b →
      ∃ ls' b', Along machine b ls' b' ∧ R (before ++ [(i, e)]) m' (ls ++ ls') b') :
    ∃ ls b, Along machine a ls b ∧ R h s' ls b := by
  refine hi.induction (I := fun past m => ∃ ls b, Along machine a ls b ∧ R past m ls b)
    ⟨[], a, rfl, hstart⟩ ?_
  rintro before i e after m m' hsplit - hnext hlast ⟨ls, b, halong, hR⟩
  obtain ⟨ls', b', halong', hR'⟩ := hstep before i e after m m' ls b hsplit hnext hlast hR
  exact ⟨ls ++ ls', b', along_append.mpr ⟨b, halong, halong'⟩, hR'⟩

/-! ## Footprints -/

/-- The events of a history that `keep` tells to keep, with the steps they
are: a relation of the states that the other events leave alone, and that
the kept ones carry along, holds of the states a run of the kept events
alone goes through. -/
theorem Along.kept {ℓ : Type} {step : σ → ℓ → σ → Prop} {R : σ → σ → Prop} {l : List ℓ}
    (keep : ℓ → Bool) (halong : Along step s l s') {t : σ} (hR : R s t)
    (hother : ∀ e ∈ l, keep e = false → ∀ a b c, step a e b → R a c → R b c)
    (hkeep : ∀ e ∈ l, keep e = true → ∀ a b c, step a e b → R a c → ∃ d, step c e d ∧ R b d) :
    ∃ t', Along step t (l.filter keep) t' ∧ R s' t' := by
  induction l generalizing s t with
  | nil =>
    obtain rfl := along_nil.mp halong
    exact ⟨t, rfl, hR⟩
  | cons e l ih =>
    obtain ⟨m, hm, halong⟩ := halong
    have hother' := fun e' (he' : e' ∈ l) => hother e' (List.mem_cons_of_mem e he')
    have hkeep' := fun e' (he' : e' ∈ l) => hkeep e' (List.mem_cons_of_mem e he')
    cases hk : keep e with
    | false =>
      rw [List.filter_cons_of_neg (by simp [hk])]
      exact ih halong (hother e List.mem_cons_self hk _ _ _ hm hR) hother' hkeep'
    | true =>
      obtain ⟨d, hd, hR'⟩ := hkeep e List.mem_cons_self hk _ _ _ hm hR
      obtain ⟨t', ht', hlast⟩ := ih halong hR' hother' hkeep'
      rw [List.filter_cons_of_pos hk]
      exact ⟨t', ⟨d, hd, ht'⟩, hlast⟩

/-- A label of a chain is a step of it. -/
theorem Along.step_of_mem {ℓ : Type} {step : σ → ℓ → σ → Prop} {l : List ℓ}
    (halong : Along step s l s') {e : ℓ} (he : e ∈ l) : ∃ a b, step a e b := by
  obtain ⟨before, after, rfl⟩ := List.append_of_mem he
  obtain ⟨a, -, b, hstep, -⟩ := along_append.mp halong
  exact ⟨a, b, hstep⟩

/-- What every step of a chain hands on holds where a label of it is a step. -/
theorem Along.step_of_mem_of {ℓ : Type} {step : σ → ℓ → σ → Prop} {I : σ → Prop} {l : List ℓ}
    (halong : Along step s l s') (hI : I s) (hkeep : ∀ e ∈ l, ∀ a b, step a e b → I a → I b) {e : ℓ}
    (he : e ∈ l) : ∃ a b, step a e b ∧ I a := by
  obtain ⟨before, after, rfl⟩ := List.append_of_mem he
  obtain ⟨a, hfirst, b, hstep, -⟩ := along_append.mp halong
  exact ⟨a, b, hstep, hfirst.invariant
    (fun x hx _ _ hx' ha => hkeep x (List.mem_append_left _ hx) _ _ hx' ha) hI⟩

/-- A chain whose labels stand for others. -/
theorem along_map {ℓ ℓ' : Type} {step : σ → ℓ' → σ → Prop} {f : ℓ → ℓ'} {l : List ℓ} :
    Along step s (l.map f) s' ↔ Along (fun a x b => step a (f x) b) s l s' := by
  induction l generalizing s with
  | nil => rfl
  | cons x l ih => exact exists_congr fun m => and_congr_right fun _ => ih

/-- **A program alone.** Where the events of the other programs leave what
`R` compares alone, and those of `i` carry it along, the events of `i` are
a chain without the others too, to a state that compares the same. -/
theorem Interleaving.alone {i : ι} {R : σ → σ → Prop} (hi : Interleaving procs step s h s')
    {t : σ} (hR : R s t)
    (hother : ∀ j e, j ≠ i → (j, e) ∈ h → ∀ a b c, step a e b → R a c → R b c)
    (hown : ∀ e, (i, e) ∈ h → ∀ a b c, step a e b → R a c → ∃ d, step c e d ∧ R b d) :
    ∃ t', Along step t (h.events i) t' ∧ R s' t' := by
  have halong := along_map.mp hi.along
  obtain ⟨t', hkept, hlast⟩ := halong.kept (fun x => decide (x.1 = i)) hR
    (fun x hx hne => hother x.1 x.2 (by simpa using hne) hx)
    (fun x hx heq => hown x.2 (of_decide_eq_true heq ▸ hx))
  exact ⟨t', along_map.mpr hkept, hlast⟩

end Interact
