import DynDynser.Common.Prog
/-!
# Programs that give up

A third relation beside `Exec` and `Admits`: `Aborts` holds of the events
of a run that ended without a return, with the reason. A program that
always returns has no such run, and a composition gives up in its first
half, or in its second after the first returned.
-/

namespace Interact

variable {Op : Type} {Ans : Op → Type} {ε α β : Type}

namespace Prog

/-- **A run that ended in an abort**: `p` gave up with `e` after the events
`tr`. -/
def Aborts : Prog Op Ans ε α → List (Event Op Ans) → ε → Prop
  | ret _, _, _ => False
  | abort e, tr, e' => tr = [] ∧ e = e'
  | call o k, tr, e' => ∃ x t, tr = ⟨o, x⟩ :: t ∧ (k x).Aborts t e'

variable {p : Prog Op Ans ε α} {f : α → Prog Op Ans ε β} {tr : List (Event Op Ans)} {e : ε}

@[simp] theorem aborts_ret {a : α} : ¬ (ret a : Prog Op Ans ε α).Aborts tr e := id

@[simp] theorem aborts_abort {e' : ε} :
    (abort e' : Prog Op Ans ε α).Aborts tr e ↔ tr = [] ∧ e' = e := Iff.rfl

@[simp] theorem aborts_call {o : Op} {k : Ans o → Prog Op Ans ε α} :
    (call o k).Aborts tr e ↔ ∃ x t, tr = ⟨o, x⟩ :: t ∧ (k x).Aborts t e := Iff.rfl

/-- A run that ended in an abort is in particular a run. -/
theorem Aborts.admits (h : p.Aborts tr e) : p.Admits tr := by
  induction p generalizing tr with
  | ret a => exact h.elim
  | abort e' => exact h.1
  | call o k ih =>
    obtain ⟨x, t, rfl, hx⟩ := h
    exact Or.inr ⟨x, t, rfl, ih x hx⟩

/-- **A program that always returns does not give up.** -/
theorem Total.not_aborts (hp : p.Total) : ¬ p.Aborts tr e := by
  induction p generalizing tr with
  | ret a => exact id
  | abort e' => exact hp.elim
  | call o k ih =>
    rintro ⟨x, t, -, hx⟩
    exact ih x (hp x) hx

/-- **A composition gives up** in its first half, or in its second after
the first returned. -/
theorem aborts_bind : (p >>= f).Aborts tr e ↔
    p.Aborts tr e ∨ ∃ a t₁ t₂, tr = t₁ ++ t₂ ∧ p.Exec t₁ a ∧ (f a).Aborts t₂ e := by
  induction p generalizing tr with
  | ret a => simp
  | abort e' => simp
  | call o k ih =>
    simp only [call_bind, aborts_call, exec_call, ih]
    constructor
    · rintro ⟨x, t, rfl, h | ⟨a, t₁, t₂, rfl, h₁, h₂⟩⟩
      · exact Or.inl ⟨x, t, rfl, h⟩
      · exact Or.inr ⟨a, ⟨o, x⟩ :: t₁, t₂, rfl, ⟨x, t₁, rfl, h₁⟩, h₂⟩
    · rintro (⟨x, t, rfl, h⟩ | ⟨a, _, t₂, rfl, ⟨x, t₁, rfl, h₁⟩, h₂⟩)
      · exact ⟨x, t, rfl, Or.inl h⟩
      · exact ⟨x, t₁ ++ t₂, rfl, Or.inr ⟨a, t₁, t₂, rfl, h₁, h₂⟩⟩

variable {σ : Type} {answer : σ → (o : Op) → Ans o × σ} {s : σ}

/-- A driven program that gave up made such a run. -/
theorem aborts_drive (h : (p.drive answer s).2.1 = .error e) :
    p.Aborts (p.drive answer s).1 e := by
  induction p generalizing s with
  | ret a => simp [drive] at h
  | abort e' => exact ⟨rfl, by simpa [drive] using h⟩
  | call o k ih => exact ⟨_, _, rfl, ih _ h⟩

end Prog

namespace Fallible

variable {E : Type} {x : Fallible Op Ans ε E α} {f : α → Fallible Op Ans ε E β}
variable {p : Prog Op Ans ε α} {tr : List (Event Op Ans)} {e : ε}

/-- A fallible composition gives up in its first half, or in its second
after the first returned a value. -/
theorem aborts_bind : (x >>= f).run.Aborts tr e ↔
    x.run.Aborts tr e ∨
      ∃ a t₁ t₂, tr = t₁ ++ t₂ ∧ x.run.Exec t₁ (.ok a) ∧ (f a).run.Aborts t₂ e := by
  rw [run_bind_eq, Prog.aborts_bind]
  refine or_congr_right ⟨?_, ?_⟩
  · rintro ⟨err | a, t₁, t₂, rfl, h₁, h₂⟩
    · exact h₂.elim
    · exact ⟨a, t₁, t₂, rfl, h₁, h₂⟩
  · rintro ⟨a, t₁, t₂, rfl, h₁, h₂⟩
    exact ⟨.ok a, t₁, t₂, rfl, h₁, h₂⟩

@[simp] theorem aborts_lift :
    (ExceptT.lift p : Fallible Op Ans ε E α).run.Aborts tr e ↔ p.Aborts tr e := by
  change (p >>= fun a => pure (Except.ok a)).Aborts tr e ↔ _
  rw [Prog.aborts_bind]
  constructor
  · rintro (h | ⟨a, t₁, t₂, -, -, h⟩)
    · exact h
    · exact h.elim
  · exact Or.inl

end Fallible

end Interact
