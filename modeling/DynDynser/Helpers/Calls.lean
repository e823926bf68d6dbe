import DynDynser.Model.Events
/-!
# Runs of the program's building blocks

The runs of a call, of a context put on an error, and of a result that
needs no call. With the rules of composition they give the runs of every
function of the program.
-/

namespace DynDynser

open Interact Fallible

variable {α : Type} {tr : Trace} {P : Op → Prop} {Q : Event → Prop}

/-! ## A call whose answer is kept -/

@[simp] theorem exec_ask {o : Op} {r : Result (Op.Ans o)} :
    (ask o).run.Exec tr r ↔ ∃ x, tr = [⟨o, x⟩] ∧ r = .ok x := by
  rw [ask, exec_lift]
  simp only [call, Prog.exec_perform]

@[simp] theorem admits_ask {o : Op} :
    (ask o).run.Admits tr ↔ tr = [] ∨ ∃ x, tr = [⟨o, x⟩] := by
  rw [ask, admits_lift, call, Prog.admits_perform]

@[simp] theorem uses_ask {o : Op} : (ask o).run.Uses P ↔ P o := by
  rw [ask, uses_lift, call, Prog.uses_perform]

/-! ## A call whose failure is the caller's -/

@[simp] theorem run_tryCall {x : Io (Result α)} : (tryCall x).run = x := rfl

@[simp] theorem exec_call {o : Op} {x : Op.Ans o} :
    (call o).Exec tr x ↔ tr = [⟨o, x⟩] := Prog.exec_perform

@[simp] theorem admits_call {o : Op} : (call o).Admits tr ↔ tr = [] ∨ ∃ x, tr = [⟨o, x⟩] :=
  Prog.admits_perform

@[simp] theorem uses_call {o : Op} : (call o).Uses P ↔ P o := Prog.uses_perform

theorem okRuns_tryCall {x : Io (Result α)} (h : ∀ tr a, x.Exec tr (.ok a) → ∀ e ∈ tr, Q e) :
    OkRuns Q (tryCall x) := h

/-! ## Results and contexts -/

@[simp] theorem exec_ofResult {x r : Result α} : (ofResult x).run.Exec tr r ↔ tr = [] ∧ x = r :=
  Iff.rfl

@[simp] theorem admits_ofResult {x : Result α} : (ofResult x).run.Admits tr ↔ tr = [] := Iff.rfl

@[simp] theorem uses_ofResult {x : Result α} : (ofResult x).run.Uses P := trivial

@[simp] theorem exec_okOr {x : Option α} {msg : String} {a : α} :
    (okOr x msg).run.Exec tr (.ok a) ↔ tr = [] ∧ x = some a := by
  cases x <;> simp [okOr]

@[simp] theorem admits_okOr {x : Option α} {msg : String} : (okOr x msg).run.Admits tr ↔ tr = [] :=
  Iff.rfl

@[simp] theorem uses_okOr {x : Option α} {msg : String} : (okOr x msg).run.Uses P := trivial

@[simp] theorem exec_panicWith {msg : String} {r : Result α} :
    ¬ (panicWith msg : Rust α).run.Exec tr r := id

@[simp] theorem admits_panicWith {msg : String} :
    (panicWith msg : Rust α).run.Admits tr ↔ tr = [] := Iff.rfl

@[simp] theorem uses_panicWith {msg : String} : (panicWith msg : Rust α).run.Uses P := trivial

@[simp] theorem Result.context_eq_ok {r : Result α} {c : String} {a : α} :
    Result.context r c = .ok a ↔ r = .ok a := by
  cases r <;> simp [Result.context, Except.mapError]

@[simp] theorem Result.context_ok {c : String} {a : α} :
    Result.context (.ok a) c = .ok a := rfl

@[simp] theorem Result.context_error {c : String} {e : Error} :
    Result.context (.error e : Result α) c = .error (e.context c) := rfl

theorem exec_context {x : Rust α} {c : String} {r : Result α} :
    (context c x).run.Exec tr r ↔ ∃ r', x.run.Exec tr r' ∧ Result.context r' c = r := by
  change (x.run >>= fun r => Prog.ret (Result.context r c)).Exec tr r ↔ _
  rw [Prog.exec_bind]
  constructor
  · rintro ⟨r', t₁, t₂, rfl, h, rfl, rfl⟩
    exact ⟨r', by simpa using h, rfl⟩
  · rintro ⟨r', h, rfl⟩
    exact ⟨r', tr, [], by simp, h, rfl, rfl⟩

/-- A context changes nothing of a run that returned a value. -/
@[simp] theorem exec_context_ok {x : Rust α} {c : String} {a : α} :
    (context c x).run.Exec tr (.ok a) ↔ x.run.Exec tr (.ok a) := by
  simp [exec_context]

@[simp] theorem admits_context {x : Rust α} {c : String} :
    (context c x).run.Admits tr ↔ x.run.Admits tr := by
  change (x.run >>= fun r => Prog.ret (Result.context r c)).Admits tr ↔ _
  rw [Prog.admits_bind]
  constructor
  · rintro (h | ⟨r', t₁, t₂, rfl, h, rfl⟩)
    · exact h
    · simpa using h.admits
  · exact Or.inl

theorem uses_context {x : Rust α} {c : String} (h : x.run.Uses P) : (context c x).run.Uses P :=
  h.bind fun _ => trivial

theorem okRuns_context {x : Rust α} {c : String} (h : OkRuns Q x) : OkRuns Q (context c x) :=
  fun tr a hx => h tr a (exec_context_ok.1 hx)

end DynDynser
