import Mathlib.Data.List.Basic
import Mathlib.Data.List.Nodup
/-!
# Programs that call out

A program of the kind verified here is a finite decision tree over the
answers of the world: it returns, gives up, or issues an operation and
resumes with the answer. Two relations say what it can do, and every
property of a run is read off them. `Exec` holds of the event list of a
run that returned, `Admits` of the event list of a run observed up to any
point, which is what a kill, another thread or a failing call leaves.

Sequential composition is `bind`; `exec_bind` and `admits_bind` split a
run where the first program returned. A fallible program is one in
`ExceptT`, and the same two rules are restated for it, a failure ending
the run.

What the world does along a run is a chain of steps, `Along`; a handler
that answers every call drives a program to a run, `drive`.
-/

namespace Interact

/-- A program issuing operations `Op`, each answered at `Ans`, which may
give up with a reason in `ε`. -/
inductive Prog (Op : Type) (Ans : Op → Type) (ε α : Type) : Type where
  | ret (a : α)
  | abort (e : ε)
  | call (o : Op) (k : Ans o → Prog Op Ans ε α)

/-- An operation together with the answer the world gave it. -/
structure Event (Op : Type) (Ans : Op → Type) where
  op : Op
  ans : Ans op

variable {Op : Type} {Ans : Op → Type} {ε α β : Type}

namespace Prog

/-- Run `p`, then `f` on what it returned. -/
def bind (p : Prog Op Ans ε α) (f : α → Prog Op Ans ε β) : Prog Op Ans ε β :=
  match p with
  | ret a => f a
  | abort e => abort e
  | call o k => call o fun x => (k x).bind f

instance : Monad (Prog Op Ans ε) where
  pure := ret
  bind := bind

@[simp] theorem pure_eq_ret (a : α) : (pure a : Prog Op Ans ε α) = ret a := rfl

@[simp] theorem ret_bind (a : α) (f : α → Prog Op Ans ε β) : ret a >>= f = f a := rfl

@[simp] theorem abort_bind (e : ε) (f : α → Prog Op Ans ε β) : abort e >>= f = abort e := rfl

@[simp] theorem call_bind (o : Op) (k : Ans o → Prog Op Ans ε α) (f : α → Prog Op Ans ε β) :
    call o k >>= f = call o fun x => k x >>= f := rfl

instance : LawfulMonad (Prog Op Ans ε) := by
  refine LawfulMonad.mk' _ ?_ ?_ ?_
  · intro α p
    change p.bind _ = p
    induction p with
    | ret a => rfl
    | abort e => rfl
    | call o k ih => simp only [bind, call.injEq, heq_eq_eq, true_and]; exact funext ih
  · intro α β a f
    rfl
  · intro α β γ p f g
    change (p.bind f).bind g = p.bind fun a => (f a).bind g
    induction p with
    | ret a => rfl
    | abort e => rfl
    | call o k ih => simp only [bind, call.injEq, heq_eq_eq, true_and]; exact funext ih

/-- Issue one operation and return its answer. -/
def perform (o : Op) : Prog Op Ans ε (Ans o) := call o ret

/-- **A complete run**: `p` returned `a` after the events `tr`. -/
def Exec : Prog Op Ans ε α → List (Event Op Ans) → α → Prop
  | ret a, tr, r => tr = [] ∧ a = r
  | abort _, _, _ => False
  | call o k, tr, r => ∃ x t, tr = ⟨o, x⟩ :: t ∧ (k x).Exec t r

/-- **A run observed up to some point**: `p` can have produced the events
`tr`, and may go on. -/
def Admits : Prog Op Ans ε α → List (Event Op Ans) → Prop
  | ret _, tr => tr = []
  | abort _, tr => tr = []
  | call o k, tr => tr = [] ∨ ∃ x t, tr = ⟨o, x⟩ :: t ∧ (k x).Admits t

/-- Every operation `p` can issue satisfies `P`. -/
def Uses (P : Op → Prop) : Prog Op Ans ε α → Prop
  | ret _ => True
  | abort _ => True
  | call o k => P o ∧ ∀ x, (k x).Uses P

/-- `p` returns, whatever it is answered. -/
def Total : Prog Op Ans ε α → Prop
  | ret _ => True
  | abort _ => False
  | call _ k => ∀ x, (k x).Total

variable {p : Prog Op Ans ε α} {f : α → Prog Op Ans ε β} {P Q : Op → Prop}
variable {tr t₁ t₂ : List (Event Op Ans)}

@[simp] theorem exec_ret {a r : α} : (ret a : Prog Op Ans ε α).Exec tr r ↔ tr = [] ∧ a = r := Iff.rfl

@[simp] theorem exec_abort {e : ε} {r : α} : ¬ (abort e : Prog Op Ans ε α).Exec tr r := id

@[simp] theorem exec_call {o : Op} {k : Ans o → Prog Op Ans ε α} {r : α} :
    (call o k).Exec tr r ↔ ∃ x t, tr = ⟨o, x⟩ :: t ∧ (k x).Exec t r := Iff.rfl

@[simp] theorem exec_perform {o : Op} {r : Ans o} :
    (perform o : Prog Op Ans ε (Ans o)).Exec tr r ↔ tr = [⟨o, r⟩] := by
  simp [perform]

@[simp] theorem admits_ret {a : α} : (ret a : Prog Op Ans ε α).Admits tr ↔ tr = [] := Iff.rfl

@[simp] theorem admits_abort {e : ε} : (abort e : Prog Op Ans ε α).Admits tr ↔ tr = [] := Iff.rfl

@[simp] theorem admits_call {o : Op} {k : Ans o → Prog Op Ans ε α} :
    (call o k).Admits tr ↔ tr = [] ∨ ∃ x t, tr = ⟨o, x⟩ :: t ∧ (k x).Admits t := Iff.rfl

@[simp] theorem admits_perform {o : Op} :
    (perform o : Prog Op Ans ε (Ans o)).Admits tr ↔ tr = [] ∨ ∃ x, tr = [⟨o, x⟩] := by
  simp [perform]

theorem admits_nil (p : Prog Op Ans ε α) : p.Admits [] := by
  cases p <;> simp

/-- A complete run is in particular a run. -/
theorem Exec.admits {r : α} (h : p.Exec tr r) : p.Admits tr := by
  induction p generalizing tr with
  | ret a => exact h.1
  | abort e => exact absurd h exec_abort
  | call o k ih =>
    obtain ⟨x, t, rfl, hx⟩ := h
    exact Or.inr ⟨x, t, rfl, ih x hx⟩

/-- A run seen up to an earlier point is a run. -/
theorem Admits.of_append (h : p.Admits (t₁ ++ t₂)) : p.Admits t₁ := by
  induction p generalizing t₁ with
  | ret a => exact (List.append_eq_nil_iff.1 h).1
  | abort e => exact (List.append_eq_nil_iff.1 h).1
  | call o k ih =>
    cases t₁ with
    | nil => exact Or.inl rfl
    | cons e t =>
      obtain h | ⟨x, t', heq, hx⟩ := h
      · exact absurd h (by simp)
      · obtain ⟨rfl, rfl⟩ := List.cons.inj heq
        exact Or.inr ⟨x, t, rfl, ih x hx⟩

/-! ## Composition -/

/-- **A complete run of a composition** is a run of each half. -/
theorem exec_bind {r : β} :
    (p >>= f).Exec tr r ↔ ∃ a t₁ t₂, tr = t₁ ++ t₂ ∧ p.Exec t₁ a ∧ (f a).Exec t₂ r := by
  induction p generalizing tr with
  | ret a => simp
  | abort e => simp
  | call o k ih =>
    simp only [call_bind, exec_call, ih]
    constructor
    · rintro ⟨x, t, rfl, a, t₁, t₂, rfl, h₁, h₂⟩
      exact ⟨a, ⟨o, x⟩ :: t₁, t₂, rfl, ⟨x, t₁, rfl, h₁⟩, h₂⟩
    · rintro ⟨a, _, t₂, rfl, ⟨x, t₁, rfl, h₁⟩, h₂⟩
      exact ⟨x, t₁ ++ t₂, rfl, a, t₁, t₂, rfl, h₁, h₂⟩

/-- **A run of a composition** has not left the first half, or completed
it and is in the second. -/
theorem admits_bind :
    (p >>= f).Admits tr ↔
      p.Admits tr ∨ ∃ a t₁ t₂, tr = t₁ ++ t₂ ∧ p.Exec t₁ a ∧ (f a).Admits t₂ := by
  induction p generalizing tr with
  | ret a =>
    simp only [ret_bind, admits_ret, exec_ret]
    constructor
    · exact fun h => Or.inr ⟨a, [], tr, rfl, ⟨rfl, rfl⟩, h⟩
    · rintro (rfl | ⟨_, _, t₂, rfl, ⟨rfl, rfl⟩, h⟩)
      · exact admits_nil _
      · exact h
  | abort e => simp
  | call o k ih =>
    simp only [call_bind, admits_call, exec_call, ih]
    constructor
    · rintro (rfl | ⟨x, t, rfl, h | ⟨a, t₁, t₂, rfl, h₁, h₂⟩⟩)
      · exact Or.inl (Or.inl rfl)
      · exact Or.inl (Or.inr ⟨x, t, rfl, h⟩)
      · exact Or.inr ⟨a, ⟨o, x⟩ :: t₁, t₂, rfl, ⟨x, t₁, rfl, h₁⟩, h₂⟩
    · rintro ((rfl | ⟨x, t, rfl, h⟩) | ⟨a, _, t₂, rfl, ⟨x, t₁, rfl, h₁⟩, h₂⟩)
      · exact Or.inl rfl
      · exact Or.inr ⟨x, t, rfl, Or.inl h⟩
      · exact Or.inr ⟨x, t₁ ++ t₂, rfl, Or.inr ⟨a, t₁, t₂, rfl, h₁, h₂⟩⟩

/-- **The events decide the run.** Two complete runs whose event lists
start the same history are the same run. -/
theorem Exec.unique {r₁ r₂ : α} {s₁ s₂ : List (Event Op Ans)} (h₁ : p.Exec t₁ r₁)
    (h₂ : p.Exec t₂ r₂) (heq : t₁ ++ s₁ = t₂ ++ s₂) : t₁ = t₂ ∧ r₁ = r₂ ∧ s₁ = s₂ := by
  induction p generalizing t₁ t₂ with
  | ret a =>
    obtain ⟨rfl, rfl⟩ := h₁
    obtain ⟨rfl, rfl⟩ := h₂
    exact ⟨rfl, rfl, heq⟩
  | abort e => exact absurd h₁ exec_abort
  | call o k ih =>
    obtain ⟨x, t, rfl, hx⟩ := h₁
    obtain ⟨y, t', rfl, hy⟩ := h₂
    simp only [List.cons_append, List.cons.injEq, Event.mk.injEq, heq_eq_eq, true_and] at heq
    obtain ⟨rfl, heq⟩ := heq
    obtain ⟨rfl, hr, hs⟩ := ih x hx hy heq
    exact ⟨rfl, hr, hs⟩

/-- A run that goes past a complete one would have to be longer than the
program: there is nothing after the return. -/
theorem Exec.no_continuation {r : α} (h₁ : p.Exec t₁ r) (h₂ : p.Admits (t₁ ++ t₂)) : t₂ = [] := by
  induction p generalizing t₁ with
  | ret a =>
    obtain ⟨rfl, -⟩ := h₁
    exact h₂
  | abort e => exact absurd h₁ exec_abort
  | call o k ih =>
    obtain ⟨x, t, rfl, hx⟩ := h₁
    obtain h | ⟨y, t', heq, hy⟩ := h₂
    · exact absurd h (by simp)
    · simp only [List.cons_append, List.cons.injEq, Event.mk.injEq, heq_eq_eq, true_and] at heq
      obtain ⟨rfl, rfl⟩ := heq
      exact ih x hx hy

/-! ## Programs that always return -/

@[simp] theorem total_ret {a : α} : (ret a : Prog Op Ans ε α).Total := trivial

@[simp] theorem not_total_abort {e : ε} : ¬ (abort e : Prog Op Ans ε α).Total := id

@[simp] theorem total_call {o : Op} {k : Ans o → Prog Op Ans ε α} :
    (call o k).Total ↔ ∀ x, (k x).Total := Iff.rfl

/-- A composition always returns when its first half does, and its second
half does after every run of the first. -/
theorem total_bind : (p >>= f).Total ↔ p.Total ∧ ∀ tr a, p.Exec tr a → (f a).Total := by
  induction p with
  | ret a =>
    simp only [ret_bind, total_ret, true_and, exec_ret]
    constructor
    · rintro h tr b ⟨-, rfl⟩
      exact h
    · exact fun h => h [] a ⟨rfl, rfl⟩
  | abort e => simp
  | call o k ih =>
    simp only [call_bind, total_call, ih, exec_call]
    constructor
    · intro h
      refine ⟨fun x => (h x).1, ?_⟩
      rintro tr a ⟨x, t, rfl, hx⟩
      exact (h x).2 t a hx
    · intro h x
      exact ⟨h.1 x, fun t a hx => h.2 _ a ⟨x, t, rfl, hx⟩⟩

/-! ## What a program can issue -/

@[simp] theorem uses_ret {a : α} : (ret a : Prog Op Ans ε α).Uses P := trivial

@[simp] theorem uses_abort {e : ε} : (abort e : Prog Op Ans ε α).Uses P := trivial

@[simp] theorem uses_call {o : Op} {k : Ans o → Prog Op Ans ε α} :
    (call o k).Uses P ↔ P o ∧ ∀ x, (k x).Uses P := Iff.rfl

@[simp] theorem uses_perform {o : Op} : (perform o : Prog Op Ans ε (Ans o)).Uses P ↔ P o := by
  simp [perform]

theorem Uses.bind (hp : p.Uses P) (hf : ∀ a, (f a).Uses P) : (p >>= f).Uses P := by
  induction p with
  | ret a => exact hf a
  | abort e => trivial
  | call o k ih => exact ⟨hp.1, fun x => ih x (hp.2 x)⟩

theorem Uses.mono (hp : p.Uses P) (h : ∀ o, P o → Q o) : p.Uses Q := by
  induction p with
  | ret a => trivial
  | abort e => trivial
  | call o k ih => exact ⟨h o hp.1, fun x => ih x (hp.2 x)⟩

/-- **What a program can issue is all a run of it issues.** -/
theorem Admits.of_uses (h : p.Admits tr) (hp : p.Uses P) : ∀ e ∈ tr, P e.op := by
  induction p generalizing tr with
  | ret a => rw [show tr = [] from h]; simp
  | abort e => rw [show tr = [] from h]; simp
  | call o k ih =>
    obtain rfl | ⟨x, t, rfl, hx⟩ := h
    · simp
    · intro e he
      obtain rfl | he := List.mem_cons.1 he
      · exact hp.1
      · exact ih x hx (hp.2 x) e he

/-! ## Driving a program -/

variable {σ : Type}

/-- Run a program against a handler, which answers a call from a state
and moves to the next one. -/
def drive (answer : σ → (o : Op) → Ans o × σ) :
    Prog Op Ans ε α → σ → List (Event Op Ans) × Except ε α × σ
  | ret a, s => ([], .ok a, s)
  | abort e, s => ([], .error e, s)
  | call o k, s =>
    let (x, s') := answer s o
    let (t, r) := (k x).drive answer s'
    (⟨o, x⟩ :: t, r)

variable {answer : σ → (o : Op) → Ans o × σ} {s : σ}

/-- A driven program makes one of its runs. -/
theorem admits_drive (p : Prog Op Ans ε α) (s : σ) : p.Admits (p.drive answer s).1 := by
  induction p generalizing s with
  | ret a => rfl
  | abort e => rfl
  | call o k ih => exact Or.inr ⟨_, _, rfl, ih _ _⟩

/-- **A driven program that returned made a complete run.** -/
theorem exec_drive {a : α} (h : (p.drive answer s).2.1 = .ok a) :
    p.Exec (p.drive answer s).1 a := by
  induction p generalizing s with
  | ret b => exact ⟨rfl, by simpa [drive] using h⟩
  | abort e => simp [drive] at h
  | call o k ih => exact ⟨_, _, rfl, ih _ h⟩

/-- What a driven program is answered comes from the answers. -/
theorem ans_of_mem_drive {o : Op} {x : Ans o} (h : ⟨o, x⟩ ∈ (p.drive answer s).1) :
    ∃ s', x = (answer s' o).1 := by
  induction p generalizing s with
  | ret a => cases h
  | abort e => cases h
  | call o' k ih =>
    rcases List.mem_cons.mp h with heq | h
    · cases heq
      exact ⟨s, rfl⟩
    · exact ih _ h

end Prog

/-! ## Chains of steps -/

section Chains

variable {σ ℓ : Type} (step : σ → ℓ → σ → Prop)

/-- The states along a list of labels. -/
def Along : σ → List ℓ → σ → Prop
  | s, [], s' => s' = s
  | s, l :: ls, s' => ∃ m, step s l m ∧ Along m ls s'

variable {step} {s s' : σ} {l₁ l₂ : List ℓ}

@[simp] theorem along_nil : Along step s [] s' ↔ s' = s := Iff.rfl

@[simp] theorem along_cons {l : ℓ} {ls : List ℓ} :
    Along step s (l :: ls) s' ↔ ∃ m, step s l m ∧ Along step m ls s' := Iff.rfl

/-- A chain over two stretches passes through a state between them. -/
theorem along_append :
    Along step s (l₁ ++ l₂) s' ↔ ∃ m, Along step s l₁ m ∧ Along step m l₂ s' := by
  induction l₁ generalizing s with
  | nil => simp
  | cons l ls ih =>
    simp only [List.cons_append, along_cons, ih]
    constructor
    · rintro ⟨m, hs, m', h₁, h₂⟩
      exact ⟨m', ⟨m, hs, h₁⟩, h₂⟩
    · rintro ⟨m', ⟨m, hs, h₁⟩, h₂⟩
      exact ⟨m, hs, m', h₁, h₂⟩

/-- **The rule of invariants.** What every step preserves, a chain
preserves; each step may be taken to be one of the chain. -/
theorem Along.invariant {I : σ → Prop} (h : Along step s l₁ s')
    (hstep : ∀ l ∈ l₁, ∀ a b, step a l b → I a → I b) (hs : I s) : I s' := by
  induction l₁ generalizing s with
  | nil => rwa [along_nil.1 h]
  | cons l ls ih =>
    obtain ⟨m, hm, h⟩ := h
    exact ih h (fun l' hl' => hstep l' (List.mem_cons_of_mem _ hl'))
      (hstep l List.mem_cons_self s m hm hs)

/-- A chain of steps, seen through a function of the states. -/
theorem Along.map {τ : Type} {step' : τ → ℓ → τ → Prop} (f : σ → τ) (h : Along step s l₁ s')
    (hstep : ∀ a l b, step a l b → step' (f a) l (f b)) : Along step' (f s) l₁ (f s') := by
  induction l₁ generalizing s with
  | nil => exact congrArg f h
  | cons l ls ih =>
    obtain ⟨m, hm, h⟩ := h
    exact ⟨f m, hstep _ _ _ hm, ih h⟩

/-- A driven program's events are a chain, when every answer is a step. -/
theorem along_drive {Op : Type} {Ans : Op → Type} {ε α : Type}
    {answer : σ → (o : Op) → Ans o × σ} {step : σ → Event Op Ans → σ → Prop}
    (h : ∀ s o, step s ⟨o, (answer s o).1⟩ (answer s o).2) (p : Prog Op Ans ε α) (s : σ) :
    Along step s (p.drive answer s).1 (p.drive answer s).2.2 := by
  induction p generalizing s with
  | ret a => rfl
  | abort e => rfl
  | call o k ih => exact ⟨_, h s o, ih _ _⟩

/-- The same for the first events of a driven program, up to the state
their answers lead to. -/
theorem along_drive_prefix {Op : Type} {Ans : Op → Type} {ε α : Type}
    {answer : σ → (o : Op) → Ans o × σ} {step : σ → Event Op Ans → σ → Prop}
    (h : ∀ s o, step s ⟨o, (answer s o).1⟩ (answer s o).2) (p : Prog Op Ans ε α) {s : σ}
    {t₁ t₂ : List (Event Op Ans)} (heq : (p.drive answer s).1 = t₁ ++ t₂) :
    Along step s t₁ (t₁.foldl (fun s e => (answer s e.op).2) s) := by
  induction t₁ generalizing p s with
  | nil => rfl
  | cons e t₁ ih =>
    cases p with
    | ret a => cases heq
    | abort err => cases heq
    | call o k =>
      obtain ⟨rfl, heq'⟩ := List.cons.inj heq
      exact ⟨_, h s o, ih _ heq'⟩

end Chains

/-! ## Fallible programs -/

variable {E : Type}

/-- A program that may also return a failure. -/
abbrev Fallible (Op : Type) (Ans : Op → Type) (ε E α : Type) : Type :=
  ExceptT E (Prog Op Ans ε) α

namespace Fallible

variable {x : Fallible Op Ans ε E α} {f : α → Fallible Op Ans ε E β} {P : Op → Prop}
variable {tr : List (Event Op Ans)}

/-- What follows `x`: its failure, or `f` on what it returned. -/
theorem run_bind_eq :
    (x >>= f).run = x.run >>= fun
      | .ok a => (f a).run
      | .error e => Prog.ret (.error e) := by
  change x.run >>= ExceptT.bindCont f = _
  congr 1
  funext r
  cases r <;> rfl

/-- A complete run of a fallible composition: the first half failed, or
it returned and the second half ran. -/
theorem exec_bind {r : Except E β} :
    (x >>= f).run.Exec tr r ↔
      (∃ e, x.run.Exec tr (.error e) ∧ r = .error e) ∨
        ∃ a t₁ t₂, tr = t₁ ++ t₂ ∧ x.run.Exec t₁ (.ok a) ∧ (f a).run.Exec t₂ r := by
  rw [run_bind_eq, Prog.exec_bind]
  constructor
  · rintro ⟨e | a, t₁, t₂, rfl, h₁, h₂⟩
    · obtain ⟨rfl, rfl⟩ := h₂
      exact Or.inl ⟨e, by simpa using h₁, rfl⟩
    · exact Or.inr ⟨a, t₁, t₂, rfl, h₁, h₂⟩
  · rintro (⟨e, h, rfl⟩ | ⟨a, t₁, t₂, rfl, h₁, h₂⟩)
    · exact ⟨.error e, tr, [], by simp, h, rfl, rfl⟩
    · exact ⟨.ok a, t₁, t₂, rfl, h₁, h₂⟩

/-- A run of a fallible composition that returned a value: both halves
did. -/
theorem exec_bind_ok {b : β} :
    (x >>= f).run.Exec tr (.ok b) ↔
      ∃ a t₁ t₂, tr = t₁ ++ t₂ ∧ x.run.Exec t₁ (.ok a) ∧ (f a).run.Exec t₂ (.ok b) := by
  rw [exec_bind]
  constructor
  · rintro (⟨e, -, h⟩ | h)
    · cases h
    · exact h
  · exact Or.inr

/-- A run of a fallible composition is in the first half, or in the
second after the first returned. -/
theorem admits_bind :
    (x >>= f).run.Admits tr ↔
      x.run.Admits tr ∨
        ∃ a t₁ t₂, tr = t₁ ++ t₂ ∧ x.run.Exec t₁ (.ok a) ∧ (f a).run.Admits t₂ := by
  rw [run_bind_eq, Prog.admits_bind]
  constructor
  · rintro (h | ⟨e | a, t₁, t₂, rfl, h₁, h₂⟩)
    · exact Or.inl h
    · rw [show t₂ = [] from h₂, List.append_nil]
      exact Or.inl h₁.admits
    · exact Or.inr ⟨a, t₁, t₂, rfl, h₁, h₂⟩
  · rintro (h | ⟨a, t₁, t₂, rfl, h₁, h₂⟩)
    · exact Or.inl h
    · exact Or.inr ⟨.ok a, t₁, t₂, rfl, h₁, h₂⟩

theorem uses_bind (hx : x.run.Uses P) (hf : ∀ a, (f a).run.Uses P) : (x >>= f).run.Uses P := by
  rw [run_bind_eq]
  refine hx.bind fun r => ?_
  cases r with
  | error e => trivial
  | ok a => exact hf a

@[simp] theorem exec_pure {a : α} {r : Except E α} :
    (pure a : Fallible Op Ans ε E α).run.Exec tr r ↔ tr = [] ∧ Except.ok a = r := Iff.rfl

@[simp] theorem exec_throw {e : E} {r : Except E α} :
    (throw e : Fallible Op Ans ε E α).run.Exec tr r ↔ tr = [] ∧ Except.error e = r := Iff.rfl

@[simp] theorem admits_pure {a : α} :
    (pure a : Fallible Op Ans ε E α).run.Admits tr ↔ tr = [] := Iff.rfl

@[simp] theorem admits_throw {e : E} :
    (throw e : Fallible Op Ans ε E α).run.Admits tr ↔ tr = [] := Iff.rfl

@[simp] theorem uses_pure {a : α} : (pure a : Fallible Op Ans ε E α).run.Uses P := trivial

@[simp] theorem uses_throw {e : E} : (throw e : Fallible Op Ans ε E α).run.Uses P := trivial

variable {p : Prog Op Ans ε α}

@[simp] theorem exec_lift {r : Except E α} :
    (ExceptT.lift p : Fallible Op Ans ε E α).run.Exec tr r ↔ ∃ a, p.Exec tr a ∧ r = .ok a := by
  change (p >>= fun a => pure (Except.ok a)).Exec tr r ↔ _
  rw [Prog.exec_bind]
  constructor
  · rintro ⟨a, t₁, t₂, rfl, h₁, rfl, rfl⟩
    exact ⟨a, by simpa using h₁, rfl⟩
  · rintro ⟨a, h, rfl⟩
    exact ⟨a, tr, [], by simp, h, rfl, rfl⟩

@[simp] theorem admits_lift :
    (ExceptT.lift p : Fallible Op Ans ε E α).run.Admits tr ↔ p.Admits tr := by
  change (p >>= fun a => pure (Except.ok a)).Admits tr ↔ _
  rw [Prog.admits_bind]
  constructor
  · rintro (h | ⟨a, t₁, t₂, rfl, h₁, h₂⟩)
    · exact h
    · rw [show t₂ = [] from h₂, List.append_nil]
      exact h₁.admits
  · exact Or.inl

@[simp] theorem uses_lift : (ExceptT.lift p : Fallible Op Ans ε E α).run.Uses P ↔ p.Uses P := by
  change (p >>= fun a => pure (Except.ok a)).Uses P ↔ _
  induction p with
  | ret a => simp
  | abort e => simp
  | call o k ih => exact and_congr_right fun _ => forall_congr' ih

/-- When a fallible composition always returns. -/
theorem total_bind : (x >>= f).run.Total ↔
    x.run.Total ∧ ∀ tr a, x.run.Exec tr (.ok a) → (f a).run.Total := by
  rw [run_bind_eq, Prog.total_bind]
  constructor
  · rintro ⟨hx, hf⟩
    exact ⟨hx, fun tr a ha => hf tr _ ha⟩
  · rintro ⟨hx, hf⟩
    refine ⟨hx, fun tr r hr => ?_⟩
    cases r with
    | error e => exact Prog.total_ret
    | ok a => exact hf tr a hr

/-- Every event of every run that returned a value satisfies `Q`. -/
def OkRuns (Q : Event Op Ans → Prop) (x : Fallible Op Ans ε E α) : Prop :=
  ∀ tr a, x.run.Exec tr (.ok a) → ∀ e ∈ tr, Q e

variable {Q : Event Op Ans → Prop}

theorem OkRuns.pure {a : α} : OkRuns Q (pure a : Fallible Op Ans ε E α) := by
  rintro tr b ⟨rfl, -⟩
  simp

theorem OkRuns.throw {e : E} : OkRuns Q (throw e : Fallible Op Ans ε E α) := by
  rintro tr b ⟨-, h⟩
  cases h

theorem OkRuns.bind (hx : OkRuns Q x) (hf : ∀ a, OkRuns Q (f a)) : OkRuns Q (x >>= f) := by
  intro tr b h
  obtain ⟨a, t₁, t₂, rfl, h₁, h₂⟩ := exec_bind_ok.1 h
  intro e he
  obtain he | he := List.mem_append.1 he
  · exact hx _ _ h₁ e he
  · exact hf a _ _ h₂ e he

end Fallible

end Interact
