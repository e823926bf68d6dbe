import DynDynser.Helpers.Calls
import DynDynser.Model.Unix
/-!
# Dropping privileges

A complete drop found the process without privileges, or it looked up a
user, made the three calls that change to it, and saw the change: the
user and group it asked for, and no way back to root.
-/

namespace DynDynser

open Interact Fallible

variable {tr : Trace} {username : String}

/-- The lookups of a drop: the user named, or else the user `nobody`. -/
def Looked (username : String) (tr : Trace) (user : User) : Prop :=
  tr = [⟨.userFromName username, .ok (some user)⟩] ∨
    tr = [⟨.userFromName username, .ok none⟩, ⟨.userFromName "nobody", .ok (some user)⟩]

theorem exec_dropTarget {user : User} (h : (dropTarget username).run.Exec tr (.ok user)) :
    Looked username tr user := by
  unfold dropTarget at h
  obtain ⟨named, t₁, t₂, rfl, h₁, h₂⟩ := exec_bind_ok.mp h
  obtain rfl := exec_call.mp (exec_context_ok.mp h₁)
  cases named with
  | some user' =>
    obtain ⟨rfl, heq⟩ := exec_pure.mp h₂
    cases heq
    exact Or.inl (by simp)
  | none =>
    obtain ⟨fallback, t₃, t₄, rfl, h₃, h₄⟩ := exec_bind_ok.mp h₂
    obtain ⟨_, rfl, heq⟩ := exec_ask.mp h₃
    cases heq
    obtain ⟨rfl, hfound⟩ := exec_okOr.mp h₄
    cases fallback with
    | error err => cases hfound
    | ok found =>
      obtain rfl : found = some user := hfound
      exact Or.inr rfl

/-- The calls of a drop to a user, which all went through, the last one
excepted. -/
def dropTrace (user : User) (e : Error) : Trace :=
  [⟨.setgroups [], .ok ()⟩, ⟨.setresgid user.gid user.gid user.gid, .ok ()⟩,
    ⟨.setresuid user.uid user.uid user.uid, .ok ()⟩, ⟨.getuid, user.uid⟩, ⟨.getgid, user.gid⟩,
    ⟨.setuid 0, .error e⟩]

/-- **A complete drop** had nothing to drop, or has dropped to a user it
looked up. -/
theorem exec_maybeDropPrivileges
    (h : (maybeDropPrivileges username).run.Exec tr (.ok ())) :
    (∃ euid : ℕ, euid ≠ 0 ∧ tr = [⟨.geteuid, euid⟩]) ∨
      ∃ lookups user e, Looked username lookups user ∧
        tr = ⟨.geteuid, (0 : ℕ)⟩ :: (lookups ++ dropTrace user e) := by
  unfold maybeDropPrivileges at h
  obtain ⟨euid, t₁, t₂, rfl, h₁, h₂⟩ := exec_bind_ok.mp h
  obtain ⟨_, rfl, heq⟩ := exec_ask.mp h₁
  cases heq
  split at h₂
  · next hne =>
    obtain ⟨rfl, -⟩ := exec_pure.mp h₂
    exact Or.inl ⟨euid, hne, rfl⟩
  · next hroot =>
    obtain rfl : euid = (0 : ℕ) := Decidable.not_not.mp hroot
    obtain ⟨user, t₃, t₄, rfl, h₃, h₄⟩ := exec_bind_ok.mp h₂
    obtain ⟨_, t₅, t₆, rfl, h₅, h₆⟩ := exec_bind_ok.mp h₄
    obtain ⟨_, t₇, t₈, rfl, h₇, h₈⟩ := exec_bind_ok.mp h₆
    obtain ⟨_, t₉, t₁₀, rfl, h₉, h₁₀⟩ := exec_bind_ok.mp h₈
    obtain ⟨uid, t₁₁, t₁₂, rfl, h₁₁, h₁₂⟩ := exec_bind_ok.mp h₁₀
    obtain rfl := exec_call.mp h₅
    obtain rfl := exec_call.mp h₇
    obtain rfl := exec_call.mp h₉
    obtain ⟨_, rfl, heq⟩ := exec_ask.mp h₁₁
    cases heq
    split at h₁₂
    · cases (exec_throw.mp h₁₂).2
    next huid =>
    obtain ⟨gid, t₁₃, t₁₄, rfl, h₁₃, h₁₄⟩ := exec_bind_ok.mp h₁₂
    obtain ⟨_, rfl, heq⟩ := exec_ask.mp h₁₃
    cases heq
    split at h₁₄
    · cases (exec_throw.mp h₁₄).2
    next hgid =>
    obtain ⟨again, t₁₅, t₁₆, rfl, h₁₅, h₁₆⟩ := exec_bind_ok.mp h₁₄
    obtain ⟨_, rfl, heq⟩ := exec_ask.mp h₁₅
    cases heq
    split at h₁₆
    · cases (exec_throw.mp h₁₆).2
    next hagain =>
    obtain ⟨rfl, -⟩ := exec_pure.mp h₁₆
    obtain rfl := Decidable.not_not.mp huid
    obtain rfl := Decidable.not_not.mp hgid
    cases again with
    | ok _ => exact absurd rfl hagain
    | error e => exact Or.inr ⟨t₃, user, e, exec_dropTarget h₃, rfl⟩

end DynDynser
