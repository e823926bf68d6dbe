import DynDynser.Model.Events
/-!
# The process

The ids of the process and what the system calls about them do, as POSIX
and the manual pages of `setresuid` have it: root may become anyone, an
id of `-1` leaves what there is, a call that fails changes nothing, and
`setuid` is refused to a process that is neither root nor, by its real or
saved id, the user it asks for.
-/

namespace DynDynser

/-- `(uid_t) -1`, which no process has as an id. -/
def noId : ℕ := 4294967295

/-- The real, the effective and the saved id. -/
structure Ids where
  real : ℕ
  effective : ℕ
  saved : ℕ
  valid : real ≠ noId ∧ effective ≠ noId ∧ saved ≠ noId

/-- The ids of a process. -/
structure ProcessIds where
  uids : Ids
  gids : Ids
  groups : List ℕ

/-- The id a call leaves, given the id it asks for and the id there was. -/
def chosen (asked there : ℕ) : ℕ := if asked = noId then there else asked

/-- The ids after a call that sets all three. -/
def Ids.Set (ids : Ids) (r e s : ℕ) (ids' : Ids) : Prop :=
  ids'.real = chosen r ids.real ∧ ids'.effective = chosen e ids.effective ∧
    ids'.saved = chosen s ids.saved

/-- Are these ids the process has already? -/
def Ids.Has (ids : Ids) (r e s : ℕ) : Prop :=
  ∀ i ∈ [r, e, s], i = noId ∨ i = ids.real ∨ i = ids.effective ∨ i = ids.saved

/-- **What a call and its answer say about the process.** -/
def ProcessIds.Step (p : ProcessIds) (e : Event) (p' : ProcessIds) : Prop :=
  match e with
  | ⟨.geteuid, euid⟩ => p' = p ∧ euid = p.uids.effective
  | ⟨.getuid, uid⟩ => p' = p ∧ uid = p.uids.real
  | ⟨.getgid, gid⟩ => p' = p ∧ gid = p.gids.real
  | ⟨.setgroups groups, .ok _⟩ => p.uids.effective = 0 ∧ p' = { p with groups }
  | ⟨.setresgid r e s, .ok _⟩ =>
    (p.uids.effective = 0 ∨ p.gids.Has r e s) ∧
      p'.uids = p.uids ∧ p'.groups = p.groups ∧ p.gids.Set r e s p'.gids
  | ⟨.setresuid r e s, .ok _⟩ =>
    (p.uids.effective = 0 ∨ p.uids.Has r e s) ∧
      p'.gids = p.gids ∧ p'.groups = p.groups ∧ p.uids.Set r e s p'.uids
  | ⟨.setuid uid, .ok _⟩ =>
    p'.gids = p.gids ∧ p'.groups = p.groups ∧ p'.uids.effective = uid ∧
      (p.uids.effective = 0 ∧ p'.uids.real = uid ∧ p'.uids.saved = uid ∨
        p.uids.effective ≠ 0 ∧ (uid = p.uids.real ∨ uid = p.uids.saved) ∧
          p'.uids.real = p.uids.real ∧ p'.uids.saved = p.uids.saved)
  | ⟨.setuid uid, .error _⟩ =>
    p' = p ∧ p.uids.effective ≠ 0 ∧ uid ≠ p.uids.real ∧ uid ≠ p.uids.saved
  | _ => p' = p

end DynDynser
