import DynDynser.Model.Host
/-!
# Privileges

`src/unix.rs`: the permanent drop from root to a named user, and the
mapping of permission errors to advice.
-/

namespace DynDynser

/-- `MustBeRoot::or_must_be_root`. -/
def orMustBeRoot {α : Type} (ctx : String) (r : Except IoError α) : Result α :=
  r.mapError fun e =>
    if e.permissionDenied then Error.msg ("must be root: " ++ ctx) else Error.msg e.text

/-- The user to drop to: the one named, or else `nobody`. -/
def dropTarget (username : String) : Rust User := do
  let named ← context "failed to check user exists" (tryCall (call (.userFromName username)))
  match named with
  | some user => return user
  | none =>
    let fallback : Result (Option User) ← ask (.userFromName "nobody")
    okOr fallback.toOption.join
      s!"user '{username}' not found and fallback 'nobody' also not found"

/-- `maybe_drop_privileges`: permanently drop to the given user and its
group. The order matters, and the drop is verified after the fact. -/
def maybeDropPrivileges (username : String) : Rust Unit := do
  let euid : ℕ ← ask .geteuid
  if euid ≠ 0 then
    -- already unprivileged: nothing to drop
    return ()
  else
    let user ← dropTarget username
    tryCall (call (.setgroups []))
    tryCall (call (.setresgid user.gid user.gid user.gid))
    tryCall (call (.setresuid user.uid user.uid user.uid))
    let uid : ℕ ← ask .getuid
    if uid ≠ user.uid then
      throw (Error.msg "privilege drop verification failed")
    else
      let gid : ℕ ← ask .getgid
      if gid ≠ user.gid then
        throw (Error.msg "privilege drop verification failed")
      else
        let again : Result Unit ← ask (.setuid 0)
        if again.isOk then
          throw (Error.msg "re-escalation succeeded — aborting")
        else
          return ()

end DynDynser
