import DynDynser.Model.Host
/-!
# What a run shows

The events of a run, read for what they say: the keys listed, the objects
fetched, the batches posted and the keys deleted. Everything said of a run
of the program is said in these terms.
-/

namespace DynDynser

open Text

/-- What a call is about. -/
inductive Kind where
  | handle
  | list
  | get
  | put
  | delete
  | file
  | clock
  | user
  | client
  | post
  | query
  | print
  | logger
deriving DecidableEq

/-- What each call is about. -/
def Op.kind : Op → Kind
  | .credentialsDefault | .credentialsNew .. | .bucketNew .. => .handle
  | .listPage .. => .list
  | .getObject .. => .get
  | .putObject .. => .put
  | .deleteObject .. => .delete
  | .readDir _ | .metadata _ | .openFile _ | .readToEnd _ => .file
  | .utcNow => .clock
  | .geteuid | .getuid | .getgid | .userFromName _ | .setgroups _ | .setresgid .. | .setresuid ..
  | .setuid _ => .user
  | .httpClientBuild => .client
  | .changeResourceRecordSets _ => .post
  | .httpGet _ => .query
  | .println _ => .print
  | .syslogUnix => .logger

/-- The keys a page shows. -/
def listed₁ : Event → List String
  | ⟨.listPage _ _ _ _, .ok page⟩ => page.contents
  | _ => []

/-- The keys listed in a run, in order. -/
def listed (t : Trace) : List String := t.flatMap listed₁

/-- The fetch of a key, with its answer. -/
def got? : Event → Option (String × Result Bytes)
  | ⟨.getObject _ key, answer⟩ => some (key, answer)
  | _ => none

/-- The objects fetched in a run, in order. -/
def gets (t : Trace) : List (String × Result Bytes) := t.filterMap got?

/-- The batch a call posts. -/
def posted? : Event → Option ChangeRequest
  | ⟨.changeResourceRecordSets req, _⟩ => some req
  | _ => none

/-- The batches posted in a run, in order. -/
def posts (t : Trace) : List ChangeRequest := t.filterMap posted?

/-- The key a call deletes. -/
def deleted? : Event → Option String
  | ⟨.deleteObject _ key, _⟩ => some key
  | _ => none

/-- The keys a run issues a delete on, in order. -/
def deletes (t : Trace) : List String := t.filterMap deleted?

/-- The delete of a key, with its answer. -/
def deletion? : Event → Option (String × Result ℕ)
  | ⟨.deleteObject _ key, answer⟩ => some (key, answer)
  | _ => none

/-- The deletes of a run, in order. -/
def deletions (t : Trace) : List (String × Result ℕ) := t.filterMap deletion?

/-- What was delivered of a file. -/
def read? : Event → Option Bytes
  | ⟨.readToEnd _, .ok content⟩ => some content
  | _ => none

/-- What was delivered of files in a run, in order. -/
def reads (t : Trace) : List Bytes := t.filterMap read?

/-- A reading of the clock. -/
def clock? : Event → Option Instant
  | ⟨.utcNow, now⟩ => some now
  | _ => none

/-- The readings of the clock in a run, in order. -/
def clocks (t : Trace) : List Instant := t.filterMap clock?

/-- Is this the acknowledgement of a batch: an answer with a status of
success that could be read? -/
def acknowledges : Event → Bool
  | ⟨.changeResourceRecordSets _, .ok resp⟩ => resp.isSuccess && resp.body.isOk
  | _ => false

/-- Is this a failure that ends the run? The fetch or the delete of an
object may fail, which is recorded. The last attempt to become root again
is meant to fail, and it ends the run that it does not. What the code
finds wrong of itself in answers that succeeded, as an id that is not the
one set, is no failure of a call. -/
def fails : Event → Bool
  | ⟨.credentialsDefault, .error _⟩ => true
  | ⟨.credentialsNew _ _, .error _⟩ => true
  | ⟨.bucketNew _ _, .error _⟩ => true
  | ⟨.listPage _ _ _ _, .error _⟩ => true
  | ⟨.readDir _, .error _⟩ => true
  | ⟨.metadata _, .error _⟩ => true
  | ⟨.openFile _, .error _⟩ => true
  | ⟨.readToEnd _, .error _⟩ => true
  | ⟨.userFromName _, .error _⟩ => true
  | ⟨.setgroups _, .error _⟩ => true
  | ⟨.setresgid _ _ _, .error _⟩ => true
  | ⟨.setresuid _ _ _, .error _⟩ => true
  | ⟨.setuid _, .ok _⟩ => true
  | ⟨.syslogUnix, .error _⟩ => true
  | ⟨.httpClientBuild, .error _⟩ => true
  | ⟨.changeResourceRecordSets _, .error _⟩ => true
  | ⟨.changeResourceRecordSets _, .ok resp⟩ => !(resp.isSuccess && resp.body.isOk)
  | _ => false

section

variable {t t₁ t₂ : Trace}

@[simp] theorem listed_nil : listed [] = [] := rfl

@[simp] theorem listed_append : listed (t₁ ++ t₂) = listed t₁ ++ listed t₂ := List.flatMap_append

@[simp] theorem gets_nil : gets [] = [] := rfl

@[simp] theorem gets_append : gets (t₁ ++ t₂) = gets t₁ ++ gets t₂ := List.filterMap_append

@[simp] theorem posts_nil : posts [] = [] := rfl

@[simp] theorem posts_append : posts (t₁ ++ t₂) = posts t₁ ++ posts t₂ := List.filterMap_append

@[simp] theorem deletes_nil : deletes [] = [] := rfl

@[simp] theorem deletes_append : deletes (t₁ ++ t₂) = deletes t₁ ++ deletes t₂ :=
  List.filterMap_append

@[simp] theorem deletions_nil : deletions [] = [] := rfl

@[simp] theorem reads_nil : reads [] = [] := rfl

@[simp] theorem deletions_append : deletions (t₁ ++ t₂) = deletions t₁ ++ deletions t₂ :=
  List.filterMap_append

@[simp] theorem reads_append : reads (t₁ ++ t₂) = reads t₁ ++ reads t₂ := List.filterMap_append

@[simp] theorem clocks_nil : clocks [] = [] := rfl

@[simp] theorem clocks_append : clocks (t₁ ++ t₂) = clocks t₁ ++ clocks t₂ := List.filterMap_append

/-- A run that lists nothing lists no key. -/
theorem listed_eq_nil (h : ∀ e ∈ t, e.op.kind ≠ .list) : listed t = [] := by
  refine List.flatMap_eq_nil_iff.2 fun e he => ?_
  have hk := h e he
  obtain ⟨o, x⟩ := e
  cases o <;> first | rfl | exact absurd rfl hk

/-- A run without a fetch fetches nothing. -/
theorem gets_eq_nil (h : ∀ e ∈ t, e.op.kind ≠ .get) : gets t = [] := by
  refine List.filterMap_eq_nil_iff.2 fun e he => ?_
  have hk := h e he
  obtain ⟨o, x⟩ := e
  cases o <;> first | rfl | exact absurd rfl hk

theorem posts_eq_nil (h : ∀ e ∈ t, e.op.kind ≠ .post) : posts t = [] := by
  refine List.filterMap_eq_nil_iff.2 fun e he => ?_
  have hk := h e he
  obtain ⟨o, x⟩ := e
  cases o <;> first | rfl | exact absurd rfl hk

/-- Only a post is acknowledged. -/
theorem not_acknowledges {e : Event} (h : e.op.kind ≠ .post) : acknowledges e = false := by
  obtain ⟨o, x⟩ := e
  cases o <;> first | rfl | exact absurd rfl h

/-- Fetches and readings of the clock do not end a run. -/
theorem not_fails {e : Event} (h : e.op.kind = .get ∨ e.op.kind = .clock) : fails e = false := by
  obtain ⟨o, x⟩ := e
  cases o <;> first | rfl | (rcases h with h | h <;> cases h)

/-- A batch is acknowledged, or its post has failed. -/
theorem acknowledges_eq_not_fails {req : ChangeRequest} {ans : Result (Response String)} :
    acknowledges ⟨.changeResourceRecordSets req, ans⟩ =
      !fails ⟨.changeResourceRecordSets req, ans⟩ := by
  cases ans with
  | error e => rfl
  | ok resp => exact (Bool.not_not _).symm

theorem deletes_eq_nil (h : ∀ e ∈ t, e.op.kind ≠ .delete) : deletes t = [] := by
  refine List.filterMap_eq_nil_iff.2 fun e he => ?_
  have hk := h e he
  obtain ⟨o, x⟩ := e
  cases o <;> first | rfl | exact absurd rfl hk

theorem mem_deletes {key : String} :
    key ∈ deletes t ↔ ∃ bucket ans, (⟨.deleteObject bucket key, ans⟩ : Event) ∈ t := by
  constructor
  · intro h
    obtain ⟨⟨o, x⟩, he, hkey⟩ := List.mem_filterMap.mp h
    cases o with
    | deleteObject bucket key' =>
      obtain rfl : key' = key := Option.some.inj hkey
      exact ⟨bucket, x, he⟩
    | _ => cases hkey
  · rintro ⟨bucket, ans, he⟩
    exact List.mem_filterMap.mpr ⟨_, he, rfl⟩

/-- A run that deletes nothing has no delete in it. -/
theorem not_delete_of_deletes (h : deletes t = []) {e : Event} (he : e ∈ t) :
    e.op.kind ≠ .delete := by
  intro hk
  have hnone := List.filterMap_eq_nil_iff.mp h e he
  obtain ⟨o, x⟩ := e
  cases o <;> first | exact absurd hnone (Option.some_ne_none _) | cases hk

/-- A run that posts nothing has no post in it. -/
theorem not_post_of_posts (h : posts t = []) {e : Event} (he : e ∈ t) : e.op.kind ≠ .post := by
  intro hk
  have hnone := List.filterMap_eq_nil_iff.mp h e he
  obtain ⟨o, x⟩ := e
  cases o <;> first | exact absurd hnone (Option.some_ne_none _) | cases hk

theorem deletions_eq_nil (h : ∀ e ∈ t, e.op.kind ≠ .delete) : deletions t = [] := by
  refine List.filterMap_eq_nil_iff.2 fun e he => ?_
  have hk := h e he
  obtain ⟨o, x⟩ := e
  cases o <;> first | rfl | exact absurd rfl hk

theorem reads_eq_nil (h : ∀ e ∈ t, e.op.kind ≠ .file) : reads t = [] := by
  refine List.filterMap_eq_nil_iff.2 fun e he => ?_
  have hk := h e he
  obtain ⟨o, x⟩ := e
  cases o <;> first | rfl | exact absurd rfl hk

end

end DynDynser
