import DynDynser.Overwrites
import DynDynser.Quiescence
/-!
# What a result tells

Whoever started a server run sees its result alone. An error names the
stage it comes from in its outermost context, and that is enough to know
what has become of the bucket and of the zone (`result_tells`): whether the
run can be started again as if it had not been, whether the records may
already be the new ones, and whether they are.
-/

namespace DynDynser

open Text Interact Fallible World DynDynserServer Externals

/-- How far a run had come when it returned. -/
inductive Standing where
  /-- It returned `Ok`. -/
  | done
  /-- It came to no commit. -/
  | notBegun
  /-- The commit failed. -/
  | committing
  /-- The cleanup failed. -/
  | cleaning
  /-- It came to its end, with errors collected. -/
  | summarised
deriving DecidableEq

/-- **How far a run had come, by its result alone.** -/
def standing : Result Unit → Standing
  | .ok _ => .done
  | .error e =>
    if e.chain.head? = some "failed to commit dns changes" then .committing
    else if e.chain.head? = some "failed to cleanup s3 ddns.json items" then .cleaning
    else if e.chain.head? = some "errors occurred while executing this dyndynser run" then
      .summarised
    else .notBegun

/-- One batch was posted, and the records are those after it. -/
def Applied (tr : Trace) (w w' : World) : Prop :=
  ∃ req, posts tr = [req] ∧ w'.records = (w.apply req.url req.changes).records

/-- **What the result of a run tells of the world it leaves.** -/
def Tells [Externals] (args : ServerArgs) (tr : Trace) (w w' : World) : Standing → Prop
  -- there was nothing to do, or all that was fetched is applied and gone
  | .done => w' = w ∨ Applied tr w w' ∧ ∀ a ∈ gets tr,
      Submitted tr a.1 ∧ w'.objects args.s3QueueBucket (objectKey a.1) = none
  | .notBegun => w' = w
  -- the objects are there, and the batch may have been applied
  | .committing => w'.objects = w.objects ∧ (w'.records = w.records ∨ Applied tr w w')
  -- the objects are there, and the batch was applied
  | .cleaning => w'.objects = w.objects ∧ Applied tr w w'
  -- the batch was applied, and no object is gone but those that were fetched
  | .summarised => Applied tr w w' ∧ ∀ key, key ∉ (gets tr).map (fun a => objectKey a.1) →
      w'.objects args.s3QueueBucket key = w.objects args.s3QueueBucket key

section

variable [Externals] {fuel : ℕ} {args : ServerArgs} {conf : ConfigServer} {plan : Plan}
variable {tr t₁ t₂ : Trace} {tokenKey : String → String} {w w' : World} {r : Result Unit}

/-! ## Before the commit -/

omit [Externals] in
/-- An error with another context is from before the commit. -/
theorem standing_context {e : Error} {c : String} (hc : c ∉ ["failed to commit dns changes",
    "failed to cleanup s3 ddns.json items",
    "errors occurred while executing this dyndynser run"]) :
    standing (.error (e.context c)) = .notBegun := by
  have hhead : (e.context c).chain.head? = some c := rfl
  simp only [List.mem_cons, List.not_mem_nil, or_false, not_or] at hc
  simp only [standing, hhead, Option.some.injEq, hc.1, hc.2.1, hc.2.2, if_false]

omit [Externals] in
/-- So is one that was given another context. -/
theorem standing_of_context {α : Type} {x : Rust α} {c : String} {e : Error}
    (hc : c ∉ ["failed to commit dns changes", "failed to cleanup s3 ddns.json items",
      "errors occurred while executing this dyndynser run"])
    (h : (context c x).run.Exec tr (.error e)) : standing (.error e) = .notBegun := by
  obtain ⟨r', -, heq⟩ := exec_context.mp h
  cases r' with
  | ok a => cases heq
  | error e' =>
    cases heq
    exact standing_context hc

/-- **No preparation fails with an error of a later stage.** -/
theorem standing_of_prepare {e : Error} (h : (prepare fuel conf).run.Exec tr (.error e)) :
    standing (.error e) = .notBegun := by
  replace h := exec_prepare_error h
  unfold survey judge at h
  obtain ⟨e', h₁, heq⟩ | ⟨credentials, t₁, t', rfl, -, h⟩ := Fallible.exec_bind.mp h
  · cases heq
    unfold AWSCliConfig.getS3Credentials at h₁
    split at h₁ <;> exact standing_of_context (by decide) h₁
  obtain ⟨e', h₂, heq⟩ | ⟨fetched, t₂, t', rfl, -, h⟩ := Fallible.exec_bind.mp h
  · cases heq
    exact standing_of_context (by decide) h₂
  split at h
  · cases (exec_pure.mp h).2
  obtain ⟨e', h₃, heq⟩ | ⟨keyMap, t₃, t', rfl, -, h⟩ := Fallible.exec_bind.mp h
  · cases heq
    unfold domainCertificates at h₃
    split at h₃
    · cases (exec_pure.mp h₃).2
    · exact standing_of_context (by decide) h₃
  split at h
  · cases (exec_pure.mp h).2
  obtain ⟨e', h₄, heq⟩ | ⟨st, t₄, t', rfl, -, h⟩ := Fallible.exec_bind.mp h
  · obtain ⟨_, -, hr⟩ := exec_lift.mp h₄
    cases hr
  obtain ⟨e', h₅, heq⟩ | ⟨_, t₅, t', rfl, -, h⟩ := Fallible.exec_bind.mp h
  · cases heq
    exact standing_of_context (by decide) h₅
  split at h
  · cases (exec_pure.mp h).2
  · cases (exec_pure.mp h).2

/-! ## From the commit on -/

/-- **A batch that was acknowledged is applied.** -/
theorem applied_of_acknowledged (h : (carryOut plan).run.Admits tr) (hrun : Run tokenKey w tr w')
    {e : Event} (he : e ∈ tr) (hack : acknowledges e = true) : Applied tr w w' := by
  rcases posts_carryOut h with hno | ⟨headers, hposts⟩
  · rw [not_acknowledges (not_post_of_posts hno he)] at hack
    cases hack
  · rcases Run.records_carryOut hrun h with ⟨-, hquiet⟩ | hrecords
    · rw [hquiet e he] at hack
      cases hack
    · exact ⟨_, hposts, hrecords⟩

/-! ## The objects -/

/-- **An object that was not fetched is as it was.** -/
theorem kept_of_unfetched (h : (handleServer fuel args).run.Admits tr) (hrun : Run tokenKey w tr w')
    {bucket key : String} (hkey : key ∉ (gets tr).map fun a => objectKey a.1) :
    w'.objects bucket key = w.objects bucket key := by
  refine Run.object_eq hrun (fun path ans hpath hmem => hkey ?_)
    fun path content contentType ans _ hmem => h.of_uses uses_handleServer _ hmem rfl
  -- what is deleted was fetched
  obtain ⟨plan, t₁, t₂, headers, resp, rfl, h₁, -, hdelete, -⟩ := plan_of_deleteObject h hmem
  obtain ⟨p⟩ := exec_prepare h₁
  obtain ⟨answer, hget⟩ := p.get_of_mem_deleteKeys hdelete
  rw [gets_append]
  exact List.mem_map.mpr ⟨_, List.mem_append_left _ hget, hpath⟩

/-- **After `Ok` an object that was fetched was submitted, and is gone**,
where a batch was posted: every request was accepted, and every delete has
succeeded. -/
theorem submitted_of_ok (hdry : args.isDryRun = false)
    (h : (handleServer fuel args).run.Exec tr (.ok ())) (hposts : posts tr ≠ [])
    (hrun : Run tokenKey w tr w') {a : String × Result Bytes} (ha : a ∈ gets tr) :
    Submitted tr a.1 ∧ w'.objects args.s3QueueBucket (objectKey a.1) = none := by
  obtain ⟨plan, t₁, t₂, rfl, h₁, h₂, -, hverified, hall⟩ := exec_handleServer_ok h hposts
  rw [gets_append, gets_carryOut h₂, List.append_nil] at ha
  obtain ⟨data, payload, hdata, hparse⟩ := hall a ha
  obtain ⟨key, answer⟩ := a
  obtain rfl : answer = .ok data := hdata
  have hv : UnverifiedDdnsRequest.verified ⟨payload, ⟨key⟩⟩ ∈ plan.verified := by
    have hmem : request? (key, .ok data) = some ⟨payload, ⟨key⟩⟩ := by
      simp [request?, hparse, Except.toOption]
    rw [hverified]
    exact List.mem_map_of_mem (List.mem_filterMap.mpr ⟨_, ha, hmem⟩)
  rcases exec_carryOut ((exec_handleServer hdry h₁).mp h) with ⟨⟨e, herror⟩, -⟩ |
    ⟨pre, headers, resp, rest, -, hack, rfl, ⟨e, herror, -⟩ | ⟨answers, hkeys, hsummary, rfl⟩⟩
  · cases herror
  · cases herror
  refine ⟨⟨data, payload, _, resp, ?_, hparse, ?_, hack, Plan.change_mem hv⟩, ?_⟩
  · rw [gets_append]
    exact List.mem_append_left _ ha
  · exact List.mem_append_right _ (List.mem_append_right _ List.mem_cons_self)
  · obtain ⟨p⟩ := exec_prepare h₁
    have hbucket : plan.server.conf.s3QueueBucket = args.s3QueueBucket := p.bucket_eq
    have hsuccess : answers.filterMap deleteFailure? = [] := by
      have hclean := (hasErrors_eq_false.mp (hasErrors_of_printSummary hsummary.symm)).2.2.2.2
      rw [deleteAll_eq] at hclean
      exact (List.append_eq_nil_iff.mp hclean).2
    have hkey : (⟨key⟩ : S3Key) ∈ plan.deleteKeys := Plan.mem_deleteKeys hv
    rw [← hkeys] at hkey
    rw [← hbucket]
    refine Run.deleted_of_answers hrun (h.admits.of_uses uses_handleServer) (fun b hb => ?_)
      (deleteFailures_eq_nil.mp hsuccess) hkey
    exact List.mem_append_right _ (List.mem_append_right _
      (List.mem_cons_of_mem _ (List.mem_cons_of_mem _ (List.mem_map_of_mem hb))))

/-! ## The result -/

/-- What the result of a run that came to a plan tells. -/
theorem tells_of_plan (hdry : args.isDryRun = false)
    (h₁ : (prepare fuel (ConfigServer.parse args)).run.Exec t₁ (.ok (some plan)))
    (h : (handleServer fuel args).run.Exec (t₁ ++ t₂) r) (hrun : Run tokenKey w (t₁ ++ t₂) w') :
    Tells args (t₁ ++ t₂) w w' (standing r) := by
  have h₂ := (exec_handleServer hdry h₁).mp h
  obtain ⟨hposts₁, hdeletes₁, -⟩ := quiet_prepare h₁.admits
  obtain ⟨m, hm, hrest⟩ := along_append.mp hrun
  obtain ⟨rfl, -⟩ := Run.listed_prepare hm h₁
  have hposts : posts (t₁ ++ t₂) = posts t₂ := by rw [posts_append, hposts₁, List.nil_append]
  have hobjects : deletes t₂ = [] → w'.objects = m.objects := fun hno =>
    objects_eq_of_deletes h.admits (by rw [deletes_append, hdeletes₁, hno, List.nil_append]) hrun
  rcases exec_carryOut h₂ with ⟨⟨e, rfl⟩, hno, -⟩ |
    ⟨pre, headers, resp, rest, hpre, hack, heq, hrest'⟩
  · -- the commit failed
    have hs : standing (.error (e.context "failed to commit dns changes")) = .committing := by
      simp [standing, Error.context]
    rw [hs]
    refine ⟨hobjects hno, ?_⟩
    rcases posts_carryOut h₂.admits with hnone | ⟨headers, hreq⟩
    · exact Or.inl (Run.records_eq hrun fun e he =>
        not_post_of_posts (hposts.trans hnone) he)
    · exact (Run.records_carryOut hrest h₂.admits).imp And.left fun hrecords =>
        ⟨_, hposts.trans hreq, hrecords⟩
  have happlied : Applied (t₁ ++ t₂) m w' := by
    obtain ⟨req, hreq, hrecords⟩ := applied_of_acknowledged h₂.admits hrest
      (by rw [heq]; exact List.mem_append_right _ List.mem_cons_self) hack
    exact ⟨req, hposts.trans hreq, hrecords⟩
  rcases hrest' with ⟨e, rfl, -, hhandle⟩ | ⟨answers, hkeys, rfl, rfl⟩
  · -- the cleanup failed
    have hs : standing (.error (e.context "failed to cleanup s3 ddns.json items")) = .cleaning := by
      simp [standing, Error.context]
    rw [hs]
    refine ⟨hobjects ?_, happlied⟩
    rw [heq]
    refine deletes_eq_nil fun e he hk => ?_
    rcases List.mem_append.mp he with he | he
    · rcases hpre e he with hc | hc <;> simp [hk] at hc
    · rcases List.mem_cons.mp he with rfl | he
      · exact Kind.noConfusion hk
      · have hrest := hhandle e he
        simp [hk] at hrest
  · by_cases herrors : (deleteAll answers plan.errors).hasErrors = true
    · have hs : standing (deleteAll answers plan.errors).printSummary = .summarised := by
        rw [ServerErrors.printSummary, if_pos herrors]
        simp [standing, Error.msg]
      rw [hs]
      exact ⟨happlied, fun key hkey => kept_of_unfetched h.admits hrun hkey⟩
    · rw [Bool.not_eq_true] at herrors
      have hok : (deleteAll answers plan.errors).printSummary = .ok () := by
        rw [ServerErrors.printSummary, herrors]
        rfl
      rw [hok] at h ⊢
      obtain ⟨req, hreq, -⟩ := id happlied
      exact Or.inr ⟨happlied, fun a ha =>
        submitted_of_ok hdry h (by rw [hreq]; exact List.cons_ne_nil _ _) hrun ha⟩

/-- **The result of a server run tells what has become of the world.**
From an error of a stage before the commit, nothing has changed; from an
error of the commit, no object is gone, and the records are as they were or
those of the batch; from one of the cleanup, no object is gone and the
records are those of the batch; and from the summary, they are, and no
object is gone that was not fetched. After `Ok` nothing has changed, or all
that was fetched was submitted, is applied and gone. -/
theorem result_tells (h : (handleServer fuel args).run.Exec tr r) (hrun : Run tokenKey w tr w') :
    Tells args tr w w' (standing r) := by
  have hfull := h
  rw [handleServer_eq] at h
  obtain ⟨e, h₁, rfl⟩ | ⟨o, t₁, t₂, rfl, h₁, h₂⟩ := Fallible.exec_bind.mp h
  · rw [standing_of_prepare h₁]
    exact Run.eq_of_quiet hrun (quiet_of_prepare h₁.admits)
  cases o with
  | none =>
    obtain ⟨rfl, rfl⟩ := exec_pure.mp h₂
    rw [List.append_nil] at hrun
    exact Or.inl (Run.eq_of_quiet hrun (quiet_of_prepare h₁.admits))
  | some plan =>
    by_cases hdry : args.isDryRun = true
    · have hdry' : (ConfigServer.parse args).isDryRun = true := hdry
      rw [finish, if_pos hdry'] at h₂
      obtain ⟨rfl, rfl⟩ := exec_foretell.mp h₂
      refine Or.inl (Run.eq_of_quiet hrun fun e he => ?_)
      rcases List.mem_append.mp he with he | he
      · exact quiet_of_prepare h₁.admits e he
      · have hprint := h₂.admits.of_uses uses_foretell e he
        simp [hprint]
    · exact tells_of_plan ((Bool.not_eq_true _).mp hdry) h₁ hfull hrun

end

/-- The sample run over a mixed bucket ends with the summary of its errors,
and has applied its batch. -/
theorem result_tells_mixed :
    letI := Sample.externals
    Tells Sample.serverArgs Sample.mixedRun.1 Sample.mixed.world Sample.mixedRun.2.2.world
      .summarised := by
  let := Sample.externals
  exact result_tells (Sample.mixedRun_driven.exec Sample.mixedRun_shows.1)
    Sample.mixedRun_driven.world

end DynDynser
