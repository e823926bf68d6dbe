import DynDynser.Helpers.Failures
import DynDynser.Helpers.Runs
import DynDynser.Helpers.Services
/-!
# What a server run changes, and when

A server run posts at most one batch. It deletes only once the batch is
acknowledged, only keys it has listed, and all it is to delete whatever is
answered; until then the bucket is as it was. A step up to the commit that
fails, of whatever cause, is the end of the run. All of it holds of a run
observed up to any point.
-/

namespace DynDynser

open Text Interact World Fallible

section

variable [Externals] {fuel : ℕ} {args : ServerArgs} {tr : Trace}

/-- The steps of a run up to and including the commit, of which the last
is taken where there is a plan. -/
def commitSteps (fuel : ℕ) (conf : ConfigServer) : Rust Unit := do
  match ← prepare fuel conf with
  | none => return ()
  | some plan =>
    let _changeResults ← context "failed to commit dns changes"
      (plan.server.commitChanges plan.changes)
    return ()

/-- **What a run is done with**: the requests its checks accepted, the
objects it could not fetch, and those whose bytes are no request. -/
def Preparation.doneWith {conf : ConfigServer} {plan : Plan}
    (p : Preparation fuel conf tr plan) : List String :=
  (p.checks.filterMap Checked.accepted?).map (·.s3Key.key) ++
    (gets tr).filterMap (fun a =>
      match a.2 with
      | .error _ => some a.1
      | .ok _ => none) ++
    (gets tr).filterMap fun a =>
      match a.2 with
      | .error _ => none
      | .ok data =>
        match (fromSlice data : Result (SignedPayload ResourceRecordSet)) with
        | .error _ => some a.1
        | .ok _ => none

/-- **The effects of a server run**, observed up to any point. -/
structure ServerEffects (fuel : ℕ) (args : ServerArgs) (tr : Trace) : Prop where
  onePost : (posts tr).length ≤ 1
  /-- A delete comes after the acknowledgement of the batch. -/
  acknowledged : ∀ before e after, tr = before ++ e :: after → e.op.kind = .delete →
    ∃ a ∈ before, acknowledges a = true
  /-- Without it, the bucket is as it was. -/
  untouched : (∀ a ∈ tr, acknowledges a = false) → deletes tr = [] ∧
    ∀ tokenKey w w', Run tokenKey w tr w' → w'.objects = w.objects
  /-- A failure before it rules it out. -/
  blocked : ∀ before e after, tr = before ++ e :: after → fails e = true →
    (∀ a ∈ before, acknowledges a = false) → ∀ a ∈ tr, acknowledges a = false
  /-- A step up to the commit that fails, for whatever cause, is the end of
  the run, and leaves the bucket as it was. -/
  stopped : args.isDryRun = false → ∀ t₁ t₂ e, tr = t₁ ++ t₂ →
    (commitSteps fuel (ConfigServer.parse args)).run.Exec t₁ (.error e) →
    t₂ = [] ∧ deletes tr = [] ∧ (handleServer fuel args).run.Exec tr (.error e) ∧
      ∀ tokenKey w w', Run tokenKey w tr w' → w'.objects = w.objects
  /-- A dry run changes nothing. -/
  dry : args.isDryRun = true → posts tr = [] ∧ deletes tr = [] ∧
    ∀ tokenKey w w', Run tokenKey w tr w' → w' = w
  listed : ∀ key ∈ deletes tr, key ∈ listed tr ∧ endsWith key ddnsJsonFileExt = true
  once : (DynDynser.listed tr).Nodup → (deletes tr).Nodup
  /-- Past the first delete the run goes through the keys it is done with:
  whatever is answered to the deletes left, it attempts them all. -/
  attempted : deletes tr ≠ [] → ∃ (plan : Plan) (t₁ t₂ : Trace)
    (p : Preparation fuel (ConfigServer.parse args) t₁ plan), tr = t₁ ++ t₂ ∧
    (prepare fuel (ConfigServer.parse args)).run.Exec t₁ (.ok (some plan)) ∧
    deletes tr <+: p.doneWith ∧
    (∀ answers : List (S3Key × Result ℕ),
      answers.map (·.1.key) = p.doneWith.drop (deletes tr).length →
      ∃ r, (handleServer fuel args).run.Exec
        (tr ++ answers.map (deleteEvent args.s3QueueBucket)) r) ∧
    ∀ rest r, (handleServer fuel args).run.Exec (tr ++ rest) r → deletes (tr ++ rest) = p.doneWith

/-- That is what its plan deletes. -/
theorem Preparation.doneWith_eq {conf : ConfigServer} {plan : Plan}
    (p : Preparation fuel conf tr plan) : p.doneWith = plan.deleteKeys.map S3Key.key := by
  have hfetch : ∀ l : List (String × Result Bytes), (l.filterMap fetchFailure?).map (·.1.key) =
      l.filterMap fun a =>
        match a.2 with
        | .error _ => some a.1
        | .ok _ => none := by
    intro l
    rw [List.map_filterMap]
    refine List.filterMap_congr ?_
    rintro ⟨key, answer⟩ -
    cases answer <;> rfl
  have hparse : ∀ l : List (String × Result Bytes), (l.filterMap parseFailure?).map (·.1.key) =
      l.filterMap fun a =>
        match a.2 with
        | .error _ => none
        | .ok data =>
          match (fromSlice data : Result (SignedPayload ResourceRecordSet)) with
          | .error _ => some a.1
          | .ok _ => none := by
    intro l
    rw [List.map_filterMap]
    refine List.filterMap_congr ?_
    rintro ⟨key, answer⟩ -
    cases answer with
    | error e => rfl
    | ok data =>
      cases hdata : (fromSlice data : Result (SignedPayload ResourceRecordSet)) <;>
        simp [parseFailure?, hdata]
  rw [p.deleteKeys_eq, p.verified_eq]
  simp only [List.map_append, List.map_map, Function.comp_def]
  rw [hfetch, hparse]
  rfl

/-- A run without deletes leaves the objects alone. -/
theorem objects_eq_of_deletes (h : (handleServer fuel args).run.Admits tr) (hno : deletes tr = [])
    {tokenKey : String → String} {w w' : World} (hrun : Run tokenKey w tr w') :
    w'.objects = w.objects := by
  funext bucket key
  refine Run.object_eq hrun (fun path ans _ hmem => ?_) fun path content contentType ans _ hmem => ?_
  · have hkey : path ∈ deletes tr := List.mem_filterMap.mpr ⟨_, hmem, rfl⟩
    rw [hno] at hkey
    cases hkey
  · exact h.of_uses uses_handleServer _ hmem rfl

/-- A run that posts and deletes nothing leaves everything alone. -/
theorem world_eq_of_quiet (h : (handleServer fuel args).run.Admits tr) (hposts : posts tr = [])
    (hdeletes : deletes tr = []) {tokenKey : String → String} {w w' : World}
    (hrun : Run tokenKey w tr w') : w' = w := by
  refine Run.eq_of_quiet hrun fun e he hk => ?_
  simp only [List.mem_cons, List.not_mem_nil, or_false] at hk
  rcases hk with hk | hk | hk
  · exact h.of_uses uses_handleServer e he hk
  · exact not_delete_of_deletes hdeletes he hk
  · exact not_post_of_posts hposts he hk

/-- **A step up to the commit that fails** ends the run with its error, and
nothing is deleted before it. -/
theorem stopped_of_commitSteps {t₁ t₂ : Trace} {e : Error} (hdry : args.isDryRun = false)
    (h : (handleServer fuel args).run.Admits (t₁ ++ t₂))
    (hsteps : (commitSteps fuel (ConfigServer.parse args)).run.Exec t₁ (.error e)) :
    t₂ = [] ∧ deletes t₁ = [] ∧ (handleServer fuel args).run.Exec t₁ (.error e) := by
  have hexec : (handleServer fuel args).run.Exec t₁ (.error e) ∧ deletes t₁ = [] := by
    unfold commitSteps at hsteps
    rw [handleServer_eq]
    rcases Fallible.exec_bind.mp hsteps with ⟨e', h₁, heq⟩ | ⟨o, u₁, u₂, rfl, h₁, h₂⟩
    · cases heq
      exact ⟨Fallible.exec_bind.mpr (Or.inl ⟨e, h₁, rfl⟩), (quiet_prepare h₁.admits).2.1⟩
    · cases o with
      | none => cases (exec_pure.mp h₂).2
      | some plan =>
        rcases Fallible.exec_bind.mp h₂ with ⟨e', h₃, heq⟩ | ⟨_, u₃, u₄, rfl, -, h₄⟩
        · cases heq
          have heffect : (effect plan).run.Exec u₂ (.error e) :=
            Fallible.exec_bind.mpr (Or.inl ⟨e, h₃, rfl⟩)
          have hcarry : (carryOut plan).run.Exec u₂ (.error e) :=
            Fallible.exec_bind.mpr (Or.inl ⟨e, heffect, rfl⟩)
          have hdeletes : deletes u₂ = [] := deletes_eq_nil fun x hx hk => by
            have hmem := (admits_context.mp h₃.admits).of_uses uses_commitChanges x hx
            simp [hk] at hmem
          rw [← handleServer_eq, deletes_append, (quiet_prepare h₁.admits).2.1, hdeletes]
          exact ⟨(exec_handleServer hdry h₁).mpr hcarry, rfl⟩
        · cases (exec_pure.mp h₄).2
  exact ⟨hexec.1.no_continuation h, hexec.2, hexec.1⟩

/-- **A server run has no effects but these.** -/
theorem handleServer_effects (h : (handleServer fuel args).run.Admits tr) :
    ServerEffects fuel args tr := by
  have hblocked : ∀ before e after, tr = before ++ e :: after → fails e = true →
      (∀ a ∈ before, acknowledges a = false) → ∀ a ∈ tr, acknowledges a = false :=
    fun before e after hsplit => not_acknowledges_of_fails h hsplit
  have hstopped : args.isDryRun = false → ∀ t₁ t₂ e, tr = t₁ ++ t₂ →
      (commitSteps fuel (ConfigServer.parse args)).run.Exec t₁ (.error e) →
      t₂ = [] ∧ deletes tr = [] ∧ (handleServer fuel args).run.Exec tr (.error e) ∧
        ∀ tokenKey w w', Run tokenKey w tr w' → w'.objects = w.objects := by
    rintro hdry t₁ t₂ e rfl hsteps
    obtain ⟨rfl, hdeletes, hexec⟩ := stopped_of_commitSteps hdry h hsteps
    rw [List.append_nil]
    exact ⟨rfl, hdeletes, hexec, fun tokenKey w w' => objects_eq_of_deletes hexec.admits hdeletes⟩
  rcases admits_handleServer h with ⟨hposts, hdeletes, hno⟩ | ⟨hdry, plan, t₁, t₂, rfl, h₁, h₂⟩
  · -- nothing was posted
    have hquiet : ∀ tokenKey w w', Run tokenKey w tr w' → w' = w := fun tokenKey w w' =>
      world_eq_of_quiet h hposts hdeletes
    exact {
      onePost := by simp [hposts]
      acknowledged := fun before e after hsplit hk => by
        have hmem : e ∈ tr := by simp [hsplit]
        exact absurd hk (not_delete_of_deletes hdeletes hmem)
      untouched := fun _ => ⟨hdeletes, fun tokenKey w w' hrun => by rw [hquiet _ _ _ hrun]⟩
      blocked := hblocked
      stopped := hstopped
      dry := fun _ => ⟨hposts, hdeletes, hquiet⟩
      listed := fun key hkey => by simp [hdeletes] at hkey
      once := fun _ => by simp [hdeletes]
      attempted := fun hne => absurd hdeletes hne }
  obtain ⟨p⟩ := exec_prepare h₁
  obtain ⟨hposts₁, hdeletes₁, hno₁⟩ := quiet_prepare h₁.admits
  have hdeletes : deletes (t₁ ++ t₂) = deletes t₂ := by rw [deletes_append, hdeletes₁]; rfl
  have hbucket : plan.server.conf.s3QueueBucket = args.s3QueueBucket := p.bucket_eq
  exact {
    onePost := by
      rw [posts_append, hposts₁, List.nil_append]
      rcases posts_carryOut h₂ with hposts | ⟨headers, hposts⟩ <;> simp [hposts]
    acknowledged := fun before e after hsplit hk => acknowledged_of_delete h₁ h₂ hsplit hk
    untouched := fun hno => by
      have hnone : deletes (t₁ ++ t₂) = [] := by
        refine deletes_eq_nil fun e he hk => ?_
        obtain ⟨before, after, hsplit⟩ := List.append_of_mem he
        obtain ⟨a, ha, hack⟩ := acknowledged_of_delete h₁ h₂ hsplit hk
        rw [hno a (by rw [hsplit]; exact List.mem_append_left _ ha)] at hack
        cases hack
      exact ⟨hnone, fun tokenKey w w' hrun => objects_eq_of_deletes h hnone hrun⟩
    blocked := hblocked
    stopped := hstopped
    dry := fun hd => by rw [hdry] at hd; cases hd
    listed := fun key hkey => by
      rw [hdeletes] at hkey
      obtain ⟨k, hk, rfl⟩ := List.mem_map.mp ((deletes_carryOut h₂).subset hkey)
      obtain ⟨answer, hget⟩ := p.get_of_mem_deleteKeys hk
      obtain ⟨hlisted, hext⟩ := p.eligible_of_get hget
      rw [listed_append]
      exact ⟨List.mem_append_left _ hlisted, hext⟩
    once := fun hnodup => by
      rw [listed_append] at hnodup
      rw [hdeletes]
      exact (deletes_carryOut h₂).sublist.nodup
        (p.deleteKeys_nodup (List.Nodup.of_append_left hnodup))
    attempted := fun hne => by
      rw [hdeletes] at hne ⊢
      refine ⟨plan, t₁, t₂, p, rfl, h₁, ?_, fun answers hanswers => ?_, fun rest r hr => ?_⟩
      · rw [p.doneWith_eq]
        exact deletes_carryOut h₂
      · have hkeys : answers.map Prod.fst = plan.deleteKeys.drop (deletes t₂).length := by
          have hinj : Function.Injective S3Key.key := fun a b hab => by
            cases a
            cases b
            exact congrArg S3Key.mk hab
          refine hinj.list_map ?_
          rw [List.map_map, List.map_drop, ← p.doneWith_eq]
          exact hanswers
        obtain ⟨r, hr⟩ := carryOut_attempts h₂ hne hkeys
        rw [hbucket] at hr
        rw [List.append_assoc]
        exact ⟨r, (exec_handleServer hdry h₁).mpr hr⟩
      · rw [List.append_assoc] at hr ⊢
        have hrest := (exec_handleServer hdry h₁).mp hr
        rw [deletes_append, hdeletes₁, List.nil_append, p.doneWith_eq]
        refine deletes_of_exec_carryOut hrest fun hnone => hne ?_
        rw [deletes_append] at hnone
        exact (List.append_eq_nil_iff.mp hnone).1 }

end

/-- The sample run has these effects; it deletes three keys. -/
theorem handleServer_effects_mixed :
    @ServerEffects Sample.externals 1 Sample.serverArgs Sample.mixedRun.1 ∧
      deletes Sample.mixedRun.1 ≠ [] := by
  let := Sample.externals
  obtain ⟨hok, -, -, -, hdeletes, -⟩ := Sample.mixedRun_shows
  refine ⟨handleServer_effects (Sample.mixedRun_driven.exec hok).admits, ?_⟩
  rw [hdeletes]
  exact List.cons_ne_nil _ _

end DynDynser
