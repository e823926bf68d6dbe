import DynDynser.Effects
/-!
# What the cleanup discards

A cleanup deletes the keys of the accepted requests and of the bytes that
are no request, and with them the keys whose fetch has failed. So a run
discards no pending request exactly where no fetch failed, or where it
never came to the cleanup.
-/

namespace DynDynser

open Text Interact World Fallible

section

variable [Externals] {fuel : ℕ} {args : ServerArgs} {tr : Trace}
variable {tokenKey : String → String} {w w' : World}

/-- The request of a key was fetched, and its change was in a batch that
was acknowledged. -/
def Submitted (tr : Trace) (key : String) : Prop :=
  ∃ (data : Bytes) (payload : SignedPayload ResourceRecordSet) (req : ChangeRequest)
    (resp : Response String), (key, .ok data) ∈ gets tr ∧ fromSlice data = .ok payload ∧
    (⟨.changeResourceRecordSets req, .ok resp⟩ : Event) ∈ tr ∧
    acknowledges ⟨.changeResourceRecordSets req, .ok resp⟩ = true ∧
    payload.envelope.payload.change ∈ req.changes

/-- The bytes of a key were fetched, and are no request. -/
def Unparsable (tr : Trace) (key : String) : Prop :=
  ∃ data e, (key, .ok data) ∈ gets tr ∧
    (fromSlice data : Result (SignedPayload ResourceRecordSet)) = .error e

/-- **No pending request is discarded**: what is deleted was submitted, or
is no request, and an object whose fetch failed is as it was. -/
structure NothingUnseen (args : ServerArgs) (tr : Trace) (w w' : World) : Prop where
  justified : ∀ key ∈ deletes tr, Submitted tr key ∨ Unparsable tr key
  kept : ∀ key e, (key, .error e) ∈ gets tr →
    w'.objects args.s3QueueBucket key = w.objects args.s3QueueBucket key

/-- No fetch of the run failed. -/
def NoFailedFetch (tr : Trace) : Prop := ∀ key e, (key, .error e) ∉ gets tr

/-- The batch was acknowledged, and after that a handle of the bucket was
granted. -/
def CleanedUp (args : ServerArgs) (tr : Trace) : Prop :=
  ∃ before a after, tr = before ++ a :: after ∧ acknowledges a = true ∧
    (⟨.bucketNew args.s3QueueBucket args.awsRegion, .ok ()⟩ : Event) ∈ after

/-- The handle the cleanup of a plan begins with. -/
theorem Preparation.handleEvent_eq {plan : Plan}
    (p : Preparation fuel (ConfigServer.parse args) tr plan) :
    handleEvent plan.server = ⟨.bucketNew args.s3QueueBucket args.awsRegion, .ok ()⟩ := by
  rw [p.server_eq]
  rfl

/-- A run that deletes has come to the cleanup. -/
theorem cleanedUp_of_deletes (h : (handleServer fuel args).run.Admits tr) (hne : deletes tr ≠ []) :
    CleanedUp args tr := by
  rcases admits_handleServer h with ⟨-, hno, -⟩ | ⟨-, plan, t₁, t₂, rfl, h₁, h₂⟩
  · exact absurd hno hne
  obtain ⟨p⟩ := exec_prepare h₁
  rw [deletes_append, (quiet_prepare h₁.admits).2.1, List.nil_append] at hne
  obtain ⟨pre, hpre, rfl | ⟨-, ⟨headers, ans, rfl⟩ | ⟨headers, resp, rest, hack, rfl, hrest⟩⟩⟩ :=
    admits_carryOut h₂
  · exact absurd (quiet_beforePost hpre).2.1 hne
  · rw [deletes_append, (quiet_beforePost hpre).2.1] at hne
    exact absurd rfl hne
  · refine ⟨t₁ ++ pre, _, rest, by simp, hack, ?_⟩
    rcases hrest with hk | ⟨answers, -, rfl⟩
    · rw [deletes_append, (quiet_beforePost hpre).2.1, List.nil_append] at hne
      refine absurd (deletes_eq_nil fun e he => ?_) hne
      rcases List.mem_cons.mp he with rfl | he
      · exact Kind.noConfusion
      · simp [hk e he]
    · rw [p.handleEvent_eq]
      exact List.mem_cons_self

/-- **What is deleted was submitted, is no request, or could not be
fetched.** -/
theorem cause_of_mem_deletes (h : (handleServer fuel args).run.Admits tr) {key : String}
    (hkey : key ∈ deletes tr) :
    (Submitted tr key ∨ Unparsable tr key) ∨ ∃ e, (key, .error e) ∈ gets tr := by
  obtain ⟨bucket, ans, he⟩ := mem_deletes.mp hkey
  obtain ⟨plan, t₁, t₂, headers, resp, rfl, h₁, -, hmem, hpost, hack⟩ := plan_of_deleteObject h he
  obtain ⟨p⟩ := exec_prepare h₁
  have hgets : ∀ a ∈ gets t₁, a ∈ gets (t₁ ++ t₂) := fun a ha => by
    rw [gets_append]
    exact List.mem_append_left _ ha
  rcases p.cause_of_mem_deleteKeys hmem with ⟨data, payload, hget, hparse, hv⟩ | ⟨e, hget⟩ |
    ⟨data, e, hget, hparse⟩
  · refine Or.inl (Or.inl ⟨data, payload, _, resp, hgets _ hget, hparse,
      List.mem_append_right _ hpost, hack, Plan.change_mem hv⟩)
  · exact Or.inr ⟨e, hgets _ hget⟩
  · exact Or.inl (Or.inr ⟨data, e, hgets _ hget, hparse⟩)

/-- **A key whose fetch failed is deleted** by every complete run that
comes to the cleanup. -/
theorem mem_deletes_of_failed {r : Result Unit} (h : (handleServer fuel args).run.Exec tr r)
    (hclean : CleanedUp args tr) {key : String} {e : Error} (hfailed : (key, .error e) ∈ gets tr) :
    key ∈ deletes tr := by
  obtain ⟨before, a, after, hsplit, hack, hhandle⟩ := hclean
  rcases admits_handleServer h.admits with ⟨-, -, hno⟩ | ⟨hdry, plan, t₁, t₂, rfl, h₁, -⟩
  · rw [hno a (by simp [hsplit])] at hack
    cases hack
  obtain ⟨p⟩ := exec_prepare h₁
  have h₂ := (exec_handleServer hdry h₁).mp h
  have hquiet := (quiet_prepare h₁.admits).2.2
  rcases exec_carryOut h₂ with ⟨-, -, hno⟩ | ⟨pre, headers, resp, rest, hpre, hpost, rfl, hrest⟩
  · have hmem : a ∈ t₁ ++ t₂ := by simp [hsplit]
    rcases List.mem_append.mp hmem with ha | ha
    · rw [hquiet a ha] at hack
      cases hack
    · rw [hno a ha] at hack
      cases hack
  -- what comes after an acknowledgement comes after the post
  have hafter : ∀ x ∈ after, x ∈ rest := by
    have hfirst : ∀ x ∈ t₁ ++ pre, acknowledges x = false := fun x hx =>
      (List.mem_append.mp hx).elim (hquiet x) ((quiet_beforePost hpre).2.2 x)
    rw [← List.append_assoc] at hsplit
    rcases List.append_eq_append_iff.mp hsplit with ⟨b, -, hb⟩ | ⟨b, hb, hb'⟩
    · cases b with
      | nil =>
        obtain ⟨-, rfl⟩ := List.cons.inj hb
        exact fun x hx => hx
      | cons y b =>
        obtain ⟨-, rfl⟩ := List.cons.inj hb
        exact fun x hx => by simp [hx]
    · cases b with
      | nil =>
        obtain ⟨-, rfl⟩ := List.cons.inj hb'
        exact fun x hx => hx
      | cons y b =>
        obtain ⟨rfl, -⟩ := List.cons.inj hb'
        rw [hfirst a (by simp [hb])] at hack
        cases hack
  rcases hrest with ⟨-, -, hno, -⟩ | ⟨answers, hkeys, -, rfl⟩
  · rw [p.handleEvent_eq] at hno
    exact absurd (hafter _ hhandle) hno
  have hget : (key, Except.error e) ∈ gets t₁ := by
    rwa [gets_append, gets_carryOut h₂.admits, List.append_nil] at hfailed
  have hkey : (⟨key⟩ : S3Key) ∈ plan.deleteKeys := by
    rw [p.deleteKeys_eq]
    refine List.mem_append_left _ (List.mem_append_right _ (List.mem_map.mpr ?_))
    exact ⟨_, List.mem_filterMap.mpr ⟨_, hget, rfl⟩, rfl⟩
  rw [← hkeys] at hkey
  obtain ⟨⟨k, ans⟩, hmem, heq⟩ := List.mem_map.mp hkey
  obtain rfl : k = ⟨key⟩ := heq
  refine mem_deletes.mpr ⟨plan.server.conf.s3QueueBucket, ans, ?_⟩
  refine List.mem_append_right _ (List.mem_append_right _ ?_)
  exact List.mem_cons_of_mem _ (List.mem_cons_of_mem _ (List.mem_map.mpr ⟨_, hmem, rfl⟩))

/-- A run that deletes has fetched no key twice. -/
theorem gets_nodup (h : (handleServer fuel args).run.Admits tr) (hne : deletes tr ≠ [])
    (hrun : Run tokenKey w tr w') : ((gets tr).map Prod.fst).Nodup := by
  rcases admits_handleServer h with ⟨-, hno, -⟩ | ⟨-, plan, t₁, t₂, rfl, h₁, h₂⟩
  · exact absurd hno hne
  obtain ⟨m, hfirst, -⟩ := along_append.mp hrun
  obtain ⟨-, hsorted, hkeys, -⟩ := Run.listed_prepare hfirst h₁
  rw [gets_append, gets_carryOut h₂, List.append_nil, hkeys]
  exact (hsorted.imp fun hlt => ne_of_lt hlt).filter _

/-- **What a run discards.** A run discards no pending request where no
fetch failed, or where it did not come to the cleanup; and a complete run
only there. -/
theorem handleServer_nothingUnseen (h : (handleServer fuel args).run.Admits tr)
    (hrun : Run tokenKey w tr w') :
    (NoFailedFetch tr ∨ ¬ CleanedUp args tr → NothingUnseen args tr w w') ∧
      ∀ r, (handleServer fuel args).run.Exec tr r →
        (NothingUnseen args tr w w' ↔ NoFailedFetch tr ∨ ¬ CleanedUp args tr) := by
  have hholds : NoFailedFetch tr ∨ ¬ CleanedUp args tr → NothingUnseen args tr w w' := by
    rintro (hfine | hclean)
    · refine ⟨fun key hkey => ?_, fun key e hget => absurd hget (hfine key e)⟩
      rcases cause_of_mem_deletes h hkey with hcause | ⟨e, hget⟩
      · exact hcause
      · exact absurd hget (hfine key e)
    · have hnone : deletes tr = [] := by
        by_contra hne
        exact hclean (cleanedUp_of_deletes h hne)
      refine ⟨fun key hkey => ?_, fun key e hget => ?_⟩
      · rw [hnone] at hkey
        cases hkey
      · rw [objects_eq_of_deletes h hnone hrun]
  refine ⟨hholds, fun r hr => ⟨fun hseen => ?_, hholds⟩⟩
  by_contra hcond
  rw [not_or, not_not] at hcond
  obtain ⟨hfailed, hclean⟩ := hcond
  refine hfailed fun key e hget => ?_
  have hdeleted := mem_deletes_of_failed hr hclean hget
  have hkeys := gets_nodup h (List.ne_nil_of_mem hdeleted) hrun
  -- a key is fetched once, so it was not fetched well
  have honce : ∀ data, (key, Except.ok data) ∉ gets tr := fun data hok => by
    have heq := List.inj_on_of_nodup_map hkeys hget hok rfl
    cases heq
  rcases hseen.justified key hdeleted with ⟨data, -, -, -, hok, -⟩ | ⟨data, -, hok, -⟩
  · exact honce data hok
  · exact honce data hok

end

/-- The sample run has a fetch that failed, so it discards a request
nobody has seen. -/
theorem handleServer_nothingUnseen_mixed :
    ¬ @NothingUnseen Sample.externals Sample.serverArgs Sample.mixedRun.1 Sample.mixed.world
        Sample.mixedRun.2.2.world ∧
      ¬ NoFailedFetch Sample.mixedRun.1 := by
  let := Sample.externals
  obtain ⟨hok, -, hgets, -, hdeletes, -⟩ := Sample.mixedRun_shows
  have hexec := Sample.mixedRun_driven.exec hok
  have hfailed : ¬ NoFailedFetch Sample.mixedRun.1 := fun hfine =>
    hfine "d/lost.ddns.json" (Error.msg "503") (by rw [hgets]; simp)
  refine ⟨fun hseen => ?_, hfailed⟩
  rcases ((handleServer_nothingUnseen hexec.admits Sample.mixedRun_driven.world).2 _ hexec).mp hseen
    with hfine | hclean
  · exact hfailed hfine
  · refine hclean (cleanedUp_of_deletes hexec.admits ?_)
    rw [hdeletes]
    exact List.cons_ne_nil _ _

/-- **A pending request is lost.** In the sample run the fetch of an
object fails, and the run deletes it: the object was there before the run
and is gone after it. -/
theorem pending_request_lost :
    letI := Sample.externals
    ∃ (tr : Trace) (w w' : World) (r : Result Unit) (key : String) (e : Error),
      (handleServer 1 Sample.serverArgs).run.Exec tr r ∧ Run id w tr w' ∧
      (key, .error e) ∈ gets tr ∧ key ∈ deletes tr ∧
      ¬ (Submitted tr key ∨ Unparsable tr key) ∧
      w.objects "ddns" key ≠ none ∧ w'.objects "ddns" key = none := by
  let := Sample.externals
  obtain ⟨hok, -, hgets, -, hdeletes, hgone⟩ := Sample.mixedRun_shows
  refine ⟨Sample.mixedRun.1, Sample.mixed.world, Sample.mixedRun.2.2.world, _, "d/lost.ddns.json",
    Error.msg "503", Sample.mixedRun_driven.exec hok, Sample.mixedRun_driven.world, ?_, ?_, ?_, ?_,
    hgone⟩
  · rw [hgets]
    simp
  · rw [hdeletes]
    simp
  · rintro (⟨data, -, -, -, hget, -⟩ | ⟨data, -, hget, -⟩)
    · rw [hgets] at hget
      simp at hget
    · rw [hgets] at hget
      simp at hget
  · decide

end DynDynser
