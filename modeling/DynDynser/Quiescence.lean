import DynDynser.Convergence
import DynDynser.Overwrites
/-!
# A run after one that returned `Ok`

The server is started by a timer, whether or not there is anything for it
to do. A run that returned `Ok` with every object fetched has accepted all
it could have, and has deleted what it accepted; what it left can only
become older. So until somebody puts another request into the bucket, or
another certificate into the directory, the runs after it neither submit
nor delete anything (`nothing_left_to_do`).
-/

namespace DynDynser

open Text Interact Fallible World DynDynserServer Externals

section

variable [Externals] {fuel : ℕ} {args : ServerArgs} {conf : ConfigServer} {plan : Plan}
variable {tr t t₁ t₂ : Trace} {o : Option Plan}
variable {tokenKey : String → String} {w w' w'' : World} {bucket key : String}

/-! ## The certificates of two runs -/

/-- Two runs read the same of the files that both of them read. -/
def SameFiles (t₁ t₂ : Trace) : Prop :=
  ∀ (o : Op) (x y : o.Ans), o.kind = .file → (⟨o, x⟩ : Event) ∈ t₁ → (⟨o, y⟩ : Event) ∈ t₂ → x = y

/-- The clock has not gone back from one run to the other. -/
def NotEarlier (t₁ t₂ : Trace) : Prop :=
  ∀ x ∈ clocks t₁, ∀ y ∈ clocks t₂, x.time.nanos ≤ y.time.nanos

/-- The files of one directory, read twice, hold the same certificates. -/
theorem certificates_eq {dir : String} {fs₁ fs₂ : List ReadFile}
    (hentries : fs₁.map ReadFile.entry = fs₂.map ReadFile.entry)
    (hsame : SameFiles (filesTrace dir fs₁) (filesTrace dir fs₂)) :
    fs₁.filterMap certificate? = fs₂.filterMap certificate? := by
  have hread : ∀ (f : ReadFile) (fs : List ReadFile), f ∈ fs →
      (⟨.readToEnd (joinPath dir f.entry.fileName), .ok f.content⟩ : Event) ∈
        filesTrace dir fs := fun _ _ hf => List.mem_flatMap.mpr ⟨_, hf, by simp [readTrace]⟩
  induction fs₁ generalizing fs₂ with
  | nil => rw [List.map_eq_nil_iff.mp hentries.symm]
  | cons f fs₁ ih =>
    obtain ⟨g, fs₂, rfl, hentry, hrest⟩ := List.map_eq_cons_iff.mp hentries.symm
    have hcontent : f.content = g.content := by
      have hg := hread g (g :: fs₂) List.mem_cons_self
      rw [hentry] at hg
      exact Except.ok.inj (hsame _ _ _ rfl (hread f (f :: fs₁) List.mem_cons_self) hg)
    have hfile : certificate? f = certificate? g := by
      unfold certificate?
      rw [hcontent]
    rw [List.filterMap_cons, List.filterMap_cons, hfile, ih hrest.symm]
    exact fun o x y hk h₁ h₂ => hsame o x y hk (List.mem_append_right _ h₁)
      (List.mem_append_right _ h₂)

/-- **Two runs that read the same files validate with the same
certificates.** -/
theorem domainCertificates_eq {s₁ s₂ : DynDynserServer} {errors₁ errors₂ : ServerErrors}
    {st₁ st₂ : KeyMapState} (hconf : s₁.conf = s₂.conf)
    (h₁ : (domainCertificates s₁ errors₁).run.Exec t₁ (.ok st₁))
    (h₂ : (domainCertificates s₂ errors₂).run.Exec t₂ (.ok st₂)) (hsame : SameFiles t₁ t₂) :
    st₁.1 = st₂.1 := by
  unfold domainCertificates at h₁ h₂
  rw [hconf] at h₁
  split at h₁
  · next hskip =>
    rw [if_pos hskip] at h₂
    obtain ⟨-, heq₁⟩ := exec_pure.mp h₁
    obtain ⟨-, heq₂⟩ := exec_pure.mp h₂
    cases heq₁
    cases heq₂
    rfl
  · next hsecure =>
    rw [if_neg hsecure] at h₂
    obtain ⟨entries₁, fs₁, hfs₁, rfl, rfl⟩ := exec_getPublicKeyMap.mp (exec_context_ok.mp h₁)
    obtain ⟨entries₂, fs₂, hfs₂, rfl, rfl⟩ := exec_getPublicKeyMap.mp (exec_context_ok.mp h₂)
    rw [hconf] at hsame
    obtain rfl := Except.ok.inj (hsame _ _ _ rfl List.mem_cons_self List.mem_cons_self)
    have hfiles := certificates_eq (hfs₁.trans hfs₂.symm) fun o x y hk hx hy =>
      hsame o x y hk (List.mem_cons_of_mem _ hx) (List.mem_cons_of_mem _ hy)
    rw [loadAll_eq, loadAll_eq]
    exact congrArg ([] ++ ·) hfiles

/-! ## A verdict only gets worse -/

/-- **What is accepted was acceptable before**: a check of the same request
with the same certificates, no later, has accepted it too. -/
theorem accepted_before {certs : List CertMatch} {maxTimeAgo : TimeDelta} {insecure : Bool}
    {c₁ c₂ : Checked certs maxTimeAgo insecure} (hrequest : c₁.request = c₂.request)
    (hclock : NotEarlier c₁.events c₂.events) {v : VerifiedDdnsRequest}
    (h : c₂.verdict = .ok v) : c₁.verdict = .ok v := by
  have hrun₂ := c₂.run
  rw [h, ← hrequest] at hrun₂
  cases insecure with
  | true =>
    -- without signatures the clock is not read
    have hquiet : ∀ {c : Checked certs maxTimeAgo true}, c.events = [] := by
      intro c
      have hrun := c.run
      rw [checkValidDdnsRequest] at hrun
      obtain ⟨_, hkey, -⟩ | ⟨vk, t₁, t₂, heq, hkey, hvalidate⟩ := Fallible.exec_bind.mp hrun
      · exact (exec_ofResult.mp hkey).1
      · obtain ⟨rfl, -⟩ := exec_ofResult.mp hkey
        obtain ⟨r, hvalidate, -⟩ := exec_context.mp hvalidate
        rw [heq, (exec_validate_insecure.mp hvalidate).1]
        rfl
    have hrun₁ := c₁.run
    rw [hquiet] at hrun₁ hrun₂
    exact (hrun₁.unique hrun₂ (List.append_nil _)).2.1
  | false =>
    obtain ⟨cert, d, now, hfind, hsig, hd, hevents, hle, hv⟩ := exec_check_secure.mp hrun₂
    rcases check_events c₁.run with hnone | ⟨now₁, hread⟩
    · -- it would have read the clock
      have hrun₁ := c₁.run
      rw [hnone] at hrun₁
      have heq : [] ++ c₂.events = c₂.events ++ [] := by rw [List.nil_append, List.append_nil]
      obtain ⟨hnil, -⟩ := hrun₁.unique hrun₂ heq
      rw [hevents] at hnil
      cases hnil
    · have hearlier : now₁.time.nanos ≤ now.time.nanos := by
        rw [hread, hevents] at hclock
        exact hclock now₁ (List.mem_singleton_self now₁) now (List.mem_singleton_self now)
      have haccepts := exec_check_secure.mpr
        ⟨cert, d, now₁, hfind, hsig, hd, hread, hearlier.trans hle, hv⟩
      have heq : c₁.events ++ [] = c₁.events ++ [] := rfl
      exact (c₁.run.unique haccepts heq).2.1

/-! ## What a run that returned `Ok` has done -/

omit [Externals] in
/-- **A delete answered with success has taken its object away**, where
nobody puts another. -/
theorem Run.deleted {status : ℕ} (h : Run tokenKey w tr w')
    (hmem : (⟨.deleteObject bucket key, .ok status⟩ : Event) ∈ tr)
    (hsuccess : successStatus status = true) (hput : ∀ e ∈ tr, e.op.kind ≠ .put) :
    w'.objects bucket (objectKey key) = none := by
  obtain ⟨t₁, t₂, rfl⟩ := List.append_of_mem hmem
  obtain ⟨m, -, m', hstep, hrest⟩ := along_append.mp h
  have hgone : m'.objects bucket (objectKey key) = none := by
    rcases hstep with rfl | ⟨-, hrefused⟩
    · simp [World.delete]
    · rw [hrefused status rfl] at hsuccess
      cases hsuccess
  rcases Run.object_eq_or_none hrest fun path content contentType ans _ hmem =>
      hput _ (List.mem_append_right _ (List.mem_cons_of_mem _ hmem)) rfl with heq | hnone
  · rw [heq, hgone]
  · exact hnone

omit [Externals] in
/-- **Deletes that all succeeded have taken their objects away.** -/
theorem Run.deleted_of_answers {answers : List (S3Key × Result ℕ)} (h : Run tokenKey w tr w')
    (hput : ∀ e ∈ tr, e.op.kind ≠ .put)
    (hdeletes : ∀ a ∈ answers, deleteEvent bucket a ∈ tr)
    (hsuccess : ∀ a ∈ answers, ∃ status, a.2 = .ok status ∧ successStatus status = true)
    (hkey : (⟨key⟩ : S3Key) ∈ answers.map Prod.fst) :
    w'.objects bucket (objectKey key) = none := by
  obtain ⟨⟨k, answer⟩, hanswer, heq⟩ := List.mem_map.mp hkey
  obtain rfl : k = ⟨key⟩ := heq
  obtain ⟨status, hstatus, hok⟩ := hsuccess _ hanswer
  obtain rfl : answer = .ok status := hstatus
  exact Run.deleted h (hdeletes _ hanswer) hok hput

/-- What a complete preparation fetched, it fetched from its bucket. -/
theorem getEvent_of_prepare (h : (prepare fuel conf).run.Exec tr (.ok o))
    {a : String × Result Bytes} (ha : a ∈ gets tr) : getEvent conf.s3QueueBucket a ∈ tr := by
  obtain ⟨credentials, t₁, t₂, t₃, rfl, h₁, h₂, h₃⟩ := exec_prepare_fetch h
  have hgets₁ : gets t₁ = [] := gets_eq_nil fun e he => by simp [h₁ e he]
  have hgets₃ : gets t₃ = [] := gets_eq_nil fun e he hk => by simpa [hk] using h₃ e he
  rw [gets_append, gets_append, hgets₁, hgets₃, List.nil_append, List.append_nil] at ha
  exact List.mem_append_right _ (List.mem_append_left _ (DynDynser.getEvent_mem h₂ ha))

omit [Externals] in
/-- **A key that is there throughout is on a page**: whatever else comes and
goes between the pages, each of them shows the visible keys of its stretch,
and the stretches leave nothing out. -/
theorem mem_pages {dir : String} {ps : List FetchedPage} {token : Option String}
    (hchain : Chained ps)
    (hsteps : ∀ e ∈ pagesTrace bucket dir token ps, ∃ a b, Step tokenKey a e b ∧
      (a.objects bucket key).isSome)
    (hunder : UnderPrefix dir "/" key) (hafter : ∀ t ∈ token, tokenKey t < key) :
    key ∈ ps.flatMap fun p => p.page.contents := by
  induction ps generalizing token with
  | nil => exact hchain.elim
  | cons p ps ih =>
    rw [List.flatMap_cons, List.mem_append]
    obtain ⟨a, b, ⟨-, hpage⟩, hsome⟩ := hsteps _ List.mem_cons_self
    cases hnext : p.page.nextContinuationToken with
    | none =>
      exact Or.inl ((hpage.mem_iff key).mpr ⟨hsome, hunder, hafter, by simp [hnext]⟩)
    | some next =>
      rcases le_or_gt key (tokenKey next) with hle | hlt
      · refine Or.inl ((hpage.mem_iff key).mpr ⟨hsome, hunder, hafter, fun t ht => ?_⟩)
        cases hnext.symm.trans ht
        exact hle
      · simp only [Chained, hnext] at hchain
        have hrest : ∀ e ∈ pagesTrace bucket dir (some next) ps, ∃ a b, Step tokenKey a e b ∧
            (a.objects bucket key).isSome := by
          intro e he
          refine hsteps e (List.mem_cons_of_mem _ (List.mem_append_right _ ?_))
          rwa [hnext]
        refine Or.inr (ih hchain hrest fun t ht => ?_)
        cases ht
        exact hlt

/-- **A preparation reads a request that is there throughout**, where its
fetch does not fail. -/
theorem mem_requestsOf_of_steps (h : (prepare fuel conf).run.Exec tr (.ok o))
    {object : StoredObject} (hsteps : ∀ e ∈ tr, ∃ a b, Step tokenKey a e b ∧
      (a.objects conf.s3QueueBucket key).isSome ∧
      a.objects conf.s3QueueBucket (objectKey key) = some object)
    (hunder : UnderPrefix conf.s3DdnsJsonDirectory "/" key)
    (hext : endsWith key ddnsJsonFileExt = true) (hfetched : ∀ e, (key, .error e) ∉ gets tr)
    {p : SignedPayload ResourceRecordSet} (hparse : fromSlice object.bytes = .ok p) :
    ({ signedPayload := p, s3Key := ⟨key⟩ } : UnverifiedDdnsRequest) ∈ requestsOf (gets tr) := by
  have hkey : key ∈ (gets tr).map Prod.fst := by
    obtain ⟨credentials, t₁, t₂, t₃, rfl, -, h₂, -⟩ := exec_prepare_fetch h
    have hmem : key ∈ (gets t₂).map Prod.fst := by
      rw [fetch_keys h₂]
      refine List.mem_filter.mpr ⟨?_, hext⟩
      obtain ⟨-, ps, -, hchain, rfl, -⟩ := exec_fetchDdnsJsonsFromS3.mp h₂
      have hshown : ∀ e ∈ pagesTrace conf.s3QueueBucket conf.s3DdnsJsonDirectory none ps,
          ∃ a b, Step tokenKey a e b ∧ (a.objects conf.s3QueueBucket key).isSome := by
        intro e he
        obtain ⟨a, b, hstep, hsome, -⟩ := hsteps e (List.mem_append_right _
          (List.mem_append_left _ (List.mem_cons_of_mem _ he)))
        exact ⟨a, b, hstep, hsome⟩
      have hpages := mem_pages hchain hshown hunder (by simp)
      have hlisted : listed (pagesTrace conf.s3QueueBucket conf.s3DdnsJsonDirectory none ps) =
          ps.flatMap fun p => p.page.contents := listed_pagesTrace
      rw [← hlisted] at hpages
      exact hpages
    obtain ⟨a, ha, heq⟩ := List.mem_map.mp hmem
    rw [gets_append, gets_append]
    exact List.mem_map.mpr ⟨a, List.mem_append_right _ (List.mem_append_left _ ha), heq⟩
  obtain ⟨⟨k, answer⟩, hget, heq⟩ := List.mem_map.mp hkey
  obtain rfl : k = key := heq
  cases answer with
  | error e => exact absurd hget (hfetched e)
  | ok data =>
    obtain ⟨a, b, ⟨-, object', hobject', rfl⟩, -, hobject⟩ := hsteps _ (getEvent_of_prepare h hget)
    obtain rfl := Option.some.inj (hobject.symm.trans hobject')
    refine List.mem_filterMap.mpr ⟨_, hget, ?_⟩
    simp [request?, hparse, Except.toOption]

/-! ## A request that a run accepts -/

/-- These certificates were loaded in the run. -/
def Loaded (args : ServerArgs) (tr : Trace) (certs : List CertMatch) : Prop :=
  ∃ (credentials : Credentials) (errors : ServerErrors) (st : KeyMapState) (t : Trace),
    (∀ e ∈ t, e ∈ tr) ∧ st.1 = certs ∧
    (domainCertificates ⟨ConfigServer.parse args, credentials⟩ errors).run.Exec t (.ok st)

/-- **The run accepts the request if it checks it**, whatever certificates
it has loaded. -/
def Acceptable (args : ServerArgs) (tr : Trace) (u : UnverifiedDdnsRequest) : Prop :=
  ∀ certs, Loaded args tr certs → (args.insecureSkipVerify = true ∨ certs ≠ []) ∧
    ∀ c : Checked certs (ConfigServer.parse args).maxTimeAgoSignedAt args.insecureSkipVerify,
      c.request = u → (∀ e ∈ c.events, e ∈ tr) → ∃ v, c.verdict = .ok v

/-- After its plan a run that no failure cut short carries it out. -/
theorem carryOut_of_stages {x : Exit × ServerErrors} (hdry : args.isDryRun = false)
    (h : (stages fuel args).run.Exec (t₁ ++ t₂) (.ok x))
    (hplan : (prepare fuel (ConfigServer.parse args)).run.Exec t₁ (.ok (some plan))) :
    (carryOut plan).run.Admits t₂ := by
  have hfinish := finish_of_prepare (admits_of_stages h) hplan
  have hdry' : ¬ (ConfigServer.parse args).isDryRun = true := by
    rw [show (ConfigServer.parse args).isDryRun = false from hdry]
    exact Bool.false_ne_true
  rwa [finish, if_neg hdry'] at hfinish

/-- A run that no failure cut short is past a preparation, and fetches
nothing after it. -/
theorem prepare_of_stages {x : Exit × ServerErrors} (hdry : args.isDryRun = false)
    (h : (stages fuel args).run.Exec tr (.ok x)) :
    ∃ t u o, tr = t ++ u ∧ (prepare fuel (ConfigServer.parse args)).run.Exec t (.ok o) ∧
      gets u = [] := by
  obtain ⟨-, hnone⟩ | ⟨-, plan, t₁, pre, headers, resp, answers, rfl, hplan, -⟩ :=
    exec_stages_plan hdry h
  · exact ⟨tr, [], none, (List.append_nil tr).symm, hnone, rfl⟩
  · exact ⟨t₁, _, some plan, rfl, hplan, gets_carryOut (carryOut_of_stages hdry h hplan)⟩

/-- **A request that was fetched and is acceptable is submitted**: a run
that no failure cut short has come to a plan with it, its batch was
acknowledged, and every delete of the plan was attempted. -/
theorem plan_of_acceptable {x : Exit × ServerErrors} (hdry : args.isDryRun = false)
    (h : (stages fuel args).run.Exec tr (.ok x)) {u : UnverifiedDdnsRequest}
    (hu : u ∈ requestsOf (gets tr)) (hacceptable : Acceptable args tr u) :
    x.1 = .summary ∧ ∃ (plan : Plan) (t₁ pre : Trace) (headers : List (String × String))
        (resp : Response String) (answers : List (S3Key × Result ℕ)),
      tr = t₁ ++ (pre ++ plan.postEvent headers (.ok resp) :: handleEvent plan.server ::
        answers.map (deleteEvent plan.server.conf.s3QueueBucket)) ∧
      (prepare fuel (ConfigServer.parse args)).run.Exec t₁ (.ok (some plan)) ∧
      acknowledges (plan.postEvent headers (.ok resp)) = true ∧
      answers.map Prod.fst = plan.deleteKeys ∧ u.verified ∈ plan.verified := by
  obtain ⟨exit, errors⟩ := x
  obtain ⟨course, -, hexit⟩ := exec_stages h
  obtain ⟨hne, hnone⟩ | ⟨rfl, plan, t₁, pre, headers, resp, answers, rfl, hplan, -, hack, hkeys⟩ :=
    exec_stages_plan hdry h
  · -- it came to no plan, but would have
    exfalso
    obtain ⟨credentials, errors', st, heq, hexec⟩ :=
      course.certificates (List.ne_nil_of_mem hu)
    obtain ⟨hsome, haccepts⟩ := hacceptable course.certs
      ⟨credentials, errors', st, _, fun e he => by rw [course.events]; simp [he], heq, hexec⟩
    rw [← course.checked hsome] at hu
    obtain ⟨c, hc, hrequest⟩ := List.mem_map.mp hu
    refine hne (hexit.mpr ⟨hdry, c, hc, haccepts c hrequest fun e he => ?_⟩)
    have hstretch : e ∈ course.checks.flatMap Checked.events := List.mem_flatMap.mpr ⟨c, hc, he⟩
    rw [course.events]
    simp [hstretch]
  · refine ⟨rfl, plan, t₁, pre, headers, resp, answers, rfl, hplan, hack, hkeys, ?_⟩
    obtain ⟨t, u', o, hsplit, hprepare, hgets⟩ := prepare_of_stages hdry h
    obtain ⟨rfl, -, -⟩ := hplan.unique hprepare hsplit
    rw [hsplit, gets_append, hgets, List.append_nil] at hu
    obtain ⟨q⟩ := exec_prepare hplan
    obtain ⟨-, haccepts⟩ := hacceptable q.certs ⟨_, _, _, q.certificateEvents, fun e he => by
      refine List.mem_append_left _ ?_
      rw [q.events]
      simp [he], rfl, q.certificatesRun⟩
    rw [← q.requests_eq] at hu
    obtain ⟨c, hc, rfl⟩ := List.mem_map.mp hu
    obtain ⟨v, hv⟩ := haccepts c rfl fun e he => by
      obtain ⟨before, after, hevents⟩ := q.events_of_check hc
      refine List.mem_append_left _ ?_
      rw [hevents]
      simp [he]
    have hrun := c.run
    rw [hv] at hrun
    rw [q.verified_eq, ← verified_of_check hrun]
    exact List.mem_filterMap.mpr ⟨c, hc, Checked.accepted?_eq_some.mpr hv⟩

omit [Externals] in
/-- An accepted request is among the keys of its plan. -/
theorem Plan.mem_deleteKeys {v : VerifiedDdnsRequest} (hv : v ∈ plan.verified) :
    v.s3Key ∈ plan.deleteKeys :=
  List.mem_append_left _ (List.mem_append_left _ (List.mem_map_of_mem hv))

/-- **A run that returned `Ok` has left nothing it could accept.** -/
theorem gone_of_acceptable (hdry : args.isDryRun = false)
    (h : (handleServer fuel args).run.Exec tr (.ok ())) (hrun : Run tokenKey w tr w')
    (hfetched : NoFailedFetch tr) {object : StoredObject} {p : SignedPayload ResourceRecordSet}
    (hsome : (w.objects args.s3QueueBucket key).isSome)
    (hobject : w.objects args.s3QueueBucket (objectKey key) = some object)
    (hunder : UnderPrefix (ConfigServer.parse args).s3DdnsJsonDirectory "/" key)
    (hext : endsWith key ddnsJsonFileExt = true) (hparse : fromSlice object.bytes = .ok p)
    (hacceptable : Acceptable args tr { signedPayload := p, s3Key := ⟨key⟩ }) :
    w'.objects args.s3QueueBucket (objectKey key) = none := by
  have hput : ∀ e ∈ tr, e.op.kind ≠ .put := h.admits.of_uses uses_handleServer
  rw [handleServer_eq_stages] at h
  obtain ⟨⟨exit, errors⟩, t, t', rfl, h₁, h₂⟩ := exec_bind_ok.mp h
  obtain ⟨rfl, hresult⟩ := exec_ofResult.mp h₂
  rw [List.append_nil] at *
  -- it was fetched, so it was submitted
  obtain ⟨t₀, u, o, rfl, hprepare, hgets⟩ := prepare_of_stages hdry h₁
  obtain ⟨m, hm, -⟩ := along_append.mp hrun
  have hu : ({ signedPayload := p, s3Key := ⟨key⟩ } : UnverifiedDdnsRequest) ∈
      requestsOf (gets (t₀ ++ u)) := by
    rw [gets_append, hgets, List.append_nil]
    refine mem_requestsOf_of_steps hprepare (fun e he => hm.step_of_mem_of
      (I := fun v => (v.objects args.s3QueueBucket key).isSome ∧
        v.objects args.s3QueueBucket (objectKey key) = some object) ⟨hsome, hobject⟩
      (fun e' he' a b hstep ha => ?_) he) hunder hext (fun e hget => hfetched key e ?_) hparse
    · rwa [Step.eq_of_quiet hstep (quiet_of_prepare hprepare.admits e' he')]
    · rw [gets_append]
      exact List.mem_append_left _ hget
  obtain ⟨hexit, plan, t₁, pre, headers, resp, answers, heq, hplan, -, hkeys, hv⟩ :=
    plan_of_acceptable hdry h₁ hu hacceptable
  obtain rfl : exit = .summary := hexit
  obtain ⟨q⟩ := exec_prepare hplan
  have hbucket : plan.server.conf.s3QueueBucket = args.s3QueueBucket := q.bucket_eq
  have hdeletes : ∀ a ∈ answers, deleteEvent plan.server.conf.s3QueueBucket a ∈ t₀ ++ u := by
    intro a ha
    rw [heq]
    exact List.mem_append_right _ (List.mem_append_right _
      (List.mem_cons_of_mem _ (List.mem_cons_of_mem _ (List.mem_map_of_mem ha))))
  -- and no delete has failed
  obtain ⟨course, hcollects, -⟩ := exec_stages h₁
  have hsuccess := hcollects.deletions.mp
    (hasErrors_eq_false.mp (hasErrors_of_printSummary hresult)).2.2.2.2
  have hkey := Plan.mem_deleteKeys hv
  rw [← hkeys] at hkey
  rw [← hbucket]
  refine Run.deleted_of_answers hrun hput hdeletes (fun a ha => ?_) hkey
  exact hsuccess (a.1.key, a.2) (List.mem_filterMap.mpr ⟨_, hdeletes a ha, rfl⟩)

/-! ## The runs after it -/

/-- A later run of the server, with the files as they were. -/
structure After (args : ServerArgs) (t₁ t : Trace) : Prop where
  admits : ∃ fuel, (handleServer fuel args).run.Admits t
  files : SameFiles t₁ t
  clock : NotEarlier t₁ t

/-- **A later run does nothing.** -/
theorem After.quiet (hdry : args.isDryRun = false)
    (h : (handleServer fuel args).run.Exec tr (.ok ())) (hrun : Run tokenKey w tr w')
    (hfetched : NoFailedFetch tr) (hafter : After args tr t) (hrun' : Run tokenKey w' t w'') :
    posts t = [] ∧ deletes t = [] := by
  obtain ⟨fuel', hadmits⟩ := hafter.admits
  rcases admits_handleServer hadmits with ⟨hposts, hdeletes, -⟩ | ⟨-, plan, t₁, t₂, rfl, h₁, -⟩
  · exact ⟨hposts, hdeletes⟩
  -- it came to a plan, so it has accepted a request
  exfalso
  obtain ⟨p⟩ := exec_prepare h₁
  obtain ⟨v, hv⟩ := List.exists_mem_of_ne_nil _ (verified_ne_nil h₁)
  obtain ⟨c, hc, hverdict⟩ := p.mem_verified hv
  obtain ⟨data, hget, hparse⟩ := p.fetched hc
  obtain ⟨m, hm, -⟩ := along_append.mp hrun'
  obtain ⟨object, hobject', rfl⟩ := Run.object_of_prepare p hm h₁.admits hget
  obtain ⟨hlist, hext⟩ := p.eligible_of_get hget
  obtain ⟨-, -, -, hlisted⟩ := Run.listed_prepare hm h₁
  obtain ⟨hsome, hunder⟩ := (hlisted _).mp hlist
  -- it and its object were there before the first run
  have hbefore : ∀ k, (w'.objects args.s3QueueBucket k).isSome →
      w'.objects args.s3QueueBucket k = w.objects args.s3QueueBucket k := by
    intro k hk
    rcases Run.object_eq_or_none hrun fun path content contentType ans _ hmem =>
        h.admits.of_uses uses_handleServer _ hmem rfl with heq | hnone
    · exact heq
    · rw [hnone] at hk
      cases hk
  have hthere : w.objects args.s3QueueBucket (objectKey c.request.s3Key.key) = some object := by
    rw [← hbefore _ (Option.isSome_iff_exists.mpr ⟨object, hobject'⟩)]
    exact hobject'
  have hkey : (w.objects args.s3QueueBucket c.request.s3Key.key).isSome := by
    rw [← hbefore _ hsome]
    exact hsome
  have hgone : w'.objects args.s3QueueBucket (objectKey c.request.s3Key.key) = none := by
    refine gone_of_acceptable hdry h hrun hfetched hkey hthere hunder hext hparse ?_
    rintro certs ⟨credentials, errors, st, t₀, hsub, hcerts, hexec⟩
    -- the first run had the certificates this one has
    have hevents : ∀ e ∈ p.certificateEvents ++ c.events, e ∈ t₁ ++ t₂ := by
      intro e he
      refine List.mem_append_left _ ?_
      rcases List.mem_append.mp he with he | he
      · rw [p.events]
        simp [he]
      · obtain ⟨before, after, hsplit⟩ := p.events_of_check hc
        rw [hsplit]
        simp [he]
    have hsame : st.1 = p.certs :=
      domainCertificates_eq rfl hexec p.certificatesRun fun o x y hk hx hy =>
        hafter.files o x y hk (hsub _ hx) (hevents _ (List.mem_append_left _ hy))
    obtain rfl : certs = p.certs := hcerts.symm.trans hsame
    refine ⟨?_, fun c' hrequest hstretch => ⟨v, accepted_before hrequest ?_ hverdict⟩⟩
    · by_cases hskip : args.insecureSkipVerify = true
      · exact Or.inl hskip
      · obtain ⟨cert, -, -, hfind, -⟩ :=
          exec_check_secure.mp (c.run_secure ((Bool.not_eq_true _).mp hskip) hverdict)
        exact Or.inr (List.ne_nil_of_mem (List.mem_of_find?_eq_some hfind))
    · intro x hx y hy
      obtain ⟨e, he, hread⟩ := List.mem_filterMap.mp hx
      obtain ⟨e', he', hread'⟩ := List.mem_filterMap.mp hy
      exact hafter.clock x (List.mem_filterMap.mpr ⟨e, hstretch e he, hread⟩) y
        (List.mem_filterMap.mpr ⟨e', hevents e' (List.mem_append_right _ he'), hread'⟩)
  exact absurd (hobject'.symm.trans hgone) (Option.some_ne_none _)

/-- **There is nothing left to do.** After a run that returned `Ok`, with no
fetch failed, the server may be run any number of times, and each run may
be killed anywhere: while the files stay as they are and the clock does not
go back, nothing is submitted, nothing is deleted, and the world stays as
that run left it. -/
theorem nothing_left_to_do (hdry : args.isDryRun = false)
    (h : (handleServer fuel args).run.Exec tr (.ok ())) (hrun : Run tokenKey w tr w')
    (hfetched : NoFailedFetch tr) {ts : List Trace} (hafter : ∀ t ∈ ts, After args tr t)
    (hruns : Run tokenKey w' ts.flatten w'') :
    w'' = w' ∧ ∀ t ∈ ts, posts t = [] ∧ deletes t = [] := by
  induction ts with
  | nil => exact ⟨along_nil.mp hruns, fun t ht => absurd ht List.not_mem_nil⟩
  | cons t ts ih =>
    obtain ⟨m, hm, hrest⟩ := along_append.mp hruns
    have hnow := hafter t List.mem_cons_self
    obtain ⟨hposts, hdeletes⟩ := hnow.quiet hdry h hrun hfetched hm
    obtain ⟨fuel', hadmits⟩ := hnow.admits
    obtain rfl := world_eq_of_quiet hadmits hposts hdeletes hm
    obtain ⟨rfl, hquiet⟩ := ih (fun t' ht' => hafter t' (List.mem_cons_of_mem _ ht')) hrest
    refine ⟨rfl, fun t' ht' => ?_⟩
    rcases List.mem_cons.mp ht' with rfl | ht'
    · exact ⟨hposts, hdeletes⟩
    · exact hquiet t' ht'

end

namespace Sample

/-- The server's run over the bucket with the request. -/
@[irreducible] def firstRun : Services.Observed (Result Unit) :=
  (@handleServer externals 1 serverArgs).run.drive (Services.answer (host 1780000070 inRange070))
    captured

/-- And the run after it. -/
@[irreducible] def idleRun : Services.Observed (Result Unit) :=
  (@handleServer externals 1 serverArgs).run.drive (Services.answer (host 1780000090 inRange090))
    firstRun.2.2

theorem firstRun_driven : Services.Driven (host 1780000070 inRange070)
    (@handleServer externals 1 serverArgs).run captured firstRun := by
  unfold firstRun
  exact Services.driven _ _ _

theorem idleRun_driven : Services.Driven (host 1780000090 inRange090)
    (@handleServer externals 1 serverArgs).run firstRun.2.2 idleRun := by
  unfold idleRun
  exact Services.driven _ _ _

set_option maxRecDepth 10000 in
/-- The first run accepts the request, and the second finds none. -/
theorem idleRun_shows : firstRun.2.1 = .ok (.ok ()) ∧
    gets firstRun.1 = [(key, .ok newerRequest)] ∧ deletes firstRun.1 = [key] ∧
    idleRun.2.1 = .ok (.ok ()) ∧ clocks idleRun.1 = [] ∧
    idleRun.1.all (fun e => decide (e.op.kind ≠ .file)) = true := by
  decide +kernel

theorem after_idleRun : @After externals serverArgs firstRun.1 idleRun.1 := by
  let := externals
  obtain ⟨-, -, -, hok, hclocks, hfiles⟩ := idleRun_shows
  refine ⟨⟨1, (idleRun_driven.exec hok).admits⟩, fun o x y hk _ hy => ?_, fun x _ y hy => ?_⟩
  · exact absurd hk (of_decide_eq_true (List.all_eq_true.mp hfiles _ hy))
  · rw [hclocks] at hy
    cases hy

end Sample

/-- The sample server leaves its second run nothing to do. -/
theorem nothing_left_to_do_sample : Sample.idleRun.2.2.world = Sample.firstRun.2.2.world ∧
    posts Sample.idleRun.1 = [] ∧ deletes Sample.idleRun.1 = [] := by
  let := Sample.externals
  obtain ⟨hok, hgets, -⟩ := Sample.idleRun_shows
  have hruns : Run id Sample.firstRun.2.2.world [Sample.idleRun.1].flatten
      Sample.idleRun.2.2.world := by
    rw [List.flatten_singleton]
    exact Sample.idleRun_driven.world
  have hfetched : NoFailedFetch Sample.firstRun.1 := by
    intro key e hget
    rw [hgets, List.mem_singleton] at hget
    cases hget
  obtain ⟨hworld, hquiet⟩ := nothing_left_to_do rfl (Sample.firstRun_driven.exec hok)
    Sample.firstRun_driven.world hfetched
    (fun t ht => by
      rw [List.mem_singleton.mp ht]
      exact Sample.after_idleRun) hruns
  exact ⟨hworld, hquiet _ (List.mem_singleton_self _)⟩

end DynDynser
