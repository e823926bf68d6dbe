import DynDynser.Common.Lists
import DynDynser.Helpers.Certificates
import DynDynser.Helpers.Changes
import DynDynser.Helpers.Commit
import DynDynser.Helpers.Validate
/-!
# The stages of a server run

A server run surveys the bucket, which changes nothing outside, and
arrives at a plan or at an exit before one; it then foretells the plan, or
carries it out. `stages` is that run with the errors it has collected at
the exit it takes, and `handleServer_eq_stages` says that the program is
that run, with the summary made at the last exit alone. A complete
preparation is described by its parts, `Preparation`, and what a plan
holds is read off the events.
-/

namespace DynDynser

open Text Interact Fallible DynDynserServer

variable [Externals]

/-- What a preparation arrives at: the accepted requests, and the errors
so far. -/
structure Plan where
  server : DynDynserServer
  verified : List VerifiedDdnsRequest
  errors : ServerErrors

/-- The changes of a plan. -/
def Plan.changes (plan : Plan) : List Change := buildChanges plan.verified

/-- The keys a plan deletes. -/
def Plan.deleteKeys (plan : Plan) : List S3Key := DynDynser.deleteKeys plan.verified plan.errors

/-- Where a run ends before it has a plan. -/
inductive EarlyExit where
  /-- No file of requests was found. -/
  | nothingFound
  /-- No public key was found. -/
  | noKeys
  /-- No request was verified. -/
  | nothingVerified
deriving DecidableEq

/-- Where a run that was not cut short ends. -/
inductive Exit where
  | early (exit : EarlyExit)
  | dryRun
  /-- The end of the function, with the summary. -/
  | summary
deriving DecidableEq

/-- What the function returns at an exit. -/
def Exit.result (exit : Exit) (errors : ServerErrors) : Result Unit :=
  match exit with
  | summary => errors.printSummary
  | _ => .ok ()

omit [Externals] in
/-- An accepted request has its own change in the plan. -/
theorem Plan.change_mem {plan : Plan} {r : ResourceRecordSet} {k : S3Key}
    (hv : ⟨r, k⟩ ∈ plan.verified) : r.change ∈ plan.changes := by
  unfold Plan.changes
  rw [buildChanges_eq]
  exact List.mem_map.mpr ⟨_, hv, rfl⟩

/-- A survey, from what it fetched on. -/
def judge (conf : ConfigServer) (server : DynDynserServer) (fetched : FetchState) :
    Rust (Plan ⊕ EarlyExit × ServerErrors) :=
  if fetched.1.isEmpty then
    return .inr (.nothingFound, fetched.2)
  else do
    let keyMap ← domainCertificates server fetched.2
    if !conf.insecureSkipVerify && keyMap.1.isEmpty then
      return .inr (.noKeys, keyMap.2)
    else
      let st ← ExceptT.lift (server.validateUnverifiedDnsRequests keyMap.1
        conf.insecureSkipVerify fetched.1 ([], keyMap.2))
      context "failed to drop privileges" (maybeDropPrivileges conf.dropToUser)
      if st.1.isEmpty then
        return .inr (.nothingVerified, st.2)
      else
        return .inl { server, verified := st.1, errors := st.2 }

/-- The run up to its plan, or to an exit before that, with the errors
collected. -/
def survey (fuel : ℕ) (conf : ConfigServer) : Rust (Plan ⊕ EarlyExit × ServerErrors) := do
  let credentials ← conf.awsConfig.getS3Credentials
  let fetched ← context "failed to query S3 for outstanding ddns requests"
    (DynDynserServer.fetchDdnsJsonsFromS3 ⟨conf, credentials⟩ fuel)
  judge conf ⟨conf, credentials⟩ fetched

/-- The run up to the plan: no plan where there is nothing to do. -/
def prepare (fuel : ℕ) (conf : ConfigServer) : Rust (Option Plan) := do
  let x ← survey fuel conf
  return x.getLeft?

/-- What a plan changes, with the errors collected in the end. -/
def effect (plan : Plan) : Rust ServerErrors := do
  let _changeResults ← context "failed to commit dns changes"
    (plan.server.commitChanges plan.changes)
  context "failed to cleanup s3 ddns.json items" (plan.server.cleanup plan.deleteKeys plan.errors)

/-- The run of a plan. -/
def carryOut (plan : Plan) : Rust Unit := do
  let errors ← effect plan
  ofResult errors.printSummary

/-- What a dry run prints of a plan. -/
def foretell (plan : Plan) : Rust Unit := do
  printLine (foretoldChanges plan.changes)
  printLine (foretoldKeys plan.deleteKeys)

/-- The run from the plan on. -/
def finish (isDryRun : Bool) : Option Plan → Rust Unit
  | none => return ()
  | some plan => if isDryRun then foretell plan else carryOut plan

/-- The run from the survey on, to its exit. -/
def conclude (isDryRun : Bool) : Plan ⊕ EarlyExit × ServerErrors → Rust (Exit × ServerErrors)
  | .inr (exit, errors) => return (.early exit, errors)
  | .inl plan =>
    if isDryRun then do
      foretell plan
      return (.dryRun, plan.errors)
    else do
      let errors ← effect plan
      return (.summary, errors)

/-- A server run up to its exit, with the errors it has collected. -/
def stages (fuel : ℕ) (serverArgs : ServerArgs) : Rust (Exit × ServerErrors) := do
  let x ← survey fuel (ConfigServer.parse serverArgs)
  conclude (ConfigServer.parse serverArgs).isDryRun x

/-- **A server run is its stages and what is returned at their exit.** -/
theorem handleServer_eq_stages (fuel : ℕ) (args : ServerArgs) :
    handleServer fuel args =
      stages fuel args >>= fun x => ofResult (x.1.result x.2) := by
  rw [handleServer, stages, survey]
  simp only [bind_assoc]
  congr 1
  funext credentials
  congr 1
  funext fetched
  obtain ⟨reqs, errors⟩ := fetched
  unfold judge
  cases reqs.isEmpty with
  | true => rfl
  | false =>
    simp only [Bool.false_eq_true, if_false, bind_assoc]
    congr 1
    funext keyMap
    obtain ⟨certs, errors₁⟩ := keyMap
    cases !(ConfigServer.parse args).insecureSkipVerify && certs.isEmpty with
    | true => rfl
    | false =>
      simp only [Bool.false_eq_true, if_false, bind_assoc]
      congr 1
      funext st
      obtain ⟨verified, errors₂⟩ := st
      congr 1
      funext _
      cases verified.isEmpty with
      | true => rfl
      | false =>
        simp only [Bool.false_eq_true, if_false, pure_bind, conclude]
        cases (ConfigServer.parse args).isDryRun with
        | true => rfl
        | false =>
          simp only [Bool.false_eq_true, if_false, effect, bind_assoc, pure_bind]
          rfl

/-- **A server run is a preparation and what is made of its plan.** -/
theorem handleServer_eq (fuel : ℕ) (args : ServerArgs) :
    handleServer fuel args =
      prepare fuel (ConfigServer.parse args) >>= finish (ConfigServer.parse args).isDryRun := by
  rw [handleServer_eq_stages, stages, prepare, bind_assoc, bind_assoc]
  congr 1
  funext x
  rw [pure_bind]
  cases x with
  | inr x => rfl
  | inl plan =>
    simp only [conclude, finish, Sum.getLeft?_inl]
    cases (ConfigServer.parse args).isDryRun with
    | true =>
      simp only [if_true, bind_assoc, pure_bind]
      rfl
    | false =>
      simp only [Bool.false_eq_true, if_false, bind_assoc, pure_bind]
      rfl

/-! ## The preparation -/

variable {fuel : ℕ} {conf : ConfigServer} {tr : Trace} {plan : Plan}

omit [Externals] in
theorem uses_getS3Credentials {awsConfig : AWSCliConfig} :
    awsConfig.getS3Credentials.run.Uses (·.kind = .handle) := by
  rw [AWSCliConfig.getS3Credentials]
  split <;> exact uses_context (uses_call.2 rfl)

theorem uses_domainCertificates {server : DynDynserServer} {errors : ServerErrors} :
    (domainCertificates server errors).run.Uses (·.kind = .file) := by
  rw [domainCertificates]
  split
  · exact uses_pure
  · exact uses_context uses_getPublicKeyMap

/-- Nothing is loaded where signatures are not checked. -/
theorem certificates_insecure {server : DynDynserServer} {errors : ServerErrors}
    {st : KeyMapState} {c : Trace} (hinsecure : server.conf.insecureSkipVerify = true)
    (h : (domainCertificates server errors).run.Exec c (.ok st)) : st.1 = [] := by
  unfold domainCertificates at h
  rw [if_pos hinsecure] at h
  rw [← Except.ok.inj (exec_pure.mp h).2]

/-- **What was loaded is in the events of a run** that checks signatures:
the directory of the certificates is the first file it looks at. -/
theorem certificates_unique {server server' : DynDynserServer} {errors errors' : ServerErrors}
    {st st' : KeyMapState} {f f' c c' s s' : Trace} (hconf : server'.conf = server.conf)
    (hsecure : server.conf.insecureSkipVerify = false)
    (hf : ∀ e ∈ f, e.op.kind ∈ [Kind.handle, .list, .get])
    (hf' : ∀ e ∈ f', e.op.kind ∈ [Kind.handle, .list, .get])
    (h : (domainCertificates server errors).run.Exec c (.ok st))
    (h' : (domainCertificates server' errors').run.Exec c' (.ok st'))
    (heq : f ++ (c ++ s) = f' ++ (c' ++ s')) : st.1 = st'.1 ∧ s = s' := by
  unfold domainCertificates at h h'
  rw [hconf] at h'
  rw [if_neg (by simp [hsecure])] at h h'
  have hload := exec_context_ok.mp h
  have hload' := exec_context_ok.mp h'
  obtain ⟨entries, fs, -, hc, -⟩ := exec_getPublicKeyMap.mp hload
  obtain ⟨entries', fs', -, hc', -⟩ := exec_getPublicKeyMap.mp hload'
  have hcut := heq
  rw [hc, hc', List.cons_append, List.cons_append] at hcut
  obtain ⟨mid, rfl, hmid⟩ :=
    Lists.append_eq_append_cons_of_not_mem hcut fun hmem => by simpa [Op.kind] using hf _ hmem
  cases mid with
  | cons e mid =>
    obtain ⟨rfl, -⟩ := List.cons.inj hmid
    simpa [Op.kind] using hf' _ (List.mem_append_right _ List.mem_cons_self)
  | nil =>
    rw [List.append_nil, List.append_cancel_left_eq] at heq
    exact getPublicKeyMap_unique hconf hload hload' heq

omit [Externals] in
theorem uses_maybeDropPrivileges {username : String} :
    (maybeDropPrivileges username).run.Uses (·.kind = .user) := by
  rw [maybeDropPrivileges]
  refine uses_bind (uses_ask.2 rfl) fun euid => ?_
  split
  · exact uses_pure
  · have htarget : (dropTarget username).run.Uses (·.kind = .user) := by
      rw [dropTarget]
      refine uses_bind (uses_context (uses_call.2 rfl)) fun named => ?_
      split
      · exact uses_pure
      · exact uses_bind (uses_ask.2 rfl) fun _ => uses_okOr
    refine uses_bind htarget fun user => uses_bind (uses_call.2 rfl) fun _ =>
      uses_bind (uses_call.2 rfl) fun _ => uses_bind (uses_call.2 rfl) fun _ =>
        uses_bind (uses_ask.2 rfl) fun uid => ?_
    split
    · exact uses_throw
    · refine uses_bind (uses_ask.2 rfl) fun gid => ?_
      split
      · exact uses_throw
      · refine uses_bind (uses_ask.2 rfl) fun again => ?_
        split
        · exact uses_throw
        · exact uses_pure

/-- From what it fetched on, a survey reads files and the clock, and drops
privileges. -/
theorem uses_judge {server : DynDynserServer} {fetched : FetchState} :
    (judge conf server fetched).run.Uses (·.kind ∈ [Kind.file, .clock, .user]) := by
  rw [judge]
  split
  · exact uses_pure
  · refine uses_bind (uses_domainCertificates.mono fun o ho => by simp [ho]) fun keyMap => ?_
    split
    · exact uses_pure
    · refine uses_bind (uses_lift.2 (uses_validateUnverified.mono fun o ho => by simp [ho]))
        fun st => ?_
      refine uses_bind (uses_context (uses_maybeDropPrivileges.mono fun o ho => by simp [ho]))
        fun _ => ?_
      split <;> exact uses_pure

/-- **A preparation changes nothing outside**: it asks for handles, lists,
fetches, reads files and the clock, and drops privileges. -/
theorem uses_prepare : (prepare fuel conf).run.Uses
    (·.kind ∈ [Kind.handle, .list, .get, .file, .clock, .user]) := by
  refine uses_bind ?_ fun _ => uses_pure
  refine uses_bind (uses_getS3Credentials.mono fun o ho => by simp [ho]) fun credentials => ?_
  refine uses_bind (uses_context (uses_fetchDdnsJsonsFromS3.mono fun o ho => ?_))
    fun fetched => uses_judge.mono fun o ho => ?_
  · simp only [List.mem_cons, List.not_mem_nil, or_false] at ho ⊢
    tauto
  · simp only [List.mem_cons, List.not_mem_nil, or_false] at ho ⊢
    tauto

/-- A complete preparation is a complete survey, of which the plan is
kept. -/
theorem exec_prepare_iff {o : Option Plan} : (prepare fuel conf).run.Exec tr (.ok o) ↔
    ∃ x, (survey fuel conf).run.Exec tr (.ok x) ∧ x.getLeft? = o := by
  constructor
  · intro h
    obtain ⟨x, t₁, t₂, rfl, h₁, h₂⟩ := exec_bind_ok.mp h
    obtain ⟨rfl, heq⟩ := exec_pure.mp h₂
    rw [List.append_nil]
    exact ⟨x, h₁, Except.ok.inj heq⟩
  · rintro ⟨x, h, rfl⟩
    exact exec_bind_ok.mpr ⟨x, tr, [], (List.append_nil tr).symm, h, exec_pure.mpr ⟨rfl, rfl⟩⟩

/-- A preparation shows no more than its survey. -/
theorem admits_prepare_iff :
    (prepare fuel conf).run.Admits tr ↔ (survey fuel conf).run.Admits tr := by
  constructor
  · intro h
    rcases Fallible.admits_bind.mp h with h | ⟨x, t₁, t₂, rfl, h₁, h₂⟩
    · exact h
    · rw [admits_pure.mp h₂, List.append_nil]
      exact h₁.admits
  · exact fun h => Fallible.admits_bind.mpr (Or.inl h)

/-- A preparation fails where its survey does. -/
theorem exec_prepare_error {e : Error} (h : (prepare fuel conf).run.Exec tr (.error e)) :
    (survey fuel conf).run.Exec tr (.error e) := by
  rcases Fallible.exec_bind.mp h with ⟨e', h, heq⟩ | ⟨x, t₁, t₂, rfl, -, h⟩
  · cases heq
    exact h
  · cases (exec_pure.mp h).2

/-- **The parts of a complete preparation that arrived at a plan**: the
fetch, the certificates, one check for each request fetched, and the
plan, all of it read off the events. -/
structure Preparation (fuel : ℕ) (conf : ConfigServer) (tr : Trace) (plan : Plan) where
  credentials : Credentials
  certs : List CertMatch
  keyErrors : List (String × Error)
  checks : List (Checked certs conf.maxTimeAgoSignedAt conf.insecureSkipVerify)
  credentialEvents : Trace
  fetchEvents : Trace
  certificateEvents : Trace
  dropEvents : Trace
  events : tr = credentialEvents ++ fetchEvents ++ certificateEvents ++
    checks.flatMap Checked.events ++ dropEvents
  credentialsRun : conf.awsConfig.getS3Credentials.run.Exec credentialEvents (.ok credentials)
  fetchRun : (DynDynserServer.fetchDdnsJsonsFromS3 ⟨conf, credentials⟩ fuel).run.Exec fetchEvents
    (.ok (requestsOf (gets fetchEvents), fetchErrors (gets fetchEvents)))
  certificatesRun : (domainCertificates ⟨conf, credentials⟩ (fetchErrors (gets fetchEvents))).run.Exec
    certificateEvents (.ok (certs, { fetchErrors (gets fetchEvents) with
      failedKeyParses := keyErrors }))
  requests : checks.map Checked.request = requestsOf (gets fetchEvents)
  dropRun : (maybeDropPrivileges conf.dropToUser).run.Exec dropEvents (.ok ())
  plan_eq : plan = {
    server := ⟨conf, credentials⟩
    verified := checks.filterMap Checked.accepted?
    errors := { fetchErrors (gets fetchEvents) with
      failedKeyParses := keyErrors
      failedSignatureChecks := checks.filterMap Checked.rejected? } }

/-- Loading the certificates touches no error list but its own. -/
theorem exec_domainCertificates {server : DynDynserServer} {errors : ServerErrors}
    {st : KeyMapState} (h : (domainCertificates server errors).run.Exec tr (.ok st)) :
    ∃ ks, st.2 = { errors with failedKeyParses := errors.failedKeyParses ++ ks } := by
  rw [domainCertificates] at h
  split at h
  · obtain ⟨-, heq⟩ := exec_pure.1 h
    cases heq
    exact ⟨[], by simp⟩
  · exact (getPublicKeyMap_loaded (exec_context_ok.1 h)).2

/-- **A complete preparation has its parts.** -/
theorem exec_prepare (h : (prepare fuel conf).run.Exec tr (.ok (some plan))) :
    Nonempty (Preparation fuel conf tr plan) := by
  obtain ⟨x, h, hx⟩ := exec_prepare_iff.mp h
  unfold survey judge at h
  obtain ⟨credentials, t₁, t', rfl, h₁, h⟩ := exec_bind_ok.1 h
  obtain ⟨fetched, t₂, t', rfl, h₂, h⟩ := exec_bind_ok.1 h
  rw [exec_context_ok] at h₂
  obtain rfl := fetch_result h₂
  split at h
  · cases (exec_pure.1 h).2
    cases hx
  obtain ⟨⟨certs, errors⟩, t₃, t', rfl, h₃, h⟩ := exec_bind_ok.1 h
  split at h
  · cases (exec_pure.1 h).2
    cases hx
  obtain ⟨st, t₄, t', rfl, h₄, h⟩ := exec_bind_ok.1 h
  obtain ⟨_, h₄, heq⟩ := exec_lift.1 h₄
  cases heq
  obtain ⟨checks, hreqs, rfl, rfl⟩ := exec_validateUnverified.1 h₄
  obtain ⟨_, t₅, t', rfl, h₅, h⟩ := exec_bind_ok.1 h
  rw [exec_context_ok] at h₅
  rw [validateAll_eq] at h
  split at h
  · cases (exec_pure.1 h).2
    cases hx
  obtain ⟨rfl, heq⟩ := exec_pure.1 h
  cases heq
  cases hx
  obtain ⟨ks, rfl⟩ := exec_domainCertificates h₃
  exact ⟨{
    credentials
    certs
    keyErrors := ks
    checks
    credentialEvents := t₁
    fetchEvents := t₂
    certificateEvents := t₃
    dropEvents := t₅
    events := by simp
    credentialsRun := h₁
    fetchRun := h₂
    certificatesRun := h₃
    requests := hreqs
    dropRun := h₅
    plan_eq := by simp [fetchErrors] }⟩

/-- A plan has accepted a request. -/
theorem verified_ne_nil (h : (prepare fuel conf).run.Exec tr (.ok (some plan))) :
    plan.verified ≠ [] := by
  obtain ⟨x, h, hx⟩ := exec_prepare_iff.mp h
  unfold survey judge at h
  obtain ⟨credentials, t₁, t', rfl, -, h⟩ := exec_bind_ok.mp h
  obtain ⟨fetched, t₂, t', rfl, -, h⟩ := exec_bind_ok.mp h
  split at h
  · cases (exec_pure.mp h).2
    cases hx
  obtain ⟨keyMap, t₃, t', rfl, -, h⟩ := exec_bind_ok.mp h
  split at h
  · cases (exec_pure.mp h).2
    cases hx
  obtain ⟨st, t₄, t', rfl, -, h⟩ := exec_bind_ok.mp h
  obtain ⟨_, t₅, t', rfl, -, h⟩ := exec_bind_ok.mp h
  split at h
  · cases (exec_pure.mp h).2
    cases hx
  · next hsome =>
    obtain ⟨-, heq⟩ := exec_pure.mp h
    cases heq
    cases hx
    exact fun hnil => hsome (List.isEmpty_iff.mpr hnil)

/-- **A complete preparation has fetched**, whatever it arrived at, and
lists and fetches nothing before that or after it. -/
theorem exec_prepare_fetch {o : Option Plan} (h : (prepare fuel conf).run.Exec tr (.ok o)) :
    ∃ credentials t₁ t₂ t₃, tr = t₁ ++ (t₂ ++ t₃) ∧ (∀ e ∈ t₁, e.op.kind = .handle) ∧
      (DynDynserServer.fetchDdnsJsonsFromS3 ⟨conf, credentials⟩ fuel).run.Exec t₂
        (.ok (requestsOf (gets t₂), fetchErrors (gets t₂))) ∧
      ∀ e ∈ t₃, e.op.kind ∈ [Kind.file, .clock, .user] := by
  obtain ⟨x, h, -⟩ := exec_prepare_iff.mp h
  obtain ⟨credentials, t₁, t', rfl, h₁, h⟩ := exec_bind_ok.mp h
  obtain ⟨fetched, t₂, t₃, rfl, h₂, h⟩ := exec_bind_ok.mp h
  rw [exec_context_ok] at h₂
  obtain rfl := fetch_result h₂
  exact ⟨credentials, t₁, t₂, t₃, rfl, h₁.admits.of_uses uses_getS3Credentials, h₂,
    h.admits.of_uses uses_judge⟩

omit [Externals] in
/-- Calls that neither post nor delete show nothing of either. -/
theorem quiet_of_kinds {t : Trace} (h : ∀ e ∈ t, e.op.kind ∉ [Kind.post, .delete]) :
    posts t = [] ∧ deletes t = [] ∧ ∀ e ∈ t, acknowledges e = false := by
  refine ⟨posts_eq_nil fun e he hk => h e he ?_, deletes_eq_nil fun e he hk => h e he ?_,
    fun e he => not_acknowledges fun hk => h e he ?_⟩ <;> simp [hk]

/-- A preparation posts and deletes nothing, and nothing in it is an
acknowledgement. -/
theorem quiet_prepare (h : (prepare fuel conf).run.Admits tr) :
    posts tr = [] ∧ deletes tr = [] ∧ ∀ e ∈ tr, acknowledges e = false := by
  refine quiet_of_kinds fun e he hk => ?_
  have hmem := h.of_uses uses_prepare e he
  simp only [List.mem_cons, List.not_mem_nil, or_false] at hmem hk
  rcases hk with hk | hk <;> simp [hk] at hmem

namespace Preparation

variable (p : Preparation fuel conf tr plan)

include p

/-- What is listed and fetched is listed and fetched by the fetch. -/
theorem fetch_events : gets tr = gets p.fetchEvents ∧ listed tr = listed p.fetchEvents := by
  have hc := p.credentialsRun.admits.of_uses uses_getS3Credentials
  have hf := p.certificatesRun.admits.of_uses uses_domainCertificates
  have hv : ∀ e ∈ p.checks.flatMap Checked.events, e.op.kind = .clock := by
    intro e he
    obtain ⟨c, -, he⟩ := List.mem_flatMap.1 he
    exact c.run.admits.of_uses uses_check e he
  have hd := p.dropRun.admits.of_uses uses_maybeDropPrivileges
  constructor
  · refine (congrArg gets p.events).trans ?_
    simp only [gets_append]
    have h₁ : gets p.credentialEvents = [] := gets_eq_nil fun e he => by simp [hc e he]
    have h₃ : gets p.certificateEvents = [] := gets_eq_nil fun e he => by simp [hf e he]
    have h₄ : gets (p.checks.flatMap Checked.events) = [] := gets_eq_nil fun e he => by simp [hv e he]
    have h₅ : gets p.dropEvents = [] := gets_eq_nil fun e he => by simp [hd e he]
    simp only [h₁, h₃, h₄, h₅, List.nil_append, List.append_nil]
  · refine (congrArg listed p.events).trans ?_
    simp only [listed_append]
    have h₁ : listed p.credentialEvents = [] := listed_eq_nil fun e he => by simp [hc e he]
    have h₃ : listed p.certificateEvents = [] := listed_eq_nil fun e he => by simp [hf e he]
    have h₄ : listed (p.checks.flatMap Checked.events) = [] :=
      listed_eq_nil fun e he => by simp [hv e he]
    have h₅ : listed p.dropEvents = [] := listed_eq_nil fun e he => by simp [hd e he]
    simp only [h₁, h₃, h₄, h₅, List.nil_append, List.append_nil]

/-- **The keys fetched are the eligible keys listed.** -/
theorem keys : (gets tr).map Prod.fst = eligible (listed tr) := by
  rw [p.fetch_events.1, p.fetch_events.2]
  exact fetch_keys p.fetchRun

/-- The requests checked are those in the answers. -/
theorem requests_eq : p.checks.map Checked.request = requestsOf (gets tr) := by
  rw [p.fetch_events.1]
  exact p.requests

/-- The accepted requests of the plan. -/
theorem verified_eq : plan.verified = p.checks.filterMap Checked.accepted? :=
  congrArg Plan.verified p.plan_eq

/-- An accepted request was accepted by its check. -/
theorem mem_verified {v : VerifiedDdnsRequest} (hv : v ∈ plan.verified) :
    ∃ c ∈ p.checks, c.verdict = .ok v := by
  rw [p.verified_eq] at hv
  obtain ⟨c, hc, hverdict⟩ := List.mem_filterMap.1 hv
  exact ⟨c, hc, Checked.accepted?_eq_some.1 hverdict⟩

/-- A request that was checked was read from an answer. -/
theorem fetched {c : Checked p.certs conf.maxTimeAgoSignedAt conf.insecureSkipVerify}
    (hc : c ∈ p.checks) :
    ∃ data, (c.request.s3Key.key, .ok data) ∈ gets tr ∧
      fromSlice data = .ok c.request.signedPayload := by
  refine mem_requestsOf ?_
  rw [← p.requests_eq]
  exact List.mem_map_of_mem hc

/-- A key that was fetched was listed, and is eligible. -/
theorem eligible_of_get {a : String × Result Bytes} (ha : a ∈ gets tr) :
    a.1 ∈ listed tr ∧ endsWith a.1 ddnsJsonFileExt = true := by
  have hkey : a.1 ∈ eligible (listed tr) := by
    rw [← p.keys]
    exact List.mem_map_of_mem ha
  exact List.mem_filter.1 hkey

/-- What was fetched was fetched from the bucket of the configuration. -/
theorem getEvent_mem {a : String × Result Bytes} (ha : a ∈ gets tr) :
    getEvent conf.s3QueueBucket a ∈ tr := by
  rw [p.fetch_events.1] at ha
  have hmem := DynDynser.getEvent_mem p.fetchRun ha
  rw [p.events]
  simp only [List.mem_append]
  exact Or.inl (Or.inl (Or.inl (Or.inr hmem)))

/-- The events of a check are a stretch of the run. -/
theorem events_of_check {c : Checked p.certs conf.maxTimeAgoSignedAt conf.insecureSkipVerify}
    (hc : c ∈ p.checks) : ∃ before after, tr = before ++ (c.events ++ after) := by
  obtain ⟨l₁, l₂, hsplit⟩ := List.append_of_mem hc
  refine ⟨p.credentialEvents ++ p.fetchEvents ++ p.certificateEvents ++
    l₁.flatMap Checked.events, l₂.flatMap Checked.events ++ p.dropEvents, p.events.trans ?_⟩
  rw [hsplit]
  simp

/-- Where signatures are checked, the certificates were loaded. -/
theorem loaded (hsecure : conf.insecureSkipVerify = false) {cert : CertMatch}
    (hcert : cert ∈ p.certs) : LoadedCertificate conf.keysSearchPath tr cert := by
  have hcerts := p.certificatesRun
  rw [domainCertificates, if_neg (by rw [hsecure]; exact Bool.false_ne_true),
    exec_context_ok] at hcerts
  have hmem : ∀ e ∈ p.certificateEvents, e ∈ tr := by
    intro e he
    rw [p.events]
    simp [he]
  obtain ⟨entries, entry, content, hdir, hentry, hfile, hread, hload⟩ :=
    (getPublicKeyMap_loaded hcerts).1 cert hcert
  exact ⟨entries, entry, content, hmem _ hdir, hentry, hfile, hmem _ hread, hload⟩

theorem server_eq : plan.server = ⟨conf, p.credentials⟩ := congrArg Plan.server p.plan_eq

/-- A plan deletes from the bucket of its server. -/
theorem bucket_eq : plan.server.conf.s3QueueBucket = conf.s3QueueBucket := by rw [p.server_eq]

/-- A plan changes the zone of its server. -/
theorem zone_eq : plan.server.conf.hostedDnsZoneId = conf.hostedDnsZoneId := by rw [p.server_eq]

/-- **The keys a plan deletes**: those of the accepted requests, of the
fetches that failed, and of the bytes that did not parse. -/
theorem deleteKeys_eq : plan.deleteKeys = plan.verified.map (·.s3Key) ++
    ((gets tr).filterMap fetchFailure?).map Prod.fst ++
    ((gets tr).filterMap parseFailure?).map Prod.fst := by
  have herrors := congrArg Plan.errors p.plan_eq
  rw [p.fetch_events.1, Plan.deleteKeys, deleteKeys, herrors]
  rfl

/-- The accepted requests are some of the requests there are, in their
order. -/
theorem verified_sublist : (plan.verified.map (·.s3Key.key)).Sublist
    ((requestsOf (gets tr)).map (·.s3Key.key)) := by
  rw [p.verified_eq, ← p.requests_eq, List.map_map]
  refine Lists.filterMap_map_sublist (fun c v hv => ?_) p.checks
  have hrun := c.run
  rw [Checked.accepted?_eq_some.mp hv] at hrun
  rw [verified_of_check hrun]
  rfl

/-- **A plan deletes no key twice**, where none is listed twice. -/
theorem deleteKeys_nodup (h : (listed tr).Nodup) : (plan.deleteKeys.map S3Key.key).Nodup := by
  have hkeys : ((gets tr).map Prod.fst).Nodup := by
    rw [p.keys]
    exact h.filter _
  have hfetch : ∀ (a : String × Result Bytes) (x : S3Key × Error),
      fetchFailure? a = some x → x.1.key = a.1 := by
    rintro ⟨key, answer⟩ x hx
    cases answer with
    | ok data => cases hx
    | error e =>
      cases hx
      rfl
  have hparse : ∀ (a : String × Result Bytes) (x : S3Key × Error),
      parseFailure? a = some x → x.1.key = a.1 := by
    rintro ⟨key, answer⟩ x hx
    cases answer with
    | error e => cases hx
    | ok data =>
      unfold parseFailure? at hx
      dsimp only at hx
      split at hx
      · cases hx
      · cases hx
        rfl
  have hsub : (plan.deleteKeys.map S3Key.key).Sublist
      ((requestsOf (gets tr)).map (·.s3Key.key) ++
        ((gets tr).filterMap fetchFailure?).map (·.1.key) ++
        ((gets tr).filterMap parseFailure?).map (·.1.key)) := by
    rw [p.deleteKeys_eq]
    simp only [List.map_append, List.map_map]
    exact (p.verified_sublist.append (List.Sublist.refl _)).append (List.Sublist.refl _)
  refine hsub.nodup (List.Nodup.append (List.Nodup.append ?_ ?_ ?_) ?_ ?_)
  · exact (Lists.filterMap_map_sublist (fun _ _ => key_of_request?) _).nodup hkeys
  · exact (Lists.filterMap_map_sublist hfetch _).nodup hkeys
  · refine Lists.disjoint_filterMap hkeys (fun _ _ => key_of_request?) hfetch ?_
    rintro ⟨key, answer⟩ hsome
    cases answer with
    | ok data => rfl
    | error e => cases hsome
  · exact (Lists.filterMap_map_sublist hparse _).nodup hkeys
  · refine List.disjoint_append_left.mpr ⟨?_, ?_⟩
    · refine Lists.disjoint_filterMap hkeys (fun _ _ => key_of_request?) hparse ?_
      rintro ⟨key, answer⟩ hsome
      cases answer with
      | error e => cases hsome
      | ok data =>
        cases hdata : (fromSlice data : Result (SignedPayload ResourceRecordSet)) with
        | ok payload => simp [parseFailure?, hdata]
        | error e => simp [request?, hdata, Except.toOption] at hsome
    · refine Lists.disjoint_filterMap hkeys hfetch hparse ?_
      rintro ⟨key, answer⟩ hsome
      cases answer with
      | error e => rfl
      | ok data => cases hsome

/-- **Why a plan deletes a key**: its request was accepted, its fetch
failed, or its bytes are no request. -/
theorem cause_of_mem_deleteKeys {k : S3Key} (hk : k ∈ plan.deleteKeys) :
    (∃ (data : Bytes) (payload : SignedPayload ResourceRecordSet), (k.key, .ok data) ∈ gets tr ∧
        fromSlice data = .ok payload ∧ ⟨payload.envelope.payload, k⟩ ∈ plan.verified) ∨
      (∃ e, (k.key, .error e) ∈ gets tr) ∨
      ∃ data e, (k.key, .ok data) ∈ gets tr ∧
        (fromSlice data : Result (SignedPayload ResourceRecordSet)) = .error e := by
  rw [p.deleteKeys_eq, List.mem_append, List.mem_append] at hk
  rcases hk with (hk | hk) | hk
  · obtain ⟨v, hv, rfl⟩ := List.mem_map.mp hk
    obtain ⟨c, hc, hverdict⟩ := p.mem_verified hv
    obtain ⟨data, hget, hparse⟩ := p.fetched hc
    have hrun := c.run
    rw [hverdict] at hrun
    obtain rfl := verified_of_check hrun
    exact Or.inl ⟨data, c.request.signedPayload, hget, hparse, hv⟩
  · obtain ⟨x, hx, rfl⟩ := List.mem_map.mp hk
    obtain ⟨⟨key, answer⟩, ha, heq⟩ := List.mem_filterMap.mp hx
    cases answer with
    | ok data => cases heq
    | error e =>
      cases heq
      exact Or.inr (Or.inl ⟨e, ha⟩)
  · obtain ⟨x, hx, rfl⟩ := List.mem_map.mp hk
    obtain ⟨⟨key, answer⟩, ha, heq⟩ := List.mem_filterMap.mp hx
    cases answer with
    | error e => cases heq
    | ok data =>
      cases hparse : (fromSlice data : Result (SignedPayload ResourceRecordSet)) with
      | ok payload => simp [parseFailure?, hparse] at heq
      | error e =>
        simp only [parseFailure?, hparse] at heq
        cases heq
        exact Or.inr (Or.inr ⟨data, e, ha, hparse⟩)

/-- A key a plan deletes was fetched. -/
theorem get_of_mem_deleteKeys {k : S3Key} (hk : k ∈ plan.deleteKeys) :
    ∃ answer, (k.key, answer) ∈ gets tr := by
  rcases p.cause_of_mem_deleteKeys hk with ⟨data, -, hget, -⟩ | ⟨e, hget⟩ | ⟨data, -, hget, -⟩
  · exact ⟨_, hget⟩
  · exact ⟨_, hget⟩
  · exact ⟨_, hget⟩

end Preparation

/-! ## The plan carried out -/

/-- The post of a plan, as an event. -/
def Plan.postEvent (plan : Plan) (headers : List (String × String))
    (ans : Result (Response String)) : Event :=
  ⟨.changeResourceRecordSets (commitRequest plan.server plan.changes headers), ans⟩

omit [Externals] in
theorem Plan.acknowledges_postEvent {headers : List (String × String)}
    {ans : Result (Response String)} :
    acknowledges (plan.postEvent headers ans) = !fails (plan.postEvent headers ans) :=
  acknowledges_eq_not_fails

/-- A plan is carried out by its effect alone. -/
theorem admits_carryOut_iff : (carryOut plan).run.Admits tr ↔ (effect plan).run.Admits tr := by
  unfold carryOut
  constructor
  · intro h
    rcases Fallible.admits_bind.mp h with h | ⟨errors, t₁, t₂, rfl, h₁, h₂⟩
    · exact h
    · rw [admits_ofResult.mp h₂, List.append_nil]
      exact h₁.admits
  · exact fun h => Fallible.admits_bind.mpr (Or.inl h)

/-- **A plan is carried out in one order**: the calls before the post, the
post, and only when it was acknowledged a bucket handle and the deletes,
in the order of the plan. -/
theorem admits_carryOut (h : (carryOut plan).run.Admits tr) :
    ∃ pre, (∀ e ∈ pre, e.op.kind = .client ∨ e.op.kind = .clock) ∧
      (tr = pre ∨ (∀ e ∈ pre, fails e = false) ∧
        ((∃ headers ans, tr = pre ++ [plan.postEvent headers ans]) ∨
          ∃ headers resp rest, acknowledges (plan.postEvent headers (.ok resp)) = true ∧
            tr = pre ++ plan.postEvent headers (.ok resp) :: rest ∧
            ((∀ e ∈ rest, e.op.kind = .handle) ∨
              ∃ answers : List (S3Key × Result ℕ), answers.map Prod.fst <+: plan.deleteKeys ∧
                rest = handleEvent plan.server ::
                  answers.map (deleteEvent plan.server.conf.s3QueueBucket)))) := by
  rw [admits_carryOut_iff, effect] at h
  obtain h | ⟨info, t₁, t₂, rfl, h₁, h₂⟩ := Fallible.admits_bind.1 h
  · obtain ⟨pre, hpre, htr⟩ := admits_commitChanges (admits_context.1 h)
    refine ⟨pre, hpre, ?_⟩
    obtain rfl | ⟨hf, headers, ans, rfl⟩ := htr
    · exact Or.inl rfl
    · exact Or.inr ⟨hf, Or.inl ⟨headers, ans, rfl⟩⟩
  · obtain ⟨-, pre, headers, resp, hpre, hf, rfl, hack⟩ | ⟨hr, -⟩ :=
      exec_commitChanges (exec_context_ok.1 h₁)
    · refine ⟨pre, hpre, Or.inr ⟨hf, Or.inr ⟨headers, resp, t₂, hack, ?_, ?_⟩⟩⟩
      · rw [List.append_assoc]
        rfl
      · exact admits_cleanup (admits_context.1 h₂)
    · cases hr

/-- **The complete effect of a plan** failed at the commit, failed at the
bucket handle of the cleanup, or attempted every delete of the plan. -/
theorem exec_effect {r : Result ServerErrors} (h : (effect plan).run.Exec tr r) :
    ((∃ e : Error, r = .error (e.context "failed to commit dns changes")) ∧
        deletes tr = [] ∧ ∀ e ∈ tr, acknowledges e = false) ∨
      ∃ pre headers resp rest, (∀ e ∈ pre, e.op.kind = .client ∨ e.op.kind = .clock) ∧
        acknowledges (plan.postEvent headers (.ok resp)) = true ∧
        tr = pre ++ plan.postEvent headers (.ok resp) :: rest ∧
        ((∃ e : Error, r = .error (e.context "failed to cleanup s3 ddns.json items") ∧
            handleEvent plan.server ∉ rest ∧ ∀ e ∈ rest, e.op.kind = .handle) ∨
          ∃ answers : List (S3Key × Result ℕ), answers.map Prod.fst = plan.deleteKeys ∧
            r = .ok (deleteAll answers plan.errors) ∧
            rest = handleEvent plan.server ::
              answers.map (deleteEvent plan.server.conf.s3QueueBucket)) := by
  rw [effect] at h
  obtain ⟨e, h₁, rfl⟩ | ⟨info, t₁, t₂, rfl, h₁, h₂⟩ := Fallible.exec_bind.1 h
  · obtain ⟨r', h₁', heq⟩ := exec_context.1 h₁
    cases r' with
    | ok info => cases heq
    | error e' =>
      cases heq
      refine Or.inl ⟨⟨e', rfl⟩, ?_, ?_⟩
      · obtain ⟨pre, hpre, rfl | ⟨-, headers, ans, rfl⟩⟩ := admits_commitChanges h₁'.admits
        · exact (quiet_beforePost hpre).2.1
        · rw [deletes_append, (quiet_beforePost hpre).2.1]
          rfl
      · obtain ⟨hr, -⟩ | ⟨-, hno⟩ := exec_commitChanges h₁'
        · cases hr
        · exact hno
  · obtain ⟨-, pre, headers, resp, hpre, -, rfl, hack⟩ | ⟨hr, -⟩ :=
      exec_commitChanges (exec_context_ok.1 h₁)
    · refine Or.inr ⟨pre, headers, resp, t₂, hpre, hack, ?_, ?_⟩
      · rw [List.append_assoc]
        rfl
      · obtain ⟨r', h₃, heq⟩ := exec_context.1 h₂
        obtain ⟨hr, hno, hk⟩ | ⟨answers, hkeys, hr, rfl⟩ := exec_cleanup h₃
        · cases r' with
          | ok errors => cases hr
          | error e' => exact Or.inl ⟨e', heq.symm, hno, hk⟩
        · rw [hr] at heq
          exact Or.inr ⟨answers, hkeys, heq.symm, rfl⟩
    · cases hr

/-- **A complete run of a plan** is its effect, with the summary at the
end. -/
theorem exec_carryOut {r : Result Unit} (h : (carryOut plan).run.Exec tr r) :
    ((∃ e : Error, r = .error (e.context "failed to commit dns changes")) ∧
        deletes tr = [] ∧ ∀ e ∈ tr, acknowledges e = false) ∨
      ∃ pre headers resp rest, (∀ e ∈ pre, e.op.kind = .client ∨ e.op.kind = .clock) ∧
        acknowledges (plan.postEvent headers (.ok resp)) = true ∧
        tr = pre ++ plan.postEvent headers (.ok resp) :: rest ∧
        ((∃ e : Error, r = .error (e.context "failed to cleanup s3 ddns.json items") ∧
            handleEvent plan.server ∉ rest ∧ ∀ e ∈ rest, e.op.kind = .handle) ∨
          ∃ answers : List (S3Key × Result ℕ), answers.map Prod.fst = plan.deleteKeys ∧
            r = (deleteAll answers plan.errors).printSummary ∧
            rest = handleEvent plan.server ::
              answers.map (deleteEvent plan.server.conf.s3QueueBucket)) := by
  unfold carryOut at h
  obtain ⟨e, h₁, rfl⟩ | ⟨errors, t₁, t₂, rfl, h₁, h₂⟩ := Fallible.exec_bind.1 h
  · rcases exec_effect h₁ with ⟨⟨e', heq⟩, hdeletes, hno⟩ |
      ⟨pre, headers, resp, rest, hpre, hack, rfl, ⟨e', heq, hrest⟩ | ⟨answers, -, heq, -⟩⟩
    · cases heq
      exact Or.inl ⟨⟨e', rfl⟩, hdeletes, hno⟩
    · cases heq
      exact Or.inr ⟨pre, headers, resp, rest, hpre, hack, rfl, Or.inl ⟨e', rfl, hrest⟩⟩
    · cases heq
  · obtain ⟨rfl, rfl⟩ := exec_ofResult.1 h₂
    rw [List.append_nil]
    rcases exec_effect h₁ with ⟨⟨e', heq⟩, -⟩ |
      ⟨pre, headers, resp, rest, hpre, hack, rfl, ⟨e', heq, -⟩ | ⟨answers, hkeys, heq, hrest⟩⟩
    · cases heq
    · cases heq
    · cases heq
      exact Or.inr ⟨pre, headers, resp, rest, hpre, hack, rfl, Or.inr ⟨answers, hkeys, rfl, hrest⟩⟩

/-- **The batch posted is that of the plan.** -/
theorem posts_carryOut (h : (carryOut plan).run.Admits tr) :
    posts tr = [] ∨ ∃ headers, posts tr = [commitRequest plan.server plan.changes headers] := by
  obtain ⟨pre, hpre, rfl | ⟨-, ⟨headers, ans, rfl⟩ | ⟨headers, resp, rest, -, rfl, hrest⟩⟩⟩ :=
    admits_carryOut h
  · exact Or.inl (quiet_beforePost hpre).1
  · rw [posts_append, (quiet_beforePost hpre).1]
    exact Or.inr ⟨headers, rfl⟩
  · have hposts : posts rest = [] := by
      refine posts_eq_nil fun e he => ?_
      obtain hk | ⟨answers, -, rfl⟩ := hrest
      · simp [hk e he]
      · obtain rfl | he := List.mem_cons.1 he
        · exact Kind.noConfusion
        · obtain ⟨a, -, rfl⟩ := List.mem_map.1 he
          exact Kind.noConfusion
    rw [posts_append, (quiet_beforePost hpre).1]
    exact Or.inr ⟨headers, congrArg (commitRequest plan.server plan.changes headers :: ·) hposts⟩

/-- The keys deleted are the first of the plan's. -/
theorem deletes_carryOut (h : (carryOut plan).run.Admits tr) :
    deletes tr <+: plan.deleteKeys.map S3Key.key := by
  obtain ⟨pre, hpre, rfl | ⟨-, ⟨headers, ans, rfl⟩ | ⟨headers, resp, rest, -, rfl, hrest⟩⟩⟩ :=
    admits_carryOut h
  · rw [(quiet_beforePost hpre).2.1]
    exact List.nil_prefix
  · rw [deletes_append, (quiet_beforePost hpre).2.1]
    exact List.nil_prefix
  · have hdeletes : deletes (pre ++ plan.postEvent headers (.ok resp) :: rest) = deletes rest := by
      rw [deletes_append, (quiet_beforePost hpre).2.1]
      rfl
    rw [hdeletes]
    rcases hrest with hk | ⟨answers, hkeys, rfl⟩
    · rw [deletes_eq_nil fun e he => by simp [hk e he]]
      exact List.nil_prefix
    · have heq : deletes (handleEvent plan.server ::
          answers.map (deleteEvent plan.server.conf.s3QueueBucket)) =
          (answers.map Prod.fst).map S3Key.key := by
        rw [List.map_map]
        exact deletes_map_deleteEvent
      rw [heq]
      exact hkeys.map _

/-- A complete run that deletes deletes all keys of the plan. -/
theorem deletes_of_exec_carryOut {r : Result Unit} (h : (carryOut plan).run.Exec tr r)
    (hne : deletes tr ≠ []) : deletes tr = plan.deleteKeys.map S3Key.key := by
  rcases exec_carryOut h with ⟨-, hno, -⟩ | ⟨pre, headers, resp, rest, hpre, -, rfl, hrest⟩
  · exact absurd hno hne
  have hdeletes : deletes (pre ++ plan.postEvent headers (.ok resp) :: rest) = deletes rest := by
    rw [deletes_append, (quiet_beforePost hpre).2.1]
    rfl
  rw [hdeletes] at hne ⊢
  rcases hrest with ⟨-, -, -, hk⟩ | ⟨answers, hkeys, -, rfl⟩
  · exact absurd (deletes_eq_nil fun e he => by simp [hk e he]) hne
  · rw [← hkeys, List.map_map]
    exact deletes_map_deleteEvent

/-- **Past its first delete, a run attempts them all**: whatever is
answered to the deletes that are left, it goes on to the end. -/
theorem carryOut_attempts (h : (carryOut plan).run.Admits tr) (hne : deletes tr ≠ [])
    {answers : List (S3Key × Result ℕ)}
    (hanswers : answers.map Prod.fst = plan.deleteKeys.drop (deletes tr).length) :
    ∃ r, (carryOut plan).run.Exec
      (tr ++ answers.map (deleteEvent plan.server.conf.s3QueueBucket)) r := by
  rw [admits_carryOut_iff, effect] at h
  rcases Fallible.admits_bind.mp h with h | ⟨info, t₁, t₂, rfl, h₁, h₂⟩
  · -- the commit deletes nothing
    obtain ⟨pre, hpre, rfl | ⟨-, headers, ans, rfl⟩⟩ := admits_commitChanges (admits_context.mp h)
    · exact absurd (quiet_beforePost hpre).2.1 hne
    · rw [deletes_append, (quiet_beforePost hpre).2.1] at hne
      exact absurd rfl hne
  have hquiet : deletes t₁ = [] := by
    obtain ⟨-, pre, headers, resp, hpre, -, rfl, -⟩ | ⟨hr, -⟩ :=
      exec_commitChanges (exec_context_ok.mp h₁)
    · rw [deletes_append, (quiet_beforePost hpre).2.1]
      rfl
    · cases hr
  have hcleanup : (plan.server.cleanup plan.deleteKeys plan.errors).run.Admits t₂ :=
    admits_context.mp h₂
  unfold cleanup at hcleanup
  rcases Fallible.admits_bind.mp hcleanup with hhandle | ⟨bucket, t₃, t₄, rfl, h₃, h₄⟩
  · have hk := (admits_context.mp hhandle).of_uses uses_getS3Bucket
    rw [deletes_append, hquiet, deletes_eq_nil fun e he => by simp [hk e he]] at hne
    exact absurd rfl hne
  obtain ⟨hregion, rfl, rfl⟩ := exec_getS3Bucket.mp (exec_context_ok.mp h₃)
  obtain ⟨done, hdone, rfl⟩ := admits_deleteObjects (admits_lift.mp h₄)
  have hlength : (deletes (t₁ ++ ([⟨.bucketNew plan.server.conf.s3QueueBucket
      plan.server.conf.awsConfig.region, .ok ()⟩] ++
        done.map (deleteEvent plan.server.conf.s3QueueBucket)))).length = done.length := by
    rw [deletes_append, hquiet, deletes_append, deletes_map_deleteEvent]
    exact List.length_map _
  rw [hlength] at hanswers
  have hkeys : (done ++ answers).map Prod.fst = plan.deleteKeys := by
    obtain ⟨rest, hrest⟩ := hdone
    rw [List.map_append, hanswers, ← hrest, List.drop_left' (List.length_map _)]
  -- the run of the loop over all the keys, and what is made of its errors
  have hloop : (plan.server.cleanup plan.deleteKeys plan.errors).run.Exec
      (⟨.bucketNew plan.server.conf.s3QueueBucket plan.server.conf.awsConfig.region, .ok ()⟩ ::
        (done ++ answers).map (deleteEvent plan.server.conf.s3QueueBucket))
      (.ok (deleteAll (done ++ answers) plan.errors)) := by
    unfold cleanup
    exact exec_bind_ok.mpr ⟨_, _, _, rfl,
      exec_context_ok.mpr (exec_getS3Bucket.mpr ⟨hregion, rfl, rfl⟩),
      exec_lift.mpr ⟨_, exec_deleteObjects.mpr ⟨done ++ answers, hkeys, rfl, rfl⟩, rfl⟩⟩
  have heffect : (effect plan).run.Exec _ _ :=
    exec_bind_ok.mpr ⟨info, t₁, _, rfl, h₁, exec_context_ok.mpr hloop⟩
  refine ⟨_, Fallible.exec_bind.mpr (Or.inr ⟨_, _, [], ?_, heffect, exec_ofResult.mpr ⟨rfl, rfl⟩⟩)⟩
  simp

/-! ## The server run -/

variable {args : ServerArgs}

theorem uses_effect : (effect plan).run.Uses
    (·.kind ∈ [Kind.client, .clock, .post, .handle, .delete]) := by
  refine uses_bind (uses_context (uses_commitChanges.mono fun o ho => ?_)) fun _ =>
    uses_context (uses_cleanup.mono fun o ho => ?_)
  · simp only [List.mem_cons, List.not_mem_nil, or_false] at ho ⊢
    tauto
  · simp only [List.mem_cons, List.not_mem_nil, or_false] at ho ⊢
    tauto

theorem uses_carryOut : (carryOut plan).run.Uses
    (·.kind ∈ [Kind.client, .clock, .post, .handle, .delete]) :=
  uses_bind uses_effect fun _ => uses_ofResult

/-- A dry run prints, and calls nothing else. -/
theorem uses_foretell : (foretell plan).run.Uses (·.kind = .print) :=
  uses_bind (uses_ask.2 rfl) fun _ => uses_ask.2 rfl

/-- The lines a dry run prints of a plan. -/
def Plan.foretold (plan : Plan) : Trace :=
  [⟨.println (foretoldChanges plan.changes), ()⟩, ⟨.println (foretoldKeys plan.deleteKeys), ()⟩]

theorem exec_foretell {r : Result Unit} :
    (foretell plan).run.Exec tr r ↔ tr = plan.foretold ∧ r = .ok () := by
  constructor
  · intro h
    rcases Fallible.exec_bind.mp h with ⟨e, h₁, -⟩ | ⟨_, t₁, t₂, rfl, h₁, h₂⟩
    · obtain ⟨_, -, hr⟩ := exec_ask.mp h₁
      cases hr
    · obtain ⟨_, rfl, -⟩ := exec_ask.mp h₁
      obtain ⟨_, rfl, rfl⟩ := exec_ask.mp h₂
      exact ⟨rfl, rfl⟩
  · rintro ⟨rfl, rfl⟩
    exact Fallible.exec_bind.mpr (Or.inr ⟨(), _, _, rfl, exec_ask.mpr ⟨(), rfl, rfl⟩,
      exec_ask.mpr ⟨(), rfl, rfl⟩⟩)

/-- A plan that was concluded was foretold by a dry run, or had its whole
effect. -/
theorem exec_conclude {isDryRun : Bool} {exit : Exit} {errors : ServerErrors}
    (h : (conclude isDryRun (.inl plan)).run.Exec tr (.ok (exit, errors))) :
    (isDryRun = true ∧ exit = .dryRun ∧ tr = plan.foretold ∧ errors = plan.errors) ∨
      isDryRun = false ∧ exit = .summary ∧ (effect plan).run.Exec tr (.ok errors) := by
  cases isDryRun with
  | true =>
    rw [conclude, if_pos rfl] at h
    obtain ⟨_, t₁, t₂, rfl, h₁, h₂⟩ := exec_bind_ok.mp h
    obtain ⟨rfl, -⟩ := exec_foretell.mp h₁
    obtain ⟨rfl, heq⟩ := exec_pure.mp h₂
    cases heq
    exact Or.inl ⟨rfl, rfl, List.append_nil _, rfl⟩
  | false =>
    rw [conclude, if_neg Bool.false_ne_true] at h
    obtain ⟨_, t₁, t₂, rfl, h₁, h₂⟩ := exec_bind_ok.mp h
    obtain ⟨rfl, heq⟩ := exec_pure.mp h₂
    cases heq
    rw [List.append_nil]
    exact Or.inr ⟨rfl, rfl, h₁⟩

/-- What is made of a plan is printed, or is the run of the plan. -/
theorem uses_finish {isDryRun : Bool} {o : Option Plan} : (finish isDryRun o).run.Uses
    (·.kind ∈ [Kind.client, .clock, .post, .handle, .delete, .print]) := by
  unfold finish
  split
  · exact uses_pure
  · split
    · exact uses_foretell.mono fun o ho => by simp [ho]
    · refine uses_carryOut.mono fun o ho => ?_
      simp only [List.mem_cons, List.not_mem_nil, or_false] at ho ⊢
      tauto

/-- A plan is carried out without a fetch. -/
theorem gets_carryOut (h : (carryOut plan).run.Admits tr) : gets tr = [] := by
  refine gets_eq_nil fun e he hk => ?_
  have hmem := h.of_uses uses_carryOut e he
  simp [hk] at hmem

/-- A server puts nothing. -/
theorem uses_handleServer : (handleServer fuel args).run.Uses (·.kind ≠ .put) := by
  rw [handleServer_eq]
  refine uses_bind (uses_prepare.mono fun o ho hput => ?_) fun plan =>
    uses_finish.mono fun o ho hput => ?_
  · simp [hput] at ho
  · simp [hput] at ho

/-- **A server run** changes nothing, or is past a complete preparation
and carries out its plan. -/
theorem admits_handleServer (h : (handleServer fuel args).run.Admits tr) :
    (posts tr = [] ∧ deletes tr = [] ∧ ∀ e ∈ tr, acknowledges e = false) ∨
      args.isDryRun = false ∧ ∃ plan t₁ t₂, tr = t₁ ++ t₂ ∧
        (prepare fuel (ConfigServer.parse args)).run.Exec t₁ (.ok (some plan)) ∧
        (carryOut plan).run.Admits t₂ := by
  rw [handleServer_eq] at h
  obtain h | ⟨plan, t₁, t₂, rfl, h₁, h₂⟩ := Fallible.admits_bind.1 h
  · exact Or.inl (quiet_prepare h)
  · cases plan with
    | none =>
      obtain rfl := admits_pure.1 h₂
      rw [List.append_nil]
      exact Or.inl (quiet_prepare h₁.admits)
    | some plan =>
      rw [finish] at h₂
      split at h₂
      · -- a dry run prints its plan
        have hprint := h₂.of_uses uses_foretell
        obtain ⟨hposts, hdeletes, hno⟩ := quiet_prepare h₁.admits
        obtain ⟨hposts', hdeletes', hno'⟩ := quiet_of_kinds (t := t₂) fun e he => by
          simp [hprint e he]
        refine Or.inl ⟨by rw [posts_append, hposts, hposts', List.append_nil],
          by rw [deletes_append, hdeletes, hdeletes', List.append_nil], fun e he => ?_⟩
        exact (List.mem_append.mp he).elim (hno e) (hno' e)
      · next hdry =>
        exact Or.inr ⟨(Bool.not_eq_true _).mp hdry, plan, t₁, t₂, rfl, h₁, h₂⟩

/-- Past a preparation that arrived at a plan, a server run is a run of
the plan. -/
theorem exec_handleServer {t₁ t : Trace} {r : Result Unit} (hdry : args.isDryRun = false)
    (h₁ : (prepare fuel (ConfigServer.parse args)).run.Exec t₁ (.ok (some plan))) :
    (handleServer fuel args).run.Exec (t₁ ++ t) r ↔ (carryOut plan).run.Exec t r := by
  have hfinish : finish (ConfigServer.parse args).isDryRun (some plan) = carryOut plan :=
    if_neg (by rw [show (ConfigServer.parse args).isDryRun = false from hdry]; simp)
  rw [handleServer_eq]
  constructor
  · intro h
    rcases Fallible.exec_bind.mp h with ⟨e, h₂, -⟩ | ⟨plan', t₂, t₃, heq, h₂, h₃⟩
    · have hcut : t₁ ++ t = (t₁ ++ t) ++ [] := (List.append_nil _).symm
      cases (h₁.unique h₂ hcut).2.1
    · obtain ⟨-, hplan, rfl⟩ := h₁.unique h₂ heq
      cases hplan
      rwa [hfinish] at h₃
  · intro h
    refine Fallible.exec_bind.mpr (Or.inr ⟨some plan, t₁, t, rfl, h₁, ?_⟩)
    rwa [hfinish]

/-- **A delete comes after the acknowledgement.** -/
theorem acknowledged_of_delete {t₁ t₂ before after : Trace} {e : Event}
    (h₁ : (prepare fuel (ConfigServer.parse args)).run.Exec t₁ (.ok (some plan)))
    (h₂ : (carryOut plan).run.Admits t₂) (hsplit : t₁ ++ t₂ = before ++ e :: after)
    (hk : e.op.kind = .delete) : ∃ a ∈ before, acknowledges a = true := by
  have hprepare : ∀ x ∈ t₁, x.op.kind ≠ .delete := fun x hx hdelete => by
    have hmem := h₁.admits.of_uses uses_prepare x hx
    simp [hdelete] at hmem
  have hmem : e ∈ t₁ ++ t₂ := by simp [hsplit]
  obtain ⟨pre, hpre, rfl | ⟨-, ⟨headers, ans, rfl⟩ | ⟨headers, resp, rest, hack, rfl, -⟩⟩⟩ :=
    admits_carryOut h₂
  · rcases List.mem_append.mp hmem with he | he
    · exact absurd hk (hprepare e he)
    · exact absurd hk (not_delete_of_deletes (quiet_beforePost hpre).2.1 he)
  · rcases List.mem_append.mp hmem with he | he
    · exact absurd hk (hprepare e he)
    · rcases List.mem_append.mp he with he | he
      · exact absurd hk (not_delete_of_deletes (quiet_beforePost hpre).2.1 he)
      · rw [List.mem_singleton.mp he] at hk
        cases hk
  · by_cases hbefore : plan.postEvent headers (.ok resp) ∈ before
    · exact ⟨_, hbefore, hack⟩
    · -- the delete would stand in front of the post
      exfalso
      rw [← List.append_assoc] at hsplit
      rcases Lists.mem_or_eq_of_append hsplit hbefore with he | rfl
      · rcases List.mem_append.mp he with he | he
        · exact hprepare e he hk
        · exact not_delete_of_deletes (quiet_beforePost hpre).2.1 he hk
      · cases hk

/-- **A batch posted is the batch of a plan**, and the run is past the
preparation that arrived at it. -/
theorem mem_posts (h : (handleServer fuel args).run.Admits tr) {req : ChangeRequest}
    (hreq : req ∈ posts tr) :
    ∃ plan t₁ t₂ headers, tr = t₁ ++ t₂ ∧
      (prepare fuel (ConfigServer.parse args)).run.Exec t₁ (.ok (some plan)) ∧
      req = commitRequest plan.server plan.changes headers := by
  obtain ⟨hno, -, -⟩ | ⟨-, plan, t₁, t₂, rfl, h₁, h₂⟩ := admits_handleServer h
  · rw [hno] at hreq
    cases hreq
  · rw [posts_append, (quiet_prepare h₁.admits).1, List.nil_append] at hreq
    obtain hno | ⟨headers, heq⟩ := posts_carryOut h₂
    · rw [hno] at hreq
      cases hreq
    · rw [heq] at hreq
      exact ⟨plan, t₁, t₂, headers, rfl, h₁, List.mem_singleton.1 hreq⟩

/-- **A key deleted is one of a plan**, and the batch of the plan was
acknowledged before. -/
theorem plan_of_deleteObject (h : (handleServer fuel args).run.Admits tr) {bucket key : String}
    {ans : Result ℕ} (he : (⟨.deleteObject bucket key, ans⟩ : Event) ∈ tr) :
    ∃ plan t₁ t₂ headers resp, tr = t₁ ++ t₂ ∧
      (prepare fuel (ConfigServer.parse args)).run.Exec t₁ (.ok (some plan)) ∧
      bucket = args.s3QueueBucket ∧ ⟨key⟩ ∈ plan.deleteKeys ∧
      plan.postEvent headers (.ok resp) ∈ t₂ ∧
      acknowledges (plan.postEvent headers (.ok resp)) = true := by
  have hmem : key ∈ deletes tr := List.mem_filterMap.mpr ⟨_, he, rfl⟩
  obtain ⟨-, hno, -⟩ | ⟨-, plan, t₁, t₂, rfl, h₁, h₂⟩ := admits_handleServer h
  · rw [hno] at hmem
    cases hmem
  · obtain ⟨p⟩ := exec_prepare h₁
    have hquiet := h₁.admits.of_uses uses_prepare
    have he₂ : (⟨.deleteObject bucket key, ans⟩ : Event) ∈ t₂ := by
      rcases List.mem_append.mp he with he | he
      · exact absurd (hquiet _ he) (by simp [Op.kind])
      · exact he
    obtain ⟨pre, hpre, rfl | ⟨-, ⟨headers, ans', rfl⟩ | ⟨headers, resp, rest, hack, rfl, hrest⟩⟩⟩ :=
      admits_carryOut h₂
    · rcases hpre _ he₂ with hk | hk <;> cases hk
    · rcases List.mem_append.mp he₂ with he₂ | he₂
      · rcases hpre _ he₂ with hk | hk <;> cases hk
      · cases List.mem_singleton.mp he₂
    · refine ⟨plan, t₁, _, headers, resp, rfl, h₁, ?_⟩
      have hpost : plan.postEvent headers (.ok resp) ∈
          pre ++ plan.postEvent headers (.ok resp) :: rest := by simp
      have he₃ : (⟨.deleteObject bucket key, ans⟩ : Event) ∈ rest := by
        rcases List.mem_append.mp he₂ with he₂ | he₂
        · rcases hpre _ he₂ with hk | hk <;> cases hk
        · rcases List.mem_cons.mp he₂ with heq | he₂
          · cases heq
          · exact he₂
      rcases hrest with hk | ⟨answers, hkeys, rfl⟩
      · cases hk _ he₃
      · rcases List.mem_cons.mp he₃ with heq | he₃
        · cases heq
        · obtain ⟨a, ha, heq⟩ := List.mem_map.mp he₃
          unfold deleteEvent at heq
          cases heq
          refine ⟨p.bucket_eq, ?_, hpost, hack⟩
          exact hkeys.subset (List.mem_map_of_mem ha)

end DynDynser
