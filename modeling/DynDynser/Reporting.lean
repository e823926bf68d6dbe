import DynDynser.Helpers.Services
import DynDynser.Helpers.Stages
/-!
# What a run reports

The errors that do not end a run are collected until the summary, but four
exits leave the run before it. So a run reports its errors exactly where it
came to the cleanup, or had none to report (`reported_iff`).
-/

namespace DynDynser

open Text Interact Fallible DynDynserServer

section

variable [Externals] {fuel : ℕ} {args : ServerArgs} {tr : Trace}

/-! ## What was collected -/

omit [Externals] in
theorem hasErrors_eq_false {errors : ServerErrors} : errors.hasErrors = false ↔
    errors.failedS3Fetches = [] ∧ errors.failedJsonParses = [] ∧ errors.failedKeyParses = [] ∧
      errors.failedSignatureChecks = [] ∧ errors.failedS3Deletions = [] := by
  unfold ServerErrors.hasErrors
  simp [and_assoc]

/-- No fetch is recorded where every key was fetched and parsed. -/
theorem fetchErrors_eq_nil {answers : List (String × Result Bytes)} :
    (fetchErrors answers).failedS3Fetches = [] ∧ (fetchErrors answers).failedJsonParses = [] ↔
      ∀ a ∈ answers, ∃ (data : Bytes) (payload : SignedPayload ResourceRecordSet),
        a.2 = .ok data ∧ fromSlice data = .ok payload := by
  unfold fetchErrors
  simp only [List.filterMap_eq_nil_iff]
  rw [← forall₂_and]
  refine forall₂_congr ?_
  rintro ⟨key, answer⟩ -
  cases answer with
  | error e => simp [fetchFailure?]
  | ok data =>
    cases hparse : (fromSlice data : Result (SignedPayload ResourceRecordSet)) with
    | ok payload => simp [fetchFailure?, parseFailure?, hparse]
    | error e => simp [fetchFailure?, parseFailure?, hparse]

/-- No file is recorded where every file is a certificate. -/
theorem keyFailures_eq_nil {fs : List ReadFile} : fs.filterMap keyFailure? = [] ↔
    ∀ content ∈ fs.map ReadFile.content,
      ∃ cert, loadEd25519CertificatePem (content.take fileSizeMaxBytes) = .ok cert := by
  rw [List.filterMap_eq_nil_iff, List.forall_mem_map]
  refine forall₂_congr fun f _ => ?_
  unfold keyFailure?
  cases loadEd25519CertificatePem (f.content.take fileSizeMaxBytes) <;> simp

omit [Externals] in
/-- What is delivered of the files read is their content. -/
theorem reads_filesTrace {dir : String} {fs : List ReadFile} :
    reads (filesTrace dir fs) = fs.map ReadFile.content := by
  induction fs with
  | nil => rfl
  | cons f fs ih => exact congrArg (f.content :: ·) ih

/-- What is recorded of a delete. -/
def deleteFailure? (a : S3Key × Result ℕ) : Option (S3Key × Error) :=
  match Result.context a.2 "failed to delete S3 Key" with
  | .ok status =>
    if status < 200 ∨ 300 ≤ status then
      some (a.1, Error.msg s!"got non-200 status code: {status}")
    else none
  | .error e => some (a.1, e)

omit [Externals] in
/-- The loop over the deletes records those that failed, in order. -/
theorem deleteAll_eq (answers : List (S3Key × Result ℕ)) (errors : ServerErrors) :
    deleteAll answers errors = { errors with
      failedS3Deletions := errors.failedS3Deletions ++ answers.filterMap deleteFailure? } := by
  induction answers generalizing errors with
  | nil => simp [deleteAll]
  | cons a answers ih =>
    obtain ⟨key, answer⟩ := a
    change deleteAll answers (deleted key answer errors) = _
    rw [ih]
    cases answer with
    | error e => simp [deleted, deleteFailure?]
    | ok status =>
      by_cases hstatus : status < 200 ∨ 300 ≤ status
      · simp [deleted, deleteFailure?, hstatus]
      · simp [deleted, deleteFailure?, hstatus]

omit [Externals] in
/-- No delete is recorded where every delete was answered with success. -/
theorem deleteFailures_eq_nil {answers : List (S3Key × Result ℕ)} :
    answers.filterMap deleteFailure? = [] ↔
      ∀ a ∈ answers, ∃ status, a.2 = .ok status ∧ World.successStatus status = true := by
  rw [List.filterMap_eq_nil_iff]
  refine forall₂_congr ?_
  rintro ⟨key, answer⟩ -
  cases answer with
  | error e => simp [deleteFailure?]
  | ok status =>
    unfold deleteFailure? World.successStatus
    simp only [Result.context_ok]
    by_cases hstatus : status < 200 ∨ 300 ≤ status
    · have hno : ¬ (200 ≤ status ∧ status < 300) := by omega
      simp [hstatus, hno]
    · have hyes : 200 ≤ status ∧ status < 300 := by omega
      simp [hstatus, hyes]

/-! ## The course of a run -/

/-- **What a run met**, stretch by stretch of its events: the fetch, the
certificates loaded after it, one check of each request fetched, in their
order, unless there was no certificate to check with, and what came after
the checks. -/
structure Course (args : ServerArgs) (tr : Trace) where
  certs : List CertMatch
  checks : List (Checked certs (ConfigServer.parse args).maxTimeAgoSignedAt
    args.insecureSkipVerify)
  fetchEvents : Trace
  certificateEvents : Trace
  after : Trace
  events : tr = fetchEvents ++ (certificateEvents ++ (checks.flatMap Checked.events ++ after))
  /-- The fetch, and nothing but it, comes first. -/
  fetching : ∀ e ∈ fetchEvents, e.op.kind ∈ [Kind.handle, .list, .get]
  fetched : gets fetchEvents = gets tr
  certificates : requestsOf (gets tr) ≠ [] →
    ∃ (credentials : Credentials) (errors : ServerErrors) (st : KeyMapState), st.1 = certs ∧
      (domainCertificates ⟨ConfigServer.parse args, credentials⟩ errors).run.Exec certificateEvents
        (.ok st)
  unloaded : requestsOf (gets tr) = [] → certs = [] ∧ certificateEvents = []
  checked : args.insecureSkipVerify = true ∨ certs ≠ [] →
    checks.map Checked.request = requestsOf (gets tr)
  unchecked : args.insecureSkipVerify = false → certs = [] → checks = []

theorem Course.checks_eq_nil (course : Course args tr) (hnone : requestsOf (gets tr) = []) :
    course.checks = [] := by
  rcases Bool.eq_false_or_eq_true args.insecureSkipVerify with hinsecure | hsecure
  · exact List.map_eq_nil_iff.mp ((course.checked (Or.inl hinsecure)).trans hnone)
  · exact course.unchecked hsecure (course.unloaded hnone).1

/-- **There is one course of a run**, as far as its verdicts are concerned. -/
theorem Course.verdicts_eq (course course' : Course args tr) :
    course.checks.map Checked.verdict = course'.checks.map Checked.verdict := by
  by_cases hnone : requestsOf (gets tr) = []
  · rw [course.checks_eq_nil hnone, course'.checks_eq_nil hnone]
    rfl
  obtain ⟨credentials, errors, st, hst, hrun⟩ := course.certificates hnone
  obtain ⟨credentials', errors', st', hst', hrun'⟩ := course'.certificates hnone
  rcases Bool.eq_false_or_eq_true args.insecureSkipVerify with hinsecure | hsecure
  · have hcerts : course.certs = course'.certs := by
      rw [← hst, ← hst', certificates_insecure hinsecure hrun,
        certificates_insecure hinsecure hrun']
    have hevents : course.checks.flatMap Checked.events ++ ([] : Trace) =
        course'.checks.flatMap Checked.events ++ [] := by
      rw [checks_insecure_events hinsecure, checks_insecure_events hinsecure]
    exact verdicts_unique hcerts
      ((course.checked (Or.inl hinsecure)).trans (course'.checked (Or.inl hinsecure)).symm) hevents
  · obtain ⟨heq, hrest⟩ := certificates_unique rfl hsecure course.fetching course'.fetching
      hrun hrun' (course.events.symm.trans course'.events)
    have hcerts : course.certs = course'.certs := hst.symm.trans (heq.trans hst')
    by_cases hempty : course.certs = []
    · rw [course.unchecked hsecure hempty, course'.unchecked hsecure (hcerts ▸ hempty)]
      rfl
    · exact verdicts_unique hcerts ((course.checked (Or.inr hempty)).trans
        (course'.checked (Or.inr (hcerts ▸ hempty))).symm) hrest

/-- **All was in order** that a run met: every key was fetched and holds a
request, every file is a certificate, every request was accepted, and
every delete was answered with success. -/
structure Course.InOrder (course : Course args tr) : Prop where
  fetched : ∀ a ∈ gets tr, ∃ (data : Bytes) (payload : SignedPayload ResourceRecordSet),
    a.2 = .ok data ∧ fromSlice data = .ok payload
  loaded : ∀ content ∈ reads tr,
    ∃ cert, loadEd25519CertificatePem (content.take fileSizeMaxBytes) = .ok cert
  accepted : ∀ c ∈ course.checks, ∃ v, c.verdict = .ok v
  deleted : ∀ d ∈ deletions tr, ∃ status, d.2 = .ok status ∧ World.successStatus status = true

/-- The run is to change things, and has accepted a request. -/
def Course.Commits (course : Course args tr) : Prop :=
  args.isDryRun = false ∧ ∃ c ∈ course.checks, ∃ v, c.verdict = .ok v

/-- The courses of a run agree on whether a request was accepted. -/
theorem Course.accepted_iff (course course' : Course args tr) :
    (∃ c ∈ course.checks, ∃ v, c.verdict = .ok v) ↔ ∃ c ∈ course'.checks, ∃ v, c.verdict = .ok v := by
  have hverdicts : ∀ course : Course args tr, (∃ c ∈ course.checks, ∃ v, c.verdict = .ok v) ↔
      ∃ r ∈ course.checks.map Checked.verdict, ∃ v, r = .ok v := by
    intro course
    constructor
    · rintro ⟨c, hc, haccepted⟩
      exact ⟨c.verdict, List.mem_map_of_mem hc, haccepted⟩
    · rintro ⟨r, hr, haccepted⟩
      obtain ⟨c, hc, rfl⟩ := List.mem_map.mp hr
      exact ⟨c, hc, haccepted⟩
  rw [hverdicts, hverdicts, course.verdicts_eq course']

/-- The courses of a run agree on whether all was in order. -/
theorem Course.inOrder_iff (course course' : Course args tr) :
    course.InOrder ↔ course'.InOrder := by
  have hverdicts : ∀ course : Course args tr, (∀ c ∈ course.checks, ∃ v, c.verdict = .ok v) ↔
      ∀ r ∈ course.checks.map Checked.verdict, ∃ v, r = .ok v := by
    intro course
    rw [List.forall_mem_map]
  have haccepted : (∀ c ∈ course.checks, ∃ v, c.verdict = .ok v) ↔
      ∀ c ∈ course'.checks, ∃ v, c.verdict = .ok v := by
    rw [hverdicts, hverdicts, course.verdicts_eq course']
  constructor
  · exact fun h => ⟨h.fetched, h.loaded, haccepted.mp h.accepted, h.deleted⟩
  · exact fun h => ⟨h.fetched, h.loaded, haccepted.mpr h.accepted, h.deleted⟩

/-- What was collected of a run is what was not in order. -/
structure Course.Collects (course : Course args tr) (errors : ServerErrors) : Prop where
  fetches : errors.failedS3Fetches = (fetchErrors (gets tr)).failedS3Fetches
  parses : errors.failedJsonParses = (fetchErrors (gets tr)).failedJsonParses
  keys : errors.failedKeyParses = [] ↔ ∀ content ∈ reads tr,
    ∃ cert, loadEd25519CertificatePem (content.take fileSizeMaxBytes) = .ok cert
  signatures : errors.failedSignatureChecks = course.checks.filterMap Checked.rejected?
  deletions : errors.failedS3Deletions = [] ↔ ∀ d ∈ deletions tr,
    ∃ status, d.2 = .ok status ∧ World.successStatus status = true

theorem Course.Collects.hasErrors_iff {course : Course args tr} {errors : ServerErrors}
    (h : course.Collects errors) : errors.hasErrors = false ↔ course.InOrder := by
  have hrejected : course.checks.filterMap Checked.rejected? = [] ↔
      ∀ c ∈ course.checks, ∃ v, c.verdict = .ok v := by
    rw [List.filterMap_eq_nil_iff]
    refine forall₂_congr fun c _ => ?_
    unfold Checked.rejected?
    cases c.verdict <;> simp
  rw [hasErrors_eq_false, h.fetches, h.parses, h.keys, h.signatures, h.deletions, hrejected,
    ← and_assoc, fetchErrors_eq_nil]
  constructor
  · rintro ⟨hfetched, hloaded, haccepted, hdeleted⟩
    exact ⟨hfetched, hloaded, haccepted, hdeleted⟩
  · rintro ⟨hfetched, hloaded, haccepted, hdeleted⟩
    exact ⟨hfetched, hloaded, haccepted, hdeleted⟩

omit [Externals] in
/-- Calls that neither fetch, read a file nor delete show nothing of what
is collected. -/
theorem unseen {t : Trace} (h : ∀ e ∈ t, e.op.kind ∉ [Kind.get, .file, .delete]) :
    gets t = [] ∧ reads t = [] ∧ deletions t = [] := by
  refine ⟨gets_eq_nil fun e he hk => h e he ?_, reads_eq_nil fun e he hk => h e he ?_,
    deletions_eq_nil fun e he hk => h e he ?_⟩ <;> simp [hk]

/-- **Loading the certificates** reads files alone, and records those that
are no certificate. -/
theorem exec_domainCertificates_reads {server : DynDynserServer} {errors : ServerErrors}
    {st : KeyMapState} (h : (domainCertificates server errors).run.Exec tr (.ok st)) :
    gets tr = [] ∧ deletions tr = [] ∧
      ∃ ks, st.2 = { errors with failedKeyParses := errors.failedKeyParses ++ ks } ∧
        (ks = [] ↔ ∀ content ∈ reads tr,
          ∃ cert, loadEd25519CertificatePem (content.take fileSizeMaxBytes) = .ok cert) := by
  have hkind := h.admits.of_uses uses_domainCertificates
  refine ⟨gets_eq_nil fun e he => by simp [hkind e he],
    deletions_eq_nil fun e he => by simp [hkind e he], ?_⟩
  unfold domainCertificates at h
  split at h
  · obtain ⟨rfl, heq⟩ := exec_pure.mp h
    cases heq
    exact ⟨[], by simp, by simp [reads]⟩
  · obtain ⟨entries, fs, -, rfl, rfl⟩ := exec_getPublicKeyMap.mp (exec_context_ok.mp h)
    refine ⟨fs.filterMap keyFailure?, by rw [loadAll_eq], ?_⟩
    have hreads : reads (⟨.readDir server.conf.keysSearchPath, .ok entries⟩ ::
        filesTrace server.conf.keysSearchPath fs) = fs.map ReadFile.content := reads_filesTrace
    rw [hreads]
    exact keyFailures_eq_nil

omit [Externals] in
/-- A cleanup shows its deletes alone. -/
theorem seen_cleanup {s : DynDynserServer} {a : List (S3Key × Result ℕ)} :
    gets (handleEvent s :: a.map (deleteEvent s.conf.s3QueueBucket)) = [] ∧
      reads (handleEvent s :: a.map (deleteEvent s.conf.s3QueueBucket)) = [] ∧
      deletions (handleEvent s :: a.map (deleteEvent s.conf.s3QueueBucket)) =
        a.map fun x => (x.1.key, x.2) := by
  have hkinds : ∀ e ∈ handleEvent s :: a.map (deleteEvent s.conf.s3QueueBucket),
      e.op.kind = .handle ∨ e.op.kind = .delete := by
    intro e he
    rcases List.mem_cons.mp he with rfl | he
    · exact Or.inl rfl
    · obtain ⟨x, -, rfl⟩ := List.mem_map.mp he
      exact Or.inr rfl
  refine ⟨gets_eq_nil fun e he => ?_, reads_eq_nil fun e he => ?_, ?_⟩
  · rcases hkinds e he with hk | hk <;> simp [hk]
  · rcases hkinds e he with hk | hk <;> simp [hk]
  · clear hkinds
    induction a with
    | nil => rfl
    | cons x a ih => exact congrArg ((x.1.key, x.2) :: ·) ih

/-- A fetch, and what comes before it, shows no file read and no delete. -/
theorem seen_fetch {server : DynDynserServer} {t₁ t₂ : Trace} {st : FetchState}
    (h₁ : ∀ e ∈ t₁, e.op.kind = .handle)
    (h₂ : (server.fetchDdnsJsonsFromS3 fuel).run.Exec t₂ (.ok st)) :
    (∀ e ∈ t₁ ++ t₂, e.op.kind ∈ [Kind.handle, .list, .get]) ∧ gets (t₁ ++ t₂) = gets t₂ ∧
      reads (t₁ ++ t₂) = [] ∧ deletions (t₁ ++ t₂) = [] := by
  have hkinds : ∀ e ∈ t₁ ++ t₂, e.op.kind ∈ [Kind.handle, .list, .get] := by
    intro e he
    rcases List.mem_append.mp he with he | he
    · simp [h₁ e he]
    · exact h₂.admits.of_uses uses_fetchDdnsJsonsFromS3 e he
  refine ⟨hkinds, ?_, reads_eq_nil fun e he hk => ?_, deletions_eq_nil fun e he hk => ?_⟩
  · rw [gets_append, gets_eq_nil fun e he => by simp [h₁ e he], List.nil_append]
  · simpa [hk] using hkinds e he
  · simpa [hk] using hkinds e he

/-- **The course of a run that checked its requests**, whatever it did
after the checks. -/
theorem course_of_checks {credentials : Credentials} {t₁ t₂ t₃ u : Trace} {st : KeyMapState}
    (h₁ : ∀ e ∈ t₁, e.op.kind = .handle)
    (h₂ : (fetchDdnsJsonsFromS3 ⟨ConfigServer.parse args, credentials⟩ fuel).run.Exec t₂
      (.ok (requestsOf (gets t₂), fetchErrors (gets t₂))))
    (hsome : requestsOf (gets t₂) ≠ [])
    (h₃ : (domainCertificates ⟨ConfigServer.parse args, credentials⟩
      (fetchErrors (gets t₂))).run.Exec t₃ (.ok st))
    (hkeys : (!args.insecureSkipVerify && st.1.isEmpty) = false)
    (checks : List (Checked st.1 (ConfigServer.parse args).maxTimeAgoSignedAt
      args.insecureSkipVerify))
    (hrequests : checks.map Checked.request = requestsOf (gets t₂))
    (hgets : gets u = []) (hreads : reads u = []) {f : List (S3Key × Error)}
    (hfailures : f = [] ↔
      ∀ d ∈ deletions u, ∃ status, d.2 = .ok status ∧ World.successStatus status = true) :
    ∃ course : Course args ((t₁ ++ t₂) ++ (t₃ ++ (checks.flatMap Checked.events ++ u))),
      course.Collects { st.2 with
        failedSignatureChecks := checks.filterMap Checked.rejected?
        failedS3Deletions := f } ∧
      (course.Commits ↔ args.isDryRun = false ∧ checks.filterMap Checked.accepted? ≠ []) := by
  obtain ⟨hfetching, hgets₂, hreads₂, hdeletions₂⟩ := seen_fetch h₁ h₂
  obtain ⟨hgets₃, hdeletions₃, ks, hst, hks⟩ := exec_domainCertificates_reads h₃
  obtain ⟨hgets₄, hreads₄, hdeletions₄⟩ := unseen (t := checks.flatMap Checked.events)
    fun e he => by
      obtain ⟨c, -, hec⟩ := List.mem_flatMap.mp he
      simp [c.run.admits.of_uses uses_check e hec]
  have hgets' : gets ((t₁ ++ t₂) ++ (t₃ ++ (checks.flatMap Checked.events ++ u))) = gets t₂ := by
    simp only [gets_append, hgets₃, hgets₄, hgets, List.append_nil]
    rw [← gets_append, hgets₂]
  have hreads' : reads ((t₁ ++ t₂) ++ (t₃ ++ (checks.flatMap Checked.events ++ u))) = reads t₃ := by
    rw [reads_append, hreads₂, reads_append, reads_append, hreads₄, hreads, List.nil_append,
      List.append_nil, List.append_nil]
  have hdeletions' : deletions ((t₁ ++ t₂) ++ (t₃ ++ (checks.flatMap Checked.events ++ u))) =
      deletions u := by
    rw [deletions_append, hdeletions₂, deletions_append, hdeletions₃, deletions_append, hdeletions₄,
      List.nil_append, List.nil_append, List.nil_append]
  have haccepted : checks.filterMap Checked.accepted? ≠ [] ↔
      ∃ c ∈ checks, ∃ v, c.verdict = .ok v := by
    rw [ne_eq, List.filterMap_eq_nil_iff]
    simp only [not_forall, Checked.accepted?]
    constructor
    · rintro ⟨c, hc, hv⟩
      cases hverdict : c.verdict with
      | ok v => exact ⟨c, hc, v, hverdict⟩
      | error e => simp [hverdict, Except.toOption] at hv
    · rintro ⟨c, hc, v, hv⟩
      exact ⟨c, hc, by simp [hv, Except.toOption]⟩
  refine ⟨{
    certs := st.1
    checks
    fetchEvents := t₁ ++ t₂
    certificateEvents := t₃
    after := u
    events := rfl
    fetching := hfetching
    fetched := hgets₂.trans hgets'.symm
    certificates := fun _ => ⟨_, _, st, rfl, h₃⟩
    unloaded := fun hnone => absurd (hgets' ▸ hnone) hsome
    checked := fun _ => by rw [hgets', hrequests]
    unchecked := fun hsecure hnone => by simp [hsecure, hnone] at hkeys }, ?_, ?_⟩
  · exact {
      fetches := by rw [hgets', hst]
      parses := by rw [hgets', hst]
      keys := by
        rw [hreads', ← hks, hst]
        simp [fetchErrors]
      signatures := rfl
      deletions := by rw [hdeletions', ← hfailures] }
  · exact and_congr Iff.rfl haccepted.symm

/-- The course of a run that found nothing. -/
theorem course_of_nothing_found {credentials : Credentials} {t₁ t₂ : Trace}
    (h₁ : ∀ e ∈ t₁, e.op.kind = .handle)
    (h₂ : (fetchDdnsJsonsFromS3 ⟨ConfigServer.parse args, credentials⟩ fuel).run.Exec t₂
      (.ok (requestsOf (gets t₂), fetchErrors (gets t₂))))
    (hnone : requestsOf (gets t₂) = []) :
    ∃ course : Course args (t₁ ++ t₂),
      course.Collects (fetchErrors (gets t₂)) ∧ ¬ course.Commits := by
  obtain ⟨hfetching, hgets, hreads, hdeletions⟩ := seen_fetch h₁ h₂
  refine ⟨{
    certs := []
    checks := []
    fetchEvents := t₁ ++ t₂
    certificateEvents := []
    after := []
    events := by simp
    fetching := hfetching
    fetched := rfl
    certificates := fun hsome => absurd (by rw [hgets, hnone]) hsome
    unloaded := fun _ => ⟨rfl, rfl⟩
    checked := fun _ => by rw [hgets, hnone]; rfl
    unchecked := fun _ _ => rfl }, ?_, ?_⟩
  · exact {
      fetches := by rw [hgets]
      parses := by rw [hgets]
      keys := by simp [fetchErrors, hreads]
      signatures := rfl
      deletions := by simp [fetchErrors, hdeletions] }
  · simp [Course.Commits]

/-- The course of a run that had no certificate to check with. -/
theorem course_of_no_keys {credentials : Credentials} {t₁ t₂ t₃ : Trace} {st : KeyMapState}
    (h₁ : ∀ e ∈ t₁, e.op.kind = .handle)
    (h₂ : (fetchDdnsJsonsFromS3 ⟨ConfigServer.parse args, credentials⟩ fuel).run.Exec t₂
      (.ok (requestsOf (gets t₂), fetchErrors (gets t₂))))
    (hsome : requestsOf (gets t₂) ≠ [])
    (h₃ : (domainCertificates ⟨ConfigServer.parse args, credentials⟩
      (fetchErrors (gets t₂))).run.Exec t₃ (.ok st))
    (hsecure : args.insecureSkipVerify = false) (hcerts : st.1 = []) :
    ∃ course : Course args ((t₁ ++ t₂) ++ t₃), course.Collects st.2 ∧ ¬ course.Commits := by
  obtain ⟨hfetching, hgets₂, hreads₂, hdeletions₂⟩ := seen_fetch h₁ h₂
  obtain ⟨hgets₃, hdeletions₃, ks, hst, hks⟩ := exec_domainCertificates_reads h₃
  have hgets : gets ((t₁ ++ t₂) ++ t₃) = gets t₂ := by
    rw [gets_append, hgets₂, hgets₃, List.append_nil]
  have hreads : reads ((t₁ ++ t₂) ++ t₃) = reads t₃ := by
    rw [reads_append, hreads₂, List.nil_append]
  refine ⟨{
    certs := []
    checks := []
    fetchEvents := t₁ ++ t₂
    certificateEvents := t₃
    after := []
    events := by simp
    fetching := hfetching
    fetched := hgets₂.trans hgets.symm
    certificates := fun _ => ⟨_, _, st, hcerts, h₃⟩
    unloaded := fun hnone => absurd (hgets ▸ hnone) hsome
    checked := fun hsome => by simp [hsecure] at hsome
    unchecked := fun _ _ => rfl }, ?_, ?_⟩
  · exact {
      fetches := by rw [hgets, hst]
      parses := by rw [hgets, hst]
      keys := by
        rw [hreads, ← hks, hst]
        simp [fetchErrors]
      signatures := by rw [hst]; rfl
      deletions := by
        rw [hst, deletions_append, hdeletions₂, hdeletions₃]
        simp [fetchErrors] }
  · simp [Course.Commits]

omit [Externals] in
/-- What is seen of the deletes is seen of what comes before them and of
them, where that shows nothing. -/
theorem seen_after {s : DynDynserServer} {t : Trace} {a : List (S3Key × Result ℕ)}
    (h : ∀ e ∈ t, e.op.kind ∉ [Kind.get, .file, .delete]) :
    gets (t ++ handleEvent s :: a.map (deleteEvent s.conf.s3QueueBucket)) = [] ∧
      reads (t ++ handleEvent s :: a.map (deleteEvent s.conf.s3QueueBucket)) = [] ∧
      (a.filterMap deleteFailure? = [] ↔
        ∀ d ∈ deletions (t ++ handleEvent s :: a.map (deleteEvent s.conf.s3QueueBucket)),
          ∃ status, d.2 = .ok status ∧ World.successStatus status = true) := by
  obtain ⟨hgets, hreads, hdeletions⟩ := unseen h
  obtain ⟨hgets', hreads', hdeletions'⟩ := seen_cleanup (s := s) (a := a)
  refine ⟨?_, ?_, ?_⟩
  · rw [gets_append, hgets, hgets', List.append_nil]
  · rw [reads_append, hreads, hreads', List.append_nil]
  · rw [deletions_append, hdeletions, hdeletions', List.nil_append, deleteFailures_eq_nil,
      List.forall_mem_map]

/-- What is seen of an effect that was complete: its deletes, of which it
records those that failed. -/
theorem seen_effect {plan : Plan} {t u : Trace} {errors : ServerErrors}
    (h : ∀ e ∈ t, e.op.kind ∉ [Kind.get, .file, .delete])
    (heffect : (effect plan).run.Exec u (.ok errors)) :
    gets (t ++ u) = [] ∧ reads (t ++ u) = [] ∧ ∃ f : List (S3Key × Error),
      errors = { plan.errors with failedS3Deletions := plan.errors.failedS3Deletions ++ f } ∧
      (f = [] ↔ ∀ d ∈ deletions (t ++ u),
        ∃ status, d.2 = .ok status ∧ World.successStatus status = true) := by
  rcases exec_effect heffect with ⟨⟨e, he⟩, -⟩ |
    ⟨pre, headers, resp, rest, hpre, -, rfl, ⟨e, he, -⟩ | ⟨answers, -, heq, rfl⟩⟩
  · cases he
  · cases he
  have hunseen : ∀ e ∈ t ++ (pre ++ [plan.postEvent headers (.ok resp)]),
      e.op.kind ∉ [Kind.get, .file, .delete] := by
    intro e he
    rcases List.mem_append.mp he with he | he
    · exact h e he
    · rcases List.mem_append.mp he with he | he
      · rcases hpre e he with hk | hk <;> simp [hk]
      · rw [List.mem_singleton.mp he]
        simp [Plan.postEvent, Op.kind]
  obtain ⟨hgets, hreads, hfailures⟩ := seen_after (s := plan.server) (a := answers) hunseen
  have hsplit : ∀ (e : Event) (v : Trace), t ++ (pre ++ e :: v) = (t ++ (pre ++ [e])) ++ v :=
    fun e v => by simp
  rw [hsplit]
  refine ⟨hgets, hreads, answers.filterMap deleteFailure?, ?_, hfailures⟩
  rw [← deleteAll_eq]
  exact Except.ok.inj heq

/-- What is seen of a plan that was concluded, dry or not: it comes to the
summary exactly where it is no dry run. -/
theorem seen_conclude {isDryRun : Bool} {plan : Plan} {t u : Trace} {exit : Exit}
    {errors : ServerErrors} (h : ∀ e ∈ t, e.op.kind ∉ [Kind.get, .file, .delete])
    (hconclude : (conclude isDryRun (.inl plan)).run.Exec u (.ok (exit, errors))) :
    gets (t ++ u) = [] ∧ reads (t ++ u) = [] ∧ (exit = .summary ↔ isDryRun = false) ∧
      ∃ f : List (S3Key × Error),
        errors = { plan.errors with failedS3Deletions := plan.errors.failedS3Deletions ++ f } ∧
        (f = [] ↔ ∀ d ∈ deletions (t ++ u),
          ∃ status, d.2 = .ok status ∧ World.successStatus status = true) := by
  obtain ⟨rfl, rfl, rfl, rfl⟩ | ⟨rfl, rfl, heffect⟩ := exec_conclude hconclude
  · -- a dry run prints, and nothing else
    obtain ⟨hgets, hreads, hdeletions⟩ := unseen (t := t ++ plan.foretold) fun e he => by
      rcases List.mem_append.mp he with he | he
      · exact h e he
      · simp [(exec_foretell.mpr ⟨rfl, rfl⟩).admits.of_uses uses_foretell e he]
    refine ⟨hgets, hreads, iff_of_false Exit.noConfusion Bool.noConfusion, [], ?_, ?_⟩
    · rw [List.append_nil]
    · simp [hdeletions]
  · obtain ⟨hgets, hreads, hcollected⟩ := seen_effect h heffect
    exact ⟨hgets, hreads, iff_of_true rfl rfl, hcollected⟩

/-- **A run up to its exit has a course**, collects what was not in order
in it, and comes to the summary exactly where it was to commit. -/
theorem exec_stages {exit : Exit} {errors : ServerErrors}
    (h : (stages fuel args).run.Exec tr (.ok (exit, errors))) :
    ∃ course : Course args tr, course.Collects errors ∧ (exit = .summary ↔ course.Commits) := by
  unfold stages survey judge at h
  obtain ⟨x, t, u, rfl, hsurvey, hconclude⟩ := exec_bind_ok.mp h
  obtain ⟨credentials, t₁, t', rfl, h₁, hrest₁⟩ := exec_bind_ok.mp hsurvey
  obtain ⟨fetched, t₂, t', rfl, h₂, hrest₂⟩ := exec_bind_ok.mp hrest₁
  rw [exec_context_ok] at h₂
  obtain rfl := fetch_result h₂
  have hcredentials := h₁.admits.of_uses uses_getS3Credentials
  split at hrest₂
  · next hempty =>
    obtain ⟨rfl, heq⟩ := exec_pure.mp hrest₂
    cases heq
    obtain ⟨rfl, heq⟩ := exec_pure.mp hconclude
    cases heq
    obtain ⟨course, hcollects, hno⟩ := course_of_nothing_found hcredentials h₂
      (List.isEmpty_iff.mp hempty)
    rw [List.append_nil, List.append_nil]
    exact ⟨course, hcollects, iff_of_false Exit.noConfusion hno⟩
  next hfound =>
  have hsome : requestsOf (gets t₂) ≠ [] := fun hnone => hfound (List.isEmpty_iff.mpr hnone)
  obtain ⟨st, t₃, t', rfl, h₃, hrest₃⟩ := exec_bind_ok.mp hrest₂
  split at hrest₃
  · next hnone =>
    obtain ⟨rfl, heq⟩ := exec_pure.mp hrest₃
    cases heq
    obtain ⟨rfl, heq⟩ := exec_pure.mp hconclude
    cases heq
    obtain ⟨hinsecure, hcerts⟩ := Bool.and_eq_true_iff.mp hnone
    obtain ⟨course, hcollects, hno⟩ := course_of_no_keys hcredentials h₂ hsome h₃
      ((Bool.not_eq_true' _).mp hinsecure) (List.isEmpty_iff.mp hcerts)
    rw [List.append_nil, List.append_nil, ← List.append_assoc]
    exact ⟨course, hcollects, iff_of_false Exit.noConfusion hno⟩
  next hkeys =>
  have hkeys' : (!args.insecureSkipVerify && st.1.isEmpty) = false := (Bool.not_eq_true _).mp hkeys
  obtain ⟨st', t₄, t', rfl, h₄, hrest₄⟩ := exec_bind_ok.mp hrest₃
  obtain ⟨_, h₄, heq⟩ := exec_lift.mp h₄
  cases heq
  obtain ⟨checks, hrequests, rfl, rfl⟩ := exec_validateUnverified.mp h₄
  obtain ⟨_, t₅, t', rfl, h₅, hrest₅⟩ := exec_bind_ok.mp hrest₄
  have hdrop := (exec_context_ok.mp h₅).admits.of_uses uses_maybeDropPrivileges
  have hunseen : ∀ e ∈ t₅, e.op.kind ∉ [Kind.get, .file, .delete] := fun e he => by
    simp [hdrop e he]
  have hvalidated : validateAll checks ([], st.2) =
      (checks.filterMap Checked.accepted?, { st.2 with
        failedSignatureChecks := checks.filterMap Checked.rejected?
        failedS3Deletions := [] }) := by
    obtain ⟨-, -, ks, hst, -⟩ := exec_domainCertificates_reads h₃
    rw [validateAll_eq, hst]
    rfl
  rw [hvalidated] at hrest₅
  -- the trace, cut after the checks
  have hcut : ∀ v : Trace, (t₁ ++ (t₂ ++ (t₃ ++ (checks.flatMap Checked.events ++ (t₅ ++ []))))) ++ v =
      (t₁ ++ t₂) ++ (t₃ ++ (checks.flatMap Checked.events ++ (t₅ ++ v))) := fun v => by simp
  split at hrest₅
  · -- nothing was verified
    next hempty =>
    obtain ⟨rfl, heq⟩ := exec_pure.mp hrest₅
    cases heq
    obtain ⟨rfl, heq⟩ := exec_pure.mp hconclude
    cases heq
    obtain ⟨hgets₅, hreads₅, hdeletions₅⟩ := unseen hunseen
    obtain ⟨course, hcollects, hcommits⟩ := course_of_checks hcredentials h₂ hsome h₃ hkeys' checks
      hrequests (u := t₅ ++ []) (by simp [hgets₅]) (by simp [hreads₅])
      (f := []) (by simp [hdeletions₅])
    have hnone : checks.filterMap Checked.accepted? = [] := List.isEmpty_iff.mp hempty
    rw [hcut]
    exact ⟨course, hcollects, iff_of_false Exit.noConfusion fun hcommit =>
      (hcommits.mp hcommit).2 hnone⟩
  next hsome' =>
  have haccepted : checks.filterMap Checked.accepted? ≠ [] := fun hnone =>
    hsome' (List.isEmpty_iff.mpr hnone)
  obtain ⟨rfl, heq⟩ := exec_pure.mp hrest₅
  cases heq
  obtain ⟨hgets, hreads, hexit, f, rfl, hfailures⟩ := seen_conclude hunseen hconclude
  obtain ⟨course, hcollects, hcommits⟩ := course_of_checks hcredentials h₂ hsome h₃ hkeys' checks
    hrequests hgets hreads hfailures
  rw [hcut]
  exact ⟨course, hcollects,
    hexit.trans ((and_iff_left haccepted).symm.trans hcommits.symm)⟩

/-- **The errors of a run are reported**: it returns `Ok` only with
nothing collected, and with something collected it comes to the summary
and returns `Err`. -/
structure Reported (exit : Exit) (errors : ServerErrors) (r : Result Unit) : Prop where
  clean : r = .ok () → errors.hasErrors = false
  summarised : errors.hasErrors = true → exit = .summary ∧ ∃ e, r = .error e

omit [Externals] in
/-- What is returned at an exit reports the errors where the exit is the
summary, or there are none. -/
theorem reported_result {exit : Exit} {errors : ServerErrors} :
    Reported exit errors (exit.result errors) ↔ exit = .summary ∨ errors.hasErrors = false := by
  have hother : exit ≠ .summary → exit.result errors = .ok () := by
    intro hne
    cases exit with
    | summary => exact absurd rfl hne
    | _ => rfl
  constructor
  · intro h
    by_cases hexit : exit = .summary
    · exact Or.inl hexit
    · exact Or.inr (h.clean (hother hexit))
  · intro h
    by_cases herrors : errors.hasErrors = true
    · rcases h with rfl | hno
      · have hresult : Exit.summary.result errors =
            .error (Error.msg "errors occurred while executing this dyndynser run") := if_pos herrors
        rw [hresult]
        exact ⟨(nomatch ·), fun _ => ⟨rfl, _, rfl⟩⟩
      · rw [hno] at herrors
        cases herrors
    · have hno := (Bool.not_eq_true _).mp herrors
      exact ⟨fun _ => hno, fun hyes => absurd hyes herrors⟩

/-- **What a run reports.** A complete run was cut short by a failure, and
returned it, or it has a course, and its errors are reported exactly where
it came to commit, or all was in order that it met: the course is in the
trace, so whichever is taken. -/
theorem reported_iff {r : Result Unit} (h : (handleServer fuel args).run.Exec tr r) :
    (∃ e, (stages fuel args).run.Exec tr (.error e) ∧ r = .error e) ∨
      ∃ exit errors, (stages fuel args).run.Exec tr (.ok (exit, errors)) ∧
        Nonempty (Course args tr) ∧
        ∀ course : Course args tr, (Reported exit errors r ↔ course.Commits ∨ course.InOrder) := by
  rw [handleServer_eq_stages] at h
  rcases Fallible.exec_bind.mp h with ⟨e, h₁, rfl⟩ | ⟨⟨exit, errors⟩, t₁, t₂, rfl, h₁, h₂⟩
  · exact Or.inl ⟨e, h₁, rfl⟩
  · obtain ⟨rfl, rfl⟩ := exec_ofResult.mp h₂
    rw [List.append_nil]
    obtain ⟨course, hcollects, hexit⟩ := exec_stages h₁
    refine Or.inr ⟨exit, errors, h₁, ⟨course⟩, fun course' => ?_⟩
    rw [reported_result, hexit, hcollects.hasErrors_iff, Course.Commits, Course.Commits,
      course.accepted_iff course', course.inOrder_iff course']

end

namespace Sample

/-- The stages of the server's run over a bucket with bytes that are no
request. -/
@[irreducible] def badRun : Services.Observed (Result (Exit × ServerErrors)) :=
  (@stages externals 1 serverArgs).run.drive (Services.answer (host 1780000030 inRange030))
    (services [("d/bad.ddns.json", [0x78])] (by decide))

theorem badRun_driven : Services.Driven (host 1780000030 (by decide))
    (@stages externals 1 serverArgs).run (services [("d/bad.ddns.json", [0x78])] (by decide))
    badRun := by
  unfold badRun
  exact Services.driven _ _ _

/-- What was collected of it. -/
def badErrors : ServerErrors where
  failedJsonParses := [(⟨"d/bad.ddns.json"⟩, ⟨["failed to deserialize into a DdnsJson object",
    "expected value at line 1 column 1"]⟩)]

theorem badRun_shows : badRun.2.1 = .ok (.ok (.early .nothingFound, badErrors)) := by
  decide +kernel

/-- The run of the server over it returns `Ok`. -/
theorem badRun_ok : (@handleServer externals 1 serverArgs).run.Exec badRun.1 (.ok ()) := by
  let := externals
  rw [handleServer_eq_stages]
  refine Fallible.exec_bind.mpr (Or.inr ⟨_, badRun.1, [], by rw [List.append_nil],
    badRun_driven.exec badRun_shows, exec_ofResult.mpr ⟨rfl, rfl⟩⟩)

end Sample

/-- The sample run over bytes that are no request has a course. -/
theorem reported_iff_bad :
    letI := Sample.externals
    ∃ exit errors, (stages 1 Sample.serverArgs).run.Exec Sample.badRun.1 (.ok (exit, errors)) ∧
      Nonempty (Course Sample.serverArgs Sample.badRun.1) ∧
      ∀ course : Course Sample.serverArgs Sample.badRun.1,
        (Reported exit errors (.ok ()) ↔ course.Commits ∨ course.InOrder) := by
  let := Sample.externals
  rcases reported_iff Sample.badRun_ok with ⟨e, -, herror⟩ | hcourse
  · cases herror
  · exact hcourse

/-- **A run that could read nothing returns `Ok`.** It has collected the
bytes that do not parse, and no summary is made of them. -/
theorem errors_unreported :
    letI := Sample.externals
    ∃ (tr : Trace) (errors : ServerErrors),
      (handleServer 1 Sample.serverArgs).run.Exec tr (.ok ()) ∧
      (stages 1 Sample.serverArgs).run.Exec tr (.ok (.early .nothingFound, errors)) ∧
      errors.hasErrors = true ∧ ¬ Reported (.early .nothingFound) errors (.ok ()) := by
  let := Sample.externals
  exact ⟨_, Sample.badErrors, Sample.badRun_ok, Sample.badRun_driven.exec Sample.badRun_shows, rfl,
    fun h => absurd (h.clean rfl) (by decide)⟩

end DynDynser
