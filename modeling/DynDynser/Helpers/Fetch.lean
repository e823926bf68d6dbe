import DynDynser.Helpers.Calls
import DynDynser.Model.Server
/-!
# The fetch

A run of the fetch is a chain of pages, each with the answers to the
fetches of its keys. The requests and the errors it returns are read off
the answers, one after the other.
-/

namespace DynDynser

open Text Interact Fallible DynDynserServer

variable [Externals]

/-! ## One answer -/

/-- The request in the answer to a fetch. -/
def request? (a : String × Result Bytes) : Option UnverifiedDdnsRequest :=
  match a.2 with
  | .ok data => (fromSlice data).toOption.map fun signedPayload => { signedPayload, s3Key := ⟨a.1⟩ }
  | .error _ => none

/-- What is recorded of a fetch that failed. -/
def fetchFailure? (a : String × Result Bytes) : Option (S3Key × Error) :=
  match a.2 with
  | .ok _ => none
  | .error e => some (⟨a.1⟩, e.context "failed to Get S3 Object")

/-- What is recorded of bytes that are no request. -/
def parseFailure? (a : String × Result Bytes) : Option (S3Key × Error) :=
  match a.2 with
  | .ok data =>
    match (fromSlice data : Result (SignedPayload ResourceRecordSet)) with
    | .ok _ => none
    | .error e => some (⟨a.1⟩, e.context "failed to deserialize into a DdnsJson object")
  | .error _ => none

/-- The requests in the answers. -/
def requestsOf (answers : List (String × Result Bytes)) : List UnverifiedDdnsRequest :=
  answers.filterMap request?

/-- A request in the answers was parsed from the bytes of one of them. -/
theorem mem_requestsOf {answers : List (String × Result Bytes)} {u : UnverifiedDdnsRequest}
    (h : u ∈ requestsOf answers) :
    ∃ data, (u.s3Key.key, .ok data) ∈ answers ∧ fromSlice data = .ok u.signedPayload := by
  obtain ⟨⟨key, answer⟩, ha, hu⟩ := List.mem_filterMap.1 h
  cases answer with
  | error e => cases hu
  | ok data =>
    obtain ⟨p, hp, rfl⟩ := Option.map_eq_some_iff.1 hu
    refine ⟨data, ha, ?_⟩
    cases hd : (fromSlice data : Result (SignedPayload ResourceRecordSet)) with
    | error e => simp [hd, Except.toOption] at hp
    | ok p' =>
      rw [hd] at hp
      cases hp
      rfl

/-- A request has the key its bytes were fetched from. -/
theorem key_of_request? {a : String × Result Bytes} {u : UnverifiedDdnsRequest}
    (h : request? a = some u) : u.s3Key.key = a.1 := by
  obtain ⟨key, answer⟩ := a
  cases answer with
  | error e => cases h
  | ok data =>
    obtain ⟨payload, -, rfl⟩ := Option.map_eq_some_iff.1 h
    rfl

/-- The errors recorded of the answers. -/
def fetchErrors (answers : List (String × Result Bytes)) : ServerErrors :=
  { failedS3Fetches := answers.filterMap fetchFailure?
    failedJsonParses := answers.filterMap parseFailure? }

/-- What the loop makes of its answers. -/
def fetchAll (answers : List (String × Result Bytes)) (st : FetchState) : FetchState :=
  answers.foldl (fun st a => fetched a.1 a.2 st) st

/-- **The loop's state is the list of requests and the two lists of
errors**, in the order of the answers. -/
theorem fetchAll_eq (answers : List (String × Result Bytes)) (st : FetchState) :
    fetchAll answers st = (st.1 ++ requestsOf answers, { st.2 with
      failedS3Fetches := st.2.failedS3Fetches ++ (fetchErrors answers).failedS3Fetches
      failedJsonParses := st.2.failedJsonParses ++ (fetchErrors answers).failedJsonParses }) := by
  induction answers generalizing st with
  | nil => simp [fetchAll, requestsOf, fetchErrors]
  | cons a answers ih =>
    obtain ⟨key, answer⟩ := a
    obtain ⟨reqs, errors⟩ := st
    change fetchAll answers (fetched key answer (reqs, errors)) = _
    rw [ih]
    cases answer with
    | error e =>
      simp [fetched, requestsOf, fetchErrors, request?, fetchFailure?, parseFailure?,
        List.filterMap_cons]
    | ok data =>
      cases hp : (fromSlice data : Result (SignedPayload ResourceRecordSet)) with
      | error e =>
        simp [fetched, requestsOf, fetchErrors, request?, fetchFailure?, parseFailure?, hp,
          Except.toOption, List.filterMap_cons]
      | ok p =>
        simp [fetched, requestsOf, fetchErrors, request?, fetchFailure?, parseFailure?, hp,
          Except.toOption, List.filterMap_cons]

theorem fetchAll_new (answers : List (String × Result Bytes)) :
    fetchAll answers ([], ServerErrors.new) = (requestsOf answers, fetchErrors answers) := by
  rw [fetchAll_eq]
  rfl

/-! ## One page -/

/-- The keys of a page that are fetched. -/
def eligible (contents : List String) : List String :=
  contents.filter fun key => endsWith key ddnsJsonFileExt

/-- The fetch of a key, as an event. -/
def getEvent (bucket : String) (a : String × Result Bytes) : Event := ⟨.getObject bucket a.1, a.2⟩

/-- **The loop over a page fetches its eligible keys in order.** -/
theorem exec_fetchContents {bucket : String} {contents : List String} {st st' : FetchState}
    {tr : Trace} :
    (fetchContents bucket contents st).Exec tr st' ↔
      ∃ answers, answers.map Prod.fst = eligible contents ∧ tr = answers.map (getEvent bucket) ∧
        st' = fetchAll answers st := by
  induction contents generalizing st tr with
  | nil =>
    simp only [fetchContents, Prog.pure_eq_ret, Prog.exec_ret, eligible, List.filter_nil,
      List.map_eq_nil_iff]
    constructor
    · rintro ⟨rfl, rfl⟩
      exact ⟨[], rfl, rfl, rfl⟩
    · rintro ⟨_, rfl, rfl, rfl⟩
      exact ⟨rfl, rfl⟩
  | cons key contents ih =>
    rw [fetchContents]
    by_cases hext : endsWith key ddnsJsonFileExt = true
    · rw [if_pos hext]
      refine Prog.exec_bind.trans ?_
      simp only [eligible, List.filter_cons, if_pos hext]
      constructor
      · rintro ⟨answer, t₁, t₂, rfl, h₁, h₂⟩
        obtain rfl := exec_call.1 h₁
        obtain ⟨answers, hkeys, rfl, rfl⟩ := ih.1 h₂
        exact ⟨(key, answer) :: answers, by simp [hkeys, eligible], rfl, rfl⟩
      · rintro ⟨answers, hkeys, rfl, rfl⟩
        obtain ⟨⟨k, answer⟩, answers, rfl, rfl, hk⟩ := List.map_eq_cons_iff.1 hkeys
        exact ⟨answer, _, _, rfl, exec_call.2 rfl, ih.2 ⟨answers, hk, rfl, rfl⟩⟩
    · rw [if_neg hext, ih]
      simp only [eligible, List.filter_cons, if_neg hext]

/-! ## The pages -/

/-- A page, with the answer to the fetch of each of its eligible keys. -/
structure FetchedPage where
  page : ListBucketResult
  answers : List (String × Result Bytes)
  keys : answers.map Prod.fst = eligible page.contents

/-- Every page but the last has a token. -/
def Chained : List FetchedPage → Prop
  | [] => False
  | p :: ps =>
    match p.page.nextContinuationToken with
    | none => ps = []
    | some _ => Chained ps

/-- The events of a chain of pages that starts at a token. -/
def pagesTrace (bucket dir : String) : Option String → List FetchedPage → Trace
  | _, [] => []
  | token, p :: ps =>
    ⟨.listPage bucket dir "/" token, .ok p.page⟩ :: (p.answers.map (getEvent bucket) ++
      pagesTrace bucket dir p.page.nextContinuationToken ps)

/-- The answers of a chain of pages. -/
def answersOf (ps : List FetchedPage) : List (String × Result Bytes) :=
  ps.flatMap FetchedPage.answers

variable {self : DynDynserServer} {bucket dir : String} {token : Option String}
variable {ps : List FetchedPage} {tr : Trace} {fuel : ℕ}

/-- **A complete run of the loop over pages is a chain of pages.** -/
theorem exec_fetchPages {st st' : FetchState} :
    (self.fetchPages bucket fuel token st).run.Exec tr (.ok st') ↔
      ∃ ps, ps.length ≤ fuel ∧ Chained ps ∧
        tr = pagesTrace bucket self.conf.s3DdnsJsonDirectory token ps ∧
        st' = fetchAll (answersOf ps) st := by
  induction fuel generalizing token st tr with
  | zero =>
    constructor
    · exact fun h => absurd h Prog.exec_abort
    · rintro ⟨ps, hlen, hc, -⟩
      obtain rfl := List.length_eq_zero_iff.1 (Nat.le_zero.1 hlen)
      exact hc.elim
  | succ fuel ih =>
    rw [fetchPages, Fallible.exec_bind_ok]
    constructor
    · rintro ⟨page, t₁, t₂, rfl, h₁, h₂⟩
      obtain rfl := exec_call.1 (exec_context_ok.1 h₁)
      obtain ⟨st₁, t₃, t₄, rfl, h₃, h₄⟩ := exec_bind_ok.1 h₂
      obtain ⟨_, h₃, heq⟩ := exec_lift.1 h₃
      cases heq
      obtain ⟨answers, hkeys, rfl, rfl⟩ := exec_fetchContents.1 h₃
      cases hnext : page.nextContinuationToken with
      | none =>
        rw [hnext] at h₄
        obtain ⟨rfl, heq⟩ := exec_pure.1 h₄
        cases heq
        refine ⟨[⟨page, answers, hkeys⟩], by simp, by simp [Chained, hnext], ?_, ?_⟩
        · simp [pagesTrace]
        · simp [answersOf]
      | some next =>
        rw [hnext] at h₄
        obtain ⟨ps, hlen, hc, rfl, rfl⟩ := ih.1 h₄
        refine ⟨⟨page, answers, hkeys⟩ :: ps, by simpa using hlen, by simpa [Chained, hnext], ?_, ?_⟩
        · simp [pagesTrace, hnext]
        · simp [answersOf, fetchAll]
    · rintro ⟨ps, hlen, hc, rfl, rfl⟩
      cases ps with
      | nil => exact hc.elim
      | cons p ps =>
        refine ⟨p.page, _, _, rfl, exec_context_ok.2 (exec_call.2 rfl), ?_⟩
        refine exec_bind_ok.2 ⟨fetchAll p.answers st, _, _, rfl,
          exec_lift.2 ⟨_, exec_fetchContents.2 ⟨p.answers, p.keys, rfl, rfl⟩, rfl⟩, ?_⟩
        cases hnext : p.page.nextContinuationToken with
        | none =>
          simp only [Chained, hnext] at hc
          subst hc
          exact exec_pure.2 ⟨rfl, by simp [answersOf]⟩
        | some next =>
          simp only [Chained, hnext] at hc
          exact ih.2 ⟨ps, by simpa using hlen, hc, rfl, by simp [answersOf, fetchAll]⟩

/-! ## The fetch -/

/-- The bucket handle. -/
theorem exec_getS3Bucket {b : String} :
    self.getS3Bucket.run.Exec tr (.ok b) ↔
      Externals.parseRegion self.conf.awsConfig.region = .ok () ∧
        tr = [⟨.bucketNew self.conf.s3QueueBucket self.conf.awsConfig.region, .ok ()⟩] ∧
        b = self.conf.s3QueueBucket := by
  rw [getS3Bucket]
  constructor
  · intro h
    obtain ⟨_, t₁, t₂, rfl, h₁, h₂⟩ := exec_bind_ok.1 h
    obtain ⟨rfl, hr⟩ := exec_ofResult.1 h₁
    obtain ⟨_, t₃, t₄, rfl, h₃, h₄⟩ := exec_bind_ok.1 h₂
    obtain rfl := exec_call.1 (exec_context_ok.1 h₃)
    obtain ⟨rfl, heq⟩ := exec_pure.1 h₄
    cases heq
    exact ⟨Result.context_eq_ok.1 hr, rfl, rfl⟩
  · rintro ⟨hr, rfl, rfl⟩
    refine exec_bind_ok.2 ⟨(), [], _, rfl, exec_ofResult.2 ⟨rfl, by simp [hr]⟩, ?_⟩
    exact exec_bind_ok.2 ⟨(), _, [], by simp, exec_context_ok.2 (exec_call.2 rfl),
      exec_pure.2 ⟨rfl, rfl⟩⟩

/-- **A complete run of the fetch** takes a bucket handle and goes through
a chain of pages, from the first to the last. -/
theorem exec_fetchDdnsJsonsFromS3 {st : FetchState} :
    (self.fetchDdnsJsonsFromS3 fuel).run.Exec tr (.ok st) ↔
      Externals.parseRegion self.conf.awsConfig.region = .ok () ∧
      ∃ ps, ps.length ≤ fuel ∧ Chained ps ∧
        tr = ⟨.bucketNew self.conf.s3QueueBucket self.conf.awsConfig.region, .ok ()⟩ ::
          pagesTrace self.conf.s3QueueBucket self.conf.s3DdnsJsonDirectory none ps ∧
        st = (requestsOf (answersOf ps), fetchErrors (answersOf ps)) := by
  rw [fetchDdnsJsonsFromS3]
  constructor
  · intro h
    obtain ⟨_, t₁, t₂, rfl, h₁, h₂⟩ := exec_bind_ok.1 h
    obtain ⟨hr, rfl, rfl⟩ := exec_getS3Bucket.1 (exec_context_ok.1 h₁)
    obtain ⟨ps, hlen, hc, rfl, rfl⟩ := exec_fetchPages.1 h₂
    exact ⟨hr, ps, hlen, hc, rfl, fetchAll_new _⟩
  · rintro ⟨hr, ps, hlen, hc, rfl, rfl⟩
    exact exec_bind_ok.2 ⟨_, _, _, rfl, exec_context_ok.2 (exec_getS3Bucket.2 ⟨hr, rfl, rfl⟩),
      exec_fetchPages.2 ⟨ps, hlen, hc, rfl, (fetchAll_new _).symm⟩⟩

/-! ## What a fetch shows -/

omit [Externals] in
/-- The keys of the answers are the eligible keys of the pages. -/
theorem answersOf_keys : (answersOf ps).map Prod.fst =
    eligible (ps.flatMap fun p => p.page.contents) := by
  induction ps with
  | nil => rfl
  | cons p ps ih =>
    simp only [answersOf, List.flatMap_cons, List.map_append, p.keys, eligible,
      List.filter_append] at ih ⊢
    rw [ih]

omit [Externals] in
@[simp] theorem gets_map_getEvent {answers : List (String × Result Bytes)} :
    gets (answers.map (getEvent bucket)) = answers := by
  simp only [gets, List.filterMap_map]
  exact List.filterMap_some

omit [Externals] in
@[simp] theorem listed_map_getEvent {answers : List (String × Result Bytes)} :
    listed (answers.map (getEvent bucket)) = [] := by
  refine listed_eq_nil fun e he => ?_
  obtain ⟨a, -, rfl⟩ := List.mem_map.1 he
  exact Kind.noConfusion

omit [Externals] in
theorem gets_pagesTrace : gets (pagesTrace bucket dir token ps) = answersOf ps := by
  induction ps generalizing token with
  | nil => rfl
  | cons p ps ih =>
    change gets (p.answers.map (getEvent bucket) ++ pagesTrace bucket dir _ ps) = _
    rw [gets_append, gets_map_getEvent, ih]
    rfl

omit [Externals] in
theorem listed_pagesTrace :
    listed (pagesTrace bucket dir token ps) = ps.flatMap fun p => p.page.contents := by
  induction ps generalizing token with
  | nil => rfl
  | cons p ps ih =>
    change p.page.contents ++ listed (p.answers.map (getEvent bucket) ++ _) = _
    rw [listed_append, listed_map_getEvent, ih]
    rfl

/-- **The keys fetched are the eligible keys listed**, in the order of the
listing. -/
theorem fetch_keys {st : FetchState}
    (h : (self.fetchDdnsJsonsFromS3 fuel).run.Exec tr (.ok st)) :
    (gets tr).map Prod.fst = eligible (listed tr) := by
  obtain ⟨-, ps, -, -, rfl, -⟩ := exec_fetchDdnsJsonsFromS3.1 h
  change (gets (pagesTrace _ _ none ps)).map Prod.fst = eligible (listed (pagesTrace _ _ none ps))
  rw [gets_pagesTrace, listed_pagesTrace, answersOf_keys]

/-- **What the fetch returns is read off its answers.** -/
theorem fetch_result {st : FetchState}
    (h : (self.fetchDdnsJsonsFromS3 fuel).run.Exec tr (.ok st)) :
    st = (requestsOf (gets tr), fetchErrors (gets tr)) := by
  obtain ⟨-, ps, -, -, rfl, rfl⟩ := exec_fetchDdnsJsonsFromS3.1 h
  change _ = (requestsOf (gets (pagesTrace _ _ none ps)), fetchErrors (gets (pagesTrace _ _ none ps)))
  rw [gets_pagesTrace]

omit [Externals] in
/-- The fetches of a chain of pages are fetches from its bucket. -/
theorem mem_pagesTrace {a : String × Result Bytes} (h : a ∈ answersOf ps) :
    getEvent bucket a ∈ pagesTrace bucket dir token ps := by
  induction ps generalizing token with
  | nil => cases h
  | cons p ps ih =>
    unfold pagesTrace
    rw [answersOf, List.flatMap_cons, List.mem_append] at h
    refine List.mem_cons_of_mem _ (List.mem_append.mpr ?_)
    rcases h with h | h
    · exact Or.inl (List.mem_map_of_mem h)
    · exact Or.inr (ih h)

/-- What a fetch fetched, it fetched from the bucket it is configured
with. -/
theorem getEvent_mem {st : FetchState} (h : (self.fetchDdnsJsonsFromS3 fuel).run.Exec tr (.ok st))
    {a : String × Result Bytes} (ha : a ∈ gets tr) : getEvent self.conf.s3QueueBucket a ∈ tr := by
  obtain ⟨-, ps, -, -, rfl, -⟩ := exec_fetchDdnsJsonsFromS3.mp h
  have hgets : gets (pagesTrace self.conf.s3QueueBucket self.conf.s3DdnsJsonDirectory none ps) =
      answersOf ps := gets_pagesTrace
  have hanswer : a ∈ answersOf ps := by
    rw [← hgets]
    exact ha
  exact List.mem_cons_of_mem _ (mem_pagesTrace hanswer)

/-- The calls a fetch is made of. -/
theorem uses_getS3Bucket : self.getS3Bucket.run.Uses (·.kind = .handle) :=
  uses_bind uses_ofResult fun _ => uses_bind (uses_context (uses_call.2 rfl)) fun _ => trivial

theorem uses_fetchContents {contents : List String} {st : FetchState} :
    (fetchContents bucket contents st).Uses (·.kind = .get) := by
  induction contents generalizing st with
  | nil => trivial
  | cons key contents ih =>
    rw [fetchContents]
    split
    · refine Prog.Uses.bind (uses_call.2 ?_) fun _ => ih
      rfl
    · exact ih

theorem uses_fetchDdnsJsonsFromS3 :
    (self.fetchDdnsJsonsFromS3 fuel).run.Uses (·.kind ∈ [Kind.handle, .list, .get]) := by
  have hpages : ∀ bucket fuel token st, (self.fetchPages bucket fuel token st).run.Uses
      (·.kind ∈ [Kind.handle, .list, .get]) := by
    intro bucket fuel
    induction fuel with
    | zero => exact fun _ _ => trivial
    | succ fuel ih =>
      intro token st
      rw [fetchPages]
      refine uses_bind (uses_context (uses_call.2 (by simp [Op.kind]))) fun page => ?_
      refine uses_bind (uses_lift.2 (uses_fetchContents.mono fun o ho => by simp [ho])) fun st => ?_
      split
      · exact ih _ _
      · trivial
  exact uses_bind (uses_context (uses_getS3Bucket.mono fun o ho => by simp [ho]))
    fun _ => hpages _ _ _ _

end DynDynser
