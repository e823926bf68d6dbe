import DynDynser.Helpers.Fetch
/-!
# The commit and the cleanup

A commit posts one batch and nothing after it; it returns exactly when the
post was acknowledged. A cleanup deletes its keys in order, whatever the
answers are.
-/

namespace DynDynser

open Text Interact Fallible DynDynserServer

variable [Externals] {self : DynDynserServer} {changes : List Change} {tr : Trace}

/-! ## The commit -/

/-- The address a zone's changes are posted to. -/
def changeUrl (hostedZoneId : String) : String :=
  s!"https://{route53Host}/2013-04-01/hostedzone/{Route53Client.zoneOf hostedZoneId}/rrset/"

/-- The request a commit posts, under the headers it is given. -/
def commitRequest (self : DynDynserServer) (changes : List Change)
    (headers : List (String × String)) : ChangeRequest where
  url := changeUrl self.conf.hostedDnsZoneId
  headers := headers
  comment := some "Updated via dyndynser"
  changes := changes

theorem acknowledges_post {req : ChangeRequest} {resp : Response String} {body : String}
    (h : Route53Client.checkResponse resp = .ok body) :
    acknowledges ⟨.changeResourceRecordSets req, .ok resp⟩ = true := by
  rw [Route53Client.checkResponse] at h
  cases hb : resp.body with
  | error e => simp [hb, bind, Except.bind] at h
  | ok b =>
    cases hs : resp.isSuccess with
    | false => simp [hb, hs, bind, Except.bind] at h
    | true => simp [acknowledges, hs, hb, Except.isOk, Except.toBool]

theorem not_acknowledges_post {req : ChangeRequest} {resp : Response String} {e : Error}
    (h : Route53Client.checkResponse resp = .error e) :
    acknowledges ⟨.changeResourceRecordSets req, .ok resp⟩ = false := by
  rw [Route53Client.checkResponse] at h
  cases hb : resp.body with
  | error e => simp [acknowledges, hb, Except.isOk, Except.toBool]
  | ok b =>
    cases hs : resp.isSuccess with
    | false => simp [acknowledges, hs]
    | true => simp [hb, hs, bind, Except.bind] at h

omit [Externals] in
theorem uses_fromS3Credentials {creds : Credentials} :
    (Route53Client.fromS3Credentials creds).run.Uses (·.kind = .client) :=
  uses_bind uses_okOr fun _ => uses_bind uses_okOr fun _ =>
    uses_bind (uses_context (uses_call.2 rfl)) fun _ => uses_pure

theorem uses_signedHeaders {client : Route53Client} {method path : String} {body : Bytes} :
    (client.signedHeaders method path body).run.Uses (·.kind = .clock) :=
  uses_bind (uses_bind (uses_ask.2 rfl) fun _ => uses_pure) fun _ => uses_ofResult

/-- What a post answers is what is returned of it. -/
theorem exec_afterPost {resp : Response String} {r : Result ChangeInfo}
    (h : (do
      let rawXml ← context "failed to deserialize route53 response"
        (ofResult (Route53Client.checkResponse resp))
      return Route53Client.changeInfoOf rawXml : Rust ChangeInfo).run.Exec tr r) :
    tr = [] ∧ ((∃ body, Route53Client.checkResponse resp = .ok body ∧ r.isOk = true) ∨
      ∃ e, Route53Client.checkResponse resp = .error e ∧ r.isOk = false) := by
  obtain ⟨e, h₁, rfl⟩ | ⟨body, t₁, t₂, rfl, h₁, h₂⟩ := Fallible.exec_bind.1 h
  · obtain ⟨r', h₁, heq⟩ := exec_context.1 h₁
    obtain ⟨rfl, rfl⟩ := exec_ofResult.1 h₁
    cases hr : Route53Client.checkResponse resp with
    | ok body => rw [hr] at heq; cases heq
    | error e' => exact ⟨rfl, Or.inr ⟨e', rfl, rfl⟩⟩
  · obtain ⟨rfl, hr⟩ := exec_ofResult.1 (exec_context_ok.1 h₁)
    obtain ⟨rfl, rfl⟩ := exec_pure.1 h₂
    exact ⟨rfl, Or.inl ⟨body, hr, rfl⟩⟩

omit [Externals] in
/-- What comes before the post is neither a post nor a delete. -/
theorem quiet_beforePost (h : ∀ e ∈ tr, e.op.kind = .client ∨ e.op.kind = .clock) :
    posts tr = [] ∧ deletes tr = [] ∧ ∀ e ∈ tr, acknowledges e = false := by
  refine ⟨posts_eq_nil fun e he => ?_, deletes_eq_nil fun e he => ?_,
    fun e he => not_acknowledges ?_⟩ <;> rcases h e he with hk | hk <;> simp [hk]

omit [Externals] in
/-- A client that was built met no failure. -/
theorem okRuns_fromS3Credentials {creds : Credentials} :
    OkRuns (fun e => fails e = false) (Route53Client.fromS3Credentials creds) := by
  intro tr client h
  obtain ⟨accessKey, t₁, t₂, rfl, h₁, h₂⟩ := exec_bind_ok.mp h
  obtain ⟨secretKey, t₃, t₄, rfl, h₃, h₄⟩ := exec_bind_ok.mp h₂
  obtain ⟨_, t₅, t₆, rfl, h₅, h₆⟩ := exec_bind_ok.mp h₄
  obtain ⟨rfl, -⟩ := exec_okOr.mp h₁
  obtain ⟨rfl, -⟩ := exec_okOr.mp h₃
  obtain rfl := exec_call.mp (exec_context_ok.mp h₅)
  obtain ⟨rfl, -⟩ := exec_pure.mp h₆
  intro e he
  rw [List.mem_singleton.mp he]
  rfl

/-- **A run of the commit posts at most once, and last**; what came before
a post did not fail. -/
theorem admits_commitChanges (h : (self.commitChanges changes).run.Admits tr) :
    ∃ pre, (∀ e ∈ pre, e.op.kind = .client ∨ e.op.kind = .clock) ∧
      (tr = pre ∨ (∀ e ∈ pre, fails e = false) ∧ ∃ headers ans, tr = pre ++
        [⟨.changeResourceRecordSets (commitRequest self changes headers), ans⟩]) := by
  rw [commitChanges] at h
  obtain h | ⟨client, t₁, t₂, rfl, h₁, h₂⟩ := Fallible.admits_bind.1 h
  · exact ⟨tr, fun e he => Or.inl ((admits_context.1 h).of_uses uses_fromS3Credentials e he),
      Or.inl rfl⟩
  · have hu₁ := (exec_context_ok.1 h₁).admits.of_uses uses_fromS3Credentials
    have hf₁ := okRuns_fromS3Credentials _ _ (exec_context_ok.1 h₁)
    obtain h₂ | ⟨headers, t₃, t₄, rfl, h₃, h₄⟩ := Fallible.admits_bind.1 (admits_context.1 h₂)
    · have hu₂ := h₂.of_uses uses_signedHeaders
      exact ⟨t₁ ++ t₂, fun e he => (List.mem_append.1 he).imp (hu₁ e) (hu₂ e), Or.inl rfl⟩
    · have hu₂ := h₃.admits.of_uses uses_signedHeaders
      have hf : ∀ e ∈ t₁ ++ t₃, fails e = false := by
        intro e he
        rcases List.mem_append.mp he with he | he
        · exact hf₁ e he
        · exact not_fails (Or.inr (hu₂ e he))
      refine ⟨t₁ ++ t₃, fun e he => (List.mem_append.1 he).imp (hu₁ e) (hu₂ e), ?_⟩
      obtain h₄ | ⟨resp, t₅, t₆, rfl, h₅, h₆⟩ := Fallible.admits_bind.1 h₄
      · obtain rfl | ⟨ans, rfl⟩ := admits_call.1 (admits_context.1 h₄)
        · exact Or.inl (by simp)
        · exact Or.inr ⟨hf, headers, ans, by rw [List.append_assoc]; rfl⟩
      · obtain rfl := exec_call.1 (exec_context_ok.1 h₅)
        obtain h₆ | ⟨_, t₇, t₈, rfl, h₇, h₈⟩ := Fallible.admits_bind.1 h₆
        · obtain rfl := admits_ofResult.1 (admits_context.1 h₆)
          exact Or.inr ⟨hf, headers, .ok resp, by
            simp only [List.append_nil, List.append_assoc]; rfl⟩
        · obtain ⟨rfl, -⟩ := exec_ofResult.1 (exec_context_ok.1 h₇)
          obtain rfl := admits_pure.1 h₈
          exact Or.inr ⟨hf, headers, .ok resp, by
            simp only [List.append_nil, List.append_assoc]; rfl⟩

/-- **The commit returns exactly when its post was acknowledged.** -/
theorem exec_commitChanges {r : Result ChangeInfo}
    (h : (self.commitChanges changes).run.Exec tr r) :
    (r.isOk = true ∧ ∃ pre headers resp,
        (∀ e ∈ pre, e.op.kind = .client ∨ e.op.kind = .clock) ∧ (∀ e ∈ pre, fails e = false) ∧
        tr = pre ++
          [⟨.changeResourceRecordSets (commitRequest self changes headers), .ok resp⟩] ∧
        acknowledges ⟨.changeResourceRecordSets (commitRequest self changes headers), .ok resp⟩ =
          true) ∨
      (r.isOk = false ∧ ∀ e ∈ tr, acknowledges e = false) := by
  rw [commitChanges] at h
  obtain ⟨_, h₁, rfl⟩ | ⟨client, t₁, t₂, rfl, h₁, h₂⟩ := Fallible.exec_bind.1 h
  · refine Or.inr ⟨rfl, (quiet_beforePost fun e he => Or.inl ?_).2.2⟩
    exact (admits_context.1 h₁.admits).of_uses uses_fromS3Credentials e he
  have hu₁ := (exec_context_ok.1 h₁).admits.of_uses uses_fromS3Credentials
  obtain ⟨r', h₂', rfl⟩ := exec_context.1 h₂
  have hok : ∀ c, (Result.context r' c).isOk = r'.isOk := fun c => by cases r' <;> rfl
  rw [hok]
  obtain ⟨_, h₃, rfl⟩ | ⟨headers, t₃, t₄, rfl, h₃, h₄⟩ := Fallible.exec_bind.1 h₂'
  · have hu₂ := h₃.admits.of_uses uses_signedHeaders
    exact Or.inr ⟨rfl, (quiet_beforePost fun e he =>
      (List.mem_append.1 he).imp (hu₁ e) (hu₂ e)).2.2⟩
  have hquiet : ∀ e ∈ t₁ ++ t₃, e.op.kind = .client ∨ e.op.kind = .clock := fun e he =>
    (List.mem_append.1 he).imp (hu₁ e) (h₃.admits.of_uses uses_signedHeaders e)
  have hf : ∀ e ∈ t₁ ++ t₃, fails e = false := by
    intro e he
    rcases List.mem_append.mp he with he | he
    · exact okRuns_fromS3Credentials _ _ (exec_context_ok.1 h₁) e he
    · exact not_fails (Or.inr (h₃.admits.of_uses uses_signedHeaders e he))
  obtain ⟨_, h₅, rfl⟩ | ⟨resp, t₅, t₆, rfl, h₅, h₆⟩ := Fallible.exec_bind.1 h₄
  · obtain ⟨x, h₅', heq⟩ := exec_context.1 h₅
    obtain rfl := exec_call.1 h₅'
    cases x with
    | ok resp => cases heq
    | error e =>
      refine Or.inr ⟨rfl, fun e' he' => ?_⟩
      rw [← List.append_assoc] at he'
      obtain he' | he' := List.mem_append.1 he'
      · exact (quiet_beforePost hquiet).2.2 e' he'
      · rw [List.mem_singleton.1 he']
        rfl
  · obtain rfl := exec_call.1 (exec_context_ok.1 h₅)
    obtain ⟨rfl, ⟨body, hbody, hr⟩ | ⟨e, hbody, hr⟩⟩ := exec_afterPost h₆
    · refine Or.inl ⟨hr, t₁ ++ t₃, headers, resp, hquiet, hf, ?_, acknowledges_post hbody⟩
      simp only [List.append_nil, List.append_assoc]
      rfl
    · refine Or.inr ⟨hr, fun e' he' => ?_⟩
      rw [List.append_nil, ← List.append_assoc] at he'
      obtain he' | he' := List.mem_append.1 he'
      · exact (quiet_beforePost hquiet).2.2 e' he'
      · rw [List.mem_singleton.1 he']
        exact not_acknowledges_post hbody

theorem uses_commitChanges : (self.commitChanges changes).run.Uses
    (·.kind ∈ [Kind.client, .clock, .post]) := by
  refine uses_bind (uses_context (uses_fromS3Credentials.mono fun o ho => by simp [ho]))
    fun client => uses_context ?_
  refine uses_bind (uses_signedHeaders.mono fun o ho => by simp [ho]) fun headers => ?_
  refine uses_bind (uses_context (uses_call.mpr (by simp [Op.kind]))) fun resp => ?_
  exact uses_bind (uses_context uses_ofResult) fun _ => uses_pure

/-! ## The cleanup -/

/-- A delete, as an event. -/
def deleteEvent (bucket : String) (a : S3Key × Result ℕ) : Event :=
  ⟨.deleteObject bucket a.1.key, a.2⟩

/-- What the loop makes of the answers to its deletes. -/
def deleteAll (answers : List (S3Key × Result ℕ)) (errors : ServerErrors) : ServerErrors :=
  answers.foldl (fun errors a => deleted a.1 a.2 errors) errors

omit [Externals] in
/-- **Every key is attempted, whatever the answers.** -/
theorem exec_deleteObjects {bucket : String} {keys : List S3Key} {errors errors' : ServerErrors} :
    (deleteObjects bucket keys errors).Exec tr errors' ↔
      ∃ answers : List (S3Key × Result ℕ), answers.map Prod.fst = keys ∧
        tr = answers.map (deleteEvent bucket) ∧ errors' = deleteAll answers errors := by
  induction keys generalizing errors tr with
  | nil =>
    simp only [deleteObjects, Prog.pure_eq_ret, Prog.exec_ret, List.map_eq_nil_iff]
    constructor
    · rintro ⟨rfl, rfl⟩
      exact ⟨[], rfl, rfl, rfl⟩
    · rintro ⟨_, rfl, rfl, rfl⟩
      exact ⟨rfl, rfl⟩
  | cons key keys ih =>
    rw [deleteObjects]
    refine Prog.exec_bind.trans ?_
    constructor
    · rintro ⟨answer, t₁, t₂, rfl, h₁, h₂⟩
      obtain rfl := exec_call.1 h₁
      obtain ⟨answers, rfl, rfl, rfl⟩ := ih.1 h₂
      exact ⟨(key, answer) :: answers, rfl, rfl, rfl⟩
    · rintro ⟨answers, hkeys, rfl, rfl⟩
      obtain ⟨⟨k, answer⟩, answers, rfl, rfl, rfl⟩ := List.map_eq_cons_iff.1 hkeys
      exact ⟨answer, _, _, rfl, exec_call.2 rfl, ih.2 ⟨answers, rfl, rfl, rfl⟩⟩

omit [Externals] in
/-- A run of the loop has attempted the first of its keys. -/
theorem admits_deleteObjects {bucket : String} {keys : List S3Key} {errors : ServerErrors}
    (h : (deleteObjects bucket keys errors).Admits tr) :
    ∃ answers : List (S3Key × Result ℕ), answers.map Prod.fst <+: keys ∧
      tr = answers.map (deleteEvent bucket) := by
  induction keys generalizing errors tr with
  | nil => exact ⟨[], List.nil_prefix, h⟩
  | cons key keys ih =>
    rw [deleteObjects] at h
    obtain h | ⟨answer, t₁, t₂, rfl, h₁, h₂⟩ := Prog.admits_bind.1 h
    · obtain rfl | ⟨answer, rfl⟩ := admits_call.1 h
      · exact ⟨[], List.nil_prefix, rfl⟩
      · exact ⟨[(key, answer)], by simp, rfl⟩
    · obtain rfl := exec_call.1 h₁
      obtain ⟨answers, hkeys, rfl⟩ := ih h₂
      exact ⟨(key, answer) :: answers, by simpa using hkeys, rfl⟩

omit [Externals] in
@[simp] theorem deletes_map_deleteEvent {bucket : String} {answers : List (S3Key × Result ℕ)} :
    deletes (answers.map (deleteEvent bucket)) = answers.map (·.1.key) := by
  induction answers with
  | nil => rfl
  | cons a answers ih => exact congrArg (a.1.key :: ·) ih

/-- The handle a cleanup begins with. -/
def handleEvent (self : DynDynserServer) : Event :=
  ⟨.bucketNew self.conf.s3QueueBucket self.conf.awsConfig.region, .ok ()⟩

omit [Externals] in
theorem uses_deleteObjects {bucket : String} {keys : List S3Key} {errors : ServerErrors} :
    (deleteObjects bucket keys errors).Uses (·.kind = .delete) := by
  induction keys generalizing errors with
  | nil => trivial
  | cons key keys ih => exact Prog.Uses.bind (uses_call.mpr rfl) fun _ => ih

theorem uses_cleanup {keys : List S3Key} {errors : ServerErrors} :
    (self.cleanup keys errors).run.Uses (·.kind ∈ [Kind.handle, .delete]) :=
  uses_bind (uses_context (uses_getS3Bucket.mono fun o ho => by simp [ho])) fun _ =>
    uses_lift.mpr (uses_deleteObjects.mono fun o ho => by simp [ho])

/-- **A run of the cleanup** waits for its bucket handle, or has deleted
the first of its keys. -/
theorem admits_cleanup {keys : List S3Key} {errors : ServerErrors}
    (h : (self.cleanup keys errors).run.Admits tr) :
    (∀ e ∈ tr, e.op.kind = .handle) ∨
      ∃ answers : List (S3Key × Result ℕ), answers.map Prod.fst <+: keys ∧
        tr = handleEvent self :: answers.map (deleteEvent self.conf.s3QueueBucket) := by
  rw [DynDynserServer.cleanup] at h
  obtain h | ⟨_, t₁, t₂, rfl, h₁, h₂⟩ := Fallible.admits_bind.1 h
  · exact Or.inl ((admits_context.1 h).of_uses uses_getS3Bucket)
  · obtain ⟨-, rfl, rfl⟩ := exec_getS3Bucket.1 (exec_context_ok.1 h₁)
    obtain ⟨answers, hkeys, rfl⟩ := admits_deleteObjects (admits_lift.1 h₂)
    exact Or.inr ⟨answers, hkeys, rfl⟩

/-- **A complete run of the cleanup** has no bucket handle, or has
attempted every key. -/
theorem exec_cleanup {keys : List S3Key} {errors : ServerErrors} {r : Result ServerErrors}
    (h : (self.cleanup keys errors).run.Exec tr r) :
    (r.isOk = false ∧ handleEvent self ∉ tr ∧ ∀ e ∈ tr, e.op.kind = .handle) ∨
      ∃ answers : List (S3Key × Result ℕ), answers.map Prod.fst = keys ∧
        r = .ok (deleteAll answers errors) ∧
        tr = handleEvent self :: answers.map (deleteEvent self.conf.s3QueueBucket) := by
  rw [DynDynserServer.cleanup] at h
  obtain ⟨e, h₁, rfl⟩ | ⟨_, t₁, t₂, rfl, h₁, h₂⟩ := Fallible.exec_bind.1 h
  · obtain ⟨r', h₁', heq⟩ := exec_context.1 h₁
    refine Or.inl ⟨rfl, fun hmem => ?_, h₁'.admits.of_uses uses_getS3Bucket⟩
    -- a handle that was granted is returned
    rw [getS3Bucket] at h₁'
    obtain ⟨_, h₂, -⟩ | ⟨_, t₁, t₂, rfl, h₂, h₃⟩ := Fallible.exec_bind.1 h₁'
    · rw [(exec_ofResult.1 h₂).1] at hmem
      cases hmem
    · obtain ⟨rfl, -⟩ := exec_ofResult.1 h₂
      obtain ⟨_, h₄, rfl⟩ | ⟨_, t₃, t₄, rfl, h₄, h₅⟩ := Fallible.exec_bind.1 h₃
      · obtain ⟨x, h₄', hx⟩ := exec_context.1 h₄
        obtain rfl := exec_call.1 h₄'
        cases x with
        | ok _ => cases hx
        | error e' => cases List.mem_singleton.1 hmem
      · obtain ⟨-, rfl⟩ := exec_pure.1 h₅
        cases heq
  · obtain ⟨-, rfl, rfl⟩ := exec_getS3Bucket.1 (exec_context_ok.1 h₁)
    obtain ⟨errors', h₂', rfl⟩ := exec_lift.1 h₂
    obtain ⟨answers, hkeys, rfl, rfl⟩ := exec_deleteObjects.1 h₂'
    exact Or.inr ⟨answers, hkeys, rfl, rfl⟩

end DynDynser
