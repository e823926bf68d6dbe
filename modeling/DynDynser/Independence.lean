import DynDynser.Effects
/-!
# Objects are judged one by one

A fetch and the validation after it sort the eligible keys of the listing
into four collections. What becomes of an object is a function of its own
fetch, the certificates, the configuration and the reading of the clock at
its check (`outcomeAt`), and the four collections are its values along the
listing (`IsLog`). So an object put into the listing, or taken out of it,
leaves the changes of the others as they are.
-/

namespace DynDynser

open Text Interact Fallible DynDynserServer

/-- What becomes of an object. -/
inductive Outcome where
  | accepted (v : VerifiedDdnsRequest)
  | failedS3Fetch (x : S3Key × Error)
  | failedJsonParse (x : S3Key × Error)
  | failedSignatureCheck (x : String × Error)
  | panicked

namespace Outcome

def accepted? : Outcome → Option VerifiedDdnsRequest
  | accepted v => some v
  | _ => none

def failedS3Fetch? : Outcome → Option (S3Key × Error)
  | failedS3Fetch x => some x
  | _ => none

def failedJsonParse? : Outcome → Option (S3Key × Error)
  | failedJsonParse x => some x
  | _ => none

def failedSignatureCheck? : Outcome → Option (String × Error)
  | failedSignatureCheck x => some x
  | _ => none

end Outcome

/-- What a program that reads nothing but the clock returns when it reads
`now`, unless it panics. -/
def answeredAt {α : Type} (now : Instant) : Io α → Option α
  | .ret a => some a
  | .abort _ => none
  | .call .utcNow k => answeredAt now (k now)
  | .call _ _ => none

theorem answeredAt_of_exec {α : Type} {now : Instant} {p : Io α} {tr : Trace} {a : α}
    (huses : p.Uses (·.kind = .clock)) (h : p.Exec tr a) (hnow : ∀ t ∈ clocks tr, t = now) :
    answeredAt now p = some a := by
  induction p generalizing tr with
  | ret b =>
    obtain ⟨-, rfl⟩ := h
    rfl
  | abort e => exact absurd h Prog.exec_abort
  | call o k ih =>
    obtain ⟨x, t, rfl, hx⟩ := h
    cases o with
    | utcNow =>
      obtain rfl : x = now := hnow x List.mem_cons_self
      exact ih x (huses.2 x) hx fun t' ht' => hnow t' (List.mem_cons_of_mem _ ht')
    | _ => exact absurd huses.1 Kind.noConfusion

/-- An object as a run saw it: the answer to its fetch, the events of its
check, and the instant its check read. -/
structure Judged where
  key : String
  answer : Result Bytes
  events : Trace
  now : Instant

section

variable [Externals]

/-- **What becomes of an object**, whose fetch was answered so and whose
check reads `now`. -/
def outcomeAt (conf : ConfigServer) (certs : List CertMatch) (a : String × Result Bytes)
    (now : Instant) : Outcome :=
  match a.2 with
  | .error e => .failedS3Fetch (⟨a.1⟩, e.context "failed to Get S3 Object")
  | .ok data =>
    match (fromSlice data : Result (SignedPayload ResourceRecordSet)) with
    | .error e =>
      .failedJsonParse (⟨a.1⟩, e.context "failed to deserialize into a DdnsJson object")
    | .ok signedPayload =>
      match answeredAt now (checkValidDdnsRequest { signedPayload, s3Key := ⟨a.1⟩ } certs
          conf.maxTimeAgoSignedAt conf.insecureSkipVerify).run with
      | some (.ok v) => .accepted v
      | some (.error e) => .failedSignatureCheck (signedPayload.envelope.payload.name,
          (e.context "failed to check signing key request").context
            "signature did not pass validation")
      | none => .panicked

/-- What became of an object of a run. -/
def Judged.outcome (conf : ConfigServer) (certs : List CertMatch) (j : Judged) : Outcome :=
  outcomeAt conf certs (j.key, j.answer) j.now

/-- The events of an object are a run of its check, and there are none
where it came to no check. -/
def Judged.OwnCheck (conf : ConfigServer) (certs : List CertMatch) (j : Judged) : Prop :=
  match request? (j.key, j.answer) with
  | some u => ∃ r, (checkValidDdnsRequest u certs conf.maxTimeAgoSignedAt
      conf.insecureSkipVerify).run.Exec j.events r
  | none => j.events = []

/-- **The log of a run** that fetched and then validated, returning `st`:
the eligible keys in the order of the listing, each with its answer and
with its check, and the collections sorted out of their outcomes. -/
structure IsLog (conf : ConfigServer) (certs : List CertMatch) (fetchEvents checkEvents : Trace)
    (st : ValidateState) (log : List Judged) : Prop where
  keys : log.map Judged.key = eligible (listed fetchEvents)
  answers : log.map (fun j => (j.key, j.answer)) = gets fetchEvents
  events : log.flatMap Judged.events = checkEvents
  checks : ∀ j ∈ log, j.OwnCheck conf certs
  readings : ∀ j ∈ log, ∀ t ∈ clocks j.events, t = j.now
  complete : ∀ j ∈ log, j.outcome conf certs ≠ .panicked
  accepted : st.1 = log.filterMap fun j => (j.outcome conf certs).accepted?
  failedS3Fetches : st.2.failedS3Fetches = log.filterMap fun j => (j.outcome conf certs).failedS3Fetch?
  failedJsonParses :
    st.2.failedJsonParses = log.filterMap fun j => (j.outcome conf certs).failedJsonParse?
  failedSignatureChecks : st.2.failedSignatureChecks =
    log.filterMap fun j => (j.outcome conf certs).failedSignatureCheck?

variable {conf : ConfigServer} {certs : List CertMatch}

/-- What becomes of a request by the verdict on it. -/
def Outcome.ofVerdict (u : UnverifiedDdnsRequest) : Result VerifiedDdnsRequest → Outcome
  | .ok v => .accepted v
  | .error e => .failedSignatureCheck (u.signedPayload.envelope.payload.name,
      (e.context "failed to check signing key request").context "signature did not pass validation")

/-- **What becomes of an object that is a request** is the verdict of its
check. -/
theorem Judged.outcome_of_request {j : Judged} {u : UnverifiedDdnsRequest}
    {r : Result VerifiedDdnsRequest} (hu : request? (j.key, j.answer) = some u)
    (hrun : (checkValidDdnsRequest u certs conf.maxTimeAgoSignedAt conf.insecureSkipVerify).run.Exec
      j.events r) (hreadings : ∀ t ∈ clocks j.events, t = j.now) :
    j.outcome conf certs = .ofVerdict u r := by
  obtain ⟨key, answer, events, now⟩ := j
  have hanswer := answeredAt_of_exec uses_check hrun hreadings
  unfold request? at hu
  unfold Judged.outcome outcomeAt
  cases answer with
  | error e => cases hu
  | ok data =>
    cases hparse : (fromSlice data : Result (SignedPayload ResourceRecordSet)) with
    | error e => simp [hparse, Except.toOption] at hu
    | ok payload =>
      obtain rfl : u = ⟨payload, ⟨key⟩⟩ := by simpa [hparse, Except.toOption] using hu.symm
      simp only [hparse, hanswer]
      cases r <;> rfl

/-- A request is recorded neither as a failed fetch nor as bytes that do
not parse. -/
theorem failures_of_request {a : String × Result Bytes} {u : UnverifiedDdnsRequest}
    (hu : request? a = some u) : fetchFailure? a = none ∧ parseFailure? a = none := by
  obtain ⟨key, answer⟩ := a
  unfold request? at hu
  cases answer with
  | error e => cases hu
  | ok data =>
    cases hparse : (fromSlice data : Result (SignedPayload ResourceRecordSet)) with
    | error e => simp [hparse, Except.toOption] at hu
    | ok payload => simp [fetchFailure?, parseFailure?, hparse]

/-- **What becomes of an object that is no request** is what its fetch and
its bytes are recorded as. -/
structure Judged.Unrequested (conf : ConfigServer) (certs : List CertMatch) (j : Judged) :
    Prop where
  accepted : (j.outcome conf certs).accepted? = none
  failedSignatureCheck : (j.outcome conf certs).failedSignatureCheck? = none
  failedS3Fetch : (j.outcome conf certs).failedS3Fetch? = fetchFailure? (j.key, j.answer)
  failedJsonParse : (j.outcome conf certs).failedJsonParse? = parseFailure? (j.key, j.answer)
  complete : j.outcome conf certs ≠ .panicked

theorem Judged.outcome_of_no_request {j : Judged} (hnone : request? (j.key, j.answer) = none) :
    j.Unrequested conf certs := by
  obtain ⟨key, answer, events, now⟩ := j
  cases answer with
  | error e => exact ⟨rfl, rfl, rfl, rfl, Outcome.noConfusion⟩
  | ok data =>
    cases hparse : (fromSlice data : Result (SignedPayload ResourceRecordSet)) with
    | error e =>
      have houtcome : Judged.outcome conf certs ⟨key, .ok data, events, now⟩ =
          .failedJsonParse (⟨key⟩, e.context "failed to deserialize into a DdnsJson object") := by
        unfold Judged.outcome outcomeAt
        simp only [hparse]
      exact {
        accepted := by rw [houtcome]; rfl
        failedSignatureCheck := by rw [houtcome]; rfl
        failedS3Fetch := by rw [houtcome]; rfl
        failedJsonParse := by
          rw [houtcome]
          simp only [Outcome.failedJsonParse?, parseFailure?, hparse]
        complete := by
          rw [houtcome]
          exact Outcome.noConfusion }
    | ok payload => simp [request?, hparse, Except.toOption] at hnone

/-- An instant to fill in where no clock was read. -/
def someInstant : Instant where
  time := ⟨0, by decide, by decide⟩
  since_epoch := le_refl 0

/-- **A log of answers and checks**: each answer with its own check, and
the collections sorted out of the outcomes. -/
structure Logs (conf : ConfigServer) (certs : List CertMatch)
    (as : List (String × Result Bytes))
    (cs : List (Checked certs conf.maxTimeAgoSignedAt conf.insecureSkipVerify))
    (log : List Judged) : Prop where
  answers : log.map (fun j => (j.key, j.answer)) = as
  events : log.flatMap Judged.events = cs.flatMap Checked.events
  checks : ∀ j ∈ log, j.OwnCheck conf certs
  readings : ∀ j ∈ log, ∀ t ∈ clocks j.events, t = j.now
  complete : ∀ j ∈ log, j.outcome conf certs ≠ .panicked
  accepted : cs.filterMap Checked.accepted? =
    log.filterMap fun j => (j.outcome conf certs).accepted?
  failedS3Fetches : as.filterMap fetchFailure? =
    log.filterMap fun j => (j.outcome conf certs).failedS3Fetch?
  failedJsonParses : as.filterMap parseFailure? =
    log.filterMap fun j => (j.outcome conf certs).failedJsonParse?
  failedSignatureChecks : cs.filterMap Checked.rejected? =
    log.filterMap fun j => (j.outcome conf certs).failedSignatureCheck?

namespace Logs

variable {answers : List (String × Result Bytes)} {a : String × Result Bytes} {log : List Judged}
variable {cs : List (Checked certs conf.maxTimeAgoSignedAt conf.insecureSkipVerify)}

/-- An answer that is no request takes no check. -/
theorem cons_no_request (h : Logs conf certs answers cs log) (hnone : request? a = none) :
    Logs conf certs (a :: answers) cs (⟨a.1, a.2, [], someInstant⟩ :: log) := by
  have ha : Judged.Unrequested conf certs ⟨a.1, a.2, [], someInstant⟩ :=
    Judged.outcome_of_no_request hnone
  exact {
    answers := congrArg (a :: ·) h.answers
    events := h.events
    checks := List.forall_mem_cons.mpr ⟨by simp [Judged.OwnCheck, hnone], h.checks⟩
    readings := List.forall_mem_cons.mpr ⟨by simp, h.readings⟩
    complete := List.forall_mem_cons.mpr ⟨ha.complete, h.complete⟩
    accepted := by rw [h.accepted, List.filterMap_cons, ha.accepted]
    failedS3Fetches := by
      rw [List.filterMap_cons, List.filterMap_cons, ha.failedS3Fetch, h.failedS3Fetches]
    failedJsonParses := by
      rw [List.filterMap_cons, List.filterMap_cons, ha.failedJsonParse, h.failedJsonParses]
    failedSignatureChecks := by
      rw [h.failedSignatureChecks, List.filterMap_cons, ha.failedSignatureCheck] }

/-- One that is a request takes the next. -/
theorem cons_request {now : Instant} (h : Logs conf certs answers cs log)
    (c : Checked certs conf.maxTimeAgoSignedAt conf.insecureSkipVerify)
    (hc : request? a = some c.request) (hnow : ∀ t ∈ clocks c.events, t = now) :
    Logs conf certs (a :: answers) (c :: cs) (⟨a.1, a.2, c.events, now⟩ :: log) := by
  have houtcome : Judged.outcome conf certs ⟨a.1, a.2, c.events, now⟩ =
      .ofVerdict c.request c.verdict := Judged.outcome_of_request hc c.run hnow
  obtain ⟨hfetch, hparse⟩ := failures_of_request hc
  exact {
    answers := congrArg (a :: ·) h.answers
    events := by rw [List.flatMap_cons, List.flatMap_cons, h.events]
    checks := List.forall_mem_cons.mpr
      ⟨by simpa [Judged.OwnCheck, hc] using ⟨c.verdict, c.run⟩, h.checks⟩
    readings := List.forall_mem_cons.mpr ⟨hnow, h.readings⟩
    complete := List.forall_mem_cons.mpr ⟨by
      rw [houtcome]
      cases c.verdict <;> exact Outcome.noConfusion, h.complete⟩
    accepted := by
      rw [List.filterMap_cons, List.filterMap_cons, houtcome, h.accepted, Checked.accepted?]
      cases c.verdict <;> rfl
    failedS3Fetches := by
      rw [List.filterMap_cons, List.filterMap_cons, houtcome, hfetch, h.failedS3Fetches]
      cases c.verdict <;> rfl
    failedJsonParses := by
      rw [List.filterMap_cons, List.filterMap_cons, houtcome, hparse, h.failedJsonParses]
      cases c.verdict <;> rfl
    failedSignatureChecks := by
      rw [List.filterMap_cons, List.filterMap_cons, houtcome, h.failedSignatureChecks,
        Checked.rejected?]
      cases c.verdict <;> rfl }

end Logs

/-- **The loops keep a log.** By induction on the answers: one that is a
request takes the next check. -/
theorem exists_log (answers : List (String × Result Bytes))
    (cs : List (Checked certs conf.maxTimeAgoSignedAt conf.insecureSkipVerify))
    (hreqs : cs.map Checked.request = requestsOf answers) :
    ∃ log : List Judged, Logs conf certs answers cs log := by
  induction answers generalizing cs with
  | nil =>
    obtain rfl := List.map_eq_nil_iff.mp hreqs
    exact ⟨[], rfl, rfl, by simp, by simp, by simp, rfl, rfl, rfl, rfl⟩
  | cons a answers ih =>
    unfold requestsOf at hreqs ih
    cases hu : request? a with
    | none =>
      rw [List.filterMap_cons_none hu] at hreqs
      obtain ⟨log, hlog⟩ := ih cs hreqs
      exact ⟨_, hlog.cons_no_request hu⟩
    | some u =>
      rw [List.filterMap_cons_some hu] at hreqs
      obtain ⟨c, cs, rfl, rfl, hreqs'⟩ := List.map_eq_cons_iff.mp hreqs
      obtain ⟨log, hlog⟩ := ih cs hreqs'
      -- a check reads one clock at most
      obtain ⟨now, hnow⟩ : ∃ now, ∀ t ∈ clocks c.events, t = now := by
        rcases check_events c.run with hnone | ⟨now, hone⟩
        · exact ⟨someInstant, by simp [hnone]⟩
        · exact ⟨now, fun t ht => by rw [hone] at ht; exact List.mem_singleton.mp ht⟩
      exact ⟨_, hlog.cons_request c hu hnow⟩

variable {self : DynDynserServer} {fuel fuel' : ℕ} {ks ks' : List (String × Error)}
variable {fetchEvents checkEvents fetchEvents' checkEvents' : Trace}
variable {found found' : FetchState} {st st' : ValidateState}

/-- **A fetch and the validation after it keep a log.** -/
theorem exists_isLog (hfetch : (self.fetchDdnsJsonsFromS3 fuel).run.Exec fetchEvents (.ok found))
    (hcheck : (self.validateUnverifiedDnsRequests certs self.conf.insecureSkipVerify found.1
      ([], { found.2 with failedKeyParses := ks })).Exec checkEvents st) :
    ∃ log, IsLog self.conf certs fetchEvents checkEvents st log := by
  obtain ⟨cs, hreqs, rfl, rfl⟩ := exec_validateUnverified.mp hcheck
  have hkeys := fetch_keys hfetch
  obtain rfl := fetch_result hfetch
  obtain ⟨log, hlog⟩ := @exists_log _ self.conf _ _ cs hreqs
  rw [validateAll_eq]
  refine ⟨log, ?_, hlog.answers, hlog.events, hlog.checks, hlog.readings, hlog.complete, ?_,
    hlog.failedS3Fetches, hlog.failedJsonParses, ?_⟩
  · rw [← hkeys, ← hlog.answers, List.map_map]
    rfl
  · simpa using hlog.accepted
  · simpa [fetchErrors] using hlog.failedSignatureChecks

/-- What was accepted of an object is its own record and key. -/
theorem accepted_of_outcome {conf : ConfigServer} {j : Judged} (hcheck : j.OwnCheck conf certs)
    (hreadings : ∀ t ∈ clocks j.events, t = j.now) {v : VerifiedDdnsRequest}
    (hv : j.outcome conf certs = .accepted v) :
    ∃ u, request? (j.key, j.answer) = some u ∧ v = u.verified := by
  unfold Judged.OwnCheck at hcheck
  cases hu : request? (j.key, j.answer) with
  | none =>
    have hnone : (j.outcome conf certs).accepted? = none := (j.outcome_of_no_request hu).accepted
    rw [hv] at hnone
    cases hnone
  | some u =>
    simp only [hu] at hcheck
    obtain ⟨r, hrun⟩ := hcheck
    rw [j.outcome_of_request hu hrun hreadings] at hv
    cases r with
    | error e => cases hv
    | ok v' =>
      cases hv
      exact ⟨u, rfl, verified_of_check hrun⟩

/-- The changes made of an object: one where it was accepted, and none
otherwise. -/
def Judged.changes (conf : ConfigServer) (certs : List CertMatch) (j : Judged) : List Change :=
  match j.outcome conf certs with
  | .accepted v => [v.resourceRecord.change]
  | _ => []

/-- The changes of some of the objects of a log. -/
def changesOf (conf : ConfigServer) (certs : List CertMatch) (log : List Judged) : List Change :=
  log.flatMap (Judged.changes conf certs)

/-- **What an object was accepted as is its own**: the record in its bytes,
under its key, and its one change is the upsert of that record. -/
structure Judged.Own (conf : ConfigServer) (certs : List CertMatch) (j : Judged) : Prop where
  accepted : ∀ v, j.outcome conf certs = .accepted v →
    ∃ (data : Bytes) (payload : SignedPayload ResourceRecordSet),
      j.answer = .ok data ∧ fromSlice data = .ok payload ∧
      v = ⟨payload.envelope.payload, ⟨j.key⟩⟩ ∧
      j.changes conf certs = [{
        action := .upsert
        recordSet := {
          name := fixedName payload.envelope.payload.name
          ttl := payload.envelope.payload.ttl
          data := payload.envelope.payload.data } }]
  otherwise : (∀ v, j.outcome conf certs ≠ .accepted v) → j.changes conf certs = []

/-- Each object of a log is its own. -/
theorem own_of_isLog {log : List Judged}
    (hlog : IsLog conf certs fetchEvents checkEvents st log) {j : Judged} (hj : j ∈ log) :
    j.Own conf certs where
  accepted v hv := by
    obtain ⟨u, hu, rfl⟩ := accepted_of_outcome (hlog.checks j hj) (hlog.readings j hj) hv
    obtain ⟨data, hmem, hparse⟩ :=
      mem_requestsOf (List.mem_filterMap.mpr ⟨_, List.mem_singleton_self (j.key, j.answer), hu⟩)
    obtain ⟨hkey, hanswer⟩ := Prod.mk.inj (List.mem_singleton.mp hmem)
    refine ⟨data, u.signedPayload, hanswer.symm, hparse, ?_, ?_⟩
    · rw [← hkey]
      rfl
    · unfold Judged.changes
      rw [hv]
      rfl
  otherwise hno := by
    unfold Judged.changes
    cases hv : j.outcome conf certs with
    | accepted v => exact absurd hv (hno v)
    | _ => rfl

/-- The changes of a run are those of the objects of its log. -/
theorem buildChanges_of_isLog {log : List Judged}
    (hlog : IsLog conf certs fetchEvents checkEvents st log) :
    buildChanges st.1 = changesOf conf certs log := by
  rw [hlog.accepted, buildChanges_eq]
  clear hlog
  unfold changesOf
  induction log with
  | nil => rfl
  | cons j log ih =>
    rw [List.flatMap_cons, ← ih, List.filterMap_cons]
    unfold Judged.changes
    cases j.outcome conf certs <;> rfl

/-- Objects that were seen alike have the same changes. -/
theorem changesOf_congr {log₁ log₂ : List Judged}
    (h : log₁.map (fun j => (j.key, j.answer, j.now)) = log₂.map fun j => (j.key, j.answer, j.now)) :
    changesOf conf certs log₁ = changesOf conf certs log₂ := by
  have heq : ∀ log : List Judged, changesOf conf certs log =
      (log.map fun j => (j.key, j.answer, j.now)).flatMap fun x =>
        Judged.changes conf certs ⟨x.1, x.2.1, [], x.2.2⟩ := fun log => by
    rw [List.flatMap_map]
    rfl
  rw [heq, heq, h]

/-- **Conservation and independence.** Every fetch and the validation after
it keep a log. The changes are those of its objects in their order, for
each that was accepted the one of its own record. Where another run of the
same server sees, before and after an object of the log, the same objects
alike, it makes the same changes but for that object's. -/
theorem objects_independent
    (hfetch : (self.fetchDdnsJsonsFromS3 fuel).run.Exec fetchEvents (.ok found))
    (hcheck : (self.validateUnverifiedDnsRequests certs self.conf.insecureSkipVerify found.1
      ([], { found.2 with failedKeyParses := ks })).Exec checkEvents st) :
    (∃ log, IsLog self.conf certs fetchEvents checkEvents st log) ∧
      ∀ log, IsLog self.conf certs fetchEvents checkEvents st log →
        (∀ j ∈ log, j.Own self.conf certs) ∧ buildChanges st.1 = changesOf self.conf certs log ∧
        ∀ before j after, log = before ++ j :: after →
          buildChanges st.1 = changesOf self.conf certs before ++ j.changes self.conf certs ++
            changesOf self.conf certs after ∧
          ∀ fuel' fetchEvents' found' ks' checkEvents' st' log',
            (self.fetchDdnsJsonsFromS3 fuel').run.Exec fetchEvents' (.ok found') →
            (self.validateUnverifiedDnsRequests certs self.conf.insecureSkipVerify found'.1
              ([], { found'.2 with failedKeyParses := ks' })).Exec checkEvents' st' →
            IsLog self.conf certs fetchEvents' checkEvents' st' log' →
            log'.map (fun j => (j.key, j.answer, j.now)) =
              (before ++ after).map (fun j => (j.key, j.answer, j.now)) →
            buildChanges st'.1 =
              changesOf self.conf certs before ++ changesOf self.conf certs after := by
  refine ⟨exists_isLog hfetch hcheck, fun log hlog => ?_⟩
  have hchanges := buildChanges_of_isLog hlog
  refine ⟨fun j hj => own_of_isLog hlog hj, hchanges, ?_⟩
  rintro before j after rfl
  refine ⟨?_, ?_⟩
  · rw [hchanges]
    unfold changesOf
    rw [List.flatMap_append, List.flatMap_cons, List.append_assoc]
  · intro fuel' fetchEvents' found' ks' checkEvents' st' log' _ _ hlog' hinputs
    rw [buildChanges_of_isLog hlog', changesOf_congr hinputs]
    unfold changesOf
    rw [List.flatMap_append]

end

/-- In the sample run the log has the three objects that were fetched, and
the change of the request among them. -/
theorem objects_independent_mixed :
    letI := Sample.externals
    ∃ (conf : ConfigServer) (certs : List CertMatch) (fetchEvents checkEvents : Trace)
      (st : ValidateState) (log : List Judged),
      IsLog conf certs fetchEvents checkEvents st log ∧
      log.map Judged.key =
        ["d/augs.sarif.example.ddns.json", "d/bad.ddns.json", "d/lost.ddns.json"] ∧
      (∀ j ∈ log, j.Own conf certs) ∧ buildChanges st.1 = changesOf conf certs log ∧
      buildChanges st.1 ≠ [] := by
  let := Sample.externals
  obtain ⟨hok, -, hgets, -, hdeletes, -⟩ := Sample.mixedRun_shows
  have hexec := Sample.mixedRun_driven.exec hok
  rcases admits_handleServer hexec.admits with ⟨-, hno, -⟩ | ⟨-, plan, t₁, t₂, htrace, h₁, h₂⟩
  · rw [hno] at hdeletes
    cases hdeletes
  obtain ⟨p⟩ := exec_prepare h₁
  have hcheck : (DynDynserServer.validateUnverifiedDnsRequests
      ⟨ConfigServer.parse Sample.serverArgs, p.credentials⟩ p.certs
      (ConfigServer.parse Sample.serverArgs).insecureSkipVerify (requestsOf (gets p.fetchEvents))
      ([], { fetchErrors (gets p.fetchEvents) with failedKeyParses := p.keyErrors })).Exec
      (p.checks.flatMap Checked.events) (plan.verified, plan.errors) := by
    refine exec_validateUnverified.mpr ⟨p.checks, p.requests, rfl, ?_⟩
    have herrors := congrArg Plan.errors p.plan_eq
    rw [validateAll_eq, p.verified_eq, herrors]
    simp [fetchErrors]
  obtain ⟨⟨log, hlog⟩, hall⟩ := objects_independent p.fetchRun hcheck
  obtain ⟨hown, hchanges, -⟩ := hall log hlog
  refine ⟨_, _, _, _, _, log, hlog, ?_, hown, hchanges, ?_⟩
  swap
  · rw [buildChanges_eq]
    exact fun hnil => verified_ne_nil h₁ (List.map_eq_nil_iff.mp hnil)
  have hkeys : log.map Judged.key = (gets p.fetchEvents).map Prod.fst := by
    rw [← hlog.answers, List.map_map]
    rfl
  rw [hkeys, ← p.fetch_events.1]
  rw [htrace, gets_append, gets_carryOut h₂, List.append_nil] at hgets
  rw [hgets]
  rfl

end DynDynser
