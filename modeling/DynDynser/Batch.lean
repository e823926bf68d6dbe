import DynDynser.Helpers.Changes
import DynDynser.Helpers.Runs
import DynDynser.Independence
/-!
# The batch

Route53 takes a batch as a whole or not at all, and applies it in order.
So what one request holds decides over all of them: a batch is within the
limits exactly where the accepted requests are (`batch_withinLimits_iff`),
and of two requests for one record the later in the listing prevails,
whichever was signed first (`lastListed_wins`).
-/

namespace DynDynser

open Text Interact World Fallible DynDynserServer

section

variable [Externals] {fuel : ℕ} {args : ServerArgs} {tr : Trace}
variable {certs certs' : List CertMatch} {log log' : List Judged}

/-! ## The log of a server run -/

/-- **The stretches of a server run**: it fetches, loads the certificates,
and makes its checks, in that order and without anything in between. -/
def Stretches (args : ServerArgs) (tr : Trace) (certs : List CertMatch) (checkEvents : Trace) :
    Prop :=
  ∃ (fetchEvents certificateEvents after : Trace) (credentials : Credentials)
    (errors : ServerErrors) (st : KeyMapState),
    tr = fetchEvents ++ (certificateEvents ++ (checkEvents ++ after)) ∧
    (∀ e ∈ fetchEvents, e.op.kind ∈ [Kind.handle, .list, .get]) ∧ gets fetchEvents = gets tr ∧
    (domainCertificates ⟨ConfigServer.parse args, credentials⟩ errors).run.Exec certificateEvents
      (.ok st) ∧ st.1 = certs

/-- **The log of a server run** that validated under `certs`: the eligible
keys it listed, each with the answer to its fetch and its own check, the
checks being all those of the run in their order. -/
structure LogOf (args : ServerArgs) (tr : Trace) (certs : List CertMatch) (log : List Judged) :
    Prop where
  events : Stretches args tr certs (log.flatMap Judged.events)
  keys : log.map Judged.key = eligible (listed tr)
  answers : log.map (fun j => (j.key, j.answer)) = gets tr
  checks : ∀ j ∈ log, j.OwnCheck (ConfigServer.parse args) certs
  readings : ∀ j ∈ log, ∀ t ∈ clocks j.events, t = j.now

/-- The requests of a log that were accepted, in the order of the
listing. -/
def acceptedRequests (args : ServerArgs) (certs : List CertMatch) (log : List Judged) :
    List (SignedPayload ResourceRecordSet) :=
  log.filterMap fun j =>
    match j.outcome (ConfigServer.parse args) certs with
    | .accepted _ => (request? (j.key, j.answer)).map (·.signedPayload)
    | _ => none

/-- What comes of a log to the batch is in the trace: two logs with the
same answers, whose checks are the same events, accept the same. -/
theorem acceptedRequests_congr {rest rest' : Trace}
    (hanswers : log.map (fun j => (j.key, j.answer)) = log'.map fun j => (j.key, j.answer))
    (hchecks : ∀ j ∈ log, j.OwnCheck (ConfigServer.parse args) certs)
    (hchecks' : ∀ j ∈ log', j.OwnCheck (ConfigServer.parse args) certs)
    (hreadings : ∀ j ∈ log, ∀ t ∈ clocks j.events, t = j.now)
    (hreadings' : ∀ j ∈ log', ∀ t ∈ clocks j.events, t = j.now)
    (hevents : log.flatMap Judged.events ++ rest = log'.flatMap Judged.events ++ rest') :
    acceptedRequests args certs log = acceptedRequests args certs log' := by
  induction log generalizing log' with
  | nil =>
    obtain rfl := List.map_eq_nil_iff.mp hanswers.symm
    rfl
  | cons j log ih =>
    obtain ⟨j', log', rfl, hj, hlog⟩ := List.map_eq_cons_iff.mp hanswers.symm
    obtain ⟨hcheck, hchecks⟩ := List.forall_mem_cons.mp hchecks
    obtain ⟨hcheck', hchecks'⟩ := List.forall_mem_cons.mp hchecks'
    obtain ⟨hreading, hreadings⟩ := List.forall_mem_cons.mp hreadings
    obtain ⟨hreading', hreadings'⟩ := List.forall_mem_cons.mp hreadings'
    rw [List.flatMap_cons, List.flatMap_cons, List.append_assoc, List.append_assoc] at hevents
    unfold Judged.OwnCheck at hcheck hcheck'
    rw [hj] at hcheck'
    have hrest := fun heq => ih hlog.symm hchecks hchecks' hreadings hreadings' heq
    unfold acceptedRequests at hrest ⊢
    rw [List.filterMap_cons, List.filterMap_cons, hj]
    cases hu : request? (j.key, j.answer) with
    | none =>
      simp only [hu] at hcheck hcheck'
      rw [hcheck, hcheck'] at hevents
      rw [hrest hevents]
      cases j.outcome (ConfigServer.parse args) certs <;>
        cases j'.outcome (ConfigServer.parse args) certs <;> rfl
    | some u =>
      simp only [hu] at hcheck hcheck'
      obtain ⟨r, hrun⟩ := hcheck
      obtain ⟨r', hrun'⟩ := hcheck'
      obtain ⟨-, rfl, hevents⟩ := hrun.unique hrun' hevents
      rw [j.outcome_of_request hu hrun hreading,
        j'.outcome_of_request (hj ▸ hu) hrun' hreading', hrest hevents]

/-- The events of a run that checks signatures have one division into
stretches. -/
theorem Stretches.unique {checkEvents checkEvents' : Trace}
    (hsecure : args.insecureSkipVerify = false) (h : Stretches args tr certs checkEvents)
    (h' : Stretches args tr certs' checkEvents') :
    certs = certs' ∧ ∃ after after', checkEvents ++ after = checkEvents' ++ after' := by
  obtain ⟨f, c, after, credentials, errors, st, htr, hkinds, -, hrun, rfl⟩ := h
  obtain ⟨f', c', after', credentials', errors', st', htr', hkinds', -, hrun', rfl⟩ := h'
  obtain ⟨hcerts, hafter⟩ := certificates_unique rfl hsecure hkinds hkinds' hrun hrun'
    (htr.symm.trans htr')
  exact ⟨hcerts, after, after', hafter⟩

/-- **There is one log of a run**, as far as the batch is concerned. -/
theorem LogOf.acceptedRequests_eq (h : LogOf args tr certs log) (h' : LogOf args tr certs' log') :
    acceptedRequests args certs log = acceptedRequests args certs' log' := by
  have hanswers := h.answers.trans h'.answers.symm
  cases hsecure : args.insecureSkipVerify with
  | false =>
    obtain ⟨rfl, after, after', hevents⟩ := h.events.unique hsecure h'.events
    exact acceptedRequests_congr hanswers h.checks h'.checks h.readings h'.readings hevents
  | true =>
    have hcerts : ∀ {certs : List CertMatch} {events : Trace}, Stretches args tr certs events →
        certs = [] := by
      rintro certs events ⟨-, _, -, credentials, errors, st, -, -, -, hrun, rfl⟩
      exact certificates_insecure hsecure hrun
    obtain rfl := hcerts h.events
    obtain rfl := hcerts h'.events
    -- no check has any events
    have hnone : ∀ {log : List Judged}, (∀ j ∈ log, j.OwnCheck (ConfigServer.parse args) []) →
        log.flatMap Judged.events = [] := by
      intro log hchecks
      rw [List.flatMap_eq_nil_iff]
      intro j hj
      have hcheck := hchecks j hj
      unfold Judged.OwnCheck at hcheck
      cases hu : request? (j.key, j.answer) with
      | none => simpa only [hu] using hcheck
      | some u =>
        simp only [hu] at hcheck
        obtain ⟨r, hrun⟩ := hcheck
        rw [show (ConfigServer.parse args).insecureSkipVerify = true from hsecure] at hrun
        exact check_insecure_events hrun
    have hevents : log.flatMap Judged.events ++ ([] : Trace) =
        log'.flatMap Judged.events ++ [] := by
      rw [hnone h.checks, hnone h'.checks]
    exact acceptedRequests_congr hanswers h.checks h'.checks h.readings h'.readings hevents

/-- **A preparation keeps a log of its run**, and the plan has the records
of its accepted requests. -/
theorem Preparation.exists_logOf {plan : Plan} {t₁ t₂ : Trace}
    (p : Preparation fuel (ConfigServer.parse args) t₁ plan) (hgets : gets t₂ = [])
    (hlisted : listed t₂ = []) :
    ∃ log, LogOf args (t₁ ++ t₂) p.certs log ∧
      plan.verified.map (·.resourceRecord) =
        (acceptedRequests args p.certs log).map (·.envelope.payload) := by
  obtain ⟨log, hlog⟩ := @exists_isLog _ p.certs ⟨ConfigServer.parse args, p.credentials⟩ fuel
    p.keyErrors p.fetchEvents (p.checks.flatMap Checked.events) _ _ p.fetchRun
    (exec_validateUnverified.mpr ⟨p.checks, p.requests, rfl, rfl⟩)
  have hcredentials := p.credentialsRun.admits.of_uses uses_getS3Credentials
  have hfetch := p.fetchRun.admits.of_uses uses_fetchDdnsJsonsFromS3
  have hstretches : Stretches args (t₁ ++ t₂) p.certs (log.flatMap Judged.events) := by
    refine ⟨p.credentialEvents ++ p.fetchEvents, p.certificateEvents, p.dropEvents ++ t₂, _, _, _,
      ?_, fun e he => ?_, ?_, p.certificatesRun, rfl⟩
    · rw [hlog.events]
      refine (congrArg (· ++ t₂) p.events).trans ?_
      simp
    · rcases List.mem_append.mp he with he | he
      · simp [hcredentials e he]
      · have hk := hfetch e he
        simp only [List.mem_cons, List.not_mem_nil, or_false] at hk ⊢
        tauto
    · have hnone : gets p.credentialEvents = [] :=
        gets_eq_nil fun e he => by simp [hcredentials e he]
      rw [gets_append, gets_append, hgets, List.append_nil, p.fetch_events.1, hnone,
        List.nil_append]
  refine ⟨log, ⟨hstretches, ?_, ?_, hlog.checks, hlog.readings⟩, ?_⟩
  · rw [listed_append, hlisted, List.append_nil, p.fetch_events.2]
    exact hlog.keys
  · rw [gets_append, hgets, List.append_nil, p.fetch_events.1]
    exact hlog.answers
  · have haccepted : p.checks.filterMap Checked.accepted? =
        log.filterMap fun j => (j.outcome (ConfigServer.parse args) p.certs).accepted? := by
      have h := hlog.accepted
      rw [validateAll_eq] at h
      exact h
    rw [p.verified_eq, haccepted]
    unfold acceptedRequests
    rw [List.map_filterMap, List.map_filterMap]
    refine List.filterMap_congr fun j hj => ?_
    cases hv : j.outcome (ConfigServer.parse args) p.certs with
    | accepted v =>
      obtain ⟨u, hu, rfl⟩ :=
        accepted_of_outcome (hlog.checks j hj) (hlog.readings j hj) hv
      simp [Outcome.accepted?, hu, UnverifiedDdnsRequest.verified]
    | _ => rfl

/-- **The batch of a plan** is made of the requests its run accepted, one
change for each, in the order of the listing. -/
theorem changes_of_plan {plan : Plan} {t₁ t₂ : Trace}
    (h₁ : (prepare fuel (ConfigServer.parse args)).run.Exec t₁ (.ok (some plan)))
    (h₂ : (carryOut plan).run.Admits t₂) :
    ∃ certs log, LogOf args (t₁ ++ t₂) certs log ∧
      plan.changes =
        (acceptedRequests args certs log).map (ResourceRecordSet.change ∘ (·.envelope.payload)) := by
  obtain ⟨p⟩ := exec_prepare h₁
  have hlisted : listed t₂ = [] := by
    refine listed_eq_nil fun e he hk => ?_
    have hmem := h₂.of_uses uses_carryOut e he
    simp [hk] at hmem
  obtain ⟨log, hlog, hverified⟩ := p.exists_logOf (gets_carryOut h₂) hlisted
  refine ⟨p.certs, log, hlog, ?_⟩
  have hmap : plan.changes = (plan.verified.map (·.resourceRecord)).map (·.change) := by
    unfold Plan.changes
    rw [buildChanges_eq, List.map_map]
    rfl
  rw [hmap, hverified, List.map_map]

/-- **A batch posted is made of the requests that were accepted.** -/
theorem changes_of_posts (h : (handleServer fuel args).run.Admits tr) {req : ChangeRequest}
    (hreq : req ∈ posts tr) :
    ∃ certs log, LogOf args tr certs log ∧ req.changes =
      (acceptedRequests args certs log).map (ResourceRecordSet.change ∘ (·.envelope.payload)) := by
  rcases admits_handleServer h with ⟨hno, -, -⟩ | ⟨-, plan, t₁, t₂, rfl, h₁, h₂⟩
  · rw [hno] at hreq
    cases hreq
  · obtain ⟨certs, log, hlog, hchanges⟩ := changes_of_plan h₁ h₂
    refine ⟨certs, log, hlog, ?_⟩
    rw [posts_append, (quiet_prepare h₁.admits).1, List.nil_append] at hreq
    rcases posts_carryOut h₂ with hno | ⟨headers, hpost⟩
    · rw [hno] at hreq
      cases hreq
    · rw [hpost] at hreq
      rw [List.mem_singleton.mp hreq]
      exact hchanges

/-- The requests accepted are some of the requests fetched, in order. -/
theorem LogOf.accepted_sublist (h : LogOf args tr certs log) :
    (acceptedRequests args certs log).Sublist ((requestsOf (gets tr)).map (·.signedPayload)) := by
  rw [← h.answers]
  unfold acceptedRequests requestsOf
  rw [List.filterMap_map, List.map_filterMap]
  clear h
  induction log with
  | nil => exact List.Sublist.refl _
  | cons j log ih =>
    rw [List.filterMap_cons, List.filterMap_cons]
    cases hrequest : request? (j.key, j.answer) with
    | none => cases j.outcome (ConfigServer.parse args) certs <;> simpa [hrequest] using ih
    | some u =>
      cases j.outcome (ConfigServer.parse args) certs with
      | accepted v => simpa [hrequest] using ih
      | _ => simpa [hrequest] using ih.cons u.signedPayload

/-! ## Route53's limits -/

end

/-- The addresses of a record. -/
def RecordData.addresses : RecordData → List IpAddr
  | a addrs => addrs.map .v4
  | aaaa addrs => addrs.map .v6

/-- **Route53's limits on a change batch.** An upsert counts its addresses
twice. -/
structure WithinLimits (changes : List Change) : Prop where
  addressed : ∀ c ∈ changes, c.recordSet.data.addresses ≠ []
  unrepeated : ∀ c ∈ changes, c.recordSet.data.addresses.Nodup
  ttl : ∀ c ∈ changes, c.recordSet.ttl.toNat ≤ 2147483647
  distinct : (changes.map recordKey).Nodup
  values : (changes.map fun c => 2 * c.recordSet.data.addresses.length).sum ≤ 1000

/-- **Requests that fit into one batch**: each has its addresses, none of
them twice, and a time to live of 31 bits; no two are about the same
domain and type; and there are at most 500 addresses in all. -/
structure FitTogether (rs : List ResourceRecordSet) : Prop where
  addressed : ∀ r ∈ rs, r.data.addresses ≠ []
  unrepeated : ∀ r ∈ rs, r.data.addresses.Nodup
  ttl : ∀ r ∈ rs, r.ttl.toNat ≤ 2147483647
  distinct : (rs.map ResourceRecordSet.about).Nodup
  addresses : (rs.map fun r => r.data.addresses.length).sum ≤ 500

/-- The changes of record sets are within the limits exactly where the
record sets fit together. -/
theorem withinLimits_iff {rs : List ResourceRecordSet} :
    WithinLimits (rs.map ResourceRecordSet.change) ↔ FitTogether rs := by
  have hdistinct : ((rs.map ResourceRecordSet.change).map recordKey).Nodup ↔
      (rs.map ResourceRecordSet.about).Nodup := by
    unfold List.Nodup
    rw [List.map_map, List.pairwise_map, List.pairwise_map]
    have hne : ∀ r s : ResourceRecordSet,
        (recordKey ∘ ResourceRecordSet.change) r ≠ (recordKey ∘ ResourceRecordSet.change) s ↔
          r.about ≠ s.about := fun r s => not_congr recordKey_change
    simp only [hne]
  have hsum : ((rs.map ResourceRecordSet.change).map
      fun c => 2 * c.recordSet.data.addresses.length).sum =
        2 * (rs.map fun r => r.data.addresses.length).sum := by
    rw [List.map_map, ← List.sum_map_mul_left]
    rfl
  constructor
  · intro h
    have hvalues := h.values
    rw [hsum] at hvalues
    exact {
      addressed := fun r hr => h.addressed _ (List.mem_map_of_mem hr)
      unrepeated := fun r hr => h.unrepeated _ (List.mem_map_of_mem hr)
      ttl := fun r hr => h.ttl _ (List.mem_map_of_mem hr)
      distinct := hdistinct.mp h.distinct
      addresses := by omega }
  · intro h
    have haddresses := h.addresses
    exact {
      addressed := by
        rintro c hc
        obtain ⟨r, hr, rfl⟩ := List.mem_map.mp hc
        exact h.addressed r hr
      unrepeated := by
        rintro c hc
        obtain ⟨r, hr, rfl⟩ := List.mem_map.mp hc
        exact h.unrepeated r hr
      ttl := by
        rintro c hc
        obtain ⟨r, hr, rfl⟩ := List.mem_map.mp hc
        exact h.ttl r hr
      distinct := hdistinct.mpr h.distinct
      values := by
        rw [hsum]
        omega }

section

variable [Externals] {fuel : ℕ} {args : ServerArgs} {tr : Trace}

/-- **A batch is within Route53's limits exactly where the accepted
requests fit together.** Nothing between the parser and the post looks at
the addresses, the times to live or the names. -/
theorem batch_withinLimits_iff (h : (handleServer fuel args).run.Admits tr) {req : ChangeRequest}
    (hreq : req ∈ posts tr) :
    (∃ certs log, LogOf args tr certs log) ∧ ∀ certs log, LogOf args tr certs log →
      (WithinLimits req.changes ↔
        FitTogether ((acceptedRequests args certs log).map (·.envelope.payload))) := by
  obtain ⟨certs, log, hlog, hchanges⟩ := changes_of_posts h hreq
  refine ⟨⟨certs, log, hlog⟩, fun certs' log' hlog' => ?_⟩
  rw [hchanges, hlog.acceptedRequests_eq hlog', ← List.map_map]
  exact withinLimits_iff

end

/-- In the sample run the one change is within the limits, and the request
it is made of fits. -/
theorem batch_withinLimits_mixed :
    letI := Sample.externals
    ∃ req ∈ posts Sample.mixedRun.1, WithinLimits req.changes ∧ ∃ certs log,
      LogOf Sample.serverArgs Sample.mixedRun.1 certs log ∧
      FitTogether ((acceptedRequests Sample.serverArgs certs log).map (·.envelope.payload)) := by
  let := Sample.externals
  obtain ⟨hok, -, -, hposts, -⟩ := Sample.mixedRun_shows
  have hadmits := (Sample.mixedRun_driven.exec hok).admits
  obtain ⟨req, hpost, hchanges⟩ := List.map_eq_singleton_iff.mp hposts
  have hreq : req ∈ posts Sample.mixedRun.1 := by
    rw [hpost]
    exact List.mem_singleton_self req
  have hlimits : WithinLimits req.changes := by
    rw [hchanges]
    exact { addressed := by decide, unrepeated := by decide, ttl := by decide,
            distinct := by decide, values := by decide }
  obtain ⟨⟨certs, log, hlog⟩, hiff⟩ := batch_withinLimits_iff hadmits hreq
  exact ⟨req, hreq, hlimits, certs, log, hlog, (hiff certs log hlog).mp hlimits⟩

namespace Sample

/-- A request without an address. -/
def emptyRequest : Bytes :=
  stored [] 1780000000
    ("8629c898e33f8b673fe45dffe8f4eed5cacf978c340bc14721a24513570bd21e" ++
      "35ff3deec920765f9e93bc4eaf4caf8d8d04f96ea59004705ffb6f50b12dc10e")

/-- The server's run over a bucket with that request alone. -/
@[irreducible] def emptyRun : Services.Observed (Result Unit) :=
  (@handleServer externals 1 serverArgs).run.drive (Services.answer (host 1780000030 inRange030))
    (services [("d/augs.sarif.example.ddns.json", emptyRequest)] (by decide))

theorem emptyRun_driven : Services.Driven (host 1780000030 (by decide))
    (@handleServer externals 1 serverArgs).run
    (services [("d/augs.sarif.example.ddns.json", emptyRequest)] (by decide)) emptyRun := by
  unfold emptyRun
  exact Services.driven _ _ _

set_option maxRecDepth 10000 in
theorem emptyRun_shows : emptyRun.2.1 = .ok (.ok ()) ∧
    (posts emptyRun.1).map (fun req => req.changes.map fun c => c.recordSet.data.addresses) =
      [[[]]] := by
  decide +kernel

end Sample

/-- **A signed request without an address is passed on.** The run over it
posts a batch that has a record set with no address. -/
theorem batch_without_address :
    ∃ (w : World) (tr : Trace) (w' : World) (req : ChangeRequest),
      (@handleServer Sample.externals 1 Sample.serverArgs).run.Admits tr ∧ Run id w tr w' ∧
      Sample.serverArgs.insecureSkipVerify = false ∧ req ∈ posts tr ∧
      ¬ WithinLimits req.changes := by
  obtain ⟨hok, hposts⟩ := Sample.emptyRun_shows
  obtain ⟨req, hpost, hchanges⟩ := List.map_eq_singleton_iff.mp hposts
  obtain ⟨c, hc, haddresses⟩ := List.map_eq_singleton_iff.mp hchanges
  refine ⟨_, _, _, req, (Sample.emptyRun_driven.exec hok).admits, Sample.emptyRun_driven.world,
    rfl, ?_, fun hlimits => ?_⟩
  · rw [hpost]
    exact List.mem_singleton_self req
  · have hmem : c ∈ req.changes := by
      rw [hc]
      exact List.mem_singleton_self c
    exact hlimits.addressed c hmem haddresses

/-! ## Which request prevails -/

/-- **The last listed wins**: a record has what the last request about it
wrote, and a record no request is about is as it was. -/
structure LastListedWins (requests : List (SignedPayload ResourceRecordSet))
    (before after : RecordKey → Option RecordValue) : Prop where
  written : ∀ l₁ p l₂, requests = l₁ ++ p :: l₂ →
    (∀ q ∈ l₂, q.envelope.payload.about ≠ p.envelope.payload.about) →
    after (recordKey p.envelope.payload.change) =
      some (p.envelope.payload.ttl, p.envelope.payload.data)
  kept : ∀ k, (∀ p ∈ requests, recordKey p.envelope.payload.change ≠ k) → after k = before k

/-- **The newest wins**: a record has what the request about it wrote that
was signed after all others. -/
def NewestWins (requests : List (SignedPayload ResourceRecordSet))
    (after : RecordKey → Option RecordValue) : Prop :=
  ∀ p ∈ requests, (∀ q ∈ requests, q ≠ p →
      q.envelope.payload.about = p.envelope.payload.about →
      q.envelope.signedAtUnixSecs.toInt < p.envelope.signedAtUnixSecs.toInt) →
    after (recordKey p.envelope.payload.change) =
      some (p.envelope.payload.ttl, p.envelope.payload.data)

/-- A batch applied in order leaves the last of its changes. -/
theorem lastListedWins_applyAll (requests : List (SignedPayload ResourceRecordSet))
    (before : RecordKey → Option RecordValue) :
    LastListedWins requests before (Upsert.applyAll recordKey recordValue before
      (requests.map (ResourceRecordSet.change ∘ (·.envelope.payload)))) where
  written := by
    rintro l₁ p l₂ rfl hlast
    rw [List.map_append, List.map_cons]
    refine Upsert.applyAll_of_last recordKey recordValue _ fun c hc => ?_
    obtain ⟨q, hq, rfl⟩ := List.mem_map.mp hc
    exact fun heq => hlast q hq (recordKey_change.mp heq)
  kept := by
    intro k hk
    refine Upsert.applyAll_of_not_mem _ _ _ fun c hc => ?_
    obtain ⟨p, hp, rfl⟩ := List.mem_map.mp hc
    exact hk p hp

section

variable [Externals] {fuel : ℕ} {args : ServerArgs} {tr : Trace}
variable {tokenKey : String → String} {w w' : World}

/-- **Of two accepted requests for one record the later in the listing
prevails.** The time of signing decides whether a request is accepted, and
is gone after that. -/
theorem lastListed_wins (h : (handleServer fuel args).run.Admits tr)
    (hworld : Run tokenKey w tr w') (hack : ∃ e ∈ tr, acknowledges e = true) :
    (∃ certs log, LogOf args tr certs log) ∧ ∀ certs log, LogOf args tr certs log →
      LastListedWins (acceptedRequests args certs log)
        (w.records (changeUrl args.hostedDnsZoneId))
        (w'.records (changeUrl args.hostedDnsZoneId)) := by
  obtain ⟨e, he, hacked⟩ := hack
  rcases admits_handleServer h with ⟨-, -, hno⟩ | ⟨-, plan, t₁, t₂, rfl, h₁, h₂⟩
  · rw [hno e he] at hacked
    cases hacked
  · obtain ⟨p⟩ := exec_prepare h₁
    obtain ⟨certs, log, hlog, hchanges⟩ := changes_of_plan h₁ h₂
    refine ⟨⟨certs, log, hlog⟩, fun certs' log' hlog' => ?_⟩
    rw [← hlog.acceptedRequests_eq hlog']
    obtain ⟨m, hm, hrest⟩ := along_append.mp hworld
    -- the preparation leaves the services as they are
    obtain rfl : m = w := Run.eq_of_quiet hm (quiet_of_prepare h₁.admits)
    have hzone : plan.server.conf.hostedDnsZoneId = args.hostedDnsZoneId := p.zone_eq
    rcases Run.records_carryOut hrest h₂ with ⟨-, hno⟩ | hrecords
    · rcases List.mem_append.mp he with he | he
      · rw [(quiet_prepare h₁.admits).2.2 e he] at hacked
        cases hacked
      · rw [hno e he] at hacked
        cases hacked
    · rw [hrecords, hzone]
      unfold World.apply
      simp only [Function.update_self, hchanges]
      exact lastListedWins_applyAll _ _

end

namespace Sample

/-- A bucket with two requests of one name, the newer under the earlier
key. -/
def outOfOrder : Services :=
  services [("d/a.ddns.json", newerRequest), ("d/b.ddns.json", goodRequest)] (by decide)

/-- The server's run over that bucket, while both are fresh. -/
@[irreducible] def staleRun : Services.Observed (Result Unit) :=
  (@handleServer externals 1 serverArgs).run.drive (Services.answer (host 1780000070 inRange070))
    outOfOrder

theorem staleRun_driven : Services.Driven (host 1780000070 (by decide))
    (@handleServer externals 1 serverArgs).run outOfOrder staleRun := by
  unfold staleRun
  exact Services.driven _ _ _

set_option maxRecDepth 10000 in
/-- Both requests are accepted, and the older one's address is left. -/
theorem staleRun_shows :
    staleRun.2.1 = .ok (.ok ()) ∧ staleRun.1.any acknowledges = true ∧
      (@requestsOf externals (gets staleRun.1)).map (fun u =>
        (u.signedPayload.envelope.payload, u.signedPayload.envelope.signedAtUnixSecs.toInt)) =
        [(record [⟨#v[192, 168, 1, 2]⟩], 1780000060), (record [address], 1780000000)] ∧
      (posts staleRun.1).map (fun req => req.changes.length) = [2] ∧
      staleRun.2.2.world.records (changeUrl Sample.serverArgs.hostedDnsZoneId)
        (recordKey (record [address]).change) =
        some (300, .a [address]) := by
  decide +kernel

end Sample

/-- In the sample run over two requests of one name the last listed
wins. -/
theorem lastListed_wins_outOfOrder :
    letI := Sample.externals
    ∃ certs log, LogOf Sample.serverArgs Sample.staleRun.1 certs log ∧
      LastListedWins (acceptedRequests Sample.serverArgs certs log)
        (Sample.outOfOrder.world.records (changeUrl Sample.serverArgs.hostedDnsZoneId))
        (Sample.staleRun.2.2.world.records (changeUrl Sample.serverArgs.hostedDnsZoneId)) := by
  let := Sample.externals
  obtain ⟨hok, hack, -⟩ := Sample.staleRun_shows
  obtain ⟨⟨certs, log, hlog⟩, hwins⟩ := lastListed_wins (Sample.staleRun_driven.exec hok).admits
    Sample.staleRun_driven.world (List.any_eq_true.mp hack)
  exact ⟨certs, log, hlog, hwins certs log hlog⟩

/-- **An older request overrides a newer one.** Both are accepted in the
sample run, and the one signed a minute earlier, under the later key, is
what the record is left with. -/
theorem newest_overridden :
    letI := Sample.externals
    ∃ (tr : Trace) (w w' : World) (certs : List CertMatch) (log : List Judged),
      (handleServer 1 Sample.serverArgs).run.Exec tr (.ok ()) ∧ Run id w tr w' ∧
      LogOf Sample.serverArgs tr certs log ∧
      ¬ NewestWins (acceptedRequests Sample.serverArgs certs log)
        (w'.records (changeUrl Sample.serverArgs.hostedDnsZoneId)) := by
  let := Sample.externals
  obtain ⟨hok, -, hrequests, hposts, hrecord⟩ := Sample.staleRun_shows
  have hexec := Sample.staleRun_driven.exec hok
  obtain ⟨req, hpost, hlength⟩ := List.map_eq_singleton_iff.mp hposts
  obtain ⟨certs, log, hlog, hchanges⟩ := changes_of_posts hexec.admits
    (by rw [hpost]; exact List.mem_singleton_self req)
  refine ⟨_, _, _, certs, log, hexec, Sample.staleRun_driven.world, hlog, fun hnewest => ?_⟩
  -- as many were accepted as were fetched, so all were
  have hall : acceptedRequests Sample.serverArgs certs log =
      (requestsOf (gets Sample.staleRun.1)).map (·.signedPayload) := by
    refine hlog.accepted_sublist.eq_of_length ?_
    have h₁ := congrArg List.length hrequests
    rw [hchanges] at hlength
    rw [List.length_map] at h₁ hlength ⊢
    rw [hlength, h₁]
    rfl
  obtain ⟨u, us, hu, hpayload, hrest⟩ := List.map_eq_cons_iff.mp hrequests
  obtain ⟨u', hu', hpayload'⟩ := List.map_eq_singleton_iff.mp hrest
  obtain ⟨hp, ht⟩ := Prod.mk.inj hpayload
  obtain ⟨hp', ht'⟩ := Prod.mk.inj hpayload'
  rw [hall, hu, hu'] at hnewest
  have hwritten := hnewest u.signedPayload List.mem_cons_self fun q hq hne _ => by
    rcases List.mem_cons.mp hq with rfl | hq
    · exact absurd rfl hne
    · rw [List.mem_singleton.mp hq, ht, ht']
      decide
  have habout : recordKey (Sample.record [⟨#v[192, 168, 1, 2]⟩]).change =
      recordKey (Sample.record [Sample.address]).change := by decide
  rw [hp, habout] at hwritten
  have hcontra := hwritten.symm.trans hrecord
  revert hcontra
  decide

end DynDynser
