import DynDynser.Batch
import DynDynser.Domains
import DynDynser.Meeting
import DynDynser.Reporting
/-!
# Publishing between two server runs

Route53 tells records apart by name and type; the store tells objects
apart by name alone, since a client names its object after its domain. So
a domain has one pending request, the last that was published, and the
next server run writes that one: the record of the other type is left as
it was, whatever was published for it before (`published_overwritten`).
-/

namespace DynDynser

open Text Interact Fallible World DynDynserServer Externals

section

variable [Externals] {fuel : ℕ} {args : ServerArgs} {tr : Trace}

/-! ## A server run without errors -/

omit [Externals] in
/-- Without errors a summary is a success. -/
theorem hasErrors_of_printSummary {errors : ServerErrors} (h : errors.printSummary = .ok ()) :
    errors.hasErrors = false := by
  unfold ServerErrors.printSummary at h
  split at h
  · cases h
  · next hno => exact (Bool.not_eq_true _).mp hno

/-- **A run that posts a batch and returns `Ok` has met no error**: it has
fetched every key, found a request under each, and accepted them all. -/
theorem exec_handleServer_ok (h : (handleServer fuel args).run.Exec tr (.ok ()))
    (hposts : posts tr ≠ []) :
    ∃ plan t₁ t₂, tr = t₁ ++ t₂ ∧
      (prepare fuel (ConfigServer.parse args)).run.Exec t₁ (.ok (some plan)) ∧
      (carryOut plan).run.Admits t₂ ∧ (∃ e ∈ t₂, acknowledges e = true) ∧
      plan.verified = (requestsOf (gets t₁)).map UnverifiedDdnsRequest.verified ∧
      ∀ a ∈ gets t₁, ∃ (data : Bytes) (payload : SignedPayload ResourceRecordSet),
        a.2 = .ok data ∧ fromSlice data = .ok payload := by
  rcases admits_handleServer h.admits with ⟨hno, -, -⟩ | ⟨hdry, plan, t₁, t₂, rfl, h₁, h₂⟩
  · exact absurd hno hposts
  have hcarry := (exec_handleServer hdry h₁).mp h
  rcases exec_carryOut hcarry with ⟨⟨e, herror⟩, -⟩ | ⟨pre, headers, resp, rest, -, hack, htr, hrest⟩
  · cases herror
  rcases hrest with ⟨e, herror, -⟩ | ⟨answers, -, hsummary, -⟩
  · cases herror
  obtain ⟨p⟩ := exec_prepare h₁
  -- nothing was collected, before the cleanup or in it
  have hclean := hasErrors_of_printSummary hsummary.symm
  rw [deleteAll_eq, hasErrors_eq_false, p.plan_eq, ← p.fetch_events.1] at hclean
  obtain ⟨hfetches, hparses, -, hrejected, -⟩ := hclean
  refine ⟨plan, t₁, t₂, rfl, h₁, h₂, ⟨_, ?_, hack⟩, ?_, fetchErrors_eq_nil.mp ⟨hfetches, hparses⟩⟩
  · rw [htr]
    exact List.mem_append_right _ List.mem_cons_self
  · have haccepted : ∀ c ∈ p.checks, c.accepted? = some c.request.verified := by
      intro c hc
      have hno := List.filterMap_eq_nil_iff.mp hrejected c hc
      cases hv : c.verdict with
      | error e => simp [Checked.rejected?, hv] at hno
      | ok v =>
        have hrun := c.run
        rw [hv] at hrun
        rw [Checked.accepted?_eq_some, hv, verified_of_check hrun]
    rw [p.verified_eq, List.filterMap_congr haccepted, ← p.requests_eq, List.map_map]
    exact congrFun List.filterMap_eq_map' p.checks

/-! ## Clients before it -/

variable {tokenKey : String → String} {w w₁ w₂ : World} {bucket dir : String}
variable {ps : List (ClientArgs × Trace)}

/-- A client publishes: it runs to its end, in that bucket and directory,
and is no dry run. -/
structure Publishes (tokenKey : String → String) (bucket dir : String) (w : World)
    (q : ClientArgs × Trace) (w' : World) : Prop where
  toDo : q.1.isDryRun = false
  bucket : q.1.s3QueueBucket = bucket
  directory : q.1.s3DdnsJsonDir = dir
  run : (handleClient q.1).run.Exec q.2 (.ok ())
  world : Run tokenKey w q.2 w'

/-- One client after the other. -/
abbrev Published (tokenKey : String → String) (bucket dir : String) :
    World → List (ClientArgs × Trace) → World → Prop :=
  Along (Publishes tokenKey bucket dir)

/-- What a publication does to the world. -/
theorem Publishes.world_eq {q : ClientArgs × Trace} (h : Publishes tokenKey bucket dir w q w₁)
    (p : Publication q.1 q.2) : w₁ = w.put bucket (putKey p.conf p.ip) p.content := by
  obtain ⟨-, -, hbucket, -⟩ := ConfigClient.parse_eq_ok p.parsed
  rw [p.world_eq h.world, hbucket, h.bucket]

/-- In one directory, clients have one key where their domains are spelled
alike. -/
theorem putKey_eq_iff_spelled {q q' : ClientArgs × Trace} (p : Publication q.1 q.2)
    (p' : Publication q'.1 q'.2) (hdir : q'.1.s3DdnsJsonDir = q.1.s3DdnsJsonDir) :
    putKey p'.conf p'.ip = putKey p.conf p.ip ↔
      spelled q'.1.domainToUpdate = spelled q.1.domainToUpdate := by
  obtain ⟨hdomain, hdirectory, -⟩ := ConfigClient.parse_eq_ok p.parsed
  obtain ⟨hdomain', hdirectory', -⟩ := ConfigClient.parse_eq_ok p'.parsed
  have hsame : p'.conf.s3DdnsJsonDirectory = p.conf.s3DdnsJsonDirectory := by
    rw [hdirectory, hdirectory', hdir]
  rw [putKey_eq_iff hsame, ← (DomainName.parse_eq_ok hdomain).1,
    ← (DomainName.parse_eq_ok hdomain').1]
  exact ⟨fun h => congrArg String.toList h, fun h => String.toList_injective h⟩

/-- **The last publication of a domain is in the bucket**, whatever other
domains were published after it. -/
theorem Published.object {qs₁ qs₂ : List (ClientArgs × Trace)} {q : ClientArgs × Trace}
    (h : Published tokenKey bucket dir w (qs₁ ++ q :: qs₂) w₁)
    (hlast : ∀ q' ∈ qs₂, spelled q'.1.domainToUpdate ≠ spelled q.1.domainToUpdate)
    (p : Publication q.1 q.2) :
    ∃ o, w₁.objects bucket (putKey p.conf p.ip) = some o ∧ o.bytes = p.content := by
  obtain ⟨m, -, m', hq, hrest⟩ := along_append.mp h
  refine hrest.invariant (I := fun v =>
    ∃ o, v.objects bucket (putKey p.conf p.ip) = some o ∧ o.bytes = p.content)
    (fun q' hq' a b hstep ha => ?_) ?_
  · obtain ⟨p'⟩ := exec_handleClient hstep.run hstep.toDo
    have hne : putKey p.conf p.ip ≠ putKey p'.conf p'.ip := fun heq =>
      hlast q' hq' ((putKey_eq_iff_spelled p p' (hstep.directory.trans hq.directory.symm)).mp
        heq.symm)
    rw [hstep.world_eq p']
    simpa [World.put, Function.update_of_ne hne] using ha
  · rw [hq.world_eq p]
    exact ⟨⟨m.nextVersion, p.content⟩, by simp [World.put], rfl⟩

/-- Publishing leaves the records alone. -/
theorem Published.records (h : Published tokenKey bucket dir w ps w₁) : w₁.records = w.records :=
  h.invariant (I := fun v => v.records = w.records) (fun q _ a b hstep ha => by
    obtain ⟨p⟩ := exec_handleClient hstep.run hstep.toDo
    rw [hstep.world_eq p, ← ha]
    rfl) rfl

/-! ## The records -/

/-- A key of a bucket that a server given the directory looks at, and the
request in the object it fetches for it. -/
def Pending (bucket dir : String) (w : World) (key : String)
    (payload : SignedPayload ResourceRecordSet) : Prop :=
  Processed dir key ∧ (w.objects bucket key).isSome ∧
    ∃ o, w.objects bucket (objectKey key) = some o ∧ fromSlice o.bytes = .ok payload

/-- What a client put is where the server looks: it lists the key, and a
get of the key reaches the object. -/
def Reached (args : ServerArgs) (q : ClientArgs × Trace) : Prop :=
  ∀ p : Publication q.1 q.2, Processed args.s3DdnsJsonDir (putKey p.conf p.ip) ∧
    objectKey (putKey p.conf p.ip) = putKey p.conf p.ip

/-- **What was published last for a domain is what its record is left
with**: in the type it was published for last, unless a request that is
listed later is about that record too. A record that no pending request is
about keeps what it had. -/
structure LastPublished (args : ServerArgs) (ps : List (ClientArgs × Trace)) (w w₁ w₂ : World) :
    Prop where
  written : ∀ qs₁ q qs₂, ps = qs₁ ++ q :: qs₂ →
    (∀ q' ∈ qs₂, spelled q'.1.domainToUpdate ≠ spelled q.1.domainToUpdate) →
    ∀ p : Publication q.1 q.2,
      (∀ key payload, Pending args.s3QueueBucket args.s3DdnsJsonDir w₁ key payload →
        payload.envelope.payload.about = (dnsObj p.conf p.ip).about →
          key ≤ putKey p.conf p.ip) →
      w₂.records (changeUrl args.hostedDnsZoneId) (recordKey (dnsObj p.conf p.ip).change) =
        some ((dnsObj p.conf p.ip).ttl, (dnsObj p.conf p.ip).data)
  kept : ∀ k,
    (∀ key payload, Pending args.s3QueueBucket args.s3DdnsJsonDir w₁ key payload →
      recordKey payload.envelope.payload.change ≠ k) →
    w₂.records (changeUrl args.hostedDnsZoneId) k = w.records (changeUrl args.hostedDnsZoneId) k

/-- A request that was fetched is pending. -/
theorem pending_of_get {t₁ : Trace} {plan : Plan} {w' : World}
    (p : Preparation fuel (ConfigServer.parse args) t₁ plan) (hrun : Run tokenKey w t₁ w')
    (h₁ : (prepare fuel (ConfigServer.parse args)).run.Exec t₁ (.ok (some plan)))
    {a : String × Result Bytes} {u : UnverifiedDdnsRequest} (ha : a ∈ gets t₁)
    (hu : request? a = some u) :
    Pending args.s3QueueBucket args.s3DdnsJsonDir w a.1 u.signedPayload := by
  obtain ⟨key, answer⟩ := a
  obtain ⟨-, -, -, hlisted⟩ := Run.listed_prepare hrun h₁
  obtain ⟨hkey, hext⟩ := p.eligible_of_get ha
  obtain ⟨hsome, hunder⟩ := (hlisted key).mp hkey
  refine ⟨⟨hunder, hext⟩, hsome, ?_⟩
  obtain ⟨data, hmem, hparse⟩ :=
    mem_requestsOf (List.mem_filterMap.mpr ⟨(key, answer), List.mem_singleton_self _, hu⟩)
  obtain ⟨hsame, rfl⟩ := Prod.mk.inj (List.mem_singleton.mp hmem)
  obtain ⟨o, ho, rfl⟩ := Run.object_of_prepare p hrun h₁.admits ha
  exact ⟨o, ho, hparse⟩

/-- **The records after a server run that met no error**: all it fetched
is applied, in the order of the keys. -/
theorem records_of_ok (h : (handleServer fuel args).run.Exec tr (.ok ())) (hposts : posts tr ≠ [])
    (hrun : Run tokenKey w₁ tr w₂) :
    ∃ plan t₁ t₂, tr = t₁ ++ t₂ ∧
      (prepare fuel (ConfigServer.parse args)).run.Exec t₁ (.ok (some plan)) ∧
      Run tokenKey w₁ t₁ w₁ ∧
      (∀ a ∈ gets t₁, ∃ (data : Bytes) (payload : SignedPayload ResourceRecordSet),
        a.2 = .ok data ∧ fromSlice data = .ok payload) ∧
      w₂.records (changeUrl args.hostedDnsZoneId) =
        Upsert.applyAll recordKey recordValue (w₁.records (changeUrl args.hostedDnsZoneId))
          ((requestsOf (gets t₁)).map fun u => u.signedPayload.envelope.payload.change) := by
  obtain ⟨plan, t₁, t₂, rfl, h₁, h₂, ⟨e, he, hack⟩, hverified, hall⟩ := exec_handleServer_ok h hposts
  obtain ⟨m, hm, hrest⟩ := along_append.mp hrun
  obtain ⟨rfl, -⟩ := Run.listed_prepare hm h₁
  obtain ⟨p⟩ := exec_prepare h₁
  refine ⟨plan, t₁, t₂, rfl, h₁, hm, hall, ?_⟩
  have hzone : plan.server.conf.hostedDnsZoneId = args.hostedDnsZoneId := p.zone_eq
  have hchanges : plan.changes =
      (requestsOf (gets t₁)).map fun u => u.signedPayload.envelope.payload.change := by
    unfold Plan.changes
    rw [buildChanges_eq, hverified, List.map_map]
    rfl
  rcases Run.records_carryOut hrest h₂ with ⟨-, hno⟩ | hrecords
  · rw [hno e he] at hack
    cases hack
  · rw [hrecords, hzone, hchanges]
    unfold World.apply
    simp only [Function.update_self]

/-- The server fetches what was published last for a domain. -/
theorem get_of_published {qs₁ qs₂ : List (ClientArgs × Trace)} {q : ClientArgs × Trace}
    {t₁ : Trace} {plan : Plan}
    (hpublished : Published tokenKey args.s3QueueBucket dir w (qs₁ ++ q :: qs₂) w₁)
    (hlast : ∀ q' ∈ qs₂, spelled q'.1.domainToUpdate ≠ spelled q.1.domainToUpdate)
    (hreached : Reached args q)
    (h₁ : (prepare fuel (ConfigServer.parse args)).run.Exec t₁ (.ok (some plan)))
    (hrun : Run tokenKey w₁ t₁ w₁) (hall : ∀ a ∈ gets t₁,
      ∃ (data : Bytes) (payload : SignedPayload ResourceRecordSet),
        a.2 = .ok data ∧ fromSlice data = .ok payload)
    (p : Publication q.1 q.2) : (putKey p.conf p.ip, Except.ok p.content) ∈ gets t₁ := by
  obtain ⟨o, ho, hbytes⟩ := hpublished.object hlast p
  obtain ⟨-, -, hkeys, hlisted⟩ := Run.listed_prepare hrun h₁
  obtain ⟨hprocessed, hreaches⟩ := hreached p
  have hkey : putKey p.conf p.ip ∈ (gets t₁).map Prod.fst := by
    rw [hkeys]
    have hsome : (w₁.objects args.s3QueueBucket (putKey p.conf p.ip)).isSome := by
      rw [ho]
      rfl
    exact List.mem_filter.mpr ⟨(hlisted _).mpr ⟨hsome, hprocessed.1⟩, hprocessed.2⟩
  -- nothing else than the object is fetched under its key
  obtain ⟨⟨key, answer⟩, hmem, heq⟩ := List.mem_map.mp hkey
  obtain rfl : key = putKey p.conf p.ip := heq
  obtain ⟨data, -, hdata, -⟩ := hall _ hmem
  obtain rfl : answer = .ok data := hdata
  obtain ⟨p₀⟩ := exec_prepare h₁
  obtain ⟨o', ho', rfl⟩ := Run.object_of_prepare p₀ hrun h₁.admits hmem
  rw [hreaches] at ho'
  obtain rfl := Option.some.inj (ho'.symm.trans ho)
  rwa [hbytes] at hmem

/-- **Route53 after a server run that met no error** has what was
published last for each domain. -/
theorem lastPublished_of_run (hpublished : Published tokenKey args.s3QueueBucket dir w ps w₁)
    (hreached : ∀ q ∈ ps, Reached args q)
    (hv4 : ∀ a, ipv4FromStr (ipv4Display a) = some a)
    (hv6 : ∀ a, ipv6FromStr (ipv6Display a) = some a)
    (h : (handleServer fuel args).run.Exec tr (.ok ())) (hposts : posts tr ≠ [])
    (hrun : Run tokenKey w₁ tr w₂) : LastPublished args ps w w₁ w₂ := by
  obtain ⟨plan, t₁, t₂, rfl, h₁, hm, hall, hrecords⟩ := records_of_ok h hposts hrun
  obtain ⟨-, hsorted, hkeys, -⟩ := Run.listed_prepare hm h₁
  obtain ⟨p₀⟩ := exec_prepare h₁
  constructor
  · rintro qs₁ q qs₂ rfl hlast p hunrivalled
    obtain ⟨_, payload, _, -, hparse, henvelope, -, -⟩ := p.stored hv4 hv6
    have hpayload : payload.envelope.payload = dnsObj p.conf p.ip := by rw [henvelope]
    have hget := get_of_published hpublished hlast (hreached q (by simp)) h₁ hm hall p
    obtain ⟨g₁, g₂, hsplit⟩ := List.append_of_mem hget
    have hrequest : request? (putKey p.conf p.ip, .ok p.content) =
        some ⟨payload, ⟨putKey p.conf p.ip⟩⟩ := by
      simp [request?, hparse, Except.toOption]
    -- what comes after it has a later key
    have hlater : ∀ a ∈ g₂, putKey p.conf p.ip < a.1 := by
      have hpairwise : ((gets t₁).map Prod.fst).Pairwise (· < ·) := by
        rw [hkeys]
        exact hsorted.filter _
      rw [hsplit, List.map_append, List.map_cons] at hpairwise
      have hcons := (List.pairwise_append.mp hpairwise).2.1
      exact fun a ha => (List.pairwise_cons.mp hcons).1 _ (List.mem_map_of_mem ha)
    have hlist : (requestsOf (gets t₁)).map (fun u => u.signedPayload.envelope.payload.change) =
        (requestsOf g₁).map (fun u => u.signedPayload.envelope.payload.change) ++
          (dnsObj p.conf p.ip).change ::
            (requestsOf g₂).map fun u => u.signedPayload.envelope.payload.change := by
      rw [hsplit]
      unfold requestsOf
      rw [List.filterMap_append, List.filterMap_cons_some hrequest, List.map_append, List.map_cons,
        hpayload]
    rw [hrecords, hlist]
    refine Upsert.applyAll_of_last recordKey recordValue _ fun c hc heq => ?_
    obtain ⟨u, hu, rfl⟩ := List.mem_map.mp hc
    obtain ⟨a, ha, ha'⟩ := List.mem_filterMap.mp hu
    have hmem : a ∈ gets t₁ := by
      rw [hsplit]
      exact List.mem_append_right _ (List.mem_cons_of_mem _ ha)
    have hle := hunrivalled _ _ (pending_of_get p₀ hm h₁ hmem ha') (recordKey_change.mp heq)
    exact absurd (hlater a ha) (not_lt.mpr hle)
  · intro k hk
    rw [hrecords, Upsert.applyAll_of_not_mem _ _ _ fun c hc => ?_, hpublished.records]
    obtain ⟨u, hu, rfl⟩ := List.mem_map.mp hc
    obtain ⟨a, ha, hrequest⟩ := List.mem_filterMap.mp hu
    exact hk _ _ (pending_of_get p₀ hm h₁ ha hrequest)

end

namespace Sample

/-- A host with an IPv6 address, a minute later. -/
def sixHost : Host :=
  { host 1780000120 inRange120 with ip := utf8 "2001:1db8:1111:2222:3333:4444:5555:6666\n" }

/-- The client's run there, after the one with an IPv4 address. -/
@[irreducible] def sixRun : Services.Observed (Result Unit) :=
  (@handleClient externals (clientArgs "d")).run.drive (Services.answer sixHost) putRun.2.2

theorem sixRun_driven : Services.Driven sixHost (@handleClient externals (clientArgs "d")).run
    putRun.2.2 sixRun := by
  unfold sixRun
  exact Services.driven _ _ _

/-- The server's run after both. -/
@[irreducible] def bothRun : Services.Observed (Result Unit) :=
  (@handleServer externals 1 serverArgs).run.drive (Services.answer (host 1780000130 inRange130))
    sixRun.2.2

theorem bothRun_driven : Services.Driven (host 1780000130 (by decide))
    (@handleServer externals 1 serverArgs).run sixRun.2.2 bothRun := by
  unfold bothRun
  exact Services.driven _ _ _

/-- The type of the record in the object of a client. -/
def storedType (s : Services) : Option RecordType :=
  letI := externals
  (s.world.objects "ddns" "d/augs.sarif.example.ddns.json").bind fun o =>
    (fromSlice o.bytes : Result (SignedPayload ResourceRecordSet)).toOption.map
      fun q => q.envelope.payload.data.recordType

set_option maxRecDepth 10000 in
/-- All three succeed, and there is no record of the first type. -/
theorem bothRun_shows : sixRun.2.1 = .ok (.ok ()) ∧ bothRun.2.1 = .ok (.ok ()) ∧
    (posts bothRun.1).length = 1 ∧ storedType putRun.2.2 = some .a ∧
    storedType sixRun.2.2 = some .aaaa ∧
    bothRun.2.2.world.records (changeUrl "Z1") ("augs.sarif.example.", .a) = none := by
  decide +kernel

/-- A run of the sample client to its end publishes. -/
theorem publishes {w w' : World} {t : Trace} :
    letI := externals
    (handleClient (clientArgs "d")).run.Exec t (.ok ()) → Run id w t w' →
      Publishes id "ddns" "d" w (clientArgs "d", t) w' := by
  let := externals
  intro h hrun
  exact ⟨rfl, rfl, rfl, h, hrun⟩

theorem published_both :
    @Published externals id "ddns" "d" (vacant ["d/augs.sarif.example.ddns.json"] (by decide)).world
      [(clientArgs "d", putRun.1), (clientArgs "d", sixRun.1)] sixRun.2.2.world := by
  have hfirst := publishes (putRun_driven.exec putRun_ok) putRun_driven.world
  have hsecond := publishes (sixRun_driven.exec bothRun_shows.1) sixRun_driven.world
  refine along_cons.mpr ⟨_, hfirst, ?_⟩
  refine along_cons.mpr ⟨_, hsecond, ?_⟩
  exact along_nil.mpr rfl

/-- The key a sample client puts. -/
theorem putKey_clientArgs {t : Trace} :
    letI := externals
    ∀ p : Publication (clientArgs "d") t, putKey p.conf p.ip = "d/augs.sarif.example.ddns.json" := by
  let := externals
  intro p
  have hconf : p.conf = clientConf "d" :=
    Except.ok.inj (p.parsed.symm.trans (parse_clientArgs "d"))
  have hpath : objectKey "d/augs.sarif.example.ddns.json" = "d/augs.sarif.example.ddns.json" := by
    decide
  rw [hconf]
  exact hpath

/-- The sample server looks there. -/
theorem reached_both : ∀ q ∈ [(clientArgs "d", putRun.1), (clientArgs "d", sixRun.1)],
    @Reached externals serverArgs q := by
  let := externals
  have hreached : ∀ t, Reached serverArgs (clientArgs "d", t) := by
    intro t p
    have hkey : putKey p.conf p.ip = "d/augs.sarif.example.ddns.json" := putKey_clientArgs p
    rw [hkey]
    exact ⟨by unfold Processed; decide, by decide⟩
  intro q hq
  rcases List.mem_pair.mp hq with rfl | rfl
  · exact hreached _
  · exact hreached _

/-- The type a client has published for is that of the record in its
object. -/
theorem recordType_of_stored {t : Trace} {w : World} {s : Services} {ty : RecordType} :
    letI := externals
    ∀ p : Publication (clientArgs "d") t, Run id w t s.world → storedType s = some ty →
      (dnsObj p.conf p.ip).data.recordType = ty := by
  let := externals
  intro p hrun hty
  obtain ⟨_, q, _, -, hparse, henvelope, -, -⟩ := p.stored ofDotted?_dotted ofColons?_colons
  have hconf : p.conf = clientConf "d" :=
    Except.ok.inj (p.parsed.symm.trans (parse_clientArgs "d"))
  have hobject : s.world.objects "ddns" "d/augs.sarif.example.ddns.json" =
      some ⟨w.nextVersion, p.content⟩ := by
    have hbucket : p.conf.s3QueueBucket = "ddns" := by
      rw [hconf]
      rfl
    rw [p.world_eq hrun, putKey_clientArgs p, hbucket]
    simp [World.put]
  unfold storedType at hty
  simp only [hobject, Option.bind_some, hparse, Except.toOption, Option.map_some,
    Option.some.injEq, henvelope] at hty
  exact hty

end Sample

/-- After both sample clients and the sample server, the record has the
IPv6 address. -/
theorem lastPublished_both :
    letI := Sample.externals
    LastPublished Sample.serverArgs
      [(Sample.clientArgs "d", Sample.putRun.1), (Sample.clientArgs "d", Sample.sixRun.1)]
      (Sample.vacant ["d/augs.sarif.example.ddns.json"] (by decide)).world Sample.sixRun.2.2.world
      Sample.bothRun.2.2.world := by
  let := Sample.externals
  obtain ⟨-, hok, hposts, -⟩ := Sample.bothRun_shows
  exact lastPublished_of_run Sample.published_both Sample.reached_both Sample.ofDotted?_dotted
    Sample.ofColons?_colons (Sample.bothRun_driven.exec hok)
    (List.ne_nil_of_length_pos (by rw [hposts]; decide)) Sample.bothRun_driven.world

/-- What was published last for each name and type is its record. -/
def EachTypePublished [Externals] (args : ServerArgs) (ps : List (ClientArgs × Trace))
    (w₂ : World) : Prop :=
  ∀ qs₁ q qs₂, ps = qs₁ ++ q :: qs₂ → ∀ p : Publication q.1 q.2,
    (∀ q' ∈ qs₂, ∀ p' : Publication q'.1 q'.2,
      (dnsObj p'.conf p'.ip).about ≠ (dnsObj p.conf p.ip).about) →
    w₂.records (changeUrl args.hostedDnsZoneId) (recordKey (dnsObj p.conf p.ip).change) =
      some ((dnsObj p.conf p.ip).ttl, (dnsObj p.conf p.ip).data)

/-- Then two publications of the sample client leave a record of the first
type, if they are of two types. -/
theorem Sample.isSome_of_eachTypePublished {t₁ t₂ : Trace} {w₂ : World} :
    letI := Sample.externals
    EachTypePublished Sample.serverArgs
        [(Sample.clientArgs "d", t₁), (Sample.clientArgs "d", t₂)] w₂ →
      ∀ p : Publication (Sample.clientArgs "d") t₁,
        (∀ p' : Publication (Sample.clientArgs "d") t₂,
          (dnsObj p'.conf p'.ip).data.recordType ≠ (dnsObj p.conf p.ip).data.recordType) →
        (w₂.records (changeUrl "Z1")
          ("augs.sarif.example.", (dnsObj p.conf p.ip).data.recordType)).isSome := by
  let := Sample.externals
  intro heach p hother
  have hwritten := heach [] (Sample.clientArgs "d", t₁) [(Sample.clientArgs "d", t₂)] rfl p
    fun q' hq' p' habout => by
      rcases List.mem_singleton.mp hq' with ⟨⟩
      exact hother p' (Prod.mk.inj habout).2
  have hconf : p.conf = Sample.clientConf "d" :=
    Except.ok.inj (p.parsed.symm.trans (Sample.parse_clientArgs "d"))
  have hkey : recordKey (dnsObj p.conf p.ip).change =
      ("augs.sarif.example.", (dnsObj p.conf p.ip).data.recordType) := by
    rw [hconf]
    refine Prod.ext ?_ rfl
    have hname : String.ofList ((fixedName "augs.sarif.example").toList.map Char.toLower) =
        "augs.sarif.example." := by decide
    exact hname
  rw [hkey] at hwritten
  have hzone : Sample.serverArgs.hostedDnsZoneId = "Z1" := rfl
  rw [hzone] at hwritten
  rw [hwritten]
  rfl

/-- **An IPv4 address is lost to an IPv6 address.** A client publishes one
and then the other between two server runs. The server run succeeds, and
there is no record of the first type. -/
theorem ipv4_overwritten :
    letI := Sample.externals
    ∃ (w w₁ w₂ : World) (ps : List (ClientArgs × Trace)) (tr : Trace),
      Published id "ddns" "d" w ps w₁ ∧ (∀ q ∈ ps, Reached Sample.serverArgs q) ∧
      (handleServer 1 Sample.serverArgs).run.Exec tr (.ok ()) ∧ posts tr ≠ [] ∧
      Run id w₁ tr w₂ ∧ ¬ EachTypePublished Sample.serverArgs ps w₂ := by
  let := Sample.externals
  obtain ⟨-, hok, hposts, hfirst, hsecond, hnone⟩ := Sample.bothRun_shows
  refine ⟨_, _, _, _, _, Sample.published_both, Sample.reached_both, Sample.bothRun_driven.exec hok,
    List.ne_nil_of_length_pos (by rw [hposts]; decide), Sample.bothRun_driven.world,
    fun heach => ?_⟩
  obtain ⟨p⟩ := exec_handleClient (Sample.putRun_driven.exec Sample.putRun_ok) rfl
  have htype := Sample.recordType_of_stored p Sample.putRun_driven.world hfirst
  -- what is published later is of the other type
  have hother : ∀ p' : Publication (Sample.clientArgs "d") Sample.sixRun.1,
      (dnsObj p'.conf p'.ip).data.recordType ≠ (dnsObj p.conf p.ip).data.recordType := by
    intro p'
    rw [htype, Sample.recordType_of_stored p' Sample.sixRun_driven.world hsecond]
    decide
  have hsome := Sample.isSome_of_eachTypePublished heach p hother
  rw [htype, hnone] at hsome
  cases hsome

end DynDynser
