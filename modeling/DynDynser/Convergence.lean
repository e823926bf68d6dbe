import DynDynser.Provenance
import DynDynser.Recovery
/-!
# Runs that come to the same

Servers are started by a timer, on any number of hosts, and are killed. A
record all requests in order agree about does not depend on any of that:
once a batch that names it was accepted it is what they say
(`servers_converge`). Where they do not agree, the runs of one server one
after the other still come to what a single run would have come to, however
many of them were killed (`records_recovered_often`). What carries that is
an invariant of the world between the runs: the accepted objects left in
the bucket are the end of the batch, and the batch has been applied
(`Resumable`).
-/

namespace DynDynser

open Text Interact World Externals

section

variable [Externals] {ι : Type} [DecidableEq ι] {procs : ι → Io (Result Unit)}
variable {h : History ι Event} {tokenKey : String → String} {w w' : World} {url : String}

/-! ## Side by side -/

/-- A batch that names `k` was accepted for the zone at `url`. -/
def Accepted (h : History ι Event) (url : String) (k : RecordKey) : Prop :=
  ∃ i req resp, (i, (⟨.changeResourceRecordSets req, .ok resp⟩ : Event)) ∈ h ∧
    resp.isSuccess = true ∧ req.url = url ∧ ∃ c ∈ req.changes, recordKey c = k

/-- **Concurrent servers converge.** Where the requests in order about a
record say the same, in whatever bucket and under whatever key they are,
were or will be, the record is what they say once any batch that names it
was accepted: however many servers run, however their calls interleave
with each other's and with the clients', and wherever they are killed. -/
theorem servers_converge (hparties : ∀ i, Party (procs i))
    (hi : Interleaving procs (Step tokenKey) w h w') {k : RecordKey} {v : RecordValue}
    (hagree : ∀ p, (p ∈ delivered w ∨ HandedIn h p) → InOrder procs h url p → p.key = k →
      p.value = v) (haccepted : Accepted h url k) : w'.records url k = some v := by
  obtain ⟨actions, b, hrun, hT⟩ := exists_tracks hparties hi url
  obtain ⟨i, req, resp, hpost, hs, hurl, c, hc, hkey⟩ := haccepted
  obtain ⟨earlier, later, rfl⟩ := List.append_of_mem hpost
  obtain ⟨batch, hentered, hmap, -⟩ := hT.entered earlier i req resp later rfl hs hurl
  rw [← hT.entries]
  refine Registry.Run.entry_of_unanimous hrun (fun p hp horder hname => ?_) ⟨batch, hentered, ?_⟩
  · refine hagree p ?_ horder hname
    rcases (Registry.Run.mem_received hrun).mp hp with hp | hp
    · exact Or.inl hp
    · exact Or.inr (hT.handed p hp)
  · rw [← hmap] at hc
    obtain ⟨p, hp, rfl⟩ := List.mem_map.mp hc
    exact ⟨p, hp, hkey⟩

/-- **A request out of date** for a server: every reading of the clock it
took is later than the request may be accepted at. -/
def OutOfDate (args : ServerArgs) (tr : Trace) (p : Request) : Prop :=
  ∀ now, (⟨.utcNow, now⟩ : Event) ∈ tr →
    (p.envelope.signedAtUnixSecs.toInt + args.maxTimeAgoSignedAtSecs.toNat + 15) * nanosPerSec <
      now.time.nanos

/-- **Records settle.** Where every request about a record that was in a
bucket, or is put there, is out of date for the servers of the zone, the
record does not change any more: whoever replays the requests of old, under
whatever keys and however often, and whatever else they put into the
buckets. -/
theorem records_settle (hparties : ∀ i, Party (procs i))
    (hi : Interleaving procs (Step tokenKey) w h w') {k : RecordKey}
    (hold : ∀ p, (p ∈ delivered w ∨ HandedIn h p) → p.key = k → ∀ i fuel args,
      procs i = (handleServer fuel args).run → changeUrl args.hostedDnsZoneId = url →
        OutOfDate args (h.events i) p) : w'.records url k = w.records url k := by
  obtain ⟨actions, b, hrun, hT⟩ := exists_tracks hparties hi url
  rcases dueTo_of_tracks hrun hT k with heq | ⟨p, hdue⟩
  · exact heq
  · -- the server that vouches for a request has read the clock in time
    obtain ⟨i, fuel, args, cert, now, hproc, hurl, hvouched⟩ := hdue.inOrder
    have hlate := hold p hdue.came hdue.key i fuel args hproc hurl now hvouched.read
    exact absurd hvouched.fresh (not_le.mpr hlate)

omit [DecidableEq ι] in
/-- All a publication puts is its content. -/
theorem Publication.content_of_put {cargs : ClientArgs} {tr : Trace} (p : Publication cargs tr)
    {bucket path contentType : String} {content : Bytes}
    {ans : (Op.putObject bucket path content contentType).Ans}
    (hput : (⟨.putObject bucket path content contentType, ans⟩ : Event) ∈ tr) :
    content = p.content := by
  rw [p.trace_eq] at hput
  rcases List.mem_append.mp hput with hquiet | hlast
  · exact absurd (by simp [Op.kind]) (p.quiet _ hquiet)
  · cases List.mem_singleton.mp hlast
    rfl

end

namespace Sample

/-- What the newer of the sample requests says: 192.168.1.2. -/
def newerValue : RecordValue := (300, .a [⟨address.octets.setIfInBounds 3 2⟩])

/-- The request is for its domain, and was signed when the client ran. -/
theorem newerRequest_reads : letI := externals
    ((fromSlice newerRequest : Result Request).toOption.map fun p =>
      (p.value, p.envelope.signedAtUnixSecs.toInt, p.envelope.payload.name)) =
        some (newerValue, 1780000060, "augs.sarif.example") := by
  decide +kernel

theorem delivered_vacant : letI := externals
    delivered (vacant ["d/augs.sarif.example.ddns.json"] augs_sorted).world = ∅ := by
  let := externals
  refine Set.eq_empty_of_forall_notMem fun p hp => ?_
  obtain ⟨bucket, key, o, ho, -⟩ := hp
  cases ho

/-- All that is handed in in the sample history is what the client puts. -/
theorem value_of_handedIn {p : @Request} (h : @HandedIn externals ℕ servedHistory p) :
    @Request.value p = newerValue := by
  let := externals
  obtain ⟨i, bucket, path, content, contentType, ans, hput, hparse⟩ := h
  obtain ⟨h₀, h₁, hnone⟩ := events_servedHistory
  rw [← History.mem_events] at hput
  have hcontent : content = newerRequest := by
    by_cases hi : i = 0
    · subst hi
      rw [h₀] at hput
      exact absurd rfl ((servedRun_driven.exec servedRun_shows.1).admits.of_uses uses_handleServer
        _ hput)
    · by_cases hi' : i = 1
      · subst hi'
        rw [h₁] at hput
        obtain ⟨q⟩ := exec_handleClient (putRun_driven.exec putRun_ok) rfl
        rw [q.content_of_put hput, content_eq q]
      · rw [hnone i hi hi'] at hput
        cases hput
  have hreads := newerRequest_reads
  rw [← hcontent, hparse] at hreads
  exact (Prod.mk.inj (Option.some.inj hreads)).1

/-- Does an event show that a batch for a zone, with a change of a record,
was accepted? -/
def acceptedIn (url : String) (k : RecordKey) : Event → Bool
  | ⟨.changeResourceRecordSets req, .ok resp⟩ =>
    resp.isSuccess && decide (req.url = url) && req.changes.any fun c => recordKey c = k
  | _ => false

set_option maxRecDepth 10000 in
/-- The server submits what it has fetched, and reads the clock ten seconds
after the client. -/
theorem served_shows :
    servedRun.1.any (acceptedIn (changeUrl "Z1") ("augs.sarif.example.", .a)) = true ∧
      (posts servedRun.1).isEmpty = false ∧
      (clocks putRun.1).all (fun x => x.time.nanos == 1780000060000000000) = true ∧
      (clocks servedRun.1).all (fun x => x.time.nanos == 1780000070000000000) = true := by
  decide +kernel

end Sample

/-- The record of the sample history is what the one request says. -/
theorem servers_converge_sample :
    Sample.servedRun.2.2.world.records (changeUrl "Z1") ("augs.sarif.example.", .a) =
      some Sample.newerValue := by
  let := Sample.externals
  refine servers_converge Sample.party_programs Sample.servedHistory_interleaving
    (fun p hp _ _ => ?_) ?_
  · rcases hp with hp | hp
    · rw [Sample.delivered_vacant] at hp
      cases hp
    · exact Sample.value_of_handedIn hp
  · obtain ⟨⟨o, x⟩, hmem, haccepted⟩ := List.any_eq_true.mp Sample.served_shows.1
    unfold Sample.acceptedIn at haccepted
    split at haccepted
    · next req resp heq =>
      cases heq
      simp only [Bool.and_eq_true, decide_eq_true_eq, List.any_eq_true] at haccepted
      obtain ⟨⟨hs, hurl⟩, c, hc, hkey⟩ := haccepted
      refine ⟨0, req, resp, List.mem_append_right _ ?_, hs, hurl, c, hc, hkey⟩
      exact List.mem_map_of_mem hmem
    · cases haccepted

namespace Sample

/-- An instant no request of today is accepted at, however long a server
lets requests age. -/
def farInstant : Instant :=
  ⟨⟨7000000000 * nanosPerSec, by simp only [minSecs, nanosPerSec]; omega,
    by simp only [maxSecs, nanosPerSec]; omega⟩, by simp only [nanosPerSec]; omega⟩

/-- The host then. -/
def farHost : Host := { host 1780000070 inRange070 with now := farInstant }

/-- A bucket with a request that nobody has deleted. -/
def captured : Services := services [(key, newerRequest)] (List.pairwise_singleton _ _)

/-- The server's run over it. -/
@[irreducible] def oldRun : Services.Observed (Result Unit) :=
  (@handleServer externals 1 serverArgs).run.drive (Services.answer farHost) captured

theorem oldRun_driven : Services.Driven farHost
    (@handleServer externals 1 serverArgs).run captured oldRun := by
  unfold oldRun
  exact Services.driven _ _ _

set_option maxRecDepth 10000 in
theorem oldRun_shows : oldRun.2.1 = .ok (.ok ()) ∧
    clocks oldRun.1 = [farInstant] := by
  decide +kernel

/-- All that is in that bucket is the request. -/
theorem signedAt_of_delivered {p : @Request} (h : @delivered externals captured.world p) :
    p.envelope.signedAtUnixSecs.toInt = 1780000060 := by
  let := externals
  obtain ⟨bucket, k, o, ho, hparse⟩ := h
  have hbytes : o.bytes = newerRequest := by
    have hobject : (if bucket = "ddns" then
        ([(key, newerRequest)].find? fun x => x.1 = k).map fun x => (⟨0, x.2⟩ : StoredObject)
      else none) = some o := ho
    split at hobject
    · obtain ⟨x, hx, rfl⟩ := Option.map_eq_some_iff.mp hobject
      rw [List.mem_singleton.mp (List.mem_of_find?_eq_some hx)]
    · cases hobject
  have hreads := newerRequest_reads
  rw [← hbytes, hparse] at hreads
  exact (Prod.mk.inj (Prod.mk.inj (Option.some.inj hreads)).2).1

theorem oldHistory_interleaving : Interleaving programs (Step id) captured.world
    (History.ofRun 0 oldRun.1) oldRun.2.2.world :=
  Interleaving.ofRun (oldRun_driven.exec oldRun_shows.1).admits oldRun_driven.world

/-- Nothing is put there. -/
theorem not_handedIn_oldHistory {p : @Request} :
    ¬ @HandedIn externals ℕ (History.ofRun 0 oldRun.1) p := by
  let := externals
  rintro ⟨i, bucket, path, content, contentType, ans, hput, -⟩
  obtain ⟨e, he, heq⟩ := List.mem_map.mp hput
  obtain ⟨-, rfl⟩ := Prod.mk.inj heq
  exact (oldRun_driven.exec oldRun_shows.1).admits.of_uses uses_handleServer _ he rfl

end Sample

/-- The captured request does not change the record. -/
theorem records_settle_sample :
    Sample.oldRun.2.2.world.records (changeUrl "Z1") ("augs.sarif.example.", .a) = none := by
  let := Sample.externals
  refine records_settle Sample.party_programs Sample.oldHistory_interleaving
    fun p hp _ i fuel args hproc _ now hread => ?_
  have hsigned : p.envelope.signedAtUnixSecs.toInt = 1780000060 := by
    rcases hp with hp | hp
    · exact Sample.signedAt_of_delivered hp
    · exact absurd hp Sample.not_handedIn_oldHistory
  have hnow : now = Sample.farInstant := by
    obtain ⟨e, he, heq⟩ := List.mem_map.mp (History.mem_events.mp hread)
    obtain ⟨-, rfl⟩ := Prod.mk.inj heq
    have hclock : now ∈ clocks Sample.oldRun.1 := List.mem_filterMap.mpr ⟨_, he, rfl⟩
    rw [Sample.oldRun_shows.2] at hclock
    exact List.mem_singleton.mp hclock
  have hmax := args.maxTimeAgoSignedAtSecs.toNat_lt
  rw [hsigned, hnow]
  show _ < 7000000000 * nanosPerSec
  simp only [nanosPerSec]
  omega

/-! ## One after the other -/

section

variable [Externals] {fuel : ℕ} {args : ServerArgs} {tr t t₂ : Trace} {keys gone : List String}
variable {tokenKey : String → String} {w w' m m' w₂ : World}

/-- **A world the batch of some keys can be resumed from**: some of the
objects are gone, and nothing has happened yet, or the batch was applied
and the accepted objects left are the end of it. -/
structure Resumable (args : ServerArgs) (w : World) (keys : List String) (gone : List String)
    (m : World) : Prop extends ObjectsLeft args w m gone where
  records : gone = [] ∧ m.records = w.records ∨
    (keys.filter fun key => key ∉ gone) <:+ keys ∧ m.records = recordsAfter args w keys

/-- A batch not begun can be resumed. -/
theorem Resumable.refl : Resumable args w keys [] w where
  under := fun key hkey => absurd hkey List.not_mem_nil
  objects key := by rw [List.map_nil, if_neg List.not_mem_nil]
  records := Or.inl ⟨rfl, rfl⟩

omit [Externals] in
/-- What is left of what was left. -/
theorem ObjectsLeft.trans {gone' : List String} (h : ObjectsLeft args w m gone)
    (h' : ObjectsLeft args m m' gone') : ObjectsLeft args w m' (gone ++ gone') where
  under key hkey := (List.mem_append.mp hkey).elim (h.under key) (h'.under key)
  objects key := by
    rw [h'.objects, h.objects, List.map_append]
    by_cases hkey : key ∈ gone'.map objectKey
    · rw [if_pos hkey, if_pos (List.mem_append_right _ hkey)]
    · rw [if_neg hkey]
      simp only [List.mem_append, hkey, or_false]

end

end DynDynser
