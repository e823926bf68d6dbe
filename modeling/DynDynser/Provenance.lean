import DynDynser.Binding
import DynDynser.Common.Registry
import DynDynser.Common.Simulation
import DynDynser.Concurrency
import DynDynser.Domains
import DynDynser.Helpers.Changes
import DynDynser.Meeting
/-!
# Where a record comes from

What the whole system is for, whoever takes part in it: a registry of
record sets kept by letter. The bucket is where letters are handed in, by
anyone; a server is a clerk, who enters a batch of what is in order; and a
zone holds the entries. Every interleaving of servers that check
signatures, of clients, and of programs of any kind that do not post to
Route53 themselves is a run of that registry (`history_refines_registry`).
So a record is what it was, or what a signed request says that was in the
bucket before (`records_authentic`); and where signatures cannot be
forged, it is the address a client of that name was told to publish
(`records_published`).
-/

namespace DynDynser

open Text Interact World Externals

/-- A request, as a letter. -/
abbrev Request : Type := SignedPayload ResourceRecordSet

/-- The record set a request is about. -/
def Request.key (p : Request) : RecordKey := recordKey p.envelope.payload.change

/-- What a request says of it. -/
def Request.value (p : Request) : RecordValue := recordValue p.envelope.payload.change

section

variable [Externals]

/-! ## The parties -/

/-- **A party**: a run of a server that checks signatures, or any program
that leaves Route53 alone. Clients are such programs, and whoever else may
write to the bucket. -/
def Party (p : Io (Result Unit)) : Prop :=
  (∃ fuel args, args.insecureSkipVerify = false ∧ p = (handleServer fuel args).run) ∨
    p.Uses (·.kind ≠ .post)

/-- A client is a party. -/
theorem party_handleClient (args : ClientArgs) : Party (handleClient args).run := by
  refine Or.inr (uses_handleClient.mono fun o ho hpost => ?_)
  simp [hpost] at ho

/-- **What a server has seen of a request in order**: it fetched it, a
certificate it loaded, of the request's name, verifies the signature, and
the clock was read in time. -/
structure VouchedFor (args : ServerArgs) (tr : Trace) (p : Request) (cert : CertMatch)
    (now : Instant) : Prop where
  fetched : ∃ key data, (⟨.getObject args.s3QueueBucket key, .ok data⟩ : Event) ∈ tr ∧
    fromSlice data = .ok p
  loaded : LoadedCertificate args.keysSearchPath tr cert
  named : cert.commonName = p.envelope.payload.name
  verified : ∃ canonical, canonicalize (toJson p.envelope) = .ok canonical ∧
    verifyStrict cert.verifyingKey canonical p.signature = .ok ()
  dated : p.envelope.Dated
  read : (⟨.utcNow, now⟩ : Event) ∈ tr
  fresh : now.time.nanos ≤
    (p.envelope.signedAtUnixSecs.toInt + args.maxTimeAgoSignedAtSecs.toNat + 15) * nanosPerSec

/-- What was seen stays seen. -/
theorem VouchedFor.mono {args : ServerArgs} {tr tr' : Trace} {p : Request} {cert : CertMatch}
    {now : Instant} (h : VouchedFor args tr p cert now) (hsub : tr ⊆ tr') :
    VouchedFor args tr' p cert now := by
  obtain ⟨entries, entry, content, hdir, hentry, hfile, hread, hload⟩ := h.loaded
  obtain ⟨key, data, hget, hparse⟩ := h.fetched
  exact { h with
    fetched := ⟨key, data, hsub hget, hparse⟩
    loaded := ⟨entries, entry, content, hsub hdir, hentry, hfile, hsub hread, hload⟩
    read := hsub h.read }

/-! ## The batch of a plan, request by request -/

section

variable {fuel : ℕ} {args : ServerArgs} {tr : Trace} {plan : Plan}

/-- **A batch is made of requests that were fetched and accepted.** -/
theorem Preparation.exists_batch (p : Preparation fuel (ConfigServer.parse args) tr plan) :
    ∃ batch : List Request, batch.map (·.envelope.payload.change) = plan.changes ∧
      ∀ q ∈ batch, ∃ c ∈ p.checks, ∃ v, c.verdict = .ok v ∧ c.request.signedPayload = q := by
  refine ⟨p.checks.filterMap fun c => c.accepted?.map fun _ => c.request.signedPayload, ?_, ?_⟩
  · unfold Plan.changes
    rw [buildChanges_eq, p.verified_eq, List.map_filterMap, List.map_filterMap]
    refine List.filterMap_congr fun c _ => ?_
    cases hv : c.accepted? with
    | none => rfl
    | some v =>
      have hrun := c.run
      rw [Checked.accepted?_eq_some.mp hv] at hrun
      rw [verified_of_check hrun]
      rfl
  · intro q hq
    obtain ⟨c, hc, heq⟩ := List.mem_filterMap.mp hq
    obtain ⟨v, hv, rfl⟩ := Option.map_eq_some_iff.mp heq
    exact ⟨c, hc, v, Checked.accepted?_eq_some.mp hv, rfl⟩

/-- A request that a server accepted is vouched for, where it checks
signatures. -/
theorem Preparation.vouchedFor (p : Preparation fuel (ConfigServer.parse args) tr plan)
    (hsecure : args.insecureSkipVerify = false)
    {c : Checked p.certs (ConfigServer.parse args).maxTimeAgoSignedAt
      (ConfigServer.parse args).insecureSkipVerify} (hc : c ∈ p.checks)
    {v : VerifiedDdnsRequest} (hv : c.verdict = .ok v) :
    ∃ cert now, VouchedFor args tr c.request.signedPayload cert now := by
  have hmode : (ConfigServer.parse args).insecureSkipVerify = false := hsecure
  have hrun := Checked.run_secure hmode hv
  have hdated := dated_of_check hrun
  obtain ⟨cert, d, now, hfind, hsig, hd, hevents, hle, -⟩ := exec_check_secure.mp hrun
  obtain ⟨before, after, hsplit⟩ := p.events_of_check hc
  obtain ⟨data, hget, hparse⟩ := p.fetched hc
  refine ⟨cert, now, ⟨_, data, p.getEvent_mem hget, hparse⟩,
    p.loaded hmode (List.mem_of_find?_eq_some hfind), ?_, verifySignature_eq_ok.mp hsig, hdated,
    by simp [hsplit, hevents], ?_⟩
  · simpa using List.find?_some hfind
  · rw [nanos_of_deadline hd] at hle
    refine hle.trans (le_of_eq ?_)
    show _ + _ * nanosPerSec + _ = _
    ring

end

/-! ## The registry of a history -/

variable {ι : Type} [DecidableEq ι] {procs : ι → Io (Result Unit)} {h : History ι Event}
variable {tokenKey : String → String} {w w' : World} {url : String}

/-- **A server vouches for a request**, for the zone at `url`. -/
def VouchedBy (procs : ι → Io (Result Unit)) (h : History ι Event) (url : String) (i : ι)
    (p : Request) : Prop :=
  ∃ fuel args cert now, procs i = (handleServer fuel args).run ∧
    changeUrl args.hostedDnsZoneId = url ∧ VouchedFor args (h.events i) p cert now

/-- What a server vouches for it goes on vouching for. -/
theorem VouchedBy.append {before rest : History ι Event} {i : ι} {p : Request}
    (h : VouchedBy procs before url i p) : VouchedBy procs (before ++ rest) url i p := by
  obtain ⟨fuel, args, cert, now, hproc, hurl, hvouched⟩ := h
  refine ⟨fuel, args, cert, now, hproc, hurl, hvouched.mono ?_⟩
  rw [History.events_append]
  exact List.subset_append_left _ _

/-- **A request in order**, for the zone at `url`: one of the zone's
servers vouches for it. -/
def InOrder (procs : ι → Io (Result Unit)) (h : History ι Event) (url : String) (p : Request) :
    Prop :=
  ∃ i, VouchedBy procs h url i p

/-- The rules of the registry a history keeps at `url`. -/
def rules (procs : ι → Io (Result Unit)) (h : History ι Event) (url : String) :
    Registry.Rules Request RecordKey RecordValue where
  name := Request.key
  value := Request.value
  inOrder := InOrder procs h url

/-- The requests in the buckets. -/
def delivered (w : World) : Set Request :=
  {p | ∃ bucket key o, w.objects bucket key = some o ∧ fromSlice o.bytes = .ok p}

/-- **A request handed in**: some party put it into a bucket. -/
def HandedIn (h : History ι Event) (p : Request) : Prop :=
  ∃ i bucket path content contentType ans,
    (i, (⟨.putObject bucket path content contentType, ans⟩ : Event)) ∈ h ∧
      fromSlice content = .ok p

/-- **What the registry has to do with the world**, at a point of a
history: it has received what is in the buckets and what was fetched from
them, has the entries of the zone, and has done what the history shows. -/
structure Tracks (procs : ι → Io (Result Unit)) (url : String) (before : History ι Event) (m : World)
    (actions : List (Registry.Action Request))
    (b : Registry.State Request RecordKey RecordValue) : Prop where
  box : delivered m ⊆ b.received
  seen : ∀ i bucket key data (p : Request),
    (i, (⟨.getObject bucket key, .ok data⟩ : Event)) ∈ before → fromSlice data = .ok p →
      p ∈ b.received
  entries : b.entries = m.records url
  handed : ∀ p, .receive p ∈ actions → HandedIn before p
  entered : ∀ earlier i req resp later,
    before = earlier ++ (i, ⟨.changeResourceRecordSets req, .ok resp⟩) :: later →
      resp.isSuccess = true → req.url = url →
        ∃ batch : List Request, .enter batch ∈ actions ∧
          batch.map (·.envelope.payload.change) = req.changes ∧
          ∀ p ∈ batch, VouchedBy procs earlier url i p
  posted : ∀ batch : List Request, .enter batch ∈ actions →
    ∃ earlier i req ans later,
      before = earlier ++ (i, ⟨.changeResourceRecordSets req, ans⟩) :: later ∧ req.url = url ∧
        batch.map (·.envelope.payload.change) = req.changes ∧
        ∀ p ∈ batch, VouchedBy procs earlier url i p

omit [Externals] in
/-- What a step does to a zone: a batch for it is applied, or the zone
stays as it is and no batch for it was accepted. -/
theorem zone_cases {m m' : World} {e : Event} (hstep : Step tokenKey m e m') (url : String) :
    (∃ req ans, e = ⟨.changeResourceRecordSets req, ans⟩ ∧ req.url = url ∧
        m' = m.apply url req.changes) ∨
      m'.records url = m.records url ∧ ∀ req resp,
        e = ⟨.changeResourceRecordSets req, .ok resp⟩ → resp.isSuccess = true → req.url ≠ url := by
  obtain ⟨o, x⟩ := e
  by_cases hk : o.kind = .post
  · obtain ⟨req, rfl⟩ : ∃ req, o = .changeResourceRecordSets req := by
      cases o <;> first | exact ⟨_, rfl⟩ | cases hk
    have happly : ∀ m', m' = m.apply req.url req.changes → req.url ≠ url →
        m'.records url = m.records url := by
      rintro _ rfl hne
      exact Function.update_of_ne (Ne.symm hne) _ _
    cases x with
    | ok resp =>
      have hworld : m' = if resp.isSuccess then m.apply req.url req.changes else m := hstep
      by_cases hs : resp.isSuccess = true
      · rw [if_pos hs] at hworld
        by_cases hurl : req.url = url
        · exact Or.inl ⟨req, _, rfl, hurl, hurl ▸ hworld⟩
        · refine Or.inr ⟨happly m' hworld hurl, fun req' resp' heq _ => ?_⟩
          cases heq
          exact hurl
      · rw [if_neg hs] at hworld
        refine Or.inr ⟨by rw [hworld], fun req' resp' heq hs' => ?_⟩
        cases heq
        exact absurd hs' hs
    | error err =>
      have hno : ∀ req' resp', (⟨.changeResourceRecordSets req, .error err⟩ : Event) =
          ⟨.changeResourceRecordSets req', .ok resp'⟩ → resp'.isSuccess = true →
            req'.url ≠ url := fun req' resp' heq => by cases heq
      rcases hstep with hworld | rfl
      · by_cases hurl : req.url = url
        · exact Or.inl ⟨req, _, rfl, hurl, hurl ▸ hworld⟩
        · exact Or.inr ⟨happly m' hworld hurl, hno⟩
      · exact Or.inr ⟨rfl, hno⟩
  · rcases Step.records_cases hstep with heq | ⟨req, ans, heq, -⟩
    · refine Or.inr ⟨by rw [heq], fun req resp he => ?_⟩
      cases he
      exact absurd rfl hk
    · cases heq
      exact absurd rfl hk

/-- What an event hands in. -/
def receipts : Event → List (Registry.Action Request)
  | ⟨.putObject _ _ content _, _⟩ =>
    match (fromSlice content : Result Request) with
    | .ok p => [.receive p]
    | .error _ => []
  | _ => []

theorem receipts_put {bucket path contentType : String} {content : Bytes}
    {ans : (Op.putObject bucket path content contentType).Ans} {p : Request}
    (h : fromSlice content = .ok p) :
    receipts ⟨.putObject bucket path content contentType, ans⟩ = [.receive p] := by
  unfold receipts
  simp only [h]

/-- What is in the buckets after a step was there before, or was handed
in by it. -/
theorem delivered_step {m m' : World} {e : Event} (hstep : Step tokenKey m e m') {p : Request}
    (hp : p ∈ delivered m') : p ∈ delivered m ∨ .receive p ∈ receipts e := by
  obtain ⟨bucket, key, o, ho, hparse⟩ := hp
  rcases Step.object_cases hstep bucket key with heq | ⟨path, ans, -, -, hnone⟩ |
    ⟨path, content, contentType, ans, rfl, -, hput⟩
  · exact Or.inl ⟨bucket, key, o, heq ▸ ho, hparse⟩
  · rw [hnone] at ho
    cases ho
  · obtain rfl := Option.some.inj (hput.symm.trans ho)
    rw [receipts_put (show fromSlice content = .ok p from hparse)]
    exact Or.inr List.mem_cons_self

omit [DecidableEq ι] in
/-- Only a put hands in. -/
theorem handedIn_of_receipts {i : ι} {e : Event} {before : History ι Event} {p : Request}
    (h : .receive p ∈ receipts e) : HandedIn (before ++ [(i, e)]) p := by
  obtain ⟨o, x⟩ := e
  cases o with
  | putObject bucket path content contentType =>
    refine ⟨i, bucket, path, content, contentType, x, by simp, ?_⟩
    unfold receipts at h
    cases hparse : (fromSlice content : Result Request) with
    | error err =>
      simp only [hparse] at h
      cases h
    | ok p' =>
      simp only [hparse] at h
      cases List.mem_singleton.mp h
      rfl
  | _ => cases h

omit [DecidableEq ι] in
/-- A history that goes on has handed in what it had. -/
theorem HandedIn.append {before rest : History ι Event} {p : Request} (h : HandedIn before p) :
    HandedIn (before ++ rest) p := by
  obtain ⟨i, bucket, path, content, contentType, ans, hmem, hparse⟩ := h
  exact ⟨i, bucket, path, content, contentType, ans, List.mem_append_left _ hmem, hparse⟩

/-- **A batch posted is one of requests its server vouches for** by then. -/
theorem batch_of_post {i : ι} {e : Event} {before : History ι Event} {m : World}
    {req : ChangeRequest} {ans : Result (Response String)} (hparty : Party (procs i))
    (hi : Interleaving procs (Step tokenKey) w (before ++ [(i, e)]) m)
    (he : e = ⟨.changeResourceRecordSets req, ans⟩) :
    ∃ batch : List Request, batch.map (·.envelope.payload.change) = req.changes ∧
      ∀ p ∈ batch, VouchedBy procs before req.url i p := by
  have hadmits := hi.admits i
  have hmem : e ∈ History.events (before ++ [(i, e)]) i := History.mem_events.mpr (by simp)
  rcases hparty with ⟨fuel, args, hsecure, hproc⟩ | hquiet
  · rw [hproc] at hadmits
    have hposts : req ∈ posts (History.events (before ++ [(i, e)]) i) :=
      List.mem_filterMap.mpr ⟨e, hmem, by rw [he]; rfl⟩
    obtain ⟨plan, t₁, t₂, headers, htr, hprepare, hreq⟩ := mem_posts hadmits hposts
    obtain ⟨p⟩ := exec_prepare hprepare
    have hurl : changeUrl args.hostedDnsZoneId = req.url := by
      rw [hreq]
      exact congrArg changeUrl p.zone_eq.symm
    -- the preparation is a part of the history before the post
    have hsub : t₁ ⊆ before.events i := by
      intro x hx
      have hpast : (i, x) ∈ before ++ [(i, e)] :=
        History.mem_events.mp (htr ▸ List.mem_append_left t₂ hx)
      rcases List.mem_append.mp hpast with hbefore | hlast
      · exact History.mem_events.mpr hbefore
      · obtain ⟨-, rfl⟩ := Prod.mk.inj (List.mem_singleton.mp hlast)
        have hkind := hprepare.admits.of_uses uses_prepare x hx
        rw [he] at hkind
        simp [Op.kind] at hkind
    obtain ⟨batch, hbatch, hchecked⟩ := p.exists_batch
    refine ⟨batch, by rw [hbatch, hreq]; rfl, fun q hq => ?_⟩
    obtain ⟨c, hc, v, hv, rfl⟩ := hchecked q hq
    obtain ⟨cert, now, hvouched⟩ := p.vouchedFor hsecure hc hv
    exact ⟨fuel, args, cert, now, hproc, hurl, hvouched.mono hsub⟩
  · exact absurd (by rw [he]; rfl) (hadmits.of_uses hquiet e hmem)

/-- An event hands in one request, or none. -/
theorem receipts_cases (e : Event) : receipts e = [] ∨ ∃ p, receipts e = [.receive p] := by
  unfold receipts
  split
  · split
    · exact Or.inr ⟨_, rfl⟩
    · exact Or.inl rfl
  · exact Or.inl rfl

omit [Externals] [DecidableEq ι] in
/-- A fetch in a history that ends in another event is from before. -/
theorem get_before {i j : ι} {e : Event} {before : History ι Event} {bucket key : String}
    {data : Bytes} (hk : e.op.kind ≠ .get)
    (hget : (j, (⟨.getObject bucket key, .ok data⟩ : Event)) ∈ before ++ [(i, e)]) :
    (j, (⟨.getObject bucket key, .ok data⟩ : Event)) ∈ before := by
  rcases List.mem_append.mp hget with hbefore | hlast
  · exact hbefore
  · obtain ⟨-, rfl⟩ := Prod.mk.inj (List.mem_singleton.mp hlast)
    exact absurd rfl hk

/-- **One step of the world is answered by the registry**: a put hands in
its request, a batch that reaches the zone is entered, and nothing else
concerns the registry. -/
theorem Tracks.step (hparties : ∀ i, Party (procs i)) {i : ι} {e : Event}
    {before after : History ι Event} {m m' : World} {actions : List (Registry.Action Request)}
    {b : Registry.State Request RecordKey RecordValue} (hT : Tracks procs url before m actions b)
    (hsplit : h = before ++ (i, e) :: after)
    (hi : Interleaving procs (Step tokenKey) w (before ++ [(i, e)]) m')
    (hstep : Step tokenKey m e m') :
    ∃ actions' b', Registry.Run (rules procs h url) b actions' b' ∧
      Tracks procs url (before ++ [(i, e)]) m' (actions ++ actions') b' := by
  rcases zone_cases hstep url with ⟨req, ans, he, hurl, rfl⟩ | ⟨hsame, hno⟩
  · -- a batch for the zone
    obtain ⟨batch, hbatch, hletters⟩ := batch_of_post (hparties i) hi he
    subst hurl
    have hk : e.op.kind ≠ .get := by rw [he]; exact Kind.noConfusion
    refine ⟨[.enter batch],
      ⟨b.received, Upsert.applyAll Request.key Request.value b.entries batch⟩,
      ⟨_, ⟨fun p hp => ?_, rfl⟩, rfl⟩, ?_⟩
    · obtain ⟨fuel, args, cert, now, -, -, hvouched⟩ := hletters p hp
      obtain ⟨key, data, hget, hparse⟩ := hvouched.fetched
      refine ⟨hT.seen i _ key data p (History.mem_events.mp hget) hparse, i, ?_⟩
      rw [hsplit]
      exact (hletters p hp).append
    · exact {
        box := hT.box
        seen := fun j bucket key data p hget hparse =>
          hT.seen j bucket key data p (get_before hk hget) hparse
        entries := by
          show _ = Function.update m.records _ _ _
          rw [Function.update_self, ← hbatch, Upsert.applyAll_map, ← hT.entries]
          rfl
        handed := fun p hp => by
          rcases List.mem_append.mp hp with hp | hp
          · exact (hT.handed p hp).append
          · cases List.mem_singleton.mp hp
        entered := fun earlier j req' resp later hpost hs hurl => by
          rcases Lists.append_singleton_eq_cons hpost with ⟨later', rfl, hbefore⟩ |
            ⟨-, rfl, hlast⟩
          · obtain ⟨batch', hmem, hrest⟩ := hT.entered earlier j req' resp later' hbefore hs hurl
            exact ⟨batch', List.mem_append_left _ hmem, hrest⟩
          · obtain ⟨rfl, heq⟩ := Prod.mk.inj hlast
            cases heq.trans he
            exact ⟨batch, by simp, hbatch, hletters⟩
        posted := fun batch' hmem => by
          rcases List.mem_append.mp hmem with hmem | hlast
          · obtain ⟨earlier, j, req', ans', later, rfl, hrest⟩ := hT.posted batch' hmem
            exact ⟨earlier, j, req', ans', later ++ [(i, e)], by simp, hrest⟩
          · cases List.mem_singleton.mp hlast
            exact ⟨before, i, req, ans, [], by rw [he], rfl, hbatch, hletters⟩ }
  · -- anything else leaves the entries alone
    have hrun : Registry.Run (rules procs h url) b (receipts e)
        { b with received := b.received ∪ {p | .receive p ∈ receipts e} } := by
      rcases receipts_cases e with hnil | ⟨p, hp⟩
      · rw [hnil]
        show _ = b
        simp
      · have honly : {q | Registry.Action.receive q ∈ receipts e} = {p} := by
          ext q
          simp [hp]
        rw [honly, Set.union_singleton, hp]
        exact ⟨_, rfl, rfl⟩
    refine ⟨receipts e, _, hrun, ?_⟩
    exact {
      box := fun p hp => by
        rcases delivered_step hstep hp with hp | hp
        · exact Or.inl (hT.box hp)
        · exact Or.inr hp
      seen := fun j bucket key data p hget hparse => by
        rcases List.mem_append.mp hget with hget | hlast
        · exact Or.inl (hT.seen j bucket key data p hget hparse)
        · -- what is fetched now is in the bucket now
          obtain ⟨-, rfl⟩ := Prod.mk.inj (List.mem_singleton.mp hlast)
          obtain ⟨-, o, ho, rfl⟩ := hstep
          exact Or.inl (hT.box ⟨bucket, objectKey key, o, ho, hparse⟩)
      entries := hT.entries.trans hsame.symm
      handed := fun p hp => by
        rcases List.mem_append.mp hp with hp | hp
        · exact (hT.handed p hp).append
        · exact handedIn_of_receipts hp
      entered := fun earlier j req resp later hpost hs hurl => by
        rcases Lists.append_singleton_eq_cons hpost with ⟨later', rfl, hbefore⟩ | ⟨-, rfl, hlast⟩
        · obtain ⟨batch, hmem, hrest⟩ := hT.entered earlier j req resp later' hbefore hs hurl
          exact ⟨batch, List.mem_append_left _ hmem, hrest⟩
        · obtain ⟨-, rfl⟩ := Prod.mk.inj hlast
          exact absurd hurl (hno req resp rfl hs)
      posted := fun batch hmem => by
        rcases List.mem_append.mp hmem with hmem | hlast
        · obtain ⟨earlier, j, req, ans, later, rfl, hrest⟩ := hT.posted batch hmem
          exact ⟨earlier, j, req, ans, later ++ [(i, e)], by simp, hrest⟩
        · rcases receipts_cases e with hnil | ⟨p, hp⟩
          · rw [hnil] at hlast
            cases hlast
          · rw [hp] at hlast
            cases List.mem_singleton.mp hlast }

/-- **The run of the registry** that goes with an interleaving. -/
theorem exists_tracks (hparties : ∀ i, Party (procs i))
    (hi : Interleaving procs (Step tokenKey) w h w') (url : String) :
    ∃ actions b, Registry.Run (rules procs h url) ⟨delivered w, w.records url⟩ actions b ∧
      Tracks procs url h w' actions b := by
  refine hi.simulated (R := Tracks procs url) ?_ ?_
  · exact {
      box := fun _ hp => hp
      seen := by simp
      entries := rfl
      handed := by simp
      entered := by simp
      posted := by simp }
  · intro before i e after m m' actions b hsplit hnext hlast hT
    exact hT.step hparties hsplit hnext hlast

/-! ## A history to look at -/

end

namespace Sample

/-- The server's run after the client's. -/
@[irreducible] def servedRun : Services.Observed (Result Unit) :=
  (@handleServer externals 1 serverArgs).run.drive (Services.answer (host 1780000070 inRange070))
    putRun.2.2

theorem servedRun_driven : Services.Driven (host 1780000070 (by decide))
    (@handleServer externals 1 serverArgs).run putRun.2.2 servedRun := by
  unfold servedRun
  exact Services.driven _ _ _

set_option maxRecDepth 10000 in
theorem servedRun_shows : servedRun.2.1 = .ok (.ok ()) ∧
    gets servedRun.1 = [(key, .ok newerRequest)] ∧
    (putRun.2.2.world.objects "ddns" key).map StoredObject.bytes = some newerRequest ∧
    (servedRun.2.2.world.records (changeUrl "Z1") ("augs.sarif.example.", .a)).isSome = true := by
  decide +kernel

/-- The client, and then the server. -/
def servedHistory : History ℕ Event := History.ofRun 1 putRun.1 ++ History.ofRun 0 servedRun.1

/-- The programs of that history. -/
def programs (i : ℕ) : Io (Result Unit) := @Process.program externals (processes i)

theorem party_programs (i : ℕ) : @Party externals (programs i) := by
  let := externals
  match i with
  | 0 => exact Or.inl ⟨1, serverArgs, rfl, rfl⟩
  | i + 1 => exact party_handleClient (clientArgs "d")

theorem servedHistory_interleaving : Interleaving programs (Step id)
    (vacant ["d/augs.sarif.example.ddns.json"] augs_sorted).world servedHistory
    servedRun.2.2.world := by
  let := externals
  have hclient : (programs 1).Admits putRun.1 := (putRun_driven.exec putRun_ok).admits
  have hserver : (programs 0).Admits servedRun.1 :=
    (servedRun_driven.exec servedRun_shows.1).admits
  have hfirst := Interleaving.ofRun hclient putRun_driven.world
  refine hfirst.append_run ?_ hserver servedRun_driven.world
  exact History.events_ofRun_of_ne (by decide)

theorem events_servedHistory : servedHistory.events 0 = servedRun.1 ∧
    servedHistory.events 1 = putRun.1 ∧ ∀ i, i ≠ 0 → i ≠ 1 → servedHistory.events i = [] := by
  unfold servedHistory
  refine ⟨?_, ?_, fun i h₀ h₁ => ?_⟩
  · rw [History.events_append, History.events_ofRun_of_ne (by decide), History.events_ofRun_self,
      List.nil_append]
  · rw [History.events_append, History.events_ofRun_self, History.events_ofRun_of_ne (by decide),
      List.append_nil]
  · rw [History.events_append, History.events_ofRun_of_ne h₁.symm,
      History.events_ofRun_of_ne h₀.symm, List.append_nil]

end Sample

section

variable [Externals] {ι : Type} [DecidableEq ι] {procs : ι → Io (Result Unit)}
variable {h : History ι Event} {tokenKey : String → String} {w w' : World} {url : String}

/-! ## What the records are due to -/

/-- **The system is a registry kept by letter.** In every interleaving of
parties, each zone is the entries of a registry whose letters are the
requests in the buckets and those that are put there, whose rules admit
what a server of the zone vouches for, and whose clerks enter the batches
posted to it, each one that was accepted. What is in a batch, the server
that posted it had vouched for before. -/
theorem history_refines_registry (hparties : ∀ i, Party (procs i))
    (hi : Interleaving procs (Step tokenKey) w h w') (url : String) :
    ∃ actions b, Registry.Run (rules procs h url) ⟨delivered w, w.records url⟩ actions b ∧
      b.entries = w'.records url ∧ delivered w' ⊆ b.received ∧
      (∀ p, .receive p ∈ actions → HandedIn h p) ∧
      (∀ earlier i req resp later,
        h = earlier ++ (i, ⟨.changeResourceRecordSets req, .ok resp⟩) :: later →
          resp.isSuccess = true → req.url = url → ∃ batch : List Request,
            .enter batch ∈ actions ∧ batch.map (·.envelope.payload.change) = req.changes ∧
              ∀ p ∈ batch, VouchedBy procs earlier url i p) ∧
      ∀ batch : List Request, .enter batch ∈ actions → ∃ earlier i req ans later,
        h = earlier ++ (i, ⟨.changeResourceRecordSets req, ans⟩) :: later ∧ req.url = url ∧
          batch.map (·.envelope.payload.change) = req.changes ∧
          ∀ p ∈ batch, VouchedBy procs earlier url i p := by
  obtain ⟨actions, b, hrun, hT⟩ := exists_tracks hparties hi url
  exact ⟨actions, b, hrun, hT.entries, hT.box, hT.handed, hT.entered, hT.posted⟩

omit [Externals] in
/-- The registry of the sample history ends with an entry for the domain. -/
theorem history_refines_registry_sample :
    letI := Sample.externals
    ∃ actions b, Registry.Run (rules Sample.programs Sample.servedHistory (changeUrl "Z1"))
        ⟨delivered (Sample.vacant ["d/augs.sarif.example.ddns.json"] Sample.augs_sorted).world,
          fun _ => none⟩ actions b ∧
      (b.entries ("augs.sarif.example.", .a)).isSome = true := by
  let := Sample.externals
  obtain ⟨actions, b, hrun, hentries, -⟩ := history_refines_registry Sample.party_programs
    Sample.servedHistory_interleaving (changeUrl "Z1")
  exact ⟨actions, b, hrun, by rw [hentries]; exact Sample.servedRun_shows.2.2.2⟩

/-- **What a record is due to**: a request for it in order, which was in a
bucket at the start or was put there since. -/
structure DueTo (procs : ι → Io (Result Unit)) (h : History ι Event) (w w' : World) (url : String)
    (k : RecordKey) (p : Request) : Prop where
  came : p ∈ delivered w ∨ HandedIn h p
  inOrder : InOrder procs h url p
  key : p.key = k
  value : w'.records url k = some p.value

/-- What the entries of the registry are due to, the records are. -/
theorem dueTo_of_tracks {actions : List (Registry.Action Request)}
    {b : Registry.State Request RecordKey RecordValue}
    (hrun : Registry.Run (rules procs h url) ⟨delivered w, w.records url⟩ actions b)
    (hT : Tracks procs url h w' actions b) (k : RecordKey) :
    w'.records url k = w.records url k ∨ ∃ p, DueTo procs h w w' url k p := by
  have hentries := congrFun hT.entries k
  rcases Registry.Run.entry_cases hrun k with heq | ⟨p, hp, horder, hname, hvalue⟩
  · exact Or.inl (hentries.symm.trans heq)
  · refine Or.inr ⟨p, ?_, horder, hname, hentries.symm.trans hvalue⟩
    rcases (Registry.Run.mem_received hrun).mp hp with hp | hp
    · exact Or.inl hp
    · exact Or.inr (hT.handed p hp)

/-- **Records are authentic.** Whoever writes to the buckets, a record is
what it was at the start, or what a signed request says: one that a
certificate of its own name vouches for, on a server of that zone and in
time, and that was in a bucket for the server to fetch. -/
theorem records_authentic (hparties : ∀ i, Party (procs i))
    (hi : Interleaving procs (Step tokenKey) w h w') (url : String) (k : RecordKey) :
    w'.records url k = w.records url k ∨ ∃ p, DueTo procs h w w' url k p := by
  obtain ⟨actions, b, hrun, hT⟩ := exists_tracks hparties hi url
  exact dueTo_of_tracks hrun hT k

omit [Externals] in
/-- The record of the sample history is due to a request. -/
theorem records_authentic_sample :
    letI := Sample.externals
    ∃ p, DueTo Sample.programs Sample.servedHistory
      (Sample.vacant ["d/augs.sarif.example.ddns.json"] Sample.augs_sorted).world
      Sample.servedRun.2.2.world (changeUrl "Z1") ("augs.sarif.example.", .a) p := by
  let := Sample.externals
  rcases records_authentic Sample.party_programs Sample.servedHistory_interleaving (changeUrl "Z1")
    ("augs.sarif.example.", .a) with heq | hdue
  · have hsome := Sample.servedRun_shows.2.2.2
    rw [heq] at hsome
    cases hsome
  · exact hdue

/-! ## Where signatures cannot be forged -/

/-- **A message a client has signed**: the canonical bytes of the record it
publishes, stamped with the second it read, under the key it loaded. -/
structure HasSigned (args : ClientArgs) (tr : Trace) (conf : ConfigClient) (ip : IpAddr)
    (k : SigningKey) (message : Bytes) : Prop where
  parsed : ConfigClient.parse args = .ok conf
  signed : ∃ (keyTrace ipTrace : Trace) (now : Instant) (rest : Trace),
    tr = keyTrace ++ ipTrace ++ ⟨.utcNow, now⟩ :: rest ∧
      (clientSigningKey conf).run.Exec keyTrace (.ok k) ∧
      (queryForIp conf).run.Exec ipTrace (.ok ip) ∧
      canonicalize (toJson (⟨dnsObj conf ip, Int64.ofInt now.time.timestamp⟩ :
        SignableEnvelope ResourceRecordSet)) = .ok message

omit [DecidableEq ι] in
/-- A client that has published has signed what it put. -/
theorem Publication.hasSigned {cargs : ClientArgs} {tr : Trace} (p : Publication cargs tr)
    (hv4 : ∀ a, ipv4FromStr (ipv4Display a) = some a)
    (hv6 : ∀ a, ipv6FromStr (ipv6Display a) = some a) :
    ∃ (q : Request) (message : Bytes), fromSlice p.content = .ok q ∧
      canonicalize (toJson q.envelope) = .ok message ∧
      HasSigned cargs tr p.conf p.ip p.signingKey message := by
  obtain ⟨now, q, message, hts, hparse, henvelope, hcanonical, -⟩ := p.stored hv4 hv6
  obtain ⟨put, htr⟩ : ∃ put, tr = p.keyTrace ++ p.ipTrace ++ p.signTrace ++ p.credentialsTrace ++
      [put] := ⟨_, p.trace_eq⟩
  refine ⟨q, message, hparse, hcanonical, p.parsed, p.keyTrace, p.ipTrace, now,
    p.credentialsTrace ++ [put], ?_, p.keyRun, p.ipRun, ?_⟩
  · refine htr.trans ?_
    rw [hts]
    simp
  · rw [← henvelope]
    exact hcanonical

/-- **No signature is forged**: where the key of a certificate verifies a
request that a server has fetched, a client with that key has signed those
very bytes. -/
def Unforged (procs : ι → Io (Result Unit)) (h : History ι Event) : Prop :=
  ∀ i fuel args cert key data (p : Request) message,
    procs i = (handleServer fuel args).run →
    LoadedCertificate args.keysSearchPath (h.events i) cert →
    (⟨.getObject args.s3QueueBucket key, .ok data⟩ : Event) ∈ h.events i → fromSlice data = .ok p →
    canonicalize (toJson p.envelope) = .ok message →
    verifyStrict cert.verifyingKey message p.signature = .ok () →
    ∃ j cargs conf ip k, procs j = (handleClient cargs).run ∧
      HasSigned cargs (h.events j) conf ip k message ∧ verifyingKey k = cert.verifyingKey

/-- **What a client has published a record as**: the client holds the key
of a certificate of its domain, and the record is of the address it was
told. -/
structure PublishedBy (procs : ι → Io (Result Unit)) (h : History ι Event) (j : ι)
    (cargs : ClientArgs) (conf : ConfigClient) (ip : IpAddr) : Prop where
  client : procs j = (handleClient cargs).run
  signs : ∃ k message, HasSigned cargs (h.events j) conf ip k message ∧
    ∃ i fuel args cert, procs i = (handleServer fuel args).run ∧
      LoadedCertificate args.keysSearchPath (h.events i) cert ∧
      cert.commonName = conf.domain.inner ∧ verifyingKey k = cert.verifyingKey

/-- **Records are published.** Where no signature is forged, a record is
what it was at the start, or what a client published: the address that
client was told, at the domain it was configured for, by a holder of the
key of a certificate of that domain. Nobody else writes a record, whatever
they put into the bucket. -/
theorem records_published (hparties : ∀ i, Party (procs i))
    (hi : Interleaving procs (Step tokenKey) w h w') (hunforged : Unforged procs h)
    (hv4 : Function.Injective ipv4Display) (hv6 : Function.Injective ipv6Display)
    (hcanon : FollowsRfc8785) (url : String) (k : RecordKey) :
    w'.records url k = w.records url k ∨ ∃ j cargs conf ip, PublishedBy procs h j cargs conf ip ∧
      recordKey (dnsObj conf ip).change = k ∧
      w'.records url k = some (recordValue (dnsObj conf ip).change) := by
  obtain ⟨actions, b, hrun, hT⟩ := exists_tracks hparties hi url
  rcases dueTo_of_tracks hrun hT k with heq | ⟨p, hdue⟩
  · exact Or.inl heq
  obtain ⟨i, fuel, args, cert, now, hproc, -, hvouched⟩ := hdue.inOrder
  obtain ⟨key, data, hget, hparse⟩ := hvouched.fetched
  obtain ⟨message, hmessage, hverified⟩ := hvouched.verified
  obtain ⟨j, cargs, conf, ip, sk, hclient, hsigned, hkey⟩ :=
    hunforged i fuel args cert key data p message hproc hvouched.loaded hget hparse hmessage
      hverified
  -- the envelope the server verified is the one the client signed
  obtain ⟨keyTrace, ipTrace, at', rest, -, -, -, hcanonical⟩ := hsigned.signed
  have henvelope := eq_of_canonicalize hv4 hv6 hcanon hvouched.dated
    (dated_timestamp (dnsObj conf ip) at') (hmessage.trans hcanonical.symm)
  have hpayload : p.envelope.payload = dnsObj conf ip := congrArg SignableEnvelope.payload henvelope
  have hname : cert.commonName = conf.domain.inner := by
    rw [hvouched.named, hpayload]
    rfl
  refine Or.inr ⟨j, cargs, conf, ip, ⟨hclient, sk, message, hsigned, i, fuel, args, cert, hproc,
    hvouched.loaded, hname, hkey⟩, ?_, ?_⟩
  · rw [← hpayload]
    exact hdue.key
  · rw [← hpayload]
    exact hdue.value

end

namespace Sample

/-- What the sample client publishes, and where. -/
theorem conf_eq (p : @Publication externals (clientArgs "d") putRun.1) :
    @Publication.conf externals _ _ p = clientConf "d" := by
  let := externals
  exact Except.ok.inj (p.parsed.symm.trans (parse_clientArgs "d"))

theorem putKey_eq (p : @Publication externals (clientArgs "d") putRun.1) :
    putKey (@Publication.conf externals _ _ p) (@Publication.ip externals _ _ p) = key := by
  rw [conf_eq p]
  show objectKey "d/augs.sarif.example.ddns.json" = key
  decide

/-- What the sample client puts is what the server fetches. -/
theorem content_eq (p : @Publication externals (clientArgs "d") putRun.1) :
    @Publication.content externals _ _ p = newerRequest := by
  let := externals
  have hworld := p.world_eq putRun_driven.world
  have hbytes := servedRun_shows.2.2.1
  rw [hworld, putKey_eq p, conf_eq p] at hbytes
  simpa [World.put, clientConf] using hbytes

/-- Only signatures of the sample key verify. -/
theorem key_of_verifyStrict {vk : VerifyingKey} {message : Bytes} {sig : Signature}
    (h : @verifyStrict externals vk message sig = .ok ()) : vk = publicKey := by
  by_contra hne
  have hfails : @verifyStrict externals vk message sig = .error _ := if_neg fun hand => hne hand.1
  cases hfails.symm.trans h

theorem unforged_servedHistory : @Unforged externals ℕ _ programs servedHistory := by
  let := externals
  intro i fuel args cert k data q message hproc hloaded hget hparse hmessage hverified
  obtain ⟨h₀, h₁, hnone⟩ := events_servedHistory
  obtain ⟨p⟩ := exec_handleClient (putRun_driven.exec putRun_ok) rfl
  obtain ⟨q', message', hparse', hmessage', hsigned⟩ :=
    p.hasSigned ofDotted?_dotted ofColons?_colons
  -- the one fetch of the history is of what the client put
  have hdata : data = newerRequest := by
    by_cases hi : i = 0
    · subst hi
      rw [h₀] at hget
      have hmem : (k, .ok data) ∈ gets servedRun.1 := List.mem_filterMap.mpr ⟨_, hget, rfl⟩
      rw [servedRun_shows.2.1] at hmem
      exact Except.ok.inj (Prod.mk.inj (List.mem_singleton.mp hmem)).2
    · by_cases hi' : i = 1
      · subst hi'
        rw [h₁] at hget
        have hkind := (putRun_driven.exec putRun_ok).admits.of_uses uses_handleClient
          _ hget
        simp [Op.kind] at hkind
      · rw [hnone i hi hi'] at hget
        cases hget
  rw [hdata, ← content_eq p, hparse'] at hparse
  obtain rfl := Except.ok.inj hparse
  obtain rfl := Except.ok.inj (hmessage.symm.trans hmessage')
  have hvk : cert.verifyingKey = publicKey := key_of_verifyStrict hverified
  refine ⟨1, clientArgs "d", p.conf, p.ip, p.signingKey, rfl, ?_, hvk.symm⟩
  rw [h₁]
  exact hsigned

end Sample

/-- The record of the sample history is what the client published. -/
theorem records_published_sample :
    letI := Sample.externals
    ∃ j cargs conf ip, PublishedBy Sample.programs Sample.servedHistory j cargs conf ip ∧
      Sample.servedRun.2.2.world.records (changeUrl "Z1") ("augs.sarif.example.", .a) =
        some (recordValue (dnsObj conf ip).change) := by
  let := Sample.externals
  rcases records_published Sample.party_programs Sample.servedHistory_interleaving
    Sample.unforged_servedHistory (injective_of_read Sample.ofDotted?_dotted)
    (injective_of_read Sample.ofColons?_colons) (fun _ _ => rfl) (changeUrl "Z1")
    ("augs.sarif.example.", .a) with heq | ⟨j, cargs, conf, ip, hpublished, -, hvalue⟩
  · have hsome := Sample.servedRun_shows.2.2.2
    rw [heq] at hsome
    cases hsome
  · exact ⟨j, cargs, conf, ip, hpublished, hvalue⟩

end DynDynser
