import DynDynser.Quiescence
/-!
# A publication reaches the zone

Client and server never speak to each other, and neither knows of the
others that use the bucket. A client that returned `Ok` need do nothing
more: the next server run that no failure cuts short submits its record,
whatever objects lie around it and whatever comes and goes while the server
lists and fetches (`publication_delivered`). It rests on nobody else
touching the client's object, and on the fetch of that one object.
-/

namespace DynDynser

open Text Interact Fallible World DynDynserServer Externals

section

variable [Externals] {fuel : ℕ} {args : ServerArgs} {cargs : ClientArgs} {tr : Trace}
variable {ι : Type} [DecidableEq ι] {h : History ι Event} {i j : ι}
variable {tokenKey : String → String} {w w' : World} {bucket key : String}

/-! ## An object left to the server -/

/-- **An object is left to `j`**: nobody else puts or deletes it. -/
structure LeftTo (h : History ι Event) (j : ι) (bucket key : String) : Prop where
  kept : ∀ i path ans, i ≠ j → objectKey path = key →
    (i, (⟨.deleteObject bucket path, ans⟩ : Event)) ∉ h
  unchanged : ∀ i path content contentType ans, i ≠ j → objectKey path = key →
    (i, (⟨.putObject bucket path content contentType, ans⟩ : Event)) ∉ h

omit [Externals] in
/-- In a history of its own nobody else does anything, -/
theorem not_mem_ofRun {t : Trace} {e : Event} (hi : i ≠ j) : (i, e) ∉ History.ofRun j t := by
  rw [← History.mem_events, History.events_ofRun_of_ne hi.symm]
  exact List.not_mem_nil

omit [Externals] in
/-- so every object is left to it. -/
theorem LeftTo.ofRun {t : Trace} : LeftTo (History.ofRun j t) j bucket key :=
  ⟨fun _ _ _ hi _ => not_mem_ofRun hi, fun _ _ _ _ _ hi _ => not_mem_ofRun hi⟩

omit [Externals] in
/-- **An object left to `j` is there at every step of it** that puts and
deletes nothing, whatever comes between. -/
theorem LeftTo.object_of_mem {before after : History ι Event} {m : World} {object : StoredObject}
    (hleft : LeftTo (before ++ after) j bucket key)
    (halong : Along (Step tokenKey) w (before.map Prod.snd) m)
    (hquiet : ∀ e ∈ before.events j, e.op.kind ∉ [Kind.put, .delete, .post])
    (hobject : w.objects bucket key = some object) {e : Event} (he : e ∈ before.events j) :
    ∃ a b, Step tokenKey a e b ∧ a.objects bucket key = some object := by
  rw [History.mem_events] at he
  refine (along_map.mp halong).step_of_mem_of
    (I := fun v => v.objects bucket key = some object) hobject ?_ he
  rintro ⟨i, e'⟩ he' a b hstep ha
  have hmem : (i, e') ∈ before ++ after := List.mem_append_left _ he'
  by_cases hi : i = j
  · subst hi
    rw [Step.eq_of_quiet hstep (hquiet e' (History.mem_events.mpr he'))]
    exact ha
  · rcases Step.object_cases hstep bucket key with heq | ⟨path, ans, rfl, hpath, -⟩ |
      ⟨path, content, contentType, ans, rfl, hpath, -⟩
    · rw [heq, ha]
    · exact absurd hmem (hleft.kept i path ans hi hpath)
    · exact absurd hmem (hleft.unchanged i path content contentType ans hi hpath)

/-- **A record is delivered** by `j`: it is in a batch that was acknowledged
for the zone, and the delete of its object has been attempted. -/
structure Delivered (h : History ι Event) (j : ι) (args : ServerArgs) (key : String)
    (r : ResourceRecordSet) : Prop where
  submitted : ∃ req resp, (j, (⟨.changeResourceRecordSets req, .ok resp⟩ : Event)) ∈ h ∧
    acknowledges ⟨.changeResourceRecordSets req, .ok resp⟩ = true ∧
    req.url = changeUrl args.hostedDnsZoneId ∧ r.change ∈ req.changes
  cleared : key ∈ deletes (h.events j)

/-- **A record is undisputed** where `j` submits it: nobody else posts to
the zone, and what `j` fetches that is about the same record says the same
of it. -/
structure Undisputed (h : History ι Event) (j : ι) (args : ServerArgs) (r : ResourceRecordSet) :
    Prop where
  zone : ∀ i req ans, i ≠ j → (i, (⟨.changeResourceRecordSets req, ans⟩ : Event)) ∈ h →
    req.url ≠ changeUrl args.hostedDnsZoneId
  agreed : ∀ key data (q : Request), (key, .ok data) ∈ gets (h.events j) → fromSlice data = .ok q →
    q.key = recordKey r.change → q.value = recordValue r.change

omit [Externals] in
/-- **A change that was submitted stays in force**, where the batch agrees
on it and no other batch for the zone comes after. -/
theorem record_of_submitted {req : ChangeRequest} {resp : Response String} {c : Change}
    (halong : Along (Step tokenKey) w (h.map Prod.snd) w')
    (hmem : (j, (⟨.changeResourceRecordSets req, .ok resp⟩ : Event)) ∈ h)
    (hsuccess : resp.isSuccess = true) (hposts : posts (h.events j) = [req])
    (hzone : ∀ i req' ans, i ≠ j → (i, (⟨.changeResourceRecordSets req', ans⟩ : Event)) ∈ h →
      req'.url ≠ req.url) (hc : c ∈ req.changes)
    (hagreed : ∀ c' ∈ req.changes, recordKey c' = recordKey c → recordValue c' = recordValue c) :
    w'.records req.url (recordKey c) = some (recordValue c) := by
  obtain ⟨before, after, rfl⟩ := List.append_of_mem hmem
  obtain ⟨m, -, hrest⟩ := along_append.mp (List.map_append ▸ halong)
  obtain ⟨m', hstep, hafter⟩ := along_cons.mp hrest
  have happlied : m'.records req.url (recordKey c) = some (recordValue c) := by
    have hworld : m' = if resp.isSuccess then m.apply req.url req.changes else m := hstep
    rw [hworld, if_pos hsuccess]
    unfold World.apply
    dsimp only
    rw [Function.update_self]
    exact Upsert.applyAll_of_agreed recordKey recordValue _ hc hagreed
  -- the one post of `j` is behind, and the others are for other zones
  have hnone : posts (History.events after j) = [] := by
    rw [History.events_append, History.events_cons_self, posts_append] at hposts
    have hlength := congrArg List.length hposts
    simp only [List.length_append, List.length_singleton] at hlength
    have hcons : posts (⟨.changeResourceRecordSets req, .ok resp⟩ :: History.events after j) =
        req :: posts (History.events after j) := rfl
    rw [hcons, List.length_cons] at hlength
    exact List.eq_nil_of_length_eq_zero (by omega)
  refine (along_map.mp hafter).invariant
    (I := fun v => v.records req.url (recordKey c) = some (recordValue c)) ?_ happlied
  rintro ⟨i, e⟩ he a b hnext ha
  rcases zone_cases hnext req.url with ⟨req', ans, rfl, hurl, -⟩ | ⟨heq, -⟩
  · by_cases hi : i = j
    · subst hi
      have hpost : req' ∈ posts (History.events after i) :=
        List.mem_filterMap.mpr ⟨_, History.mem_events.mpr he, rfl⟩
      rw [hnone] at hpost
      cases hpost
    · have hmem' : (i, (⟨.changeResourceRecordSets req', ans⟩ : Event)) ∈
          before ++ (j, ⟨.changeResourceRecordSets req, .ok resp⟩) :: after :=
        List.mem_append_right before (List.mem_cons_of_mem _ he)
      exact absurd hurl (hzone i req' ans hi hmem')
  · rw [heq, ha]

/-- A run that has posted the batch of its plan has posted nothing else. -/
theorem posts_of_stages {x : Exit × ServerErrors} {plan : Plan} {t₁ t₂ : Trace}
    (hdry : args.isDryRun = false) (hrun : (stages fuel args).run.Exec (t₁ ++ t₂) (.ok x))
    (hplan : (prepare fuel (ConfigServer.parse args)).run.Exec t₁ (.ok (some plan)))
    {headers : List (String × String)} {ans : Result (Response String)}
    (hpost : plan.postEvent headers ans ∈ t₁ ++ t₂) :
    posts (t₁ ++ t₂) = [commitRequest plan.server plan.changes headers] := by
  have hmem : commitRequest plan.server plan.changes headers ∈ posts (t₁ ++ t₂) :=
    List.mem_filterMap.mpr ⟨_, hpost, rfl⟩
  rw [posts_append, (quiet_prepare hplan.admits).1, List.nil_append] at hmem ⊢
  rcases posts_carryOut (carryOut_of_stages hdry hrun hplan) with hnone | ⟨headers', hone⟩
  · rw [hnone] at hmem
    cases hmem
  · rw [hone, List.mem_singleton] at hmem
    rw [hone, hmem]

/-- **A request left to a server is delivered** by a run of it that no
failure cuts short, and is in force at the end if it is undisputed. -/
theorem request_delivered {x : Exit × ServerErrors} (hdry : args.isDryRun = false)
    (halong : Along (Step tokenKey) w (h.map Prod.snd) w')
    (hrun : (stages fuel args).run.Exec (h.events j) (.ok x))
    {object : StoredObject} {p : SignedPayload ResourceRecordSet}
    (hobject : w.objects args.s3QueueBucket key = some object)
    (hparse : fromSlice object.bytes = .ok p) (hprocessed : Processed args.s3DdnsJsonDir key)
    (hreached : objectKey key = key)
    (hleft : LeftTo h j args.s3QueueBucket key)
    (hfetched : ∀ e, (key, .error e) ∉ gets (h.events j))
    (hacceptable : Acceptable args (h.events j) { signedPayload := p, s3Key := ⟨key⟩ }) :
    Delivered h j args key p.envelope.payload ∧
      (Undisputed h j args p.envelope.payload →
        w'.records (changeUrl args.hostedDnsZoneId) (recordKey p.envelope.payload.change) =
          some (recordValue p.envelope.payload.change)) := by
  obtain ⟨t, u, o, hsplit, hprepare, hgets⟩ := prepare_of_stages hdry hrun
  obtain ⟨before, after, rfl, hbefore, -⟩ := History.exists_split hsplit
  -- up to the plan the object is there
  obtain ⟨m, hm, -⟩ := along_append.mp (List.map_append ▸ halong)
  have hsteps : ∀ e ∈ t, ∃ a b, Step tokenKey a e b ∧
      a.objects args.s3QueueBucket key = some object := fun e he =>
    hleft.object_of_mem hm (fun x hx => quiet_of_prepare hprepare.admits x (hbefore ▸ hx)) hobject
      (by rwa [hbefore])
  have hu : ({ signedPayload := p, s3Key := ⟨key⟩ } : UnverifiedDdnsRequest) ∈
      requestsOf (gets ((before ++ after).events j)) := by
    rw [hsplit, gets_append, hgets, List.append_nil]
    have hthere : ∀ e ∈ t, ∃ a b, Step tokenKey a e b ∧
        (a.objects args.s3QueueBucket key).isSome ∧
        a.objects args.s3QueueBucket (objectKey key) = some object := by
      intro e he
      obtain ⟨a, b, hstep, ha⟩ := hsteps e he
      rw [hreached]
      exact ⟨a, b, hstep, Option.isSome_iff_exists.mpr ⟨object, ha⟩, ha⟩
    refine mem_requestsOf_of_steps hprepare hthere hprocessed.1 hprocessed.2
      (fun e hget => hfetched e ?_) hparse
    rw [hsplit, gets_append]
    exact List.mem_append_left _ hget
  obtain ⟨-, plan, t₁, pre, headers, resp, answers, hevents, hplan, hack, hkeys, hv⟩ :=
    plan_of_acceptable hdry hrun hu hacceptable
  obtain ⟨q⟩ := exec_prepare hplan
  -- the batch was posted to the zone, and has the change
  have hurl : (commitRequest plan.server plan.changes headers).url =
      changeUrl args.hostedDnsZoneId := congrArg changeUrl q.zone_eq
  have hpost : (j, plan.postEvent headers (.ok resp)) ∈ before ++ after := by
    rw [← History.mem_events, hevents]
    exact List.mem_append_right _ (List.mem_append_right _ List.mem_cons_self)
  have hchange : p.envelope.payload.change ∈ plan.changes := Plan.change_mem hv
  refine ⟨⟨⟨_, resp, hpost, hack, hurl, hchange⟩, ?_⟩, fun hundisputed => ?_⟩
  · have hkey := Plan.mem_deleteKeys hv
    rw [← hkeys] at hkey
    obtain ⟨⟨k, answer⟩, hanswer, heq⟩ := List.mem_map.mp hkey
    obtain rfl : k = ⟨key⟩ := heq
    refine mem_deletes.mpr ⟨plan.server.conf.s3QueueBucket, answer, ?_⟩
    rw [hevents]
    exact List.mem_append_right _ (List.mem_append_right _ (List.mem_cons_of_mem _
      (List.mem_cons_of_mem _ (List.mem_map.mpr ⟨_, hanswer, rfl⟩))))
  · have hsuccess : resp.isSuccess = true := (Bool.and_eq_true_iff.mp hack).1
    have hposts : posts ((before ++ after).events j) =
        [commitRequest plan.server plan.changes headers] := by
      have hpost' := History.mem_events.mpr hpost
      rw [hevents] at hrun hpost' ⊢
      exact posts_of_stages hdry hrun hplan hpost'
    rw [← hurl]
    refine record_of_submitted halong hpost hsuccess hposts (fun i req ans hi hmem => ?_) hchange
      fun c hc hkey => ?_
    · rw [hurl]
      exact hundisputed.zone i req ans hi hmem
    · -- whatever is in the batch was fetched
      obtain ⟨batch, hbatch, haccepted⟩ := q.exists_batch
      have hmem : c ∈ plan.changes := hc
      rw [← hbatch] at hmem
      obtain ⟨r, hr, rfl⟩ := List.mem_map.mp hmem
      obtain ⟨check, hcheck, v, -, rfl⟩ := haccepted r hr
      obtain ⟨data, hget, hread⟩ := q.fetched hcheck
      refine hundisputed.agreed check.request.s3Key.key data _ ?_ hread hkey
      rw [hevents, gets_append]
      exact List.mem_append_left _ hget

/-! ## A client's record -/

/-- The first certificate of a name that a run has loaded has that key. -/
def Certified (args : ServerArgs) (tr : Trace) (name : String) (vk : VerifyingKey) : Prop :=
  ∀ certs, Loaded args tr certs →
    ∃ cert, certs.find? (fun x => x.commonName = name) = some cert ∧ cert.verifyingKey = vk

/-- A server's run reads the clock in time for what was signed in a
client's. -/
def InTime (args : ServerArgs) (signed read : Trace) : Prop :=
  ∀ signedAt ∈ clocks signed,
    signedAt.time.timestamp + args.maxTimeAgoSignedAtSecs.toNat + 15 ≤ maxSecs ∧
    ∀ now ∈ clocks read, now.time.nanos ≤
      (signedAt.time.timestamp + args.maxTimeAgoSignedAtSecs.toNat + 15) * nanosPerSec

omit [DecidableEq ι] in
/-- A request that verifies is accepted by a check before its deadline. -/
theorem verdict_of_verifies {certs : List CertMatch} {maxTimeAgo : TimeDelta} {insecure : Bool}
    {c : Checked certs maxTimeAgo insecure} {d : DateTime} (hsecure : insecure = false)
    (hverifies : Verifies c.request certs)
    (hd : deadline c.request.signedPayload.envelope.signedAtUnixSecs maxTimeAgo = some d)
    (hpast : ∃ now : Instant, now.time.nanos ≤ d.nanos)
    (hclock : ∀ now ∈ clocks c.events, now.time.nanos ≤ d.nanos) :
    c.verdict = .ok c.request.verified := by
  subst hsecure
  obtain ⟨cert, hfind, hsig⟩ := hverifies
  have haccepts : ∀ now : Instant, now.time.nanos ≤ d.nanos →
      (checkValidDdnsRequest c.request certs maxTimeAgo false).run.Exec [⟨.utcNow, now⟩]
        (.ok c.request.verified) := fun now hle =>
    exec_check_secure.mpr ⟨cert, d, now, hfind, hsig, hd, rfl, hle, rfl⟩
  have hrun := c.run
  rcases check_events hrun with hnone | ⟨now, hread⟩
  · -- it would have read the clock
    obtain ⟨now, hle⟩ := hpast
    rw [hnone] at hrun
    have heq : [] ++ [(⟨.utcNow, now⟩ : Event)] = [⟨.utcNow, now⟩] ++ [] := rfl
    exact (hrun.unique (haccepts now hle) heq).2.1
  · rw [hread] at hrun hclock
    have heq : [(⟨.utcNow, now⟩ : Event)] ++ [] = [⟨.utcNow, now⟩] ++ [] := rfl
    exact (hrun.unique (haccepts now (hclock now (List.mem_singleton_self now))) heq).2.1

/-- Where signatures are not checked, every request is accepted. -/
theorem verdict_of_insecure {certs : List CertMatch} {maxTimeAgo : TimeDelta} {insecure : Bool}
    {c : Checked certs maxTimeAgo insecure} (hskip : insecure = true) :
    c.verdict = .ok c.request.verified := by
  subst hskip
  have hrun := c.run
  unfold checkValidDdnsRequest at hrun
  obtain ⟨_, hkey, -⟩ | ⟨vk, t₁, t₂, -, -, hvalidate⟩ := Fallible.exec_bind.mp hrun
  · cases (exec_ofResult.mp hkey).2
  · obtain ⟨r, hvalidate, heq⟩ := exec_context.mp hvalidate
    obtain ⟨-, rfl⟩ := exec_validate_insecure.mp hvalidate
    exact heq.symm

/-- **What a client has published is acceptable** to a server that has a
certificate of its key for the domain, and reads the clock in time. -/
theorem Publication.acceptable {t : Trace} (p : Publication cargs t)
    (hv4 : ∀ a, ipv4FromStr (ipv4Display a) = some a)
    (hv6 : ∀ a, ipv6FromStr (ipv6Display a) = some a)
    (hverify : ∀ msg sig, trySign p.signingKey msg = .ok sig →
      verifyStrict (verifyingKey p.signingKey) msg sig = .ok ())
    (hcertified : args.insecureSkipVerify = true ∨
      Certified args tr p.conf.domain.inner (verifyingKey p.signingKey))
    (hclock : InTime args t tr) :
    ∃ q : SignedPayload ResourceRecordSet, fromSlice p.content = .ok q ∧
      q.envelope.payload = dnsObj p.conf p.ip ∧
      ∀ key, Acceptable args tr { signedPayload := q, s3Key := ⟨key⟩ } := by
  obtain ⟨signedAt, q, canonical, hts, hread, henvelope, hcanonical, hsig⟩ := p.stored hv4 hv6
  refine ⟨q, hread, by rw [henvelope], fun key certs hloaded => ?_⟩
  by_cases hskip : args.insecureSkipVerify = true
  · exact ⟨Or.inl hskip, fun c _ _ => ⟨_, verdict_of_insecure hskip⟩⟩
  obtain ⟨cert, hfind, hkey⟩ := hcertified.resolve_left hskip certs hloaded
  refine ⟨Or.inr (List.ne_nil_of_mem (List.mem_of_find?_eq_some hfind)),
    fun c hrequest hstretch => ?_⟩
  -- the certificate verifies it, and there is room for its deadline
  have hname : q.envelope.payload.name = p.conf.domain.inner := by
    rw [henvelope]
    rfl
  have hverifies : Verifies c.request certs := by
    refine ⟨cert, by rw [hrequest, hname, hfind], ?_⟩
    rw [hrequest, hkey]
    exact verifySignature_eq_ok.mpr ⟨canonical, hcanonical, hverify _ _ hsig⟩
  have hstamp : q.envelope.signedAtUnixSecs.toInt = signedAt.time.timestamp := by
    rw [henvelope]
    exact toInt_timestamp signedAt
  obtain ⟨hroom, hnow⟩ := hclock signedAt (p.signedAt_mem hts)
  obtain ⟨d, hd⟩ : ∃ d, deadline q.envelope.signedAtUnixSecs
      (TimeDelta.seconds args.maxTimeAgoSignedAtSecs.toNat) = some d := by
    refine exists_deadline ?_ ?_ <;> rw [hstamp]
    · exact timestamp_nonneg signedAt
    · exact hroom
  have hnanos := nanos_deadline_seconds hd
  rw [hstamp] at hnanos
  refine ⟨_, verdict_of_verifies ((Bool.not_eq_true _).mp hskip) hverifies (d := d)
    (by rw [hrequest]; exact hd) ⟨signedAt, ?_⟩ fun now hread => ?_⟩
  · rw [hnanos]
    have hage : (0 : ℤ) ≤ args.maxTimeAgoSignedAtSecs.toNat := Int.natCast_nonneg _
    unfold DateTime.timestamp
    simp only [nanosPerSec]
    omega
  · rw [hnanos]
    obtain ⟨e, he, hclk⟩ := List.mem_filterMap.mp hread
    exact hnow now (List.mem_filterMap.mpr ⟨e, hstretch e he, hclk⟩)

/-- **Nothing stands between a publication and a server**: the server looks
where the record was put, and a get of the key reaches it; it has a
certificate of the key it was signed with for its domain, reads the clock
in time, is left the object, and does not fail to fetch it. -/
structure Unhindered {t : Trace} (args : ServerArgs) (h : History ι Event) (j : ι)
    (p : Publication cargs t) : Prop where
  bucket : args.s3QueueBucket = p.conf.s3QueueBucket
  processed : Processed args.s3DdnsJsonDir (putKey p.conf p.ip)
  reached : objectKey (putKey p.conf p.ip) = putKey p.conf p.ip
  certified : args.insecureSkipVerify = true ∨
    Certified args (h.events j) p.conf.domain.inner (verifyingKey p.signingKey)
  inTime : InTime args t (h.events j)
  left : LeftTo h j args.s3QueueBucket (putKey p.conf p.ip)
  fetched : ∀ e, (putKey p.conf p.ip, .error e) ∉ gets (h.events j)

/-- **A publication is delivered.** A client that returned `Ok` has put its
record, and need do nothing more. If nothing stands between it and a
server, a run of the server after the put that no failure cuts short
submits the record and clears the object away: whatever else lies in the
bucket, whatever the other clients and servers do, and however their calls
lie between its own. And where the record is undisputed, the zone ends with
the address that the client was told. -/
theorem publication_delivered {x : Exit × ServerErrors} {before after : History ι Event}
    {put : Event} (halong : Along (Step tokenKey) w ((before ++ (i, put) :: after).map Prod.snd) w')
    (hput : put.op.kind = .put) (hcdry : cargs.isDryRun = false)
    (hclient : (handleClient cargs).run.Exec ((before ++ (i, put) :: after).events i) (.ok ()))
    (hdry : args.isDryRun = false)
    (hserver : (stages fuel args).run.Exec (after.events j) (.ok x))
    (hv4 : ∀ a, ipv4FromStr (ipv4Display a) = some a)
    (hv6 : ∀ a, ipv6FromStr (ipv6Display a) = some a)
    (hverify : ∀ k msg sig, trySign k msg = .ok sig →
      verifyStrict (verifyingKey k) msg sig = .ok ()) :
    Nonempty (Publication cargs ((before ++ (i, put) :: after).events i)) ∧
      ∀ p : Publication cargs ((before ++ (i, put) :: after).events i),
        Unhindered args after j p →
          Delivered after j args (putKey p.conf p.ip) (dnsObj p.conf p.ip) ∧
            (Undisputed after j args (dnsObj p.conf p.ip) →
              w'.records (changeUrl args.hostedDnsZoneId) (recordKey (dnsObj p.conf p.ip).change) =
                some (recordValue (dnsObj p.conf p.ip).change)) := by
  refine ⟨exec_handleClient hclient hcdry, fun p hfree => ?_⟩
  -- the put is the one the client's run ends with
  have hmem : put ∈ (before ++ (i, put) :: after).events i :=
    History.mem_events.mpr (List.mem_append_right _ List.mem_cons_self)
  rw [p.trace_eq] at hmem
  have hevent : put = ⟨.putObject p.conf.s3QueueBucket (ddnsJsonPath p.conf (dnsObj p.conf p.ip))
      p.content "application/json", .ok 200⟩ := by
    rcases List.mem_append.mp hmem with hmem | hmem
    · exact absurd (by simp [hput]) (p.quiet put hmem)
    · exact List.mem_singleton.mp hmem
  obtain ⟨m, -, hrest⟩ := along_append.mp (List.map_append ▸ halong)
  obtain ⟨m', hstep, hafter⟩ := along_cons.mp hrest
  obtain ⟨q, hparse, hpayload, hacceptable⟩ :=
    p.acceptable hv4 hv6 (hverify p.signingKey) hfree.certified hfree.inTime
  have hobject : m'.objects args.s3QueueBucket (putKey p.conf p.ip) =
      some ⟨m.nextVersion, p.content⟩ := by
    rw [hfree.bucket]
    have hput' : Step tokenKey m put m' := hstep
    rw [hevent] at hput'
    rcases hput' with rfl | ⟨-, hrefused⟩
    · simp [World.put, putKey]
    · exact absurd rfl hrefused
  rw [← hpayload]
  exact request_delivered hdry hafter hserver hobject hparse hfree.processed hfree.reached
    hfree.left hfree.fetched (hacceptable _)

end

namespace Sample

/-- Whenever a host is asked for a file, it answers the same. -/
theorem sameFiles_drive {α : Type} {host : Host} {p : Io α} {s : Services} :
    SameFiles (p.drive (Services.answer host) s).1 (p.drive (Services.answer host) s).1 := by
  intro o x y hk hx hy
  obtain ⟨s₁, rfl⟩ := Prog.ans_of_mem_drive hx
  obtain ⟨s₂, rfl⟩ := Prog.ans_of_mem_drive hy
  cases o <;> first | rfl | cases hk

theorem inTime_served : InTime serverArgs putRun.1 servedRun.1 := by
  intro signedAt hsigned
  have hnanos := eq_of_beq (List.all_eq_true.mp served_shows.2.2.1 signedAt hsigned)
  unfold DateTime.timestamp
  rw [hnanos]
  refine ⟨by decide, fun now hnow => ?_⟩
  rw [eq_of_beq (List.all_eq_true.mp served_shows.2.2.2 now hnow)]
  decide

/-- The server has accepted the client's request, so it has its
certificate. -/
theorem certified_served :
    @Certified externals serverArgs servedRun.1 "augs.sarif.example" publicKey := by
  let := externals
  rintro certs ⟨credentials, errors, st, t, hsub, rfl, hexec⟩
  have hsame : SameFiles servedRun.1 servedRun.1 := by
    unfold servedRun
    exact sameFiles_drive
  have hserver := servedRun_driven.exec servedRun_shows.1
  rcases admits_handleServer hserver.admits with ⟨hposts, -⟩ | ⟨-, plan, t₁, t₂, heq, hplan, -⟩
  · have hposted := served_shows.2.1
    rw [hposts] at hposted
    cases hposted
  obtain ⟨p⟩ := exec_prepare hplan
  obtain ⟨v, hv⟩ := List.exists_mem_of_ne_nil _ (verified_ne_nil hplan)
  obtain ⟨c, hc, hverdict⟩ := p.mem_verified hv
  obtain ⟨data, hget, hparse⟩ := p.fetched hc
  have hdata : (c.request.s3Key.key, .ok data) ∈ gets servedRun.1 :=
    by rw [heq, gets_append]; exact List.mem_append_left _ hget
  rw [servedRun_shows.2.1] at hdata
  have hnewer : data = newerRequest :=
    Except.ok.inj (Prod.mk.inj (List.mem_singleton.mp hdata)).2
  have hreads := newerRequest_reads
  rw [← hnewer, hparse] at hreads
  have hname := (Prod.mk.inj (Prod.mk.inj (Option.some.inj hreads)).2).2
  obtain ⟨cert, -, -, hfind, hsig, -⟩ := exec_check_secure.mp (c.run_secure rfl hverdict)
  obtain ⟨message, -, hverified⟩ := verifySignature_eq_ok.mp hsig
  have hcerts : st.1 = p.certs := by
    refine domainCertificates_eq rfl hexec p.certificatesRun fun o x y hk hx hy =>
      hsame o x y hk (hsub _ hx) ?_
    rw [heq, p.events]
    simp [hy]
  refine ⟨cert, ?_, key_of_verifyStrict hverified⟩
  rw [hcerts, ← hname]
  exact hfind

end Sample

/-- The record of the sample client is delivered by the server's run after
it, and is in its zone then. -/
theorem publication_delivered_sample :
    letI := Sample.externals
    ∃ p : Publication (Sample.clientArgs "d") Sample.putRun.1,
      Delivered (History.ofRun 0 Sample.servedRun.1) 0 Sample.serverArgs Sample.key
        (dnsObj p.conf p.ip) ∧
      Sample.servedRun.2.2.world.records (changeUrl "Z1") (recordKey (dnsObj p.conf p.ip).change) =
        some (recordValue (dnsObj p.conf p.ip).change) := by
  let := Sample.externals
  have hclient := Sample.putRun_driven.exec Sample.putRun_ok
  obtain ⟨p⟩ := exec_handleClient hclient rfl
  -- the put is the last event of the client
  obtain ⟨first, put, hlast, hkind⟩ : ∃ first put, Sample.putRun.1 = first ++ [put] ∧
      put.op.kind = .put := ⟨_, _, p.trace_eq, rfl⟩
  have hhistory : Sample.servedHistory =
      History.ofRun 1 first ++ (1, put) :: History.ofRun 0 Sample.servedRun.1 := by
    unfold Sample.servedHistory
    rw [hlast]
    simp [History.ofRun]
  have hevents := Sample.events_servedHistory.2.1
  have hworld := Sample.servedHistory_interleaving.along
  rw [hhistory] at hevents hworld
  have hstages : ∃ x, (stages 1 Sample.serverArgs).run.Exec
      ((History.ofRun 0 Sample.servedRun.1).events 0) (.ok x) := by
    have hserver := Sample.servedRun_driven.exec Sample.servedRun_shows.1
    rw [handleServer_eq_stages] at hserver
    obtain ⟨x, t, t', heq, h₁, h₂⟩ := exec_bind_ok.mp hserver
    obtain ⟨rfl, -⟩ := exec_ofResult.mp h₂
    rw [History.events_ofRun_self, heq, List.append_nil]
    exact ⟨x, h₁⟩
  obtain ⟨x, hserver⟩ := hstages
  obtain ⟨-, hdelivered⟩ := publication_delivered hworld hkind rfl
    (by rw [hevents]; exact hclient) rfl hserver Sample.ofDotted?_dotted Sample.ofColons?_colons
    (fun _ => Sample.verifyStrict_of_trySign)
  rw [hevents] at hdelivered
  refine ⟨p, ?_⟩
  have hfree : Unhindered Sample.serverArgs (History.ofRun 0 Sample.servedRun.1) 0 p := {
    bucket := by rw [Sample.conf_eq p]; rfl
    processed := by
      rw [Sample.putKey_eq p]
      exact ⟨by decide, by decide⟩
    reached := by
      rw [Sample.putKey_eq p]
      decide
    certified := by
      refine Or.inr ?_
      rw [Sample.conf_eq p, History.events_ofRun_self]
      exact Sample.certified_served
    inTime := by
      rw [History.events_ofRun_self]
      exact Sample.inTime_served
    left := LeftTo.ofRun
    fetched := fun e he => by
      rw [Sample.putKey_eq p, History.events_ofRun_self, Sample.servedRun_shows.2.1,
        List.mem_singleton] at he
      cases he }
  have hzone : changeUrl "Z1" = changeUrl Sample.serverArgs.hostedDnsZoneId := rfl
  rw [← Sample.putKey_eq p, hzone]
  refine ⟨(hdelivered p hfree).1, (hdelivered p hfree).2 ⟨fun i req ans hi hmem => ?_, ?_⟩⟩
  · exact absurd hmem (not_mem_ofRun hi)
  · -- the one request that was fetched is the client's own
    intro k data q hget hread hkey
    rw [History.events_ofRun_self, Sample.servedRun_shows.2.1] at hget
    have hdata : data = Sample.newerRequest :=
      Except.ok.inj (Prod.mk.inj (List.mem_singleton.mp hget)).2
    obtain ⟨_, q', _, -, hread', henvelope, -⟩ :=
      p.stored Sample.ofDotted?_dotted Sample.ofColons?_colons
    rw [hdata, ← Sample.content_eq p, hread'] at hread
    obtain rfl := Except.ok.inj hread
    unfold Request.value
    rw [henvelope]

end DynDynser
