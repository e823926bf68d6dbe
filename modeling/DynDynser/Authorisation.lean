import DynDynser.Helpers.Services
import DynDynser.Helpers.Stages
/-!
# Who may change what

A server that checks signatures submits a change only for a signed request
it fetched: signed under a certificate of the name it changes, and not
older than the server allows. The argument follows a change back through
the plan to the check that accepted it, and from there to the answer the
request was read from.
-/

namespace DynDynser

open Text Interact Externals

variable [Externals] {fuel : ℕ} {args : ServerArgs} {tr : Trace}

/-- **What stands behind a change**: the object it came from, and the
certificate it was signed under. -/
structure AuthorisedBy (args : ServerArgs) (tr : Trace) (key : String)
    (p : SignedPayload ResourceRecordSet) (cert : CertMatch) (change : Change) : Prop where
  listed : key ∈ listed tr
  suffix : endsWith key ddnsJsonFileExt = true
  fetched : ∃ data, (key, .ok data) ∈ gets tr ∧ fromSlice data = .ok p
  loaded : LoadedCertificate args.keysSearchPath tr cert
  named : cert.commonName = p.envelope.payload.name
  verified : ∃ canonical, canonicalize (toJson p.envelope) = .ok canonical ∧
    verifyStrict cert.verifyingKey canonical p.signature = .ok ()
  /-- The check of this object read the clock, in time. -/
  fresh : ∃ before now after certs, tr = before ++ ⟨.utcNow, now⟩ :: after ∧
    (checkValidDdnsRequest ⟨p, ⟨key⟩⟩ certs (TimeDelta.seconds args.maxTimeAgoSignedAtSecs.toNat)
      false).run.Exec [⟨.utcNow, now⟩] (.ok ⟨p.envelope.payload, ⟨key⟩⟩) ∧
    now.time.nanos ≤
      (p.envelope.signedAtUnixSecs.toInt + args.maxTimeAgoSignedAtSecs.toNat + 15) * nanosPerSec
  change_eq : change = {
    action := .upsert
    recordSet := {
      name := if endsWith p.envelope.payload.name "." then p.envelope.payload.name
        else p.envelope.payload.name.push '.'
      ttl := p.envelope.payload.ttl
      data := p.envelope.payload.data } }

omit [Externals] in
/-- A change of a plan is built from an accepted request. -/
theorem mem_buildChanges {vs : List VerifiedDdnsRequest} {change : Change}
    (h : change ∈ DynDynserServer.buildChanges vs) :
    ∃ v ∈ vs, change = {
      action := .upsert
      recordSet := {
        name := DynDynserServer.fixedName v.resourceRecord.name
        ttl := v.resourceRecord.ttl
        data := v.resourceRecord.data } } := by
  obtain ⟨v, hv, rfl⟩ := List.mem_map.1 h
  refine ⟨v, hv, ?_⟩
  cases v.resourceRecord.data.recordType <;> rfl

variable {plan : Plan} {change : Change}

/-- **A change of a plan is authorised**, where signatures are checked. -/
theorem Preparation.authorised (p : Preparation fuel (ConfigServer.parse args) tr plan)
    (hsecure : args.insecureSkipVerify = false) (hchange : change ∈ plan.changes) :
    ∃ key payload cert, AuthorisedBy args tr key payload cert change := by
  have hmode : (ConfigServer.parse args).insecureSkipVerify = false := hsecure
  obtain ⟨v, hv, hchange⟩ := mem_buildChanges hchange
  obtain ⟨c, hc, hverdict⟩ := p.mem_verified hv
  -- the check that accepted the request, and the answer the request was read from
  have hrun := Checked.run_secure hmode hverdict
  obtain ⟨cert, d, now, hfind, hsig, hd, hevents, hle, rfl⟩ := exec_check_secure.1 hrun
  obtain ⟨data, hget, hparse⟩ := p.fetched hc
  obtain ⟨hlisted, hext⟩ := p.eligible_of_get hget
  refine ⟨c.request.s3Key.key, c.request.signedPayload, cert, hlisted, hext,
    ⟨data, hget, hparse⟩, p.loaded hmode (List.mem_of_find?_eq_some hfind), ?_,
    verifySignature_eq_ok.1 hsig, ?_, hchange⟩
  · simpa using List.find?_some hfind
  · obtain ⟨before, after, hsplit⟩ := p.events_of_check hc
    rw [hevents] at hsplit hrun
    refine ⟨before, now, after, p.certs, hsplit, hrun, ?_⟩
    rw [nanos_of_deadline hd] at hle
    refine hle.trans (le_of_eq ?_)
    change _ + _ * nanosPerSec + _ = _
    ring

/-- **Authorisation.** In every run of a server that checks signatures,
every change of every batch it submits is authorised by a certificate of
its name. -/
theorem handleServer_authorised (hsecure : args.insecureSkipVerify = false)
    (hrun : (handleServer fuel args).run.Admits tr) {req : ChangeRequest} (hpost : req ∈ posts tr)
    (hchange : change ∈ req.changes) :
    ∃ key p cert, AuthorisedBy args tr key p cert change := by
  obtain ⟨plan, t₁, t₂, headers, rfl, hprepare, rfl⟩ := mem_posts hrun hpost
  obtain ⟨p⟩ := exec_prepare hprepare
  obtain ⟨key, payload, cert, h⟩ := p.authorised hsecure hchange
  refine ⟨key, payload, cert, { h with listed := ?_, fetched := ?_, loaded := ?_, fresh := ?_ }⟩
  · rw [listed_append]
    exact List.mem_append_left _ h.listed
  · obtain ⟨data, hget, hparse⟩ := h.fetched
    exact ⟨data, by rw [gets_append]; exact List.mem_append_left _ hget, hparse⟩
  · obtain ⟨entries, entry, content, hdir, hentry, hfile, hread, hload⟩ := h.loaded
    exact ⟨entries, entry, content, List.mem_append_left _ hdir, hentry, hfile,
      List.mem_append_left _ hread, hload⟩
  · obtain ⟨before, now, after, certs, rfl, hcheck, hle⟩ := h.fresh
    exact ⟨before, now, after ++ t₂, certs, by simp, hcheck, hle⟩

omit [Externals] in
/-- In the sample run, the change of the test domain is authorised. -/
theorem handleServer_authorised_mixed :
    ∃ key p cert, @AuthorisedBy Sample.externals Sample.serverArgs Sample.mixedRun.1 key p cert
      Sample.change := by
  have hposts := Sample.mixedRun_shows.2.2.2.1
  obtain ⟨req, _, hreq, hchanges, -⟩ := List.map_eq_cons_iff.1 hposts
  let := Sample.externals
  have hrun := (Sample.mixedRun_driven.exec Sample.mixedRun_shows.1).admits
  refine handleServer_authorised rfl hrun (hreq ▸ List.mem_cons_self) ?_
  rw [hchanges]
  exact List.mem_cons_self

end DynDynser
