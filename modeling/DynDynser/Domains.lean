import DynDynser.Helpers.Names
import DynDynser.Helpers.Publish
import DynDynser.Signing
import DynDynser.Trust
/-!
# The domains a server serves

A client accepts a domain in either case and with or without a dot at its
end. It signs the name in lower case and keeps the dot; the server
compares that name with the common name of a certificate character by
character, and the object is stored under that name. So a certificate
serves the domain in the one spelling it has itself
(`served_iff`). The record in Route53 is the same for every spelling.
-/

namespace DynDynser

open Text Interact Fallible Externals

section

variable [Externals] {args : ClientArgs} {tr : Trace}

/-- **What a client has put is read back**: the record signed with its key,
at the second its clock showed. -/
theorem Publication.stored (p : Publication args tr)
    (hv4 : ∀ a, ipv4FromStr (ipv4Display a) = some a)
    (hv6 : ∀ a, ipv6FromStr (ipv6Display a) = some a) :
    ∃ (signedAt : Instant) (q : SignedPayload ResourceRecordSet) (canonical : Bytes),
      p.signTrace = [⟨.utcNow, signedAt⟩] ∧ fromSlice p.content = .ok q ∧
      q.envelope = ⟨dnsObj p.conf p.ip, Int64.ofInt signedAt.time.timestamp⟩ ∧
      canonicalize (toJson q.envelope) = .ok canonical ∧
      trySign p.signingKey canonical = .ok q.signature := by
  obtain ⟨signedAt, canonical, signature, hts, hcanonical, hsig, hbytes⟩ := exec_sign.mp p.signRun
  have := lawfulSerde_resourceRecordSet hv4 hv6
  refine ⟨signedAt, ⟨⟨dnsObj p.conf p.ip, Int64.ofInt signedAt.time.timestamp⟩, signature⟩,
    canonical, hts, ?_, rfl, hcanonical, hsig⟩
  rw [hbytes]
  exact fromSlice_pretty _

/-- The second it was signed at is read in the run. -/
theorem Publication.signedAt_mem (p : Publication args tr) {signedAt : Instant}
    (h : p.signTrace = [⟨.utcNow, signedAt⟩]) : signedAt ∈ clocks tr := by
  rw [p.trace_eq, h]
  simp [clocks, clock?]

/-- **A domain is served** by a certificate: the client's request for it is
accepted with that certificate alone; and a client that spells the domain
as `conf'` does writes the same object and the same record. -/
structure Served (conf conf' : ConfigClient) (u : UnverifiedDdnsRequest) (cert : CertMatch)
    (maxAge : UInt32) (now : Instant) : Prop where
  accepted : AcceptedAt u [cert] maxAge now
  sameKey : ∀ ip ip', putKey conf' ip' = putKey conf ip
  sameName : ∀ ip ip', DynDynserServer.fixedName (dnsObj conf' ip').name =
    DynDynserServer.fixedName (dnsObj conf ip).name

variable {conf conf' : ConfigClient} {u : UnverifiedDdnsRequest} {cert : CertMatch}
variable {maxAge : UInt32} {now : Instant}

/-- One certificate that verifies a fresh request accepts it where it has
its name. -/
theorem acceptedAt_singleton (hsigns : Signs u cert) (hfresh : Fresh u maxAge now) :
    AcceptedAt u [cert] maxAge now ↔
      cert.commonName = u.signedPayload.envelope.payload.name := by
  constructor
  · intro h
    obtain ⟨⟨found, hfind, -⟩, -⟩ := acceptedAt_iff_find.mp h
    have hmem := List.mem_of_find?_eq_some hfind
    have hname := List.find?_some hfind
    rw [List.mem_singleton.mp hmem] at hname
    simpa [named] using hname
  · intro h
    refine acceptedAt_iff_find.mpr ⟨⟨cert, ?_, hsigns⟩, hfresh⟩
    exact List.find?_cons_of_pos (by simp [named, h])

omit [Externals] in
/-- Spellings of one domain are one name in Route53. -/
theorem fixedName_eq {s s' : String} {d d' : DomainName} (h : DomainName.parse s = .ok d)
    (h' : DomainName.parse s' = .ok d') (hsame : domainOf s = domainOf s') :
    DynDynserServer.fixedName d.inner = DynDynserServer.fixedName d'.inner := by
  refine String.toList_injective ?_
  rw [fixedName_toList, fixedName_toList, (DomainName.parse_eq_ok h).1,
    (DomainName.parse_eq_ok h').1, strip_spelled_eq h h' hsame]

/-- **A domain is served in the certificate's spelling.** Take a client's
run for a domain, a certificate with the key it signed with whose common
name is a name of that domain, another accepted spelling of the domain,
and a server that looks at the request before its deadline. The domain is
served exactly where the common name is the domain as it was given,
trimmed and in lower case, and both spellings end with a dot or neither
does. -/
theorem served_iff (hv4 : ∀ a, ipv4FromStr (ipv4Display a) = some a)
    (hv6 : ∀ a, ipv6FromStr (ipv6Display a) = some a)
    (hverify : ∀ k msg sig, trySign k msg = .ok sig → verifyStrict (verifyingKey k) msg sig = .ok ())
    (hrun : (handleClient args).run.Exec tr (.ok ())) (hdry : args.isDryRun = false) :
    ∃ (p : Publication args tr) (signedAt : Instant) (q : SignedPayload ResourceRecordSet),
      p.signTrace = [⟨.utcNow, signedAt⟩] ∧ fromSlice p.content = .ok q ∧
      q.envelope = ⟨dnsObj p.conf p.ip, Int64.ofInt signedAt.time.timestamp⟩ ∧
      ∀ (cert : CertMatch) (spelling : String) (conf' : ConfigClient) (maxAge : UInt32)
        (now : Instant) (s3Key : S3Key), cert.verifyingKey = verifyingKey p.signingKey →
        domainOf cert.commonName = domainOf args.domainToUpdate →
        domainOf spelling = domainOf args.domainToUpdate →
        ConfigClient.parse { args with domainToUpdate := spelling } = .ok conf' →
        Fresh ⟨q, s3Key⟩ maxAge now →
        (Served p.conf conf' ⟨q, s3Key⟩ cert maxAge now ↔
          cert.commonName = String.ofList (toLowercase (trimChars args.domainToUpdate.toList)) ∧
            (endsWith args.domainToUpdate "." = true ↔ endsWith spelling "." = true)) := by
  obtain ⟨p⟩ := exec_handleClient hrun hdry
  obtain ⟨signedAt, q, canonical, hts, hread, henvelope, hcanonical, hsig⟩ := p.stored hv4 hv6
  refine ⟨p, signedAt, q, hts, hread, henvelope, ?_⟩
  intro cert spelling conf' maxAge now s3Key hkey _ hsame hconf' hfresh
  obtain ⟨hdomain, hdir, -⟩ := ConfigClient.parse_eq_ok p.parsed
  obtain ⟨hdomain', hdir', -⟩ := ConfigClient.parse_eq_ok hconf'
  have hinner : p.conf.domain.inner = String.ofList (spelled args.domainToUpdate) := by
    rw [← (DomainName.parse_eq_ok hdomain).1, String.ofList_toList]
  have hinner' : conf'.domain.inner = String.ofList (spelled spelling) := by
    rw [← (DomainName.parse_eq_ok hdomain').1, String.ofList_toList]
  have hsigns : Signs ⟨q, s3Key⟩ cert := by
    unfold Signs
    rw [hkey]
    exact verifySignature_eq_ok.mpr ⟨canonical, hcanonical, hverify _ _ _ hsig⟩
  have haccepted : AcceptedAt ⟨q, s3Key⟩ [cert] maxAge now ↔
      cert.commonName = String.ofList (spelled args.domainToUpdate) := by
    rw [acceptedAt_singleton hsigns hfresh, ← hinner, henvelope]
    rfl
  have hkeys : ∀ ip ip', putKey conf' ip' = putKey p.conf ip ↔
      (endsWith args.domainToUpdate "." = true ↔ endsWith spelling "." = true) := by
    intro ip ip'
    rw [putKey_eq_iff (hdir'.trans hdir.symm), hinner, hinner', endsWith_dot, endsWith_dot,
      ← spelled_eq_iff hdomain hdomain' hsame.symm]
    exact ⟨fun h => (String.ofList_injective h).symm, fun h => by rw [h]⟩
  constructor
  · intro h
    exact ⟨haccepted.mp h.accepted, (hkeys p.ip p.ip).mp (h.sameKey p.ip p.ip)⟩
  · rintro ⟨hname, hdots⟩
    exact ⟨haccepted.mpr hname, fun ip ip' => (hkeys ip ip').mpr hdots,
      fun _ _ => fixedName_eq hdomain' hdomain hsame⟩

end

namespace Sample

/-- The arguments of a client given the domain with a dot at its end. -/
def dottedArgs : ClientArgs := { clientArgs "d" with domainToUpdate := "augs.sarif.example." }

/-- Its run. -/
@[irreducible] def dottedRun : Services.Observed (Result Unit) :=
  (@handleClient externals dottedArgs).run.drive (Services.answer (host 1780000060 inRange060))
    (vacant ["d/augs.sarif.example..ddns.json"] (by decide))

theorem dottedRun_driven : Services.Driven (host 1780000060 (by decide))
    (@handleClient externals dottedArgs).run (vacant ["d/augs.sarif.example..ddns.json"] (by decide))
    dottedRun := by
  unfold dottedRun
  exact Services.driven _ _ _

set_option maxRecDepth 10000 in
theorem dottedRun_shows : dottedRun.2.1 = .ok (.ok ()) ∧
    clocks dottedRun.1 = [(host 1780000060 (by decide)).now] := by
  decide +kernel

/-- The client accepts the domain in these spellings. -/
theorem exists_parse : ∀ spelling ∈ ["augs.sarif.example", "Augs.Sarif.Example."],
    ∃ conf, ConfigClient.parse { dottedArgs with domainToUpdate := spelling } = .ok conf := by
  have hok : ∀ spelling ∈ ["augs.sarif.example", "Augs.Sarif.Example."],
      (ConfigClient.parse { dottedArgs with domainToUpdate := spelling }).isOk = true := by
    decide +kernel
  intro spelling hmem
  have hparse := hok spelling hmem
  cases hconf : ConfigClient.parse { dottedArgs with domainToUpdate := spelling } with
  | error e =>
    rw [hconf] at hparse
    cases hparse
  | ok conf => exact ⟨conf, rfl⟩

/-- Ten seconds later its request is fresh. -/
theorem fresh_dotted {q : SignedPayload ResourceRecordSet} {r : ResourceRecordSet} (s3Key : S3Key)
    (h : q.envelope = ⟨r, Int64.ofInt (host 1780000060 (by decide)).now.time.timestamp⟩) :
    Fresh ⟨q, s3Key⟩ 3600 (host 1780000070 (by decide)).now := by
  have hsome : (deadline (Int64.ofInt (host 1780000060 (by decide)).now.time.timestamp)
      (TimeDelta.seconds (3600 : UInt32).toNat)).isSome := by decide +kernel
  obtain ⟨d, hd⟩ := Option.isSome_iff_exists.mp hsome
  refine ⟨d, by rw [h]; exact hd, ?_⟩
  rw [nanos_deadline_seconds hd]
  decide

end Sample

/-- A certificate with the dot serves the domain with the dot, in either
case. -/
theorem served_iff_dotted :
    letI := Sample.externals
    ∃ (p : Publication Sample.dottedArgs Sample.dottedRun.1) (q : SignedPayload ResourceRecordSet)
      (conf' : ConfigClient),
      ConfigClient.parse { Sample.dottedArgs with domainToUpdate := "Augs.Sarif.Example." } =
        .ok conf' ∧ fromSlice p.content = .ok q ∧
      Served p.conf conf' ⟨q, ⟨"d/augs.sarif.example..ddns.json"⟩⟩
        ⟨"augs.sarif.example.", Sample.publicKey⟩ 3600 (Sample.host 1780000070 (by decide)).now := by
  let := Sample.externals
  obtain ⟨p, signedAt, q, hts, hread, henvelope, hiff⟩ :=
    served_iff Sample.ofDotted?_dotted Sample.ofColons?_colons
      (fun _ => Sample.verifyStrict_of_trySign)
      (Sample.dottedRun_driven.exec Sample.dottedRun_shows.1) rfl
  have hclock := p.signedAt_mem hts
  rw [Sample.dottedRun_shows.2] at hclock
  rw [List.mem_singleton.mp hclock] at henvelope
  obtain ⟨conf', hconf⟩ := Sample.exists_parse "Augs.Sarif.Example." (by simp)
  refine ⟨p, q, conf', hconf, hread, (hiff _ "Augs.Sarif.Example." conf' 3600 _ _ rfl ?_ ?_ hconf
    (Sample.fresh_dotted _ henvelope)).mpr ⟨?_, ?_⟩⟩
  · decide +kernel
  · decide +kernel
  · decide +kernel
  · decide +kernel

/-- **A certificate without the dot does not serve it.** The client accepts
the domain with a dot at its end and signs it with the certificate's key;
the request is fresh, and is rejected. And the same domain without the dot
has another key. -/
theorem dotted_not_served :
    letI := Sample.externals
    domainOf "augs.sarif.example" = domainOf Sample.dottedArgs.domainToUpdate ∧
    ∃ (tr : Trace) (p : Publication Sample.dottedArgs tr) (q : SignedPayload ResourceRecordSet)
      (conf' : ConfigClient),
      (handleClient Sample.dottedArgs).run.Exec tr (.ok ()) ∧
      verifyingKey p.signingKey = Sample.publicKey ∧ fromSlice p.content = .ok q ∧
      ConfigClient.parse { Sample.dottedArgs with domainToUpdate := "augs.sarif.example" } =
        .ok conf' ∧
      Fresh ⟨q, ⟨"d/augs.sarif.example..ddns.json"⟩⟩ 3600
        (Sample.host 1780000070 (by decide)).now ∧
      ¬ AcceptedAt ⟨q, ⟨"d/augs.sarif.example..ddns.json"⟩⟩
        [⟨"augs.sarif.example", Sample.publicKey⟩] 3600 (Sample.host 1780000070 (by decide)).now ∧
      putKey conf' p.ip ≠ putKey p.conf p.ip := by
  let := Sample.externals
  refine ⟨by decide +kernel, ?_⟩
  have hrun := Sample.dottedRun_driven.exec Sample.dottedRun_shows.1
  obtain ⟨p⟩ := exec_handleClient hrun rfl
  obtain ⟨signedAt, q, canonical, hts, hread, henvelope, hcanonical, hsig⟩ :=
    p.stored Sample.ofDotted?_dotted Sample.ofColons?_colons
  have hclock := p.signedAt_mem hts
  rw [Sample.dottedRun_shows.2] at hclock
  rw [List.mem_singleton.mp hclock] at henvelope
  have hdomain : p.conf.domain = ⟨"augs.sarif.example."⟩ := by
    have hparse : DomainName.parse "augs.sarif.example." = .ok ⟨"augs.sarif.example."⟩ := by
      decide +kernel
    exact Except.ok.inj ((ConfigClient.parse_eq_ok p.parsed).1.symm.trans hparse)
  have hfresh := Sample.fresh_dotted ⟨"d/augs.sarif.example..ddns.json"⟩ henvelope
  have hsigns : Signs ⟨q, ⟨"d/augs.sarif.example..ddns.json"⟩⟩
      ⟨"augs.sarif.example", Sample.publicKey⟩ :=
    verifySignature_eq_ok.mpr ⟨canonical, hcanonical, Sample.verifyStrict_of_trySign _ _ hsig⟩
  obtain ⟨conf', hconf⟩ := Sample.exists_parse "augs.sarif.example" (by simp)
  have hdomain' : conf'.domain = ⟨"augs.sarif.example"⟩ := by
    have hparse : DomainName.parse "augs.sarif.example" = .ok ⟨"augs.sarif.example"⟩ := by
      decide +kernel
    exact Except.ok.inj ((ConfigClient.parse_eq_ok hconf).1.symm.trans hparse)
  have hdir : conf'.s3DdnsJsonDirectory = p.conf.s3DdnsJsonDirectory :=
    (ConfigClient.parse_eq_ok hconf).2.1.trans (ConfigClient.parse_eq_ok p.parsed).2.1.symm
  refine ⟨_, p, q, conf', hrun, rfl, hread, hconf, hfresh, ?_, ?_⟩
  · rw [acceptedAt_singleton hsigns hfresh, henvelope]
    change ¬ "augs.sarif.example" = p.conf.domain.inner
    rw [hdomain]
    decide
  · rw [ne_eq, putKey_eq_iff hdir, hdomain, hdomain']
    decide

end DynDynser
