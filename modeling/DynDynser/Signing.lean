import DynDynser.Helpers.Serde
import DynDynser.Helpers.Services
import DynDynser.Helpers.Validate
/-!
# A signed record is accepted

What a client signs and stores, a server that trusts its certificate
accepts, with the record unchanged. Two texts are involved: the signature
is over the canonical one, the object holds the pretty one, and the server
makes the canonical text anew from what it parsed. They agree because the
parsed envelope is the signed one.
-/

namespace DynDynser

open Text Interact Fallible Externals

/-! ## The deadline of an envelope -/

/-- A date inside the range can be represented. -/
theorem DateTime.exists_ofNanos? {n : ℤ} (hlo : minSecs * nanosPerSec ≤ n)
    (hhi : n < (maxSecs + 1) * nanosPerSec) : ∃ t, DateTime.ofNanos? n = some t ∧ t.nanos = n := by
  unfold DateTime.ofNanos?
  exact ⟨_, dif_pos ⟨hlo, hhi⟩, rfl⟩

/-- **An envelope with room for the additions has a deadline.** -/
theorem exists_deadline {secs : Int64} {maxAge : UInt32} (hsecs : 0 ≤ secs.toInt)
    (hroom : secs.toInt + maxAge.toNat + 15 ≤ maxSecs) :
    ∃ d, deadline secs (TimeDelta.seconds maxAge.toNat) = some d := by
  unfold maxSecs at hroom
  have hage : (0 : ℤ) ≤ maxAge.toNat := Int.natCast_nonneg _
  obtain ⟨signedAt, hsigned, hsigned'⟩ : ∃ t, DateTime.fromTimestamp secs.toInt = some t ∧
      t.nanos = secs.toInt * nanosPerSec := by
    refine DateTime.exists_ofNanos? ?_ ?_ <;> simp only [minSecs, maxSecs, nanosPerSec] <;> omega
  obtain ⟨limit, hlimit, hlimit'⟩ : ∃ t, signedAt.checkedAddSigned
      (TimeDelta.seconds maxAge.toNat) = some t ∧
      t.nanos = secs.toInt * nanosPerSec + maxAge.toNat * nanosPerSec := by
    unfold DateTime.checkedAddSigned TimeDelta.seconds
    rw [hsigned']
    refine DateTime.exists_ofNanos? ?_ ?_ <;> simp only [minSecs, maxSecs, nanosPerSec] <;> omega
  obtain ⟨d, hd, -⟩ : ∃ t, limit.checkedAddSigned clockDrift = some t ∧
      t.nanos = limit.nanos + 15 * nanosPerSec := by
    unfold DateTime.checkedAddSigned clockDrift TimeDelta.seconds
    rw [hlimit']
    refine DateTime.exists_ofNanos? ?_ ?_ <;> simp only [minSecs, maxSecs, nanosPerSec] <;> omega
  refine ⟨d, ?_⟩
  simp only [deadline, hsigned, hlimit, hd, Option.bind_eq_bind, Option.bind_some]

/-- The second of a clock reading fits the field it is stored in. -/
theorem toInt_timestamp (t : Instant) : (Int64.ofInt t.time.timestamp).toInt = t.time.timestamp := by
  have hlo := t.since_epoch
  have hhi := t.time.hi
  unfold DateTime.timestamp
  simp only [maxSecs, nanosPerSec] at hhi ⊢
  exact Int64.toInt_ofInt_of_le (by omega) (by omega)

theorem timestamp_nonneg (t : Instant) : 0 ≤ t.time.timestamp := by
  have hlo := t.since_epoch
  unfold DateTime.timestamp
  simp only [nanosPerSec]
  omega

section

variable [Externals]

/-! ## Signing -/

/-- **What signing does**: it reads the clock, and stores the envelope
stamped with that second and the signature over its canonical bytes. -/
theorem exec_sign {T : Type} [Serialize T] {payload : T} {k : SigningKey} {ts : Trace}
    {bytes : Bytes} :
    ((SignableEnvelope.new payload).sign k).run.Exec ts (.ok bytes) ↔
      ∃ (signedAt : Instant) (canonical : Bytes) (signature : Signature),
        ts = [⟨.utcNow, signedAt⟩] ∧
        canonicalize (toJson
          (⟨payload, Int64.ofInt signedAt.time.timestamp⟩ : SignableEnvelope T)) = .ok canonical ∧
        trySign k canonical = .ok signature ∧
        bytes = Json.pretty (toJson
          (⟨⟨payload, Int64.ofInt signedAt.time.timestamp⟩, signature⟩ : SignedPayload T)) := by
  unfold SignableEnvelope.sign
  constructor
  · intro h
    obtain ⟨signedAt, t₁, t₂, rfl, h₁, h₂⟩ := exec_bind_ok.mp h
    obtain ⟨_, rfl, heq⟩ := exec_ask.mp h₁
    cases heq
    obtain ⟨canonical, t₃, t₄, rfl, h₃, h₄⟩ := exec_bind_ok.mp h₂
    obtain ⟨rfl, hcanonical⟩ := exec_ofResult.mp (exec_context_ok.mp h₃)
    obtain ⟨signature, t₅, t₆, rfl, h₅, h₆⟩ := exec_bind_ok.mp h₄
    obtain ⟨rfl, hsig⟩ := exec_ofResult.mp (exec_context_ok.mp h₅)
    obtain ⟨rfl, heq⟩ := exec_pure.mp h₆
    exact ⟨signedAt, canonical, signature, rfl, hcanonical, hsig, (Except.ok.inj heq).symm⟩
  · rintro ⟨signedAt, canonical, signature, rfl, hcanonical, hsig, rfl⟩
    refine exec_bind_ok.mpr ⟨signedAt, _, [], rfl, exec_ask.mpr ⟨_, rfl, rfl⟩, ?_⟩
    refine exec_bind_ok.mpr ⟨canonical, [], [], rfl,
      exec_context_ok.mpr (exec_ofResult.mpr ⟨rfl, hcanonical⟩), ?_⟩
    refine exec_bind_ok.mpr ⟨signature, [], [], rfl,
      exec_context_ok.mpr (exec_ofResult.mpr ⟨rfl, hsig⟩), ?_⟩
    exact exec_pure.mpr ⟨rfl, rfl⟩

variable {r : ResourceRecordSet} {k : SigningKey} {certs : List CertMatch} {cert : CertMatch}
variable {ts : Trace} {bytes : Bytes}

/-- **Sign, store, verify.** The bytes a client stores for a record parse
to the envelope it signed and the signature it made; the canonical bytes
of what was parsed are the bytes that were signed; and a server whose
first certificate of that name carries the key accepts the request, with
the record as it was, up to the signing second, the maximum age and
fifteen seconds. -/
theorem sign_check (hv4 : ∀ a, ipv4FromStr (ipv4Display a) = some a)
    (hv6 : ∀ a, ipv6FromStr (ipv6Display a) = some a)
    (hverify : ∀ msg sig, trySign k msg = .ok sig → verifyStrict (verifyingKey k) msg sig = .ok ())
    (hcert : (certs.find? fun x => x.commonName = r.name) = some cert)
    (hkey : cert.verifyingKey = verifyingKey k)
    (hsign : ((SignableEnvelope.new r).sign k).run.Exec ts (.ok bytes)) :
    ∃ (signedAt : Instant) (p : SignedPayload ResourceRecordSet) (canonical : Bytes),
      ts = [⟨.utcNow, signedAt⟩] ∧
      fromSlice bytes = .ok p ∧
      p.envelope.payload = r ∧ p.envelope.signedAtUnixSecs.toInt = signedAt.time.timestamp ∧
      canonicalize (toJson p.envelope) = .ok canonical ∧ trySign k canonical = .ok p.signature ∧
      ∀ (maxAge : UInt32) (now : Instant) (s3Key : S3Key),
        signedAt.time.timestamp + maxAge.toNat + 15 ≤ maxSecs →
        now.time.nanos ≤ (signedAt.time.timestamp + maxAge.toNat + 15) * nanosPerSec →
        (checkValidDdnsRequest ⟨p, s3Key⟩ certs (TimeDelta.seconds maxAge.toNat) false).run.Exec
          [⟨.utcNow, now⟩] (.ok ⟨r, s3Key⟩) := by
  obtain ⟨signedAt, canonical, signature, rfl, hcanonical, hsig, rfl⟩ := exec_sign.mp hsign
  have := lawfulSerde_resourceRecordSet hv4 hv6
  have hstamp := toInt_timestamp signedAt
  refine ⟨signedAt, ⟨⟨r, Int64.ofInt signedAt.time.timestamp⟩, signature⟩, canonical, rfl,
    fromSlice_pretty _, rfl, hstamp, hcanonical, hsig, ?_⟩
  intro maxAge now s3Key hroom hnow
  obtain ⟨d, hd⟩ : ∃ d, deadline (Int64.ofInt signedAt.time.timestamp)
      (TimeDelta.seconds maxAge.toNat) = some d := by
    refine exists_deadline ?_ ?_ <;> rw [hstamp]
    · exact timestamp_nonneg signedAt
    · exact hroom
  refine exec_check_secure.mpr ⟨cert, d, now, hcert, ?_, hd, rfl, ?_, rfl⟩
  · rw [hkey]
    exact verifySignature_eq_ok.mpr ⟨canonical, hcanonical, hverify _ _ hsig⟩
  · rw [nanos_of_deadline hd, hstamp]
    refine hnow.trans (le_of_eq ?_)
    change _ = _ + _ * nanosPerSec + _
    ring

end

namespace Sample

/-- The key verifies what it signed. -/
theorem verifyStrict_of_trySign (msg : Bytes) (sig : Signature)
    (h : externals.trySign signingKey msg = .ok sig) :
    externals.verifyStrict (externals.verifyingKey signingKey) msg sig = .ok () := by
  have hdisplay : ∀ s ∈ signatures, (visitSignature s.2).all (fun sig => sig.display = s.2) := by
    decide +kernel
  obtain ⟨s, hs, hvisit⟩ : ∃ s, (signatures.find? fun s => s.1 = msg) = some s ∧
      visitSignature s.2 = some sig := by
    delta externals at h
    cases hbind : (signatures.find? fun s => s.1 = msg).bind fun s => visitSignature s.2 with
    | none =>
      simp only [hbind] at h
      cases h
    | some sig' =>
      simp only [hbind] at h
      cases h
      exact Option.bind_eq_some_iff.mp hbind
  have hmem := List.mem_of_find?_eq_some hs
  have hmsg : s.1 = msg := by simpa using List.find?_some hs
  have hsig := hdisplay s hmem
  rw [hvisit] at hsig
  have hsig' : sig.display = s.2 := by simpa using hsig
  refine if_pos ⟨rfl, ?_⟩
  rw [hsig', ← hmsg]
  exact hmem

/-- The signing of the sample record. -/
def sign : Io (Result Bytes) :=
  letI := externals
  ((SignableEnvelope.new (record [address])).sign signingKey).run

/-- Its run at the second of the sample request. -/
@[irreducible] def signRun : Services.Observed (Result Bytes) :=
  sign.drive (Services.answer (host 1780000000 inRange000)) (vacant [] List.Pairwise.nil)

theorem signRun_driven : Services.Driven (host 1780000000 (by decide)) sign
    (vacant [] List.Pairwise.nil) signRun := by
  unfold signRun
  exact Services.driven _ _ _

/-- Signing makes the sample request. -/
theorem signRun_shows : signRun.2.1 = .ok (.ok goodRequest) ∧
    clocks signRun.1 = [(host 1780000000 (by decide)).now] := by
  decide +kernel

end Sample

/-- The sample request is read, and accepted half a minute later. -/
theorem sign_check_sample :
    letI := Sample.externals
    ∃ p : SignedPayload ResourceRecordSet, fromSlice Sample.goodRequest = .ok p ∧
      p.envelope.payload = Sample.record [Sample.address] ∧
      (checkValidDdnsRequest ⟨p, ⟨"d/augs.sarif.example.ddns.json"⟩⟩
        [⟨"augs.sarif.example", Sample.publicKey⟩]
        (TimeDelta.seconds (3600 : UInt32).toNat) false).run.Exec
        [⟨.utcNow, (Sample.host 1780000030 (by decide)).now⟩]
        (.ok ⟨Sample.record [Sample.address], ⟨"d/augs.sarif.example.ddns.json"⟩⟩) := by
  let := Sample.externals
  obtain ⟨hbytes, hclock⟩ := Sample.signRun_shows
  have hcert : ([⟨"augs.sarif.example", Sample.publicKey⟩] : List CertMatch).find?
      (fun x => x.commonName = (Sample.record [Sample.address]).name) =
      some ⟨"augs.sarif.example", Sample.publicKey⟩ := by decide
  obtain ⟨signedAt, p, canonical, hts, hparse, hpayload, -, -, -, hcheck⟩ :=
    sign_check Sample.ofDotted?_dotted Sample.ofColons?_colons Sample.verifyStrict_of_trySign hcert
      rfl (Sample.signRun_driven.exec hbytes)
  rw [hts] at hclock
  obtain rfl : signedAt = (Sample.host 1780000000 (by decide)).now := List.cons.inj hclock |>.1
  exact ⟨p, hparse, hpayload,
    hcheck 3600 (Sample.host 1780000030 (by decide)).now _ (by decide) (by decide)⟩

end DynDynser
