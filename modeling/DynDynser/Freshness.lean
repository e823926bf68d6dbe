import DynDynser.Helpers.Services
import DynDynser.Helpers.Validate
/-!
# How long a request is fresh

The check of a request compares the clock with one end of a window, the
signing second, the maximum age and fifteen seconds. The window has no
other end, so a request signed for the future is accepted from now until
then (`boundedReplay_iff`); and the last end is computed as a date, which
panics where it cannot be represented (`total_validate_iff`).
-/

namespace DynDynser

open Text Interact Fallible Externals

section

variable [Externals] {u : UnverifiedDdnsRequest} {certs : List CertMatch} {maxAge : UInt32}
variable {vk : VerifyingKey} {now : Instant}

/-! ## The window -/

/-- The server accepts a request when the clock reads `now`. -/
structure AcceptedAt (u : UnverifiedDdnsRequest) (certs : List CertMatch) (maxAge : UInt32)
    (now : Instant) : Prop where
  run : (checkValidDdnsRequest u certs (TimeDelta.seconds maxAge.toNat) false).run.Exec
    [⟨.utcNow, now⟩] (.ok u.verified)

/-- **The replay window is bounded**: the instants at which a request is
accepted lie within the maximum age and thirty seconds. -/
def BoundedReplay (u : UnverifiedDdnsRequest) (certs : List CertMatch) (maxAge : UInt32) : Prop :=
  ∃ start : ℤ, ∀ now, AcceptedAt u certs maxAge now →
    start ≤ now.time.nanos ∧ now.time.nanos ≤ start + (maxAge.toNat + 30) * nanosPerSec

/-- The certificate found for the name of a request verifies it. -/
def Verifies (u : UnverifiedDdnsRequest) (certs : List CertMatch) : Prop :=
  ∃ cert, certs.find? (fun x => x.commonName = u.signedPayload.envelope.payload.name) = some cert ∧
    verifySignature cert.verifyingKey u.signedPayload = .ok ()

/-- **A request is accepted at every instant up to its deadline.** -/
theorem acceptedAt_iff : AcceptedAt u certs maxAge now ↔ Verifies u certs ∧
    ∃ d, deadline u.signedPayload.envelope.signedAtUnixSecs (TimeDelta.seconds maxAge.toNat) =
      some d ∧ now.time.nanos ≤ d.nanos := by
  constructor
  · rintro ⟨hrun⟩
    obtain ⟨cert, d, now', hfind, hsig, hd, htr, hle, -⟩ := exec_check_secure.mp hrun
    cases htr
    exact ⟨⟨cert, hfind, hsig⟩, d, hd, hle⟩
  · rintro ⟨⟨cert, hfind, hsig⟩, d, hd, hle⟩
    exact ⟨exec_check_secure.mpr ⟨cert, d, now, hfind, hsig, hd, rfl, hle, rfl⟩⟩

omit [Externals] in
/-- The deadline of an envelope, in nanoseconds. -/
theorem nanos_deadline_seconds {secs : Int64} {d : DateTime}
    (h : deadline secs (TimeDelta.seconds maxAge.toNat) = some d) :
    d.nanos = (secs.toInt + maxAge.toNat + 15) * nanosPerSec := by
  rw [nanos_of_deadline h]
  have hage : (TimeDelta.seconds maxAge.toNat).nanos = maxAge.toNat * nanosPerSec := rfl
  rw [hage]
  ring

/-- **Replay.** The instants at which a request is accepted lie within the
maximum age and thirty seconds exactly where no certificate verifies it,
its deadline cannot be represented, or it was signed no later than
fifteen seconds after the epoch. -/
theorem boundedReplay_iff : BoundedReplay u certs maxAge ↔ ¬ Verifies u certs ∨
    deadline u.signedPayload.envelope.signedAtUnixSecs (TimeDelta.seconds maxAge.toNat) = none ∨
    u.signedPayload.envelope.signedAtUnixSecs.toInt ≤ 15 := by
  constructor
  · rintro ⟨start, hstart⟩
    by_contra hcond
    rw [not_or, not_or, not_not] at hcond
    obtain ⟨hverifies, hsome, hlate⟩ := hcond
    obtain ⟨d, hd⟩ := Option.ne_none_iff_exists'.mp hsome
    have hnanos := nanos_deadline_seconds hd
    have hage := Int.natCast_nonneg maxAge.toNat
    -- the epoch and the deadline are two instants of acceptance
    have hepoch : 0 ≤ d.nanos := by
      rw [hnanos]
      unfold nanosPerSec
      omega
    have hfirst := hstart ⟨⟨0, by decide, by decide⟩, le_refl 0⟩
      (acceptedAt_iff.mpr ⟨hverifies, d, hd, hepoch⟩)
    have hlast := hstart ⟨d, hepoch⟩ (acceptedAt_iff.mpr ⟨hverifies, d, hd, le_refl _⟩)
    have hstart₀ : start ≤ 0 := hfirst.1
    have hend : d.nanos ≤ start + (maxAge.toNat + 30) * nanosPerSec := hlast.2
    rw [hnanos] at hend
    unfold nanosPerSec at hend
    omega
  · intro hcond
    by_cases hverifies : Verifies u certs
    · cases hd : deadline u.signedPayload.envelope.signedAtUnixSecs
          (TimeDelta.seconds maxAge.toNat) with
      | none =>
        refine ⟨0, fun now hnow => ?_⟩
        obtain ⟨-, d, hd', -⟩ := acceptedAt_iff.mp hnow
        rw [hd] at hd'
        cases hd'
      | some d =>
        have hearly : u.signedPayload.envelope.signedAtUnixSecs.toInt ≤ 15 := by
          rcases hcond with hno | hno | hearly
          · exact absurd hverifies hno
          · rw [hd] at hno
            cases hno
          · exact hearly
        -- no clock reads an instant before the epoch
        refine ⟨0, fun now hnow => ⟨now.since_epoch, ?_⟩⟩
        obtain ⟨-, d', hd', hle⟩ := acceptedAt_iff.mp hnow
        rw [hd] at hd'
        cases hd'
        rw [nanos_deadline_seconds hd] at hle
        unfold nanosPerSec at hle ⊢
        omega
    · exact ⟨0, fun now hnow => absurd (acceptedAt_iff.mp hnow).1 hverifies⟩

/-! ## The arithmetic of the window -/

omit [Externals] in
theorem total_add {t : DateTime} {d : TimeDelta} :
    (t.add d).run.Total ↔ ∃ t', t.checkedAddSigned d = some t' := by
  unfold DateTime.add
  cases t.checkedAddSigned d with
  | none => exact iff_of_false id (by simp)
  | some t' => exact iff_of_true trivial ⟨t', rfl⟩

omit [Externals] in
/-- **A later second is a date exactly up to the last one there is.** -/
theorem exists_checkedAddSigned {t : DateTime} {secs : ℤ} {n : ℕ}
    (ht : t.nanos = secs * nanosPerSec) :
    (∃ t', t.checkedAddSigned (TimeDelta.seconds n) = some t') ↔ secs + n ≤ maxSecs := by
  have hlo := t.lo
  have hsum : t.nanos + (TimeDelta.seconds n).nanos = (secs + n) * nanosPerSec := by
    rw [ht]
    change _ + (n : ℤ) * nanosPerSec = _
    ring
  unfold DateTime.checkedAddSigned DateTime.ofNanos?
  rw [hsum]
  rw [ht] at hlo
  constructor
  · rintro ⟨t', h⟩
    split at h
    · next hrange =>
      have hhi := hrange.2
      unfold nanosPerSec at hhi
      omega
    · cases h
  · intro hle
    have hrange : minSecs * nanosPerSec ≤ (secs + n) * nanosPerSec ∧
        (secs + n) * nanosPerSec < (maxSecs + 1) * nanosPerSec := by
      unfold nanosPerSec at hlo ⊢
      omega
    exact ⟨_, dif_pos hrange⟩

/-- **The check of the freshness always returns** exactly where it is
skipped, where the signature is refused first, where the timestamp is, or
where the last second of the window is one there is. -/
theorem total_validate_iff {insecure : Bool} :
    (u.validate vk (TimeDelta.seconds maxAge.toNat) insecure).run.Total ↔
      insecure = true ∨ verifySignature vk u.signedPayload ≠ .ok () ∨
      DateTime.fromTimestamp u.signedPayload.envelope.signedAtUnixSecs.toInt = none ∨
      u.signedPayload.envelope.signedAtUnixSecs.toInt + maxAge.toNat + 15 ≤ maxSecs := by
  unfold UnverifiedDdnsRequest.validate
  cases insecure with
  | true => exact iff_of_true trivial (Or.inl rfl)
  | false =>
    rw [if_neg Bool.false_ne_true]
    -- what comes after the sums returns
    have hrest : ∀ (signedAt d : DateTime), (do
        let now : Instant ← ask .utcNow
        if d.nanos < now.time.nanos then
          let age := (now.time.sub signedAt).numSeconds
          throw (Error.msg s!"Signature is too old (age: {age}s, max: {(TimeDelta.seconds
            maxAge.toNat).numSeconds}s)")
        else
          return u.verified : Rust VerifiedDdnsRequest).run.Total := by
      intro signedAt d
      refine Fallible.total_bind.mpr ⟨fun _ => trivial, fun tr now _ => ?_⟩
      split <;> trivial
    have hdrift : clockDrift = TimeDelta.seconds ((15 : ℕ) : ℤ) := rfl
    constructor
    · intro h
      by_cases hsig : verifySignature vk u.signedPayload = .ok ()
      · cases hts : DateTime.fromTimestamp u.signedPayload.envelope.signedAtUnixSecs.toInt with
        | none => exact Or.inr (Or.inr (Or.inl rfl))
        | some signedAt =>
          have h₁ := (Fallible.total_bind.mp h).2 [] () (exec_ofResult.mpr ⟨rfl, hsig⟩)
          have h₂ := (Fallible.total_bind.mp h₁).2 [] signedAt (exec_okOr.mpr ⟨rfl, hts⟩)
          obtain ⟨limit, hlimit⟩ := total_add.mp (Fallible.total_bind.mp h₂).1
          have h₃ := (Fallible.total_bind.mp h₂).2 [] limit (exec_add.mpr ⟨limit, hlimit, rfl, rfl⟩)
          have hadd := total_add.mp (Fallible.total_bind.mp h₃).1
          have hnanos : limit.nanos =
              (u.signedPayload.envelope.signedAtUnixSecs.toInt + maxAge.toNat) * nanosPerSec := by
            rw [DateTime.checkedAddSigned_eq_some.mp hlimit, DateTime.fromTimestamp_eq_some.mp hts]
            change _ + (maxAge.toNat : ℤ) * nanosPerSec = _
            ring
          rw [hdrift] at hadd
          exact Or.inr (Or.inr (Or.inr ((exists_checkedAddSigned hnanos).mp hadd)))
      · exact Or.inr (Or.inl hsig)
    · intro h
      refine Fallible.total_bind.mpr ⟨trivial, fun tr _ hsig => ?_⟩
      refine Fallible.total_bind.mpr ⟨trivial, fun tr signedAt hts => ?_⟩
      have hsig := (exec_ofResult.mp hsig).2
      have hts := (exec_okOr.mp hts).2
      have hroom : u.signedPayload.envelope.signedAtUnixSecs.toInt + maxAge.toNat + 15 ≤ maxSecs := by
        rcases h with h | h | h | h
        · cases h
        · exact absurd hsig h
        · rw [hts] at h
          cases h
        · exact h
      have hsigned := DateTime.fromTimestamp_eq_some.mp hts
      obtain ⟨limit', hlimit'⟩ := (exists_checkedAddSigned hsigned).mpr
        (show _ + (maxAge.toNat : ℤ) ≤ maxSecs by omega)
      refine Fallible.total_bind.mpr ⟨total_add.mpr ⟨limit', hlimit'⟩, fun tr limit hlimit => ?_⟩
      obtain ⟨_, hlimit, -, heq⟩ := exec_add.mp hlimit
      cases heq
      have hnanos : limit.nanos =
          (u.signedPayload.envelope.signedAtUnixSecs.toInt + maxAge.toNat) * nanosPerSec := by
        rw [DateTime.checkedAddSigned_eq_some.mp hlimit, hsigned]
        change _ + (maxAge.toNat : ℤ) * nanosPerSec = _
        ring
      have hadd := (exists_checkedAddSigned hnanos).mpr hroom
      rw [← hdrift] at hadd
      exact Fallible.total_bind.mpr ⟨total_add.mpr hadd, fun tr d _ => hrest signedAt d⟩

end

/-! ## A request signed for later -/

namespace Sample

/-- A payload signed with the test key, read from its stored bytes. -/
def signedPayload (addrs : List Ipv4Addr) (signedAtUnixSecs : Int64) (hex : String)
    (h : (visitSignature hex).isSome) : SignedPayload ResourceRecordSet :=
  ⟨⟨record addrs, signedAtUnixSecs⟩, (visitSignature hex).get h⟩

/-- The sample request. -/
def request : UnverifiedDdnsRequest where
  signedPayload := signedPayload [address] 1780000000
    ("8fc4591d0850c24da713bf49b27d1ce4d4f62721412aca14adece7aa7fcc953d" ++
      "9f8fca556796467b9ab69bab1f23b8b6dd5de14976406ecd9c24440a18d17108") (by decide +kernel)
  s3Key := ⟨"d/augs.sarif.example.ddns.json"⟩

/-- The same request, signed at the last second there is. -/
def lastRequest : UnverifiedDdnsRequest where
  signedPayload := signedPayload [address] 8210266876799
    ("13bb2a7be200d0a9d7bc0acb2f27790a91d05e91b71b4598ed8da73b7f930579" ++
      "9b290ccf9b951835c87bf5cbe84862540f5e418cda54a74aeedec4460e5f140b") (by decide +kernel)
  s3Key := ⟨"d/augs.sarif.example.ddns.json"⟩

/-- The certificates of the server. -/
def certs : List CertMatch := [⟨"augs.sarif.example", publicKey⟩]

theorem verifies_request : @Verifies externals request certs := by
  refine ⟨⟨"augs.sarif.example", publicKey⟩, by decide +kernel, ?_⟩
  decide +kernel

theorem verifySignature_lastRequest :
    @verifySignature externals publicKey lastRequest.signedPayload = .ok () := by
  decide +kernel

end Sample

/-- **A request can be replayed for longer.** The sample request is valid
for an hour, and the instants at which it is accepted do not lie within
an hour and thirty seconds. -/
theorem replay_not_bounded : ¬ @BoundedReplay Sample.externals Sample.request Sample.certs 3600 := by
  let := Sample.externals
  rw [boundedReplay_iff, not_or, not_or, not_not]
  exact ⟨Sample.verifies_request, by decide, by decide⟩

/-- **The check of the freshness can panic.** A request signed at the last
second there is, with the right key. -/
theorem validate_panics :
    letI := Sample.externals
    verifySignature Sample.publicKey Sample.lastRequest.signedPayload = .ok () ∧
      ¬ (Sample.lastRequest.validate Sample.publicKey
        (TimeDelta.seconds (3600 : UInt32).toNat) false).run.Total := by
  let := Sample.externals
  refine ⟨Sample.verifySignature_lastRequest, ?_⟩
  rw [total_validate_iff, not_or, not_or, not_or, not_not]
  exact ⟨Bool.false_ne_true, Sample.verifySignature_lastRequest, by decide, by decide⟩

end DynDynser
