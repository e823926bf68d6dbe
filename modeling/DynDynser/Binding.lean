import DynDynser.Signing
/-!
# A signature binds the request

Two envelopes with the same canonical bytes are the same envelope, whatever
the text of their names and however many addresses they list. The seconds
the freshness check admits are inside the range where the canonical form
of a number is exact, though the field is wider. So a request that is
accepted with the signature of another would need a second message under
that signature.
-/

namespace DynDynser

open Text Interact Fallible Externals

/-- A second `chrono` has a date for. -/
def SignableEnvelope.Dated {T : Type} (e : SignableEnvelope T) : Prop :=
  (DateTime.fromTimestamp e.signedAtUnixSecs.toInt).isSome

instance {T : Type} (e : SignableEnvelope T) : Decidable e.Dated :=
  inferInstanceAs (Decidable (_ = _))

/-- Such a second is exact in canonical form. -/
theorem SignableEnvelope.Dated.natAbs_lt {T : Type} {e : SignableEnvelope T} (h : e.Dated) :
    e.signedAtUnixSecs.toInt.natAbs < 2 ^ 53 := by
  obtain ⟨t, ht⟩ := Option.isSome_iff_exists.mp h
  have hnanos := DateTime.fromTimestamp_eq_some.mp ht
  have hlo := t.lo
  have hhi := t.hi
  simp only [minSecs, maxSecs, nanosPerSec] at hnanos hlo hhi
  omega

/-- The second of a clock reading is one. -/
theorem dated_timestamp {T : Type} (payload : T) (t : Instant) :
    (⟨payload, Int64.ofInt t.time.timestamp⟩ : SignableEnvelope T).Dated := by
  have hlo := t.since_epoch
  have hhi := t.time.hi
  have hstamp := toInt_timestamp t
  have hnonneg := timestamp_nonneg t
  obtain ⟨date, hdate, -⟩ : ∃ date, DateTime.fromTimestamp t.time.timestamp = some date ∧
      date.nanos = t.time.timestamp * nanosPerSec := by
    refine DateTime.exists_ofNanos? ?_ ?_ <;>
      simp only [DateTime.timestamp, minSecs, maxSecs, nanosPerSec] at * <;> omega
  unfold SignableEnvelope.Dated
  rw [hstamp, hdate]
  rfl

section

variable [Externals]

/-! ## The canonical form of an envelope -/

theorem toJson_recordData (d : RecordData) :
    toJson d = .obj [(d.recordType.display, .arr (d.values.map .str))] := by
  cases d with
  | a addrs =>
    rw [RecordData.values, List.map_map]
    rfl
  | aaaa addrs =>
    rw [RecordData.values, List.map_map]
    rfl

/-- An envelope in canonical order: the addresses first, the second last. -/
theorem sortFields_envelope (e : SignableEnvelope ResourceRecordSet) :
    Json.sortFields (toJson e) = .obj [
      ("payload", .obj [
        ("data", .obj [(e.payload.data.recordType.display, .arr (e.payload.data.values.map .str))]),
        ("name", .str e.payload.name),
        ("ttl", .int e.payload.ttl.toNat)]),
      ("signed_at_unix_secs", .int e.signedAtUnixSecs.toInt)] := by
  have hitems : Json.sortFieldsList (e.payload.data.values.map Json.Value.str) =
      e.payload.data.values.map .str := by
    rw [Json.sortFieldsList_eq_map, List.map_map]
    rfl
  have houter : Json.keyLt "payload" "signed_at_unix_secs" = true := by decide
  have hname : Json.keyLt "name" "ttl" = true := by decide
  have hname' : Json.keyLt "name" "data" = false := by decide
  have httl : Json.keyLt "ttl" "data" = false := by decide
  change Json.sortFields (.obj [("payload", .obj [("name", .str e.payload.name),
    ("ttl", .int e.payload.ttl.toNat), ("data", toJson e.payload.data)]),
    ("signed_at_unix_secs", .int e.signedAtUnixSecs.toInt)]) = _
  rw [toJson_recordData]
  simp only [Json.sortFields, Json.sortFieldsObject, Json.insertField, hitems, houter, hname,
    hname', httl, if_true, Bool.false_eq_true, if_false]

/-- Its integers are exact, and none of its objects has a key twice. -/
theorem exact_envelope {e : SignableEnvelope ResourceRecordSet} (h : e.Dated) :
    Json.Exact (toJson e) := by
  have hdata : Json.Exact (toJson e.payload.data) := by
    rw [toJson_recordData]
    refine .obj (by simp) fun f hf => ?_
    rw [List.mem_singleton.mp hf]
    refine .arr fun x hx => ?_
    obtain ⟨text, -, rfl⟩ := List.mem_map.mp hx
    exact .str text
  have httl : ((e.payload.ttl.toNat : ℤ)).natAbs < 2 ^ 53 := by
    have hlt := e.payload.ttl.toNat_lt
    omega
  have hpayload : Json.Exact (toJson e.payload) := by
    refine .obj (by simp) fun f hf => ?_
    simp only [List.mem_cons, List.not_mem_nil, or_false] at hf
    rcases hf with rfl | rfl | rfl
    · exact .str e.payload.name
    · exact .int httl
    · exact hdata
  refine .obj (by simp) fun f hf => ?_
  simp only [List.mem_cons, List.not_mem_nil, or_false] at hf
  rcases hf with rfl | rfl
  · exact hpayload
  · exact .int h.natAbs_lt

/-- The addresses are determined by their type and their texts. -/
theorem RecordData.eq_of_values (hv4 : Function.Injective ipv4Display)
    (hv6 : Function.Injective ipv6Display) {d d' : RecordData}
    (htype : d.recordType = d'.recordType) (hvalues : d.values = d'.values) : d = d' := by
  cases d with
  | a addrs =>
    cases d' with
    | a addrs' => rw [List.map_injective_iff.mpr hv4 hvalues]
    | aaaa addrs' => cases htype
  | aaaa addrs =>
    cases d' with
    | a addrs' => cases htype
    | aaaa addrs' => rw [List.map_injective_iff.mpr hv6 hvalues]

omit [Externals] in
theorem RecordType.display_injective : Function.Injective RecordType.display := by
  intro t t' h
  cases t <;> cases t' <;> first | rfl | exact absurd h (by decide)

/-- **An envelope is determined by its canonical form.** -/
theorem eq_of_sortFields (hv4 : Function.Injective ipv4Display)
    (hv6 : Function.Injective ipv6Display) {e e' : SignableEnvelope ResourceRecordSet}
    (h : Json.sortFields (toJson e) = Json.sortFields (toJson e')) : e = e' := by
  rw [sortFields_envelope, sortFields_envelope] at h
  simp only [Json.Value.obj.injEq, List.cons.injEq, Prod.mk.injEq, Json.Value.arr.injEq,
    Json.Value.str.injEq, Json.Value.int.injEq, true_and, and_true, Nat.cast_inj,
    UInt32.toNat_inj, Int64.toInt_inj] at h
  obtain ⟨⟨⟨htype, htexts⟩, hname, httl⟩, hsecs⟩ := h
  have hvalues : e.payload.data.values = e'.payload.data.values :=
    List.map_injective_iff.mpr (fun _ _ => Json.Value.str.inj) htexts
  have hdata := RecordData.eq_of_values hv4 hv6 (RecordType.display_injective htype) hvalues
  obtain ⟨⟨name, ttl, data⟩, secs⟩ := e
  obtain ⟨⟨name', ttl', data'⟩, secs'⟩ := e'
  simp only at hname httl hsecs hdata
  rw [hname, httl, hsecs, hdata]

/-! ## Binding -/

/-- **The canonicaliser follows RFC 8785** on the values whose canonical
text is exact. -/
def FollowsRfc8785 : Prop := ∀ v, Json.Exact v → canonicalize v = .ok (Json.canonical v)

variable {e e' : SignableEnvelope ResourceRecordSet}

theorem eq_of_canonicalize (hv4 : Function.Injective ipv4Display)
    (hv6 : Function.Injective ipv6Display) (hcanon : FollowsRfc8785) (he : e.Dated)
    (he' : e'.Dated) (h : canonicalize (toJson e) = canonicalize (toJson e')) : e = e' := by
  have hexact := exact_envelope he
  have hexact' := exact_envelope he'
  rw [hcanon _ hexact, hcanon _ hexact'] at h
  exact eq_of_sortFields hv4 hv6
    (Json.sortFields_eq_of_canonical hexact.plain hexact'.plain (Except.ok.inj h))

/-- A request that is accepted has a date. -/
theorem dated_of_check {u : UnverifiedDdnsRequest} {certs : List CertMatch} {maxAge : TimeDelta}
    {ts : Trace} {v : VerifiedDdnsRequest}
    (h : (checkValidDdnsRequest u certs maxAge false).run.Exec ts (.ok v)) :
    u.signedPayload.envelope.Dated := by
  obtain ⟨cert, d, now, -, -, hd, -⟩ := exec_check_secure.mp h
  obtain ⟨signedAt, hsigned, -⟩ := Option.bind_eq_some_iff.mp hd
  exact Option.isSome_iff_exists.mpr ⟨signedAt, hsigned⟩

/-- **Signature binding.** Envelopes over records whose seconds have a date
are equal when their canonical bytes are. So what a client signs for one
record is the signature of no other request: where a server accepts a
request with that signature, the request is the one that was signed, or
the key accepts the signature for a second message. -/
theorem signature_binds (hv4 : Function.Injective ipv4Display)
    (hv6 : Function.Injective ipv6Display) (hcanon : FollowsRfc8785) :
    (∀ e e' : SignableEnvelope ResourceRecordSet, e.Dated → e'.Dated →
      canonicalize (toJson e) = canonicalize (toJson e') → e = e') ∧
    ∀ (r : ResourceRecordSet) (k : SigningKey) (ts : Trace) (bytes : Bytes),
      ((SignableEnvelope.new r).sign k).run.Exec ts (.ok bytes) →
      ∃ (signed : SignedPayload ResourceRecordSet) (canonical : Bytes),
        bytes = Json.pretty (toJson signed) ∧ signed.envelope.payload = r ∧
        canonicalize (toJson signed.envelope) = .ok canonical ∧
        trySign k canonical = .ok signed.signature ∧
        ∀ (u : UnverifiedDdnsRequest) (certs : List CertMatch) (maxAge : TimeDelta) (ts' : Trace)
          (v : VerifiedDdnsRequest), u.signedPayload.signature = signed.signature →
          (checkValidDdnsRequest u certs maxAge false).run.Exec ts' (.ok v) →
          u.signedPayload.envelope = signed.envelope ∨
            ∃ cert ∈ certs, ∃ other, other ≠ canonical ∧
              verifyStrict cert.verifyingKey other signed.signature = .ok () := by
  refine ⟨fun e e' he he' h => eq_of_canonicalize hv4 hv6 hcanon he he' h, ?_⟩
  intro r k ts bytes hsign
  obtain ⟨signedAt, canonical, signature, -, hcanonical, hsig, rfl⟩ := exec_sign.mp hsign
  refine ⟨⟨⟨r, Int64.ofInt signedAt.time.timestamp⟩, signature⟩, canonical, rfl, rfl, hcanonical,
    hsig, ?_⟩
  intro u certs maxAge ts' v hsame hcheck
  obtain ⟨cert, d, now, hfind, hverified, -⟩ := exec_check_secure.mp hcheck
  obtain ⟨other, hother, hstrict⟩ := verifySignature_eq_ok.mp hverified
  by_cases heq : other = canonical
  · -- the server verified the bytes that were signed
    refine Or.inl (eq_of_canonicalize hv4 hv6 hcanon (dated_of_check hcheck)
      (dated_timestamp r signedAt) ?_)
    rw [hother, heq, hcanonical]
  · refine Or.inr ⟨cert, List.mem_of_find?_eq_some hfind, other, heq, ?_⟩
    rw [← hsame]
    exact hstrict

end

namespace Sample

/-- No signature of the sample key is over two messages. -/
theorem message_unique {vk : VerifyingKey} {msg msg' : Bytes} {sig : Signature}
    (h : externals.verifyStrict vk msg sig = .ok ())
    (h' : externals.trySign signingKey msg' = .ok sig) : msg = msg' := by
  have hnodup : (signatures.map Prod.snd).Nodup := by decide +kernel
  have hmem : ∀ vk msg, externals.verifyStrict vk msg sig = .ok () →
      (msg, sig.display) ∈ signatures := by
    intro vk msg hok
    by_contra hnot
    cases (if_neg fun hand => hnot hand.2 : externals.verifyStrict vk msg sig = _).symm.trans hok
  have hfst := List.inj_on_of_nodup_map hnodup (hmem _ _ h)
    (hmem _ _ (verifyStrict_of_trySign msg' sig h')) rfl
  exact (Prod.mk.inj hfst).1

/-- The sample request with another second. -/
def laterEnvelope : SignableEnvelope ResourceRecordSet := ⟨record [address], 1780000001⟩

end Sample

/-- The sample record signed at two seconds has two canonical forms, and
what is accepted with the signature of the sample request is the sample
request. -/
theorem signature_binds_sample :
    letI := Sample.externals
    canonicalize (toJson (⟨Sample.record [Sample.address], 1780000000⟩ :
      SignableEnvelope ResourceRecordSet)) ≠ canonicalize (toJson Sample.laterEnvelope) ∧
    ∃ signed : SignedPayload ResourceRecordSet,
      Sample.goodRequest = Json.pretty (toJson signed) ∧
      signed.envelope.payload = Sample.record [Sample.address] ∧
      ∀ (u : UnverifiedDdnsRequest) (certs : List CertMatch) (maxAge : TimeDelta) (ts : Trace)
        (v : VerifiedDdnsRequest), u.signedPayload.signature = signed.signature →
        (checkValidDdnsRequest u certs maxAge false).run.Exec ts (.ok v) →
        u.signedPayload.envelope = signed.envelope := by
  let := Sample.externals
  obtain ⟨hinjective, hbinds⟩ := signature_binds (injective_of_read Sample.ofDotted?_dotted)
    (injective_of_read Sample.ofColons?_colons) fun _ _ => rfl
  obtain ⟨signed, canonical, hbytes, hpayload, -, hsig, honly⟩ :=
    hbinds _ _ _ _ (Sample.signRun_driven.exec Sample.signRun_shows.1)
  refine ⟨fun heq => ?_, signed, hbytes, hpayload, fun u certs maxAge ts v hsame hcheck => ?_⟩
  · have henvelope := hinjective _ _ (by decide) (by decide) heq
    exact absurd (congrArg SignableEnvelope.signedAtUnixSecs henvelope) (by decide)
  · rcases honly u certs maxAge ts v hsame hcheck with heq | ⟨cert, -, other, hne, hstrict⟩
    · exact heq
    · exact absurd (Sample.message_unique hstrict hsig) hne

end DynDynser
