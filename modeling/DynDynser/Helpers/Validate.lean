import DynDynser.Helpers.Calls
import DynDynser.Model.Server
/-!
# Validation

A check reads the clock at most once. With the signature checked, it
accepts exactly the requests whose signature verifies under the key of
the first certificate of their name, up to the deadline; the loop over
the requests is one check after the other.
-/

namespace DynDynser

open Text Interact Fallible DynDynserServer

variable {tr : Trace}

/-! ## The deadline -/

/-- The last instant at which an envelope of that age is accepted, unless
a date on the way to it cannot be represented. -/
def deadline (signedAtUnixSecs : Int64) (maxTimeAgo : TimeDelta) : Option DateTime := do
  let signedAt ← DateTime.fromTimestamp signedAtUnixSecs.toInt
  let limit ← signedAt.checkedAddSigned maxTimeAgo
  limit.checkedAddSigned clockDrift

/-- **The deadline is the signing second, the maximum age and fifteen
seconds.** -/
theorem nanos_of_deadline {secs : Int64} {maxTimeAgo : TimeDelta} {d : DateTime}
    (h : deadline secs maxTimeAgo = some d) :
    d.nanos = secs.toInt * nanosPerSec + maxTimeAgo.nanos + 15 * nanosPerSec := by
  obtain ⟨signedAt, hs, h⟩ := Option.bind_eq_some_iff.1 h
  obtain ⟨limit, hl, h⟩ := Option.bind_eq_some_iff.1 h
  rw [DateTime.checkedAddSigned_eq_some.1 h, DateTime.checkedAddSigned_eq_some.1 hl,
    DateTime.fromTimestamp_eq_some.1 hs]
  rfl

theorem exec_add {t : DateTime} {d : TimeDelta} {r : Result DateTime} :
    (t.add d).run.Exec tr r ↔ ∃ t', t.checkedAddSigned d = some t' ∧ tr = [] ∧ r = .ok t' := by
  rw [DateTime.add]
  cases t.checkedAddSigned d with
  | none => simp
  | some t' => simp [eq_comm]

variable [Externals]

open Externals

/-! ## One request -/

/-- What a request is verified to. -/
def UnverifiedDdnsRequest.verified (u : UnverifiedDdnsRequest) : VerifiedDdnsRequest :=
  { resourceRecord := u.signedPayload.envelope.payload, s3Key := u.s3Key }

theorem verifySignature_eq_ok {vk : VerifyingKey} {p : SignedPayload ResourceRecordSet} :
    verifySignature vk p = .ok () ↔
      ∃ canonical, canonicalize (toJson p.envelope) = .ok canonical ∧
        verifyStrict vk canonical p.signature = .ok () := by
  rw [verifySignature]
  cases canonicalize (toJson p.envelope) with
  | error e => simp [bind, Except.bind]
  | ok canonical => simp [bind, Except.bind]

variable {u : UnverifiedDdnsRequest} {vk : VerifyingKey} {maxTimeAgo : TimeDelta}
variable {certs : List CertMatch} {insecure : Bool}

/-- With verification skipped, validation is no more than a renaming. -/
theorem exec_validate_insecure {r : Result VerifiedDdnsRequest} :
    (u.validate vk maxTimeAgo true).run.Exec tr r ↔ tr = [] ∧ r = .ok u.verified := by
  rw [UnverifiedDdnsRequest.validate, if_pos rfl, exec_pure]
  exact and_congr_right fun _ => eq_comm

/-- **Validation with the signature checked accepts up to the deadline.** -/
theorem exec_validate_secure {v : VerifiedDdnsRequest} :
    (u.validate vk maxTimeAgo false).run.Exec tr (.ok v) ↔
      verifySignature vk u.signedPayload = .ok () ∧
      ∃ d now, deadline u.signedPayload.envelope.signedAtUnixSecs maxTimeAgo = some d ∧
        tr = [⟨.utcNow, now⟩] ∧ now.time.nanos ≤ d.nanos ∧ v = u.verified := by
  rw [UnverifiedDdnsRequest.validate, if_neg Bool.false_ne_true]
  constructor
  · intro h
    obtain ⟨_, t₁, t₂, rfl, h₁, h₂⟩ := exec_bind_ok.1 h
    obtain ⟨rfl, hsig⟩ := exec_ofResult.1 h₁
    obtain ⟨signedAt, t₃, t₄, rfl, h₃, h₄⟩ := exec_bind_ok.1 h₂
    obtain ⟨rfl, hsigned⟩ := exec_okOr.1 h₃
    obtain ⟨limit, t₅, t₆, rfl, h₅, h₆⟩ := exec_bind_ok.1 h₄
    obtain ⟨_, hlimit, rfl, heq⟩ := exec_add.1 h₅
    cases heq
    obtain ⟨d, t₇, t₈, rfl, h₇, h₈⟩ := exec_bind_ok.1 h₆
    obtain ⟨_, hd, rfl, heq⟩ := exec_add.1 h₇
    cases heq
    obtain ⟨now, t₉, t₁₀, rfl, h₉, h₁₀⟩ := exec_bind_ok.1 h₈
    obtain ⟨_, rfl, heq⟩ := exec_ask.1 h₉
    cases heq
    split at h₁₀
    · cases (exec_throw.1 h₁₀).2
    · next hle =>
      obtain ⟨rfl, heq⟩ := exec_pure.1 h₁₀
      cases heq
      refine ⟨hsig, d, now, ?_, rfl, Int.not_lt.1 hle, rfl⟩
      simp [deadline, hsigned, hlimit, hd]
  · rintro ⟨hsig, d, now, hd, rfl, hle, rfl⟩
    obtain ⟨signedAt, hsigned, hd⟩ := Option.bind_eq_some_iff.1 hd
    obtain ⟨limit, hlimit, hd⟩ := Option.bind_eq_some_iff.1 hd
    refine exec_bind_ok.2 ⟨(), [], _, rfl, exec_ofResult.2 ⟨rfl, hsig⟩, ?_⟩
    refine exec_bind_ok.2 ⟨signedAt, [], _, rfl, exec_okOr.2 ⟨rfl, hsigned⟩, ?_⟩
    refine exec_bind_ok.2 ⟨limit, [], _, rfl, exec_add.2 ⟨_, hlimit, rfl, rfl⟩, ?_⟩
    refine exec_bind_ok.2 ⟨d, [], _, rfl, exec_add.2 ⟨_, hd, rfl, rfl⟩, ?_⟩
    refine exec_bind_ok.2 ⟨now, [_], [], rfl, exec_ask.2 ⟨_, rfl, rfl⟩, ?_⟩
    rw [if_neg (Int.not_lt.2 hle)]
    exact exec_pure.2 ⟨rfl, rfl⟩

/-- Validation reads the clock once, or not at all. -/
theorem validate_events {r : Result VerifiedDdnsRequest}
    (h : (u.validate vk maxTimeAgo insecure).run.Exec tr r) :
    tr = [] ∨ ∃ now, tr = [⟨.utcNow, now⟩] := by
  cases insecure with
  | true => exact Or.inl (exec_validate_insecure.1 h).1
  | false =>
    rw [UnverifiedDdnsRequest.validate, if_neg Bool.false_ne_true] at h
    obtain ⟨_, h₁, -⟩ | ⟨_, t₁, t₂, rfl, h₁, h₂⟩ := Fallible.exec_bind.1 h
    · exact Or.inl (exec_ofResult.1 h₁).1
    · obtain ⟨rfl, -⟩ := exec_ofResult.1 h₁
      obtain ⟨_, h₃, -⟩ | ⟨signedAt, t₃, t₄, rfl, h₃, h₄⟩ := Fallible.exec_bind.1 h₂
      · exact Or.inl (admits_okOr.1 h₃.admits)
      · obtain ⟨rfl, -⟩ := exec_okOr.1 h₃
        obtain ⟨_, h₅, -⟩ | ⟨limit, t₅, t₆, rfl, h₅, h₆⟩ := Fallible.exec_bind.1 h₄
        · obtain ⟨_, -, rfl, -⟩ := exec_add.1 h₅
          exact Or.inl rfl
        · obtain ⟨_, -, rfl, -⟩ := exec_add.1 h₅
          obtain ⟨_, h₇, -⟩ | ⟨d, t₇, t₈, rfl, h₇, h₈⟩ := Fallible.exec_bind.1 h₆
          · obtain ⟨_, -, rfl, -⟩ := exec_add.1 h₇
            exact Or.inl rfl
          · obtain ⟨_, -, rfl, -⟩ := exec_add.1 h₇
            obtain ⟨_, h₉, -⟩ | ⟨now, t₉, t₁₀, rfl, h₉, h₁₀⟩ := Fallible.exec_bind.1 h₈
            · obtain ⟨_, -, heq⟩ := exec_ask.1 h₉
              cases heq
            · obtain ⟨_, rfl, -⟩ := exec_ask.1 h₉
              right
              split at h₁₀
              · obtain ⟨rfl, -⟩ := exec_throw.1 h₁₀
                exact ⟨_, rfl⟩
              · obtain ⟨rfl, -⟩ := exec_pure.1 h₁₀
                exact ⟨_, rfl⟩

/-- The key found for a request is that of the first certificate of its
name, which has accepted the signature. -/
theorem matchingKey_secure : matchingKey u certs false = .ok vk ↔
    ∃ cert, certs.find? (fun x => x.commonName = u.signedPayload.envelope.payload.name) = some cert ∧
      verifySignature cert.verifyingKey u.signedPayload = .ok () ∧ vk = cert.verifyingKey := by
  rw [matchingKey, if_neg Bool.false_ne_true]
  cases hfind : certs.find? fun x => x.commonName = u.signedPayload.envelope.payload.name with
  | none => simp [hfind, throw, throwThe, MonadExceptOf.throw]
  | some cert =>
    cases hsig : verifySignature cert.verifyingKey u.signedPayload with
    | error e => simp [hfind, hsig, bind, Except.bind]
    | ok _ => simp [hfind, hsig, bind, Except.bind, pure, Except.pure, eq_comm]

/-- **The check accepts a request** when the certificate found for its
name verifies it, up to the deadline, and returns its record. -/
theorem exec_check_secure {v : VerifiedDdnsRequest} :
    (checkValidDdnsRequest u certs maxTimeAgo false).run.Exec tr (.ok v) ↔
      ∃ cert d now,
        certs.find? (fun x => x.commonName = u.signedPayload.envelope.payload.name) = some cert ∧
        verifySignature cert.verifyingKey u.signedPayload = .ok () ∧
        deadline u.signedPayload.envelope.signedAtUnixSecs maxTimeAgo = some d ∧
        tr = [⟨.utcNow, now⟩] ∧ now.time.nanos ≤ d.nanos ∧ v = u.verified := by
  rw [checkValidDdnsRequest, exec_bind_ok]
  constructor
  · rintro ⟨vk, t₁, t₂, rfl, h₁, h₂⟩
    obtain ⟨rfl, hkey⟩ := exec_ofResult.1 h₁
    obtain ⟨cert, hfind, hsig, rfl⟩ := matchingKey_secure.1 hkey
    obtain ⟨-, d, now, hd, rfl, hle, rfl⟩ := exec_validate_secure.1 (exec_context_ok.1 h₂)
    exact ⟨cert, d, now, hfind, hsig, hd, rfl, hle, rfl⟩
  · rintro ⟨cert, d, now, hfind, hsig, hd, rfl, hle, rfl⟩
    exact ⟨_, [], _, rfl, exec_ofResult.2 ⟨rfl, matchingKey_secure.2 ⟨cert, hfind, hsig, rfl⟩⟩,
      exec_context_ok.2 (exec_validate_secure.2 ⟨hsig, d, now, hd, rfl, hle, rfl⟩)⟩

/-- What a check returns, whatever was checked, is the request's own
record and key. -/
theorem verified_of_check {v : VerifiedDdnsRequest}
    (h : (checkValidDdnsRequest u certs maxTimeAgo insecure).run.Exec tr (.ok v)) :
    v = u.verified := by
  cases insecure with
  | false =>
    obtain ⟨_, _, _, -, -, -, -, -, hv⟩ := exec_check_secure.1 h
    exact hv
  | true =>
    rw [checkValidDdnsRequest, exec_bind_ok] at h
    obtain ⟨vk, t₁, t₂, -, -, h₂⟩ := h
    exact Except.ok.inj (exec_validate_insecure.1 (exec_context_ok.1 h₂)).2

/-- Nothing is asked for a check where signatures are not checked. -/
theorem check_insecure_events {r : Result VerifiedDdnsRequest}
    (h : (checkValidDdnsRequest u certs maxTimeAgo true).run.Exec tr r) : tr = [] := by
  unfold checkValidDdnsRequest at h
  obtain ⟨_, h₁, -⟩ | ⟨vk, t₁, t₂, rfl, h₁, h₂⟩ := Fallible.exec_bind.mp h
  · exact (exec_ofResult.mp h₁).1
  · obtain ⟨rfl, -⟩ := exec_ofResult.mp h₁
    obtain ⟨_, h₂, -⟩ := exec_context.mp h₂
    exact (exec_validate_insecure.mp h₂).1

/-- A check reads the clock once, or not at all. -/
theorem check_events {r : Result VerifiedDdnsRequest}
    (h : (checkValidDdnsRequest u certs maxTimeAgo insecure).run.Exec tr r) :
    tr = [] ∨ ∃ now, tr = [⟨.utcNow, now⟩] := by
  rw [checkValidDdnsRequest] at h
  obtain ⟨_, h₁, -⟩ | ⟨vk, t₁, t₂, rfl, h₁, h₂⟩ := Fallible.exec_bind.1 h
  · exact Or.inl (exec_ofResult.1 h₁).1
  · obtain ⟨rfl, -⟩ := exec_ofResult.1 h₁
    obtain ⟨r', h₂, -⟩ := exec_context.1 h₂
    exact validate_events h₂

/-! ## The loop -/

/-- A request with a run of its check. -/
structure Checked (certs : List CertMatch) (maxTimeAgo : TimeDelta) (insecure : Bool) where
  request : UnverifiedDdnsRequest
  events : Trace
  verdict : Result VerifiedDdnsRequest
  run : (checkValidDdnsRequest request certs maxTimeAgo insecure).run.Exec events verdict

namespace Checked

variable {certs : List CertMatch} {maxTimeAgo : TimeDelta} {insecure : Bool}

/-- The request, if its check accepted it. -/
def accepted? (c : Checked certs maxTimeAgo insecure) : Option VerifiedDdnsRequest :=
  c.verdict.toOption

/-- What is recorded of a request that was rejected. -/
def rejected? (c : Checked certs maxTimeAgo insecure) : Option (String × Error) :=
  match c.verdict with
  | .ok _ => none
  | .error e => some (c.request.signedPayload.envelope.payload.name,
      (e.context "failed to check signing key request").context "signature did not pass validation")

theorem accepted?_eq_some {c : Checked certs maxTimeAgo insecure} {v : VerifiedDdnsRequest} :
    c.accepted? = some v ↔ c.verdict = .ok v := by
  rw [accepted?]
  cases c.verdict <;> simp [Except.toOption]

/-- The run of a check that accepted, where signatures are checked. -/
theorem run_secure {c : Checked certs maxTimeAgo insecure} {v : VerifiedDdnsRequest}
    (hsecure : insecure = false) (hv : c.verdict = .ok v) :
    (checkValidDdnsRequest c.request certs maxTimeAgo false).run.Exec c.events (.ok v) := by
  subst hsecure
  rw [← hv]
  exact c.run

end Checked

section

variable {cs : List (Checked certs maxTimeAgo insecure)}

/-- The verdicts of a row of checks are in its events. -/
theorem verdicts_unique {certs' : List CertMatch}
    {cs' : List (Checked certs' maxTimeAgo insecure)} {s s' : Trace} (hcerts : certs = certs')
    (hrequests : cs.map Checked.request = cs'.map Checked.request)
    (hevents : cs.flatMap Checked.events ++ s = cs'.flatMap Checked.events ++ s') :
    cs.map Checked.verdict = cs'.map Checked.verdict := by
  subst hcerts
  induction cs generalizing cs' with
  | nil =>
    obtain rfl := List.map_eq_nil_iff.mp hrequests.symm
    rfl
  | cons c cs ih =>
    obtain ⟨c', cs', rfl, hc, hcs⟩ := List.map_eq_cons_iff.mp hrequests.symm
    rw [List.flatMap_cons, List.flatMap_cons, List.append_assoc, List.append_assoc] at hevents
    have hrun := c'.run
    rw [hc] at hrun
    obtain ⟨-, hverdict, hrest⟩ := c.run.unique hrun hevents
    rw [List.map_cons, List.map_cons, hverdict, ih hcs.symm hrest]

/-- Rows of checks that check no signature have no events. -/
theorem checks_insecure_events (hinsecure : insecure = true) :
    cs.flatMap Checked.events = [] := by
  subst hinsecure
  exact List.flatMap_eq_nil_iff.mpr fun c _ => check_insecure_events c.run

end

/-- What the loop makes of its checks. -/
def validateAll (cs : List (Checked certs maxTimeAgo insecure)) (st : ValidateState) :
    ValidateState :=
  cs.foldl (fun st c => validated c.request c.verdict st) st

/-- **The loop's state is the list of accepted requests and the list of
rejected names**, in the order of the requests. -/
theorem validateAll_eq (cs : List (Checked certs maxTimeAgo insecure)) (st : ValidateState) :
    validateAll cs st = (st.1 ++ cs.filterMap Checked.accepted?, { st.2 with
      failedSignatureChecks :=
        st.2.failedSignatureChecks ++ cs.filterMap Checked.rejected? }) := by
  induction cs generalizing st with
  | nil => simp [validateAll]
  | cons c cs ih =>
    obtain ⟨vs, errors⟩ := st
    change validateAll cs (validated c.request c.verdict (vs, errors)) = _
    rw [ih]
    cases hv : c.verdict with
    | ok v => simp [validated, Checked.accepted?, Checked.rejected?, hv, Except.toOption]
    | error e => simp [validated, Checked.accepted?, Checked.rejected?, hv, Except.toOption]

variable {self : DynDynserServer}

/-- **A complete run of the loop checks the requests in order.** -/
theorem exec_validateUnverified {reqs : List UnverifiedDdnsRequest} {st st' : ValidateState} :
    (self.validateUnverifiedDnsRequests certs insecure reqs st).Exec tr st' ↔
      ∃ cs : List (Checked certs self.conf.maxTimeAgoSignedAt insecure),
        cs.map Checked.request = reqs ∧ tr = cs.flatMap Checked.events ∧
        st' = validateAll cs st := by
  induction reqs generalizing st tr with
  | nil =>
    simp only [validateUnverifiedDnsRequests, Prog.pure_eq_ret, Prog.exec_ret, List.map_eq_nil_iff]
    constructor
    · rintro ⟨rfl, rfl⟩
      exact ⟨[], rfl, rfl, rfl⟩
    · rintro ⟨_, rfl, rfl, rfl⟩
      exact ⟨rfl, rfl⟩
  | cons u reqs ih =>
    rw [validateUnverifiedDnsRequests]
    refine Prog.exec_bind.trans ?_
    constructor
    · rintro ⟨verdict, t₁, t₂, rfl, h₁, h₂⟩
      obtain ⟨cs, rfl, rfl, rfl⟩ := ih.1 h₂
      exact ⟨⟨u, t₁, verdict, h₁⟩ :: cs, rfl, rfl, rfl⟩
    · rintro ⟨cs, hreqs, rfl, rfl⟩
      obtain ⟨c, cs, rfl, rfl, rfl⟩ := List.map_eq_cons_iff.1 hreqs
      exact ⟨c.verdict, _, _, rfl, c.run, ih.2 ⟨cs, rfl, rfl, rfl⟩⟩

theorem uses_check : (checkValidDdnsRequest u certs maxTimeAgo insecure).run.Uses
    (·.kind = .clock) := by
  refine uses_bind uses_ofResult fun vk => uses_context ?_
  rw [UnverifiedDdnsRequest.validate]
  split
  · exact uses_pure
  · refine uses_bind uses_ofResult fun _ => uses_bind uses_okOr fun signedAt => ?_
    have hadd : ∀ (t : DateTime) (d : TimeDelta), (t.add d).run.Uses (·.kind = .clock) := by
      intro t d
      rw [DateTime.add]
      split <;> trivial
    refine uses_bind (hadd _ _) fun _ => uses_bind (hadd _ _) fun _ => ?_
    refine uses_bind (uses_ask.2 rfl) fun now => ?_
    split
    · exact uses_throw
    · exact uses_pure

theorem uses_validateUnverified {reqs : List UnverifiedDdnsRequest} {st : ValidateState} :
    (self.validateUnverifiedDnsRequests certs insecure reqs st).Uses (·.kind = .clock) := by
  induction reqs generalizing st with
  | nil => trivial
  | cons u reqs ih => exact uses_check.bind fun _ => ih

end DynDynser
