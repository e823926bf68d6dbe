import DynDynser.Common.Abort
import DynDynser.Binding
import DynDynser.Freshness
import DynDynser.Helpers.Stages
/-!
# Runs that do not return

A server run ends in a value or in an error, but for two ways out: a
listing that does not end, and the overflow of a date. Neither changes
anything outside; and the second takes a request that a trusted
certificate verifies, signed for the last days there are
(`aborts_handleServer`).
-/

namespace DynDynser

open Text Interact Fallible DynDynserServer Externals

section

variable {α β : Type} {tr : Trace} {a : Abort}

/-! ## Functions that return -/

@[simp] theorem total_call {o : Op} : (call o).Total := fun _ => trivial

@[simp] theorem total_tryCall {x : Io (Result α)} (h : x.Total) : (tryCall x).run.Total := h

@[simp] theorem total_ask {o : Op} : (ask o).run.Total := fun _ => trivial

@[simp] theorem total_ofResult {r : Result α} : (ofResult r).run.Total := trivial

@[simp] theorem total_okOr {x : Option α} {msg : String} : (okOr x msg).run.Total := trivial

theorem total_context {x : Rust α} {c : String} (h : x.run.Total) : (context c x).run.Total :=
  Prog.total_bind.mpr ⟨h, fun _ _ _ => trivial⟩

theorem total_lift {x : Io α} (h : x.Total) : (ExceptT.lift x : Rust α).run.Total :=
  Prog.total_bind.mpr ⟨h, fun _ _ _ => trivial⟩

/-- Parts that return make a whole that does. -/
theorem total_seq {x : Rust α} {f : α → Rust β} (hx : x.run.Total) (hf : ∀ a, (f a).run.Total) :
    (x >>= f).run.Total :=
  Fallible.total_bind.mpr ⟨hx, fun _ a _ => hf a⟩

@[simp] theorem aborts_context {x : Rust α} {c : String} :
    (context c x).run.Aborts tr a ↔ x.run.Aborts tr a := by
  change (x.run >>= fun r => Prog.ret (Result.context r c)).Aborts tr a ↔ _
  rw [Prog.aborts_bind]
  constructor
  · rintro (h | ⟨_, t₁, t₂, -, -, h⟩)
    · exact h
    · exact h.elim
  · exact Or.inl

theorem total_getS3Credentials {awsConfig : AWSCliConfig} :
    awsConfig.getS3Credentials.run.Total := by
  unfold AWSCliConfig.getS3Credentials
  split
  · exact total_context (total_tryCall total_call)
  · exact total_context (total_tryCall total_call)

theorem total_readFileLimited {path : String} {maxBytes : ℕ} :
    (readFileLimited path maxBytes).run.Total := by
  unfold readFileLimited
  refine total_seq total_ask fun reported => total_seq total_ofResult fun size => ?_
  split
  · trivial
  · refine total_seq total_ask fun opened => total_seq total_ofResult fun _ => ?_
    exact total_seq total_ask fun delivered => total_seq total_ofResult fun content => trivial

theorem total_maybeDropPrivileges {username : String} :
    (maybeDropPrivileges username).run.Total := by
  have htarget : (dropTarget username).run.Total := by
    unfold dropTarget
    refine total_seq (total_context (total_tryCall total_call)) fun named => ?_
    split
    · trivial
    · exact total_seq total_ask fun fallback => total_okOr
  unfold maybeDropPrivileges
  refine total_seq total_ask fun euid => ?_
  split
  · trivial
  · refine total_seq htarget fun user => total_seq (total_tryCall total_call) fun _ => ?_
    refine total_seq (total_tryCall total_call) fun _ => ?_
    refine total_seq (total_tryCall total_call) fun _ => total_seq total_ask fun uid => ?_
    split
    · trivial
    · refine total_seq total_ask fun gid => ?_
      split
      · trivial
      · refine total_seq total_ask fun again => ?_
        split <;> trivial

end

section

variable [Externals] {fuel : ℕ} {args : ServerArgs} {conf : ConfigServer} {tr : Trace} {a : Abort}
variable {self : DynDynserServer}

theorem total_getS3Bucket : self.getS3Bucket.run.Total :=
  total_seq total_ofResult fun _ => total_seq (total_context (total_tryCall total_call))
    fun _ => trivial

theorem total_fetchContents {bucket : String} {contents : List String} {st : FetchState} :
    (fetchContents bucket contents st).Total := by
  induction contents generalizing st with
  | nil => trivial
  | cons key contents ih =>
    rw [fetchContents]
    split
    · exact Prog.total_bind.mpr ⟨total_call, fun _ _ _ => ih⟩
    · exact ih

theorem total_domainCertificates {errors : ServerErrors} :
    (domainCertificates self errors).run.Total := by
  have hload : ∀ dir entries st, (loadCertificates dir entries st).run.Total := by
    intro dir entries
    induction entries with
    | nil => exact fun _ => trivial
    | cons entry entries ih =>
      exact fun st => total_seq (total_context total_readFileLimited) fun _ => ih _
  unfold domainCertificates
  split
  · trivial
  · exact total_context (total_seq (total_context (total_tryCall total_call)) fun _ => hload _ _ _)

/-- The changes of a plan are made in calls that return. -/
theorem total_effect {plan : Plan} : (effect plan).run.Total := by
  have hclient : (Route53Client.fromS3Credentials plan.server.credentials).run.Total :=
    total_seq total_okOr fun _ => total_seq total_okOr fun _ =>
      total_seq (total_context (total_tryCall total_call)) fun _ => trivial
  have hpost : ∀ client : Route53Client, (client.changeResourceRecordSets
      plan.server.conf.hostedDnsZoneId (some "Updated via dyndynser") plan.changes).run.Total :=
    fun client => total_seq (total_seq (total_seq total_ask fun _ => trivial)
      fun _ => total_ofResult) fun _ => total_seq (total_context (total_tryCall total_call))
        fun _ => total_seq (total_context total_ofResult) fun _ => trivial
  have hdelete : ∀ bucket keys errors, (deleteObjects bucket keys errors).Total := by
    intro bucket keys
    induction keys with
    | nil => exact fun _ => trivial
    | cons key keys ih => exact fun _ => Prog.total_bind.mpr ⟨total_call, fun _ _ _ => ih _⟩
  refine total_seq (total_context (total_seq (total_context hclient) fun client =>
    total_context (hpost client))) fun _ => ?_
  exact total_context (total_seq (total_context total_getS3Bucket)
    fun _ => total_lift (hdelete _ _ _))

/-- What is made of a plan returns. -/
theorem total_finish {isDryRun : Bool} {o : Option Plan} : (finish isDryRun o).run.Total := by
  cases o with
  | none => trivial
  | some plan =>
    unfold finish
    dsimp only
    split
    · exact total_seq total_ask fun _ => total_ask
    · exact total_seq total_effect fun _ => total_ofResult

/-! ## A listing that does not end -/

/-- The page a call shows. -/
def shown? : Event → Option ListBucketResult
  | ⟨.listPage _ _ _ _, .ok page⟩ => some page
  | _ => none

/-- The pages shown in a run, in order. -/
def shown (t : Trace) : List ListBucketResult := t.filterMap shown?

omit [Externals] in
@[simp] theorem shown_append {t₁ t₂ : Trace} : shown (t₁ ++ t₂) = shown t₁ ++ shown t₂ :=
  List.filterMap_append

omit [Externals] in
/-- A run that lists nothing shows no page. -/
theorem shown_eq_nil (h : ∀ e ∈ tr, e.op.kind ≠ .list) : shown tr = [] := by
  refine List.filterMap_eq_nil_iff.mpr fun e he => ?_
  have hk := h e he
  obtain ⟨o, x⟩ := e
  cases o <;> first | rfl | exact absurd rfl hk

/-- **The loop over the pages gives up** after as many as it was allowed,
each of which has a token. -/
theorem aborts_fetchPages {bucket : String} {token : Option String} {st : FetchState}
    (h : (self.fetchPages bucket fuel token st).run.Aborts tr a) :
    a = .outOfFuel ∧ (shown tr).length = fuel ∧
      ∀ page ∈ shown tr, page.nextContinuationToken.isSome := by
  induction fuel generalizing token st tr with
  | zero =>
    obtain ⟨rfl, rfl⟩ := h
    exact ⟨rfl, rfl, by simp [shown]⟩
  | succ fuel ih =>
    rw [fetchPages] at h
    rcases Fallible.aborts_bind.mp h with h | ⟨page, t₁, t₂, rfl, h₁, h₂⟩
    · exact absurd h (total_context (total_tryCall total_call)).not_aborts
    obtain rfl := exec_call.mp (exec_context_ok.mp h₁)
    rcases Fallible.aborts_bind.mp h₂ with h₂ | ⟨st', t₃, t₄, rfl, h₃, h₄⟩
    · exact absurd h₂ (total_lift total_fetchContents).not_aborts
    -- the objects of the page are fetched, and the token is followed
    have hnone : shown t₃ = [] := shown_eq_nil fun e he hk => by
      have hget := h₃.admits.of_uses (uses_lift.mpr uses_fetchContents) e he
      rw [hk] at hget
      cases hget
    have hfirst : ∀ t, shown (([⟨.listPage bucket self.conf.s3DdnsJsonDirectory "/" token,
        .ok page⟩] : Trace) ++ (t₃ ++ t)) = page :: shown t := by
      intro t
      rw [shown_append, shown_append, hnone]
      rfl
    rw [hfirst]
    split at h₄
    · next token' htoken =>
      obtain ⟨rfl, hlength, hall⟩ := ih h₄
      refine ⟨rfl, by rw [List.length_cons, hlength], fun page' hpage' => ?_⟩
      rcases List.mem_cons.mp hpage' with rfl | hpage'
      · rw [htoken]
        rfl
      · exact hall page' hpage'
    · exact h₄.elim

/-! ## A date that overflows -/

omit [Externals] in
theorem aborts_add {t : DateTime} {d : TimeDelta} (h : (t.add d).run.Aborts tr a) :
    t.checkedAddSigned d = none ∧ tr = [] ∧ a = .panic "`DateTime + TimeDelta` overflowed" := by
  unfold DateTime.add at h
  cases hadd : t.checkedAddSigned d with
  | none =>
    rw [hadd] at h
    exact ⟨rfl, h.1, h.2.symm⟩
  | some t' =>
    rw [hadd] at h
    exact h.elim

/-- The last second a request may be accepted in is one there is not. -/
def Overflows (maxAge : UInt32) (p : SignedPayload ResourceRecordSet) : Prop :=
  maxSecs < p.envelope.signedAtUnixSecs.toInt + maxAge.toNat + 15

/-- **A check gives up** where the signature is right and the deadline
overflows. -/
theorem aborts_check {u : UnverifiedDdnsRequest} {certs : List CertMatch} {maxAge : UInt32}
    {insecure : Bool} (h : (checkValidDdnsRequest u certs (TimeDelta.seconds maxAge.toNat)
      insecure).run.Aborts tr a) :
    a = .panic "`DateTime + TimeDelta` overflowed" ∧ insecure = false ∧
      (∃ cert ∈ certs, cert.commonName = u.signedPayload.envelope.payload.name ∧
        verifySignature cert.verifyingKey u.signedPayload = .ok ()) ∧
      u.signedPayload.envelope.Dated ∧ Overflows maxAge u.signedPayload := by
  rcases Fallible.aborts_bind.mp h with h | ⟨vk, t₁, t₂, rfl, h₁, h₂⟩
  · exact h.elim
  rw [aborts_context] at h₂
  unfold UnverifiedDdnsRequest.validate at h₂
  cases insecure with
  | true => exact h₂.elim
  | false =>
    rw [if_neg Bool.false_ne_true] at h₂
    obtain ⟨cert, hfind, hsig, rfl⟩ := matchingKey_secure.mp (exec_ofResult.mp h₁).2
    rcases Fallible.aborts_bind.mp h₂ with h₂ | ⟨_, _, t₃, -, -, h₃⟩
    · exact h₂.elim
    rcases Fallible.aborts_bind.mp h₃ with h₃ | ⟨signedAt, _, t₄, -, hts, h₄⟩
    · exact h₃.elim
    have hts := (exec_okOr.mp hts).2
    have hsigned := DateTime.fromTimestamp_eq_some.mp hts
    -- both sums are of a second and a number of seconds
    have hsome : ∀ {t : DateTime} {secs : ℤ} {n : ℕ}, t.nanos = secs * nanosPerSec →
        t.checkedAddSigned (TimeDelta.seconds n) = none → maxSecs < secs + n := by
      intro t secs n ht hnone
      by_contra hle
      obtain ⟨t', hadd⟩ := (exists_checkedAddSigned ht).mpr (not_lt.mp hle)
      rw [hnone] at hadd
      cases hadd
    have hover : a = .panic "`DateTime + TimeDelta` overflowed" ∧
        Overflows maxAge u.signedPayload := by
      unfold Overflows
      rcases Fallible.aborts_bind.mp h₄ with h₄ | ⟨limit, _, t₅, -, hlimit, h₅⟩
      · obtain ⟨hnone, -, rfl⟩ := aborts_add h₄
        have hlt := hsome hsigned hnone
        exact ⟨rfl, by omega⟩
      · obtain ⟨_, hlimit, -, heq⟩ := exec_add.mp hlimit
        cases heq
        have hnanos : limit.nanos =
            (u.signedPayload.envelope.signedAtUnixSecs.toInt + maxAge.toNat) * nanosPerSec := by
          rw [DateTime.checkedAddSigned_eq_some.mp hlimit, hsigned]
          change _ + (maxAge.toNat : ℤ) * nanosPerSec = _
          ring
        rcases Fallible.aborts_bind.mp h₅ with h₅ | ⟨d, _, t₆, -, -, h₆⟩
        · obtain ⟨hnone, -, rfl⟩ := aborts_add h₅
          have hdrift : clockDrift = TimeDelta.seconds ((15 : ℕ) : ℤ) := rfl
          rw [hdrift] at hnone
          exact ⟨rfl, hsome hnanos hnone⟩
        · -- what comes after the sums returns
          refine absurd h₆ (Prog.Total.not_aborts ?_)
          refine total_seq total_ask fun now => ?_
          split <;> trivial
    refine ⟨hover.1, rfl, ⟨cert, List.mem_of_find?_eq_some hfind, ?_, hsig⟩, ?_, hover.2⟩
    · simpa using List.find?_some hfind
    · unfold SignableEnvelope.Dated
      rw [hts]
      rfl

/-- The loop over the requests gives up in one of the checks. -/
theorem aborts_validateUnverified {certs : List CertMatch} {insecure : Bool}
    {reqs : List UnverifiedDdnsRequest} {st : ValidateState}
    (h : (self.validateUnverifiedDnsRequests certs insecure reqs st).Aborts tr a) :
    ∃ u ∈ reqs, ∃ t, (checkValidDdnsRequest u certs self.conf.maxTimeAgoSignedAt
      insecure).run.Aborts t a := by
  induction reqs generalizing st tr with
  | nil => exact h.elim
  | cons u reqs ih =>
    rw [validateUnverifiedDnsRequests] at h
    rcases Prog.aborts_bind.mp h with h | ⟨verdict, t₁, t₂, -, -, h₂⟩
    · exact ⟨u, List.mem_cons_self, tr, h⟩
    · obtain ⟨u', hu', habort⟩ := ih h₂
      exact ⟨u', List.mem_cons_of_mem _ hu', habort⟩

/-! ## A run of the server -/

/-- **A request that crashes a server**: it was fetched, a certificate the
server loaded verifies it, and the last second it may be accepted in is
one there is not. -/
def Crashes (args : ServerArgs) (tr : Trace) (p : SignedPayload ResourceRecordSet) : Prop :=
  (∃ key data, (key, .ok data) ∈ gets tr ∧ fromSlice data = .ok p) ∧
    (∃ cert, LoadedCertificate args.keysSearchPath tr cert ∧
      cert.commonName = p.envelope.payload.name ∧
      verifySignature cert.verifyingKey p = .ok ()) ∧
    p.envelope.Dated ∧ Overflows args.maxTimeAgoSignedAtSecs p

/-- **A preparation gives up** in the listing, or in a check. -/
theorem aborts_prepare (h : (prepare fuel (ConfigServer.parse args)).run.Aborts tr a) :
    (a = .outOfFuel ∧ (shown tr).length = fuel ∧
      ∀ page ∈ shown tr, page.nextContinuationToken.isSome) ∨
    a = .panic "`DateTime + TimeDelta` overflowed" ∧ args.insecureSkipVerify = false ∧
      ∃ p, Crashes args tr p := by
  rcases Fallible.aborts_bind.mp h with h | ⟨_, _, _, -, -, hreturn⟩
  swap
  · exact hreturn.elim
  rcases Fallible.aborts_bind.mp h with h | ⟨credentials, t₁, t₂, rfl, h₁, h₂⟩
  · exact absurd h total_getS3Credentials.not_aborts
  have hcred : shown t₁ = [] := shown_eq_nil fun e he hk => by
    rw [h₁.admits.of_uses uses_getS3Credentials e he] at hk
    cases hk
  rcases Fallible.aborts_bind.mp h₂ with h₂ | ⟨fetched, t₃, t₄, rfl, h₃, h₄⟩
  · left
    rw [aborts_context, fetchDdnsJsonsFromS3] at h₂
    rcases Fallible.aborts_bind.mp h₂ with h₂ | ⟨bucket, t₅, t₆, rfl, h₅, h₆⟩
    · exact absurd h₂ (total_context total_getS3Bucket).not_aborts
    · obtain ⟨-, rfl, -⟩ := exec_getS3Bucket.mp (exec_context_ok.mp h₅)
      rw [shown_append, shown_append, hcred]
      exact aborts_fetchPages h₆
  · right
    rw [exec_context_ok] at h₃
    obtain rfl := fetch_result h₃
    unfold judge at h₄
    split at h₄
    · exact h₄.elim
    rcases Fallible.aborts_bind.mp h₄ with h₄ | ⟨keyMap, t₅, t₆, rfl, h₅, h₆⟩
    · exact absurd h₄ total_domainCertificates.not_aborts
    split at h₆
    · exact h₆.elim
    rcases Fallible.aborts_bind.mp h₆ with h₆ | ⟨st, t₇, t₈, rfl, h₇, h₈⟩
    · obtain ⟨u, hu, t, hcheck⟩ := aborts_validateUnverified (aborts_lift.mp h₆)
      have hmode : (ConfigServer.parse args).maxTimeAgoSignedAt =
          TimeDelta.seconds args.maxTimeAgoSignedAtSecs.toNat := rfl
      rw [hmode] at hcheck
      obtain ⟨rfl, hsecure, ⟨cert, hcert, hname, hsig⟩, hdated, hover⟩ := aborts_check hcheck
      refine ⟨rfl, hsecure, u.signedPayload, ?_, ⟨cert, ?_, hname, hsig⟩, hdated, hover⟩
      · obtain ⟨data, hget, hparse⟩ := mem_requestsOf hu
        exact ⟨u.s3Key.key, data, by simp [hget], hparse⟩
      · unfold domainCertificates at h₅
        rw [if_neg (by rw [hsecure]; exact Bool.false_ne_true), exec_context_ok] at h₅
        obtain ⟨entries, entry, content, hdir, hentry, hfile, hread, hload⟩ :=
          (getPublicKeyMap_loaded h₅).1 cert hcert
        have hsub : ∀ e ∈ t₅, e ∈ t₁ ++ (t₃ ++ (t₅ ++ t₆)) := fun e he => by simp [he]
        exact ⟨entries, entry, content, hsub _ hdir, hentry, hfile, hsub _ hread, hload⟩
    · rcases Fallible.aborts_bind.mp h₈ with h₈ | ⟨_, t₉, t₁₀, rfl, -, h₁₀⟩
      · exact absurd h₈ (total_context total_maybeDropPrivileges).not_aborts
      · split at h₁₀ <;> exact h₁₀.elim

/-- **A server run gives up without a trace.** Where it does not return, it
has posted and deleted nothing; and either it was shown as many pages as
it was allowed to ask for, each of which pointed to the next, or it
checks signatures and has fetched a request that crashes it. So it takes
the key of a certificate the server trusts to crash it, and where pages end
and no such request is there every run returns. -/
theorem aborts_handleServer (h : (handleServer fuel args).run.Aborts tr a) :
    posts tr = [] ∧ deletes tr = [] ∧
      ((a = .outOfFuel ∧ (shown tr).length = fuel ∧
        ∀ page ∈ shown tr, page.nextContinuationToken.isSome) ∨
      a = .panic "`DateTime + TimeDelta` overflowed" ∧ args.insecureSkipVerify = false ∧
        ∃ p, Crashes args tr p) := by
  rw [handleServer_eq] at h
  rcases Fallible.aborts_bind.mp h with h | ⟨o, t₁, t₂, rfl, -, h₂⟩
  · obtain ⟨hposts, hdeletes, -⟩ := quiet_prepare h.admits
    exact ⟨hposts, hdeletes, aborts_prepare h⟩
  · exact absurd h₂ total_finish.not_aborts

end

namespace Sample

/-- The sample request signed at the last second there is, as it is stored. -/
def lastStored : Bytes :=
  stored [address] 8210266876799
    ("13bb2a7be200d0a9d7bc0acb2f27790a91d05e91b71b4598ed8da73b7f930579" ++
      "9b290ccf9b951835c87bf5cbe84862540f5e418cda54a74aeedec4460e5f140b")

/-- A bucket with that request. -/
def crashing : Services :=
  services [("d/augs.sarif.example.ddns.json", lastStored)] (List.pairwise_singleton _ _)

/-- The server's run over it. -/
@[irreducible] def crashedRun : Services.Observed (Result Unit) :=
  (@handleServer externals 1 serverArgs).run.drive (Services.answer (host 1780000030 inRange030))
    crashing

/-- A program driven by the services that gave up. -/
theorem aborts_of_driven {α : Type} {host : Host} {p : Io α} {s : Services}
    {r : Services.Observed α} {a : Abort} (hr : r = p.drive (Services.answer host) s)
    (h : r.2.1 = .error a) : p.Aborts r.1 a := by
  subst hr
  exact Prog.aborts_drive h

theorem aborts_crashedRun {a : Abort} (h : crashedRun.2.1 = .error a) :
    (@handleServer externals 1 serverArgs).run.Aborts crashedRun.1 a := by
  have hr : crashedRun = (@handleServer externals 1 serverArgs).run.drive
      (Services.answer (host 1780000030 (by decide))) crashing := by
    unfold crashedRun
    rfl
  exact aborts_of_driven hr h

set_option maxRecDepth 10000 in
theorem crashedRun_shows :
    crashedRun.2.1 = .error (.panic "`DateTime + TimeDelta` overflowed") := by
  decide +kernel

end Sample

/-- The sample request crashes the server. -/
theorem aborts_handleServer_sample :
    letI := Sample.externals
    posts Sample.crashedRun.1 = [] ∧ ∃ p, Crashes Sample.serverArgs Sample.crashedRun.1 p := by
  let := Sample.externals
  obtain ⟨hposts, -, hcause⟩ :=
    aborts_handleServer (Sample.aborts_crashedRun Sample.crashedRun_shows)
  rcases hcause with ⟨hfuel, -⟩ | ⟨-, -, hcrash⟩
  · cases hfuel
  · exact ⟨hposts, hcrash⟩

end DynDynser
