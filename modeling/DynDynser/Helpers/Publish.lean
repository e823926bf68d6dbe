import DynDynser.Helpers.Runs
import DynDynser.Model.Client
/-!
# A client run

A client reads its key, asks for its address and the time, and signs a
record; it then puts the one object, or says what it would put.
`handleClient_eq` is the equation. Nothing it does before the put changes
anything outside.
-/

namespace DynDynser

open Text Interact Fallible

variable [Externals] {args : ClientArgs} {conf : ConfigClient} {tr : Trace}

omit [Externals] in
/-- What a configuration takes from the arguments. -/
theorem ConfigClient.parse_eq_ok (h : ConfigClient.parse args = .ok conf) :
    DomainName.parse args.domainToUpdate = .ok conf.domain ∧
      conf.s3DdnsJsonDirectory = args.s3DdnsJsonDir ∧ conf.s3QueueBucket = args.s3QueueBucket ∧
      conf.isDryRun = args.isDryRun ∧ conf.dropUser = args.dropToUser ∧
      conf.insecureSkipVerify = args.insecureSkipVerify ∧
      conf.ttl = args.ttl.map UInt32.toUInt64 := by
  unfold ConfigClient.parse at h
  cases hdomain : DomainName.parse args.domainToUpdate with
  | error e =>
    rw [hdomain] at h
    cases h
  | ok domain =>
    rw [hdomain] at h
    cases h
    exact ⟨rfl, rfl, rfl, rfl, rfl, rfl, rfl⟩

theorem uses_clientSigningKey :
    (clientSigningKey conf).run.Uses (·.kind ∈ [Kind.file, .user]) := by
  unfold clientSigningKey
  split
  · exact uses_pure
  · refine uses_bind (uses_context (uses_readFileLimited.mono fun o ho => by simp [ho]))
      fun keyBytes => ?_
    exact uses_bind (uses_context (uses_maybeDropPrivileges.mono fun o ho => by simp [ho]))
      fun _ => uses_ofResult

theorem uses_queryForIp : (queryForIp conf).run.Uses (·.kind = .query) := by
  unfold queryForIp
  refine uses_bind (uses_context (uses_call.mpr rfl)) fun res => ?_
  split
  · exact uses_throw
  · refine uses_bind uses_ofResult fun bytes => ?_
    dsimp only
    split
    · exact uses_pure
    · exact uses_throw

theorem uses_sign {T : Type} [Serialize T] {self : SignableEnvelope T} {signingKey : SigningKey} :
    (self.sign signingKey).run.Uses (·.kind = .clock) := by
  unfold SignableEnvelope.sign
  refine uses_bind (uses_ask.mpr rfl) fun now => ?_
  refine uses_bind (uses_context uses_ofResult) fun payloadJson => ?_
  exact uses_bind (uses_context uses_ofResult) fun sig => uses_pure

/-! ## The two halves -/

/-- A signed record, and the path it is for. -/
structure Draft where
  conf : ConfigClient
  path : String
  content : Bytes

/-- The run of a client up to its signed record. -/
def clientPrepare (args : ClientArgs) : Rust Draft := do
  let conf ← ofResult (Result.context (ConfigClient.parse args) "failed to parse Client config")
  let signingKey ← clientSigningKey conf
  let ip ← context "failed to get IP address of this machine" (queryForIp conf)
  let signedJsonBytes ← context "Failed to sign payload object"
    ((SignableEnvelope.new (dnsObj conf ip)).sign signingKey)
  return ⟨conf, ddnsJsonPath conf (dnsObj conf ip), signedJsonBytes⟩

/-- The run of a client from there on. -/
def clientFinish (draft : Draft) : Rust Unit :=
  if draft.conf.isDryRun then
    printLine (foretoldPut draft.conf draft.path draft.content)
  else do
    ofResult (Result.context (Externals.parseRegion draft.conf.awsConfig.region)
      "invalid AWS region found during S3 write")
    let _credentials ← draft.conf.awsConfig.getS3Credentials
    tryCall (call (.bucketNew draft.conf.s3QueueBucket draft.conf.awsConfig.region))
    let status ← context "failed to put S3 object"
      (tryCall (call (.putObject draft.conf.s3QueueBucket draft.path draft.content
        "application/json")))
    if status ≠ 200 then
      throw (Error.msg "s3 returned non-200")
    else
      return ()

/-- **A client run is a signed record and what is made of it.** -/
theorem handleClient_eq (args : ClientArgs) :
    handleClient args = clientPrepare args >>= clientFinish := by
  unfold handleClient clientPrepare
  simp only [bind_assoc, pure_bind]
  rfl

/-- Up to its signed record a client changes nothing. -/
theorem uses_clientPrepare : (clientPrepare args).run.Uses
    (·.kind ∈ [Kind.file, .user, .query, .clock]) := by
  unfold clientPrepare
  refine uses_bind uses_ofResult fun conf => ?_
  refine uses_bind (uses_clientSigningKey.mono fun o ho => ?_) fun signingKey => ?_
  · simp only [List.mem_cons, List.not_mem_nil, or_false] at ho ⊢
    tauto
  refine uses_bind (uses_context (uses_queryForIp.mono fun o ho => by simp [ho])) fun ip => ?_
  exact uses_bind (uses_context (uses_sign.mono fun o ho => by simp [ho])) fun _ => uses_pure

theorem uses_clientFinish {draft : Draft} : (clientFinish draft).run.Uses
    (·.kind ∈ [Kind.handle, .put, .print]) := by
  unfold clientFinish
  split
  · exact uses_ask.mpr (by simp [Op.kind])
  · refine uses_bind uses_ofResult fun _ => ?_
    refine uses_bind (uses_getS3Credentials.mono fun o ho => by simp [ho]) fun _ => ?_
    refine uses_bind (uses_call.mpr (by simp [Op.kind])) fun _ => ?_
    refine uses_bind (uses_context (uses_call.mpr (by simp [Op.kind]))) fun status => ?_
    split
    · exact uses_throw
    · exact uses_pure

/-- **What a client issues**: no listing, no fetch, no delete and no post. -/
theorem uses_handleClient : (handleClient args).run.Uses
    (·.kind ∈ [Kind.file, .user, .query, .clock, .handle, .put, .print]) := by
  rw [handleClient_eq]
  refine uses_bind (uses_clientPrepare.mono fun o ho => ?_) fun draft =>
    uses_clientFinish.mono fun o ho => ?_ <;>
  · simp only [List.mem_cons, List.not_mem_nil, or_false] at ho ⊢
    tauto

/-! ## The key -/

/-- The key a client puts its record under. -/
def putKey (conf : ConfigClient) (ip : IpAddr) : String :=
  World.objectKey (ddnsJsonPath conf (dnsObj conf ip))

omit [Externals] in
/-- **Two files of one directory have different keys**: a put drops a
slash from both paths or from neither. -/
theorem objectKey_inj {dir file file' : String}
    (h : World.objectKey (dir ++ "/" ++ file) = World.objectKey (dir ++ "/" ++ file')) :
    file = file' := by
  have hpath : ∀ f : String, ∃ c cs, (dir ++ "/").toList = c :: cs ∧
      (dir ++ "/" ++ f).toList = c :: (cs ++ f.toList) := by
    intro f
    have hsplit : (dir ++ "/").toList = dir.toList ++ ['/'] := by simp
    cases hdir : dir.toList with
    | nil => exact ⟨'/', [], by rw [hsplit, hdir]; rfl, by
        rw [String.toList_append, hsplit, hdir]; rfl⟩
    | cons c cs => exact ⟨c, cs ++ ['/'], by rw [hsplit, hdir]; rfl, by
        rw [String.toList_append, hsplit, hdir]; rfl⟩
  obtain ⟨c, cs, hhead, hfile⟩ := hpath file
  obtain ⟨c', cs', hhead', hfile'⟩ := hpath file'
  obtain ⟨rfl, rfl⟩ := List.cons.inj (hhead.symm.trans hhead')
  have hcons : c :: (cs ++ file.toList) = c :: (cs ++ file'.toList) := by
    unfold World.objectKey at h
    rw [hfile, hfile'] at h
    split at h
    · next heq =>
      obtain ⟨rfl, rfl⟩ := List.cons.inj heq
      rw [String.ofList_injective h]
    · next hne =>
      split at h
      · next heq =>
        obtain ⟨rfl, -⟩ := List.cons.inj heq
        exact absurd rfl (hne _)
      · rw [← hfile, ← hfile', h]
  exact String.toList_injective (List.append_cancel_left (List.cons.inj hcons).2)

omit [Externals] in
/-- **In one directory, the key of a client is its domain's.** -/
theorem putKey_eq_iff {conf' : ConfigClient} {ip ip' : IpAddr}
    (hdir : conf'.s3DdnsJsonDirectory = conf.s3DdnsJsonDirectory) :
    putKey conf' ip' = putKey conf ip ↔ conf'.domain.inner = conf.domain.inner := by
  unfold putKey ddnsJsonPath ResourceRecordSet.makeFilename dnsObj
  rw [hdir]
  constructor
  · intro h
    have hfile := congrArg String.toList (objectKey_inj h)
    rw [String.toList_append, String.toList_append] at hfile
    exact String.toList_injective (List.append_cancel_right hfile)
  · intro h
    rw [h]

/-! ## The record put -/

/-- A signed record is made of what was read, learnt and signed, in that
order. -/
theorem exec_clientPrepare {draft : Draft} (h : (clientPrepare args).run.Exec tr (.ok draft)) :
    ∃ (signingKey : SigningKey) (ip : IpAddr) (t₁ t₂ t₃ : Trace), tr = t₁ ++ (t₂ ++ t₃) ∧
      ConfigClient.parse args = .ok draft.conf ∧
      draft.path = ddnsJsonPath draft.conf (dnsObj draft.conf ip) ∧
      (clientSigningKey draft.conf).run.Exec t₁ (.ok signingKey) ∧
      (queryForIp draft.conf).run.Exec t₂ (.ok ip) ∧
      ((SignableEnvelope.new (dnsObj draft.conf ip)).sign signingKey).run.Exec t₃
        (.ok draft.content) := by
  unfold clientPrepare at h
  obtain ⟨conf, t₀, u₀, rfl, h₀, hrest₀⟩ := exec_bind_ok.mp h
  obtain ⟨rfl, hconf⟩ := exec_ofResult.mp h₀
  rw [Result.context_eq_ok] at hconf
  obtain ⟨signingKey, t₁, u₁, rfl, h₁, hrest₁⟩ := exec_bind_ok.mp hrest₀
  obtain ⟨ip, t₂, u₂, rfl, h₂, hrest₂⟩ := exec_bind_ok.mp hrest₁
  obtain ⟨content, t₃, u₃, rfl, h₃, hrest₃⟩ := exec_bind_ok.mp hrest₂
  obtain ⟨rfl, heq⟩ := exec_pure.mp hrest₃
  cases heq
  exact ⟨signingKey, ip, t₁, t₂, t₃, by simp, hconf, rfl, h₁, exec_context_ok.mp h₂,
    exec_context_ok.mp h₃⟩

/-- The put of a signed record, as an event. -/
def Draft.putEvent (draft : Draft) (ans : Result ℕ) : Event :=
  ⟨.putObject draft.conf.s3QueueBucket draft.path draft.content "application/json", ans⟩

/-- **What follows the signing** of a run that is not dry: calls that
change nothing, and at most one put, of the record and the last of all. -/
theorem admits_clientFinish {draft : Draft} (hdry : draft.conf.isDryRun = false)
    (h : (clientFinish draft).run.Admits tr) :
    ∃ pre, (∀ e ∈ pre, e.op.kind = .handle) ∧
      (tr = pre ∨ ∃ ans, tr = pre ++ [draft.putEvent ans]) := by
  have hhandle : ∀ {t : Trace}, (tryCall (call (.bucketNew draft.conf.s3QueueBucket
      draft.conf.awsConfig.region))).run.Admits t → ∀ e ∈ t, e.op.kind = .handle := fun ht =>
    ht.of_uses (uses_call (P := (·.kind = .handle)) |>.mpr rfl)
  unfold clientFinish at h
  rw [if_neg (by rw [hdry]; exact Bool.false_ne_true)] at h
  rcases admits_bind.mp h with h | ⟨_, t₁, t₂, rfl, h₁, h₂⟩
  · rw [admits_ofResult.mp h]
    exact ⟨[], by simp, Or.inl rfl⟩
  obtain ⟨rfl, -⟩ := exec_ofResult.mp h₁
  rcases admits_bind.mp h₂ with h₂ | ⟨_, t₃, t₄, rfl, h₃, h₄⟩
  · exact ⟨t₂, h₂.of_uses uses_getS3Credentials, Or.inl rfl⟩
  have hcred := h₃.admits.of_uses uses_getS3Credentials
  rcases admits_bind.mp h₄ with h₄ | ⟨_, t₅, t₆, rfl, h₅, h₆⟩
  · refine ⟨t₃ ++ t₄, fun e he => ?_, Or.inl rfl⟩
    exact (List.mem_append.mp he).elim (hcred e) (hhandle h₄ e)
  have hpre : ∀ e ∈ t₃ ++ t₅, e.op.kind = .handle := fun e he =>
    (List.mem_append.mp he).elim (hcred e) (hhandle h₅.admits e)
  -- the put, and nothing after it
  have hput : t₆ = [] ∨ ∃ ans, t₆ = [draft.putEvent ans] := by
    rcases admits_bind.mp h₆ with h₆ | ⟨status, t₇, t₈, rfl, h₇, h₈⟩
    · exact admits_call.mp (admits_context.mp h₆)
    · obtain rfl := exec_call.mp (exec_context_ok.mp h₇)
      have hnil : t₈ = [] := by split at h₈ <;> exact h₈
      rw [hnil]
      exact Or.inr ⟨.ok status, rfl⟩
  refine ⟨t₃ ++ t₅, hpre, ?_⟩
  rcases hput with rfl | ⟨ans, rfl⟩
  · exact Or.inl (by simp)
  · exact Or.inr ⟨ans, by simp⟩

/-- A run that returns has put the record, last of all. -/
theorem exec_clientFinish {draft : Draft} (hdry : draft.conf.isDryRun = false)
    (h : (clientFinish draft).run.Exec tr (.ok ())) :
    ∃ pre, (∀ e ∈ pre, e.op.kind = .handle) ∧ tr = pre ++ [draft.putEvent (.ok 200)] := by
  have hmem : draft.putEvent (.ok 200) ∈ tr := by
    have hexec := h
    unfold clientFinish at hexec
    rw [if_neg (by rw [hdry]; exact Bool.false_ne_true)] at hexec
    obtain ⟨_, t₁, t₂, rfl, -, h₂⟩ := exec_bind_ok.mp hexec
    obtain ⟨_, t₃, t₄, rfl, -, h₄⟩ := exec_bind_ok.mp h₂
    obtain ⟨_, t₅, t₆, rfl, -, h₆⟩ := exec_bind_ok.mp h₄
    obtain ⟨status, t₇, t₈, rfl, h₇, h₈⟩ := exec_bind_ok.mp h₆
    obtain rfl := exec_call.mp (exec_context_ok.mp h₇)
    split at h₈
    · cases (exec_throw.mp h₈).2
    · next hstatus =>
      obtain rfl : status = 200 := not_not.mp hstatus
      simp [Draft.putEvent]
  obtain ⟨pre, hpre, rfl | ⟨ans, rfl⟩⟩ := admits_clientFinish hdry h.admits
  · exact absurd (hpre _ hmem) Kind.noConfusion
  · rcases List.mem_append.mp hmem with hmem | hmem
    · exact absurd (hpre _ hmem) Kind.noConfusion
    · exact ⟨pre, hpre, by rw [← List.mem_singleton.mp hmem]⟩

/-- **A publication**: what a client read, learnt and signed, each with
the part of the run it took, and the put the run ends with. -/
structure Publication (args : ClientArgs) (tr : Trace) where
  conf : ConfigClient
  signingKey : SigningKey
  ip : IpAddr
  content : Bytes
  /-- The parts of the run: the key, the address, the signing, the credentials. -/
  keyTrace : Trace
  ipTrace : Trace
  signTrace : Trace
  credentialsTrace : Trace
  parsed : ConfigClient.parse args = .ok conf
  keyRun : (clientSigningKey conf).run.Exec keyTrace (.ok signingKey)
  ipRun : (queryForIp conf).run.Exec ipTrace (.ok ip)
  signRun : ((SignableEnvelope.new (dnsObj conf ip)).sign signingKey).run.Exec signTrace (.ok content)
  /-- Nothing before the put changes anything outside. -/
  quiet : ∀ e ∈ keyTrace ++ ipTrace ++ signTrace ++ credentialsTrace,
    e.op.kind ∉ [Kind.put, .delete, .post]
  trace_eq : tr = keyTrace ++ ipTrace ++ signTrace ++ credentialsTrace ++
    [⟨.putObject conf.s3QueueBucket (ddnsJsonPath conf (dnsObj conf ip)) content "application/json",
      .ok 200⟩]

/-- **A client that returned has put its record**, last of all it did,
under the path made of its directory and its domain. -/
theorem exec_handleClient (h : (handleClient args).run.Exec tr (.ok ()))
    (hdry : args.isDryRun = false) : Nonempty (Publication args tr) := by
  rw [handleClient_eq] at h
  obtain ⟨⟨conf, path, content⟩, t, t', rfl, hprepare, hfinish⟩ := exec_bind_ok.mp h
  obtain ⟨signingKey, ip, t₁, t₂, t₃, rfl, hconf, hpath, hkey, hip, hsign⟩ :=
    exec_clientPrepare hprepare
  dsimp only at hpath
  subst hpath
  obtain ⟨-, -, -, hsame, -⟩ := ConfigClient.parse_eq_ok hconf
  obtain ⟨pre, hpre, rfl⟩ := exec_clientFinish (hsame.trans hdry) hfinish
  have hquiet := hprepare.admits.of_uses uses_clientPrepare
  refine ⟨{
    conf
    signingKey
    ip
    content
    keyTrace := t₁
    ipTrace := t₂
    signTrace := t₃
    credentialsTrace := pre
    parsed := hconf
    keyRun := hkey
    ipRun := hip
    signRun := hsign
    quiet := fun e he => ?_
    trace_eq := by simp [Draft.putEvent] }⟩
  rw [List.append_assoc, List.append_assoc, ← List.append_assoc t₂, ← List.append_assoc t₁] at he
  rcases List.mem_append.mp he with he | he
  · have hmem := hquiet e he
    simp only [List.mem_cons, List.not_mem_nil, or_false] at hmem
    rcases hmem with hk | hk | hk | hk <;> simp [hk]
  · simp [hpre e he]

/-- **All a publication does is put its object.** -/
theorem Publication.world_eq (p : Publication args tr) {tokenKey : String → String} {w w' : World}
    (h : World.Run tokenKey w tr w') :
    w' = w.put p.conf.s3QueueBucket (putKey p.conf p.ip) p.content := by
  rw [p.trace_eq] at h
  obtain ⟨m, hm, m', hput, rfl⟩ := along_append.mp h
  obtain rfl := World.Run.eq_of_quiet hm p.quiet
  -- a put answered with 200 has taken effect
  rcases hput with rfl | ⟨-, hno⟩
  · rfl
  · exact absurd rfl hno

end DynDynser
