import DynDynser.Isolation
import DynDynser.Model.Main
import DynDynser.Preview
/-!
# The three commands

The executable is one, and its command line says what a process of it is:
a server, a client, or a question for the address. The question is the
client's own, so its answer is what the client would publish
(`ip_foretells`). And whatever processes of it run side by side, each part
of the world is changed by one command only: the records by servers of the
zone, and objects are put by clients of the domain and go by servers of the
bucket, none of them started as a dry run (`main_roles`).
-/

namespace DynDynser

open Text Interact Fallible World Externals

section

variable [Externals] {fuel : ℕ} {iargs : IPArgs} {cargs : ClientArgs} {t tr : Trace}

/-! ## The question for the address -/

/-- An address as text. -/
def IpAddr.display : IpAddr → String
  | .v4 a => ipv4Display a
  | .v6 a => ipv6Display a

omit [Externals] in
/-- Is an address of the family that is not to be told? -/
def IPArgs.excludes (args : IPArgs) : IpAddr → Bool
  | .v4 _ => args.forceIpv6
  | .v6 _ => args.forceIpv4

/-- **What the question tells of an address**: the lines it prints, and what
it returns. Both families are refused with one text. -/
def IPArgs.tells (args : IPArgs) (ip : IpAddr) : List String × Result Unit :=
  if args.forceIpv4 && args.forceIpv6 then
    ([], .error (Error.context
      (Error.msg ("force_ipv4 and force_ipv6 cannot both be true at the same time. " ++
        "Either leave both unset, or choose only one")) "failed to parse IP config"))
  else if !args.getPublic then ([], .ok ())
  else if args.excludes ip then
    ([], .error
      (Error.msg s!"returned IP address was ipv4, but force-ipv6 was set: {ip.display}"))
  else ([ip.display], .ok ())

/-- The one call of a query. -/
theorem exec_queryForIp {conf : ConfigClient} {q : Result IpAddr}
    (h : (queryForIp conf).run.Exec t q) : ∃ x, t = [⟨.httpGet conf.ipAddrCheckUrl, x⟩] := by
  unfold queryForIp at h
  obtain ⟨_, h₁, -⟩ | ⟨res, t₁, t₂, rfl, h₁, h₂⟩ := Fallible.exec_bind.mp h
  · obtain ⟨x, h₁, -⟩ := exec_context.mp h₁
    exact ⟨x, exec_call.mp h₁⟩
  · have hnil : t₂ = [] := by
      split at h₂
      · exact h₂.1
      · obtain ⟨_, h₃, -⟩ | ⟨bytes, t₃, t₄, rfl, h₃, h₄⟩ := Fallible.exec_bind.mp h₂
        · exact (exec_ofResult.mp h₃).1
        · rw [(exec_ofResult.mp h₃).1]
          dsimp only at h₄
          split at h₄ <;> exact h₄.1
    rw [hnil, exec_call.mp (exec_context_ok.mp h₁)]
    exact ⟨_, rfl⟩

theorem uses_handleIp : (handleIp iargs).run.Uses (·.kind ∈ [Kind.query, .print]) := by
  have hprint : ∀ text, (printLine text).run.Uses (·.kind ∈ [Kind.query, .print]) := fun _ =>
    uses_ask.mpr (by simp [Op.kind])
  unfold handleIp
  refine uses_bind uses_ofResult fun conf => ?_
  split
  · refine uses_bind ?_ fun domain =>
      uses_bind (uses_context (uses_queryForIp.mono fun o ho => by simp [ho])) fun ip => ?_
    · cases DomainName.parse "sample.arpa" <;> trivial
    · split <;> split <;> first | exact uses_throw | exact hprint _
  · exact uses_pure

/-- A query depends on its address only. -/
theorem queryForIp_congr {conf conf' : ConfigClient}
    (h : conf.ipAddrCheckUrl = conf'.ipAddrCheckUrl) : queryForIp conf = queryForIp conf' := by
  unfold queryForIp
  rw [h]

omit [Externals] in
theorem parse_sample : DomainName.parse "sample.arpa" = .ok ⟨"sample.arpa"⟩ := by
  decide +kernel

/-- **The question for the address is a query of a client**, if it is one at
all, and what it tells is what became of the query. -/
theorem exec_handleIp {r : Result Unit} (h : (handleIp iargs).run.Exec t r) {conf : ConfigClient}
    (hurl : conf.ipAddrCheckUrl = iargs.ipAddrCheckUrl) :
    (∀ ip, (printed t, r) = iargs.tells ip) ∨
      ∃ q t₁ t₂, t = t₁ ++ t₂ ∧ (queryForIp conf).run.Exec t₁ q ∧
        ∀ ip, q = .ok ip → (printed t, r) = iargs.tells ip := by
  unfold handleIp at h
  by_cases hboth : (iargs.forceIpv4 && iargs.forceIpv6) = true
  · left
    obtain ⟨_, h₁, rfl⟩ | ⟨conf', t₁, t₂, rfl, h₁, -⟩ := Fallible.exec_bind.mp h
    · obtain ⟨rfl, heq⟩ := exec_ofResult.mp h₁
      rw [IPConfig.parse, if_pos hboth] at heq
      cases heq
      exact fun ip => (if_pos hboth).symm
    · obtain ⟨-, heq⟩ := exec_ofResult.mp h₁
      rw [IPConfig.parse, if_pos hboth] at heq
      cases heq
  obtain ⟨_, h₁, -⟩ | ⟨conf', t₁, t₂, rfl, h₁, h₂⟩ := Fallible.exec_bind.mp h
  · obtain ⟨-, heq⟩ := exec_ofResult.mp h₁
    rw [IPConfig.parse, if_neg hboth] at heq
    cases heq
  obtain ⟨rfl, heq⟩ := exec_ofResult.mp h₁
  rw [IPConfig.parse, if_neg hboth] at heq
  cases heq
  rw [List.nil_append]
  cases hpublic : iargs.getPublic with
  | false =>
    -- nobody is asked
    left
    rw [if_neg (by rw [hpublic]; exact Bool.false_ne_true)] at h₂
    obtain ⟨rfl, rfl⟩ := exec_pure.mp h₂
    intro ip
    rw [IPArgs.tells, if_neg hboth, hpublic]
    rfl
  | true =>
    right
    rw [if_pos hpublic, parse_sample] at h₂
    obtain ⟨_, h₃, -⟩ | ⟨domain, t₃, t₄, rfl, h₃, h₄⟩ := Fallible.exec_bind.mp h₂
    · cases (exec_pure.mp h₃).2
    obtain ⟨rfl, -⟩ := exec_pure.mp h₃
    rw [List.nil_append]
    have hquery : ∀ conf' domain, conf'.ipAddrCheckUrl = iargs.ipAddrCheckUrl →
        queryForIp (dummyConfig conf' domain) = queryForIp conf := fun _ _ hconf =>
      queryForIp_congr (hconf.trans hurl.symm)
    obtain ⟨e, h₅, rfl⟩ | ⟨ip, t₅, t₆, rfl, h₅, h₆⟩ := Fallible.exec_bind.mp h₄
    · obtain ⟨q, h₅, hq⟩ := exec_context.mp h₅
      rw [hquery _ _ rfl] at h₅
      refine ⟨q, t₄, [], (List.append_nil _).symm, h₅, fun ip hip => ?_⟩
      rw [hip] at hq
      cases hq
    · have hq := exec_context_ok.mp h₅
      rw [hquery _ _ rfl] at hq
      refine ⟨.ok ip, t₅, t₆, rfl, hq, ?_⟩
      rintro _ ⟨⟩
      obtain ⟨x, rfl⟩ := exec_queryForIp hq
      rw [IPArgs.tells, if_neg hboth, hpublic]
      cases ip <;>
      · dsimp only at h₆
        split at h₆
        · next hforce =>
          obtain ⟨rfl, rfl⟩ := exec_throw.mp h₆
          exact (if_pos hforce).symm
        · next hforce =>
          obtain ⟨_, rfl, rfl⟩ := exec_ask.mp h₆
          exact (if_neg hforce).symm

omit [Externals] in
theorem ConfigClient.ipAddrCheckUrl_of_parse {conf : ConfigClient}
    (h : ConfigClient.parse cargs = .ok conf) : conf.ipAddrCheckUrl = cargs.ipAddrCheckUrl := by
  unfold ConfigClient.parse at h
  cases hdomain : DomainName.parse cargs.domainToUpdate <;> rw [hdomain] at h <;> cases h
  rfl

/-- **The question for the address foretells.** Where the address service
answers a question alike, what is printed is the value of the record the
client publishes, letter for letter, unless the flags refuse it; and
nothing is printed where the address is not asked for. -/
theorem ip_foretells {r : Result Unit} (h : (handleIp iargs).run.Exec t r)
    (p : Publication cargs tr) (hurl : iargs.ipAddrCheckUrl = cargs.ipAddrCheckUrl)
    (hsame : ∀ x y, (⟨.httpGet iargs.ipAddrCheckUrl, x⟩ : Event) ∈ t →
      (⟨.httpGet iargs.ipAddrCheckUrl, y⟩ : Event) ∈ tr → x = y) :
    (dnsObj p.conf p.ip).data.values = [p.ip.display] ∧ (printed t, r) = iargs.tells p.ip := by
  have hconf : p.conf.ipAddrCheckUrl = iargs.ipAddrCheckUrl :=
    (ConfigClient.ipAddrCheckUrl_of_parse p.parsed).trans hurl.symm
  refine ⟨?_, ?_⟩
  · cases hip : p.ip <;> rfl
  rcases exec_handleIp h hconf with htells | ⟨q, t₁, t₂, rfl, hquery, htells⟩
  · exact htells p.ip
  refine htells p.ip ?_
  -- both have made the one call, and were answered alike
  obtain ⟨x, rfl⟩ := exec_queryForIp hquery
  obtain ⟨y, hy⟩ := exec_queryForIp p.ipRun
  have hmem : (⟨.httpGet iargs.ipAddrCheckUrl, y⟩ : Event) ∈ tr := by
    rw [p.trace_eq, hy, hconf]
    simp
  rw [hconf] at hquery hy
  obtain rfl := hsame x y (by rw [hconf]; simp) hmem
  have hrun := p.ipRun
  rw [hy] at hrun
  have heq : ([⟨.httpGet iargs.ipAddrCheckUrl, x⟩] : Trace) ++ [] =
      [⟨.httpGet iargs.ipAddrCheckUrl, x⟩] ++ [] := rfl
  exact (hquery.unique hrun heq).2.1

end

namespace Sample

/-- The question for the address, to the service the client asks. -/
def ipArgs : IPArgs where
  ipAddrCheckUrl := "https://checkip.amazonaws.com"
  getPublic := true
  forceIpv4 := true
  forceIpv6 := false

/-- Its run. -/
@[irreducible] def ipRun : Services.Observed (Result Unit) :=
  (@handleIp externals ipArgs).run.drive (Services.answer (host 1780000000 inRange000))
    (vacant ["d/augs.sarif.example.ddns.json"] augs_sorted)

theorem ipRun_driven : Services.Driven (host 1780000000 inRange000) (@handleIp externals ipArgs).run
    (vacant ["d/augs.sarif.example.ddns.json"] augs_sorted) ipRun := by
  unfold ipRun
  exact Services.driven _ _ _

theorem ipRun_shows : ipRun.2.1 = .ok (.ok ()) ∧ printed ipRun.1 = ["192.168.1.2"] := by
  decide +kernel

/-- Every host is told the same address. -/
theorem same_address {x y : Result (Response Bytes)} {url : String}
    (hx : (⟨.httpGet url, x⟩ : Event) ∈ ipRun.1) (hy : (⟨.httpGet url, y⟩ : Event) ∈ putRun.1) :
    x = y := by
  unfold ipRun at hx
  unfold putRun clientRun at hy
  obtain ⟨_, rfl⟩ := Prog.ans_of_mem_drive hx
  obtain ⟨_, rfl⟩ := Prog.ans_of_mem_drive hy
  rfl

end Sample

/-- The sample client publishes what the question is answered. -/
theorem ip_foretells_sample :
    letI := Sample.externals
    ∃ p : Publication (Sample.clientArgs "d") Sample.putRun.1,
      (dnsObj p.conf p.ip).data.values = ["192.168.1.2"] := by
  let := Sample.externals
  obtain ⟨p⟩ := exec_handleClient (Sample.putRun_driven.exec Sample.putRun_ok) rfl
  obtain ⟨hok, hline⟩ := Sample.ipRun_shows
  obtain ⟨hvalues, htells⟩ := ip_foretells (Sample.ipRun_driven.exec hok) p rfl
    fun x y => Sample.same_address
  refine ⟨p, ?_⟩
  rw [hvalues]
  rw [hline] at htells
  cases hip : p.ip with
  | v4 a =>
    rw [hip] at htells
    exact (congrArg Prod.fst htells).symm
  | v6 a =>
    rw [hip] at htells
    cases congrArg Prod.fst htells

section

variable [Externals] {fuel : ℕ} {command : SubCommands} {tr : Trace}
variable {ι : Type} [DecidableEq ι] {procs : ι → Io (Result Unit)}
variable {commands : ι → SubCommands} {h : History ι Event}
variable {tokenKey : String → String} {w w' : World}

/-! ## What each command changes -/

/-- A server that is not dry, of that bucket and that zone. -/
structure SubCommands.Serves (command : SubCommands) (args : ServerArgs) : Prop where
  server : command = .server args
  wet : args.isDryRun = false

/-- A client that is not dry, with what it is configured for. -/
structure SubCommands.Publishes (command : SubCommands) (args : ClientArgs) (conf : ConfigClient) :
    Prop where
  client : command = .client args
  wet : args.isDryRun = false
  parsed : ConfigClient.parse args = .ok conf

/-- The program of a command. -/
def SubCommands.program (fuel : ℕ) : SubCommands → Rust Unit
  | server args => handleServer fuel args
  | client args => handleClient args
  | ip args => handleIp args

omit [Externals] in
theorem uses_initGlobalLoggers : initGlobalLoggers.run.Uses (·.kind = .logger) := by
  unfold initGlobalLoggers
  refine uses_bind (uses_ask.mpr rfl) fun syslog => ?_
  split
  · exact uses_pure
  · exact uses_throw

/-- **A process sets its loggers, and then runs its command.** -/
theorem admits_main (h : (main fuel command).run.Admits tr) :
    ∃ t₁ t₂, tr = t₁ ++ t₂ ∧ (∀ e ∈ t₁, e.op.kind = .logger) ∧
      (command.program fuel).run.Admits t₂ := by
  have hmain : main fuel command = initGlobalLoggers >>= fun _ => command.program fuel := by
    cases command <;> rfl
  rw [hmain] at h
  rcases admits_bind.mp h with h | ⟨_, t₁, t₂, rfl, h₁, h₂⟩
  · exact ⟨tr, [], (List.append_nil tr).symm, h.of_uses uses_initGlobalLoggers, Prog.admits_nil _⟩
  · exact ⟨t₁, t₂, rfl, h₁.admits.of_uses uses_initGlobalLoggers, h₂⟩

/-- A run of a command is one of a process that has set its loggers. -/
theorem admits_main_of_program (h : (command.program fuel).run.Admits tr) :
    (main fuel command).run.Admits (⟨.syslogUnix, .ok ()⟩ :: tr) := by
  have hloggers : initGlobalLoggers.run.Exec [⟨.syslogUnix, .ok ()⟩] (.ok ()) :=
    exec_bind_ok.mpr ⟨.ok (), _, [], rfl, exec_ask.mpr ⟨_, rfl, rfl⟩, exec_pure.mpr ⟨rfl, rfl⟩⟩
  refine admits_bind.mpr (Or.inr ⟨(), _, tr, rfl, hloggers, ?_⟩)
  cases command <;> exact h

/-- What a process does to the world its command does. -/
theorem admits_program (h : (main fuel command).run.Admits tr) :
    ∃ t, (command.program fuel).run.Admits t ∧ ∀ e ∈ tr, e.op.kind ≠ .logger → e ∈ t := by
  obtain ⟨t₁, t₂, rfl, hlogger, h₂⟩ := admits_main h
  exact ⟨t₂, h₂, fun e he hk => (List.mem_append.mp he).resolve_left fun hmem =>
    hk (hlogger e hmem)⟩

/-- **Posts are of servers**, for their zone. -/
theorem server_of_post (h : (main fuel command).run.Admits tr) {req : ChangeRequest}
    {ans : Result (Response String)} (he : (⟨.changeResourceRecordSets req, ans⟩ : Event) ∈ tr) :
    ∃ args, command.Serves args ∧ req.url = changeUrl args.hostedDnsZoneId := by
  obtain ⟨t, hadmits, hevents⟩ := admits_program h
  have he := hevents _ he Kind.noConfusion
  cases command with
  | server args =>
    refine ⟨args, ⟨rfl, ?_⟩, keeps_of_handleServer hadmits _ he⟩
    rcases admits_handleServer hadmits with ⟨hposts, -⟩ | ⟨hwet, -⟩
    · have hreq : req ∈ posts t := List.mem_filterMap.mpr ⟨_, he, rfl⟩
      rw [hposts] at hreq
      cases hreq
    · exact hwet
  | client args =>
    have hk := hadmits.of_uses uses_handleClient _ he
    simp [Op.kind] at hk
  | ip args =>
    have hk := hadmits.of_uses uses_handleIp _ he
    simp [Op.kind] at hk

omit [Externals] in
/-- A slash dropped in front leaves the end of a file's name. -/
theorem endsWith_objectKey {path : String} (h : endsWith path ddnsJsonFileExt = true) :
    endsWith (objectKey path) ddnsJsonFileExt = true := by
  rcases objectKey_eq_or path with hsame | hsame
  · rwa [hsame]
  · obtain ⟨x, hx⟩ := List.isSuffixOf_iff_suffix.mp h
    rw [hsame] at hx
    refine List.isSuffixOf_iff_suffix.mpr ?_
    rcases List.append_eq_cons_iff.mp hx with ⟨-, hx⟩ | ⟨y, -, hx⟩
    · cases congrArg List.head? hx
    · exact ⟨y, hx.symm⟩

/-- **Deletes are of servers**, in their bucket, and of requests. -/
theorem server_of_delete (h : (main fuel command).run.Admits tr) {bucket key : String}
    {ans : Result ℕ} (he : (⟨.deleteObject bucket key, ans⟩ : Event) ∈ tr) :
    ∃ args, command.Serves args ∧ bucket = args.s3QueueBucket ∧
      endsWith key ddnsJsonFileExt = true := by
  obtain ⟨t, hadmits, hevents⟩ := admits_program h
  have he := hevents _ he Kind.noConfusion
  cases command with
  | server args =>
    obtain ⟨plan, t₁, t₂, -, -, rfl, hplan, hbucket, hkey, -⟩ := plan_of_deleteObject hadmits he
    obtain ⟨p⟩ := exec_prepare hplan
    obtain ⟨answer, hget⟩ := p.get_of_mem_deleteKeys hkey
    refine ⟨args, ⟨rfl, ?_⟩, hbucket, (p.eligible_of_get hget).2⟩
    rcases admits_handleServer hadmits with ⟨-, hdeletes, -⟩ | ⟨hwet, -⟩
    · have hmem : key ∈ deletes (t₁ ++ t₂) := mem_deletes.mpr ⟨bucket, ans, he⟩
      rw [hdeletes] at hmem
      cases hmem
    · exact hwet
  | client args =>
    have hk := hadmits.of_uses uses_handleClient _ he
    simp [Op.kind] at hk
  | ip args =>
    have hk := hadmits.of_uses uses_handleIp _ he
    simp [Op.kind] at hk

/-- **Puts are of clients**, at the place of their domain. -/
theorem client_of_put (h : (main fuel command).run.Admits tr) {bucket path contentType : String}
    {content : Bytes} {ans : Result ℕ}
    (he : (⟨.putObject bucket path content contentType, ans⟩ : Event) ∈ tr) :
    ∃ args conf ip, command.Publishes args conf ∧ bucket = conf.s3QueueBucket ∧
      objectKey path = putKey conf ip := by
  obtain ⟨t, hadmits, hevents⟩ := admits_program h
  have he := hevents _ he Kind.noConfusion
  cases command with
  | server args => exact absurd rfl (hadmits.of_uses uses_handleServer _ he)
  | client args =>
    unfold SubCommands.program at hadmits
    dsimp only at hadmits
    rw [handleClient_eq] at hadmits
    rcases admits_bind.mp hadmits with hprepare | ⟨draft, t₁, t₂, rfl, h₁, h₂⟩
    · have hk := hprepare.of_uses uses_clientPrepare _ he
      simp [Op.kind] at hk
    have he₂ := (List.mem_append.mp he).resolve_left fun hmem => by
      have hk := h₁.admits.of_uses uses_clientPrepare _ hmem
      simp [Op.kind] at hk
    obtain ⟨-, ip, -, -, -, -, hparse, hpath, -⟩ := exec_clientPrepare h₁
    have hwet : draft.conf.isDryRun = false := by
      by_contra hdry
      rw [clientFinish, if_pos ((Bool.not_eq_false _).mp hdry)] at h₂
      -- a dry run prints, and puts nothing
      have hk := h₂.of_uses (uses_ask (P := (·.kind = .print)) |>.mpr rfl) _ he₂
      cases hk
    obtain ⟨-, -, -, hsame, -⟩ := ConfigClient.parse_eq_ok hparse
    refine ⟨args, draft.conf, ip, ⟨rfl, hsame.symm.trans hwet, hparse⟩, ?_⟩
    obtain ⟨pre, hpre, rfl | ⟨ans', rfl⟩⟩ := admits_clientFinish hwet h₂
    · cases hpre _ he₂
    · rcases List.mem_append.mp he₂ with hmem | hmem
      · cases hpre _ hmem
      · cases List.mem_singleton.mp hmem
        exact ⟨rfl, by rw [hpath]; rfl⟩
  | ip args =>
    have hk := hadmits.of_uses uses_handleIp _ he
    simp [Op.kind] at hk

/-- **Each part of the world is changed by one command.** Whatever processes
of the executable run side by side, by whatever command lines: a record
changes only where there is a server of its zone; an object goes only where
there is a server of its bucket, and only if its key is that of a request;
and an object is put only where there is a client of its bucket and its
domain. None of these was started as a dry run. -/
theorem main_roles (hprocs : ∀ i, ∃ fuel, procs i = (main fuel (commands i)).run)
    (hi : Interleaving procs (Step tokenKey) w h w') :
    (∀ url k, w'.records url k ≠ w.records url k →
      ∃ i args, (commands i).Serves args ∧ changeUrl args.hostedDnsZoneId = url) ∧
    (∀ bucket key, w.objects bucket key ≠ none → w'.objects bucket key = none →
      ∃ i args, (commands i).Serves args ∧ args.s3QueueBucket = bucket ∧
        endsWith key ddnsJsonFileExt = true) ∧
    ∀ bucket key, w'.objects bucket key ≠ w.objects bucket key → w'.objects bucket key ≠ none →
      ∃ i args conf ip, (commands i).Publishes args conf ∧ conf.s3QueueBucket = bucket ∧
        putKey conf ip = key := by
  have hadmits : ∀ i e, (i, e) ∈ h → ∃ fuel tr, (main fuel (commands i)).run.Admits tr ∧ e ∈ tr := by
    intro i e he
    obtain ⟨fuel, hproc⟩ := hprocs i
    exact ⟨fuel, h.events i, hproc ▸ hi.admits i, History.mem_events.mpr he⟩
  refine ⟨fun url k hne => ?_, fun bucket key hsome hnone => ?_, fun bucket key hne hsome => ?_⟩
  · by_contra hno
    refine hne ((along_map.mp hi.along).invariant
      (I := fun v => v.records url k = w.records url k) ?_ rfl)
    rintro ⟨i, e⟩ he a b hstep ha
    rcases zone_cases hstep url with ⟨req, ans, rfl, hurl, -⟩ | ⟨heq, -⟩
    · obtain ⟨fuel, tr, hmain, hmem⟩ := hadmits i _ he
      obtain ⟨args, hserves, hzone⟩ := server_of_post hmain hmem
      exact absurd ⟨i, args, hserves, hzone.symm.trans hurl⟩ hno
    · rw [heq, ha]
  · by_contra hno
    refine absurd hnone ((along_map.mp hi.along).invariant
      (I := fun v => v.objects bucket key ≠ none) ?_ hsome)
    rintro ⟨i, e⟩ he a b hstep ha
    rcases Step.object_cases hstep bucket key with heq | ⟨path, ans, rfl, hpath, -⟩ |
      ⟨_, _, _, _, -, -, hput⟩
    · rwa [heq]
    · obtain ⟨fuel, tr, hmain, hmem⟩ := hadmits i _ he
      obtain ⟨args, hserves, hbucket, hext⟩ := server_of_delete hmain hmem
      have hkey := endsWith_objectKey hext
      rw [hpath] at hkey
      exact absurd ⟨i, args, hserves, hbucket.symm, hkey⟩ hno
    · rw [hput]
      exact Option.some_ne_none _
  · by_contra hno
    have hkept : w'.objects bucket key = w.objects bucket key ∨ w'.objects bucket key = none := by
      refine (along_map.mp hi.along).invariant (I := fun v =>
        v.objects bucket key = w.objects bucket key ∨ v.objects bucket key = none) ?_ (Or.inl rfl)
      rintro ⟨i, e⟩ he a b hstep ha
      rcases Step.object_cases hstep bucket key with heq | ⟨_, _, -, -, hgone⟩ |
        ⟨path, content, contentType, ans, rfl, hpath, -⟩
      · rwa [heq]
      · exact Or.inr hgone
      · obtain ⟨fuel, tr, hmain, hmem⟩ := hadmits i _ he
        obtain ⟨args, conf, ip, hpublishes, hbucket, hkey⟩ := client_of_put hmain hmem
        exact absurd ⟨i, args, conf, ip, hpublishes, hbucket.symm, hkey.symm.trans hpath⟩ hno
    exact hkept.elim hne hsome

end

namespace Sample

/-- The command lines of the sample history. -/
def commands : ℕ → SubCommands
  | 0 => .server serverArgs
  | _ => .client (clientArgs "d")

/-- The process of the client, and then that of the server. -/
def processHistory : History ℕ Event :=
  History.ofRun 1 (⟨.syslogUnix, .ok ()⟩ :: putRun.1) ++
    History.ofRun 0 (⟨.syslogUnix, .ok ()⟩ :: servedRun.1)

theorem commands_interleaving :
    Interleaving (fun i => (@main externals 1 (commands i)).run) (Step id)
      (vacant ["d/augs.sarif.example.ddns.json"] augs_sorted).world processHistory
      servedRun.2.2.world := by
  let := externals
  have hclient : (main 1 (commands 1)).run.Admits (⟨.syslogUnix, .ok ()⟩ :: putRun.1) :=
    admits_main_of_program (putRun_driven.exec putRun_ok).admits
  have hserver : (main 1 (commands 0)).run.Admits (⟨.syslogUnix, .ok ()⟩ :: servedRun.1) :=
    admits_main_of_program (servedRun_driven.exec servedRun_shows.1).admits
  have hfirst : Interleaving (fun i => (main 1 (commands i)).run) (Step id)
      (vacant ["d/augs.sarif.example.ddns.json"] augs_sorted).world
      (History.ofRun 1 (⟨.syslogUnix, .ok ()⟩ :: putRun.1)) putRun.2.2.world :=
    Interleaving.ofRun hclient (along_cons.mpr ⟨_, rfl, putRun_driven.world⟩)
  exact hfirst.append_run (History.events_ofRun_of_ne (by decide)) hserver
    (along_cons.mpr ⟨_, rfl, servedRun_driven.world⟩)

end Sample

/-- The record of the sample history was changed by its server. -/
theorem main_roles_sample : ∃ i args, (Sample.commands i).Serves args ∧
    changeUrl args.hostedDnsZoneId = changeUrl "Z1" := by
  let := Sample.externals
  refine (main_roles (fun i => ⟨1, rfl⟩) Sample.commands_interleaving).1 (changeUrl "Z1")
    ("augs.sarif.example.", .a) fun heq => ?_
  have hsome := Sample.servedRun_shows.2.2.2
  rw [heq] at hsome
  cases hsome

end DynDynser
