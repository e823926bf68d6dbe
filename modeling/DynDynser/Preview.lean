import DynDynser.Helpers.Publish
import DynDynser.Helpers.Services
import DynDynser.Helpers.Stages
/-!
# What a dry run says

A dry run prints what would be done and does nothing. The run up to there
does not look at the flag, so a run without it that is answered alike comes
to the same plan; from there on it does what was printed, in that order, or
stops before (`dry_run_foretells`, `client_dry_run_foretells`). What was
printed is read off the dry run's own lines: those that say what would be
done are modelled, those that only report progress are not.
-/

namespace DynDynser

open Text Interact Fallible DynDynserServer

section

variable [Externals] {fuel : ℕ} {args : ServerArgs} {conf : ConfigServer} {tr : Trace} {b : Bool}

/-! ## The flag and the preparation -/

/-- A configuration with the flag as given. -/
def ConfigServer.withDryRun (conf : ConfigServer) (b : Bool) : ConfigServer :=
  { conf with isDryRun := b }

/-- A plan of a server with the flag as given. -/
def Plan.withDryRun (plan : Plan) (b : Bool) : Plan :=
  { plan with server := { plan.server with conf := plan.server.conf.withDryRun b } }

/-- The fetch does not look at the flag. -/
theorem fetch_withDryRun {credentials : Credentials} :
    fetchDdnsJsonsFromS3 ⟨conf.withDryRun b, credentials⟩ fuel =
      fetchDdnsJsonsFromS3 ⟨conf, credentials⟩ fuel := by
  have hpages : ∀ bucket fuel token st, fetchPages ⟨conf.withDryRun b, credentials⟩ bucket fuel
      token st = fetchPages ⟨conf, credentials⟩ bucket fuel token st := by
    intro bucket fuel
    induction fuel with
    | zero => exact fun _ _ => rfl
    | succ fuel ih =>
      intro token st
      rw [fetchPages, fetchPages]
      simp only [ih]
      rfl
  unfold fetchDdnsJsonsFromS3
  simp only [hpages]
  rfl

/-- Nor do the checks. -/
theorem validate_withDryRun {credentials : Credentials} {certs : List CertMatch} {insecure : Bool}
    {reqs : List UnverifiedDdnsRequest} {st : ValidateState} :
    validateUnverifiedDnsRequests ⟨conf.withDryRun b, credentials⟩ certs insecure reqs st =
      validateUnverifiedDnsRequests ⟨conf, credentials⟩ certs insecure reqs st := by
  induction reqs generalizing st with
  | nil => rfl
  | cons u reqs ih =>
    rw [validateUnverifiedDnsRequests, validateUnverifiedDnsRequests]
    simp only [ih]
    rfl

/-- **A preparation does not look at the flag**, and hands it on. -/
theorem prepare_withDryRun : prepare fuel (conf.withDryRun b) =
    prepare fuel conf >>= fun o => pure (o.map fun plan => plan.withDryRun b) := by
  unfold prepare survey
  simp only [bind_assoc, fetch_withDryRun]
  congr 1
  funext credentials
  congr 1
  funext fetched
  unfold judge
  simp only [validate_withDryRun]
  cases fetched.1.isEmpty with
  | true => rfl
  | false =>
    simp only [Bool.false_eq_true, if_false, bind_assoc]
    congr 1
    funext keyMap
    have hmode : (conf.withDryRun b).insecureSkipVerify = conf.insecureSkipVerify := rfl
    rw [hmode]
    cases !conf.insecureSkipVerify && keyMap.1.isEmpty with
    | true => rfl
    | false =>
      simp only [Bool.false_eq_true, if_false, bind_assoc]
      congr 1
      funext st
      congr 1
      funext _
      cases st.1.isEmpty with
      | true => rfl
      | false => rfl

/-! ## What is printed -/

/-- The line a call prints. -/
def printed? : Event → Option String
  | ⟨.println text, _⟩ => some text
  | _ => none

/-- The lines printed in a run, in order. -/
def printed (t : Trace) : List String := t.filterMap printed?

omit [Externals] in
/-- A run that does not print shows no line. -/
theorem printed_eq_nil (h : ∀ e ∈ tr, e.op.kind ≠ .print) : printed tr = [] := by
  refine List.filterMap_eq_nil_iff.mpr fun e he => ?_
  have hk := h e he
  obtain ⟨o, x⟩ := e
  cases o <;> first | rfl | exact absurd rfl hk

omit [Externals] in
theorem printed_append {t₁ t₂ : Trace} : printed (t₁ ++ t₂) = printed t₁ ++ printed t₂ :=
  List.filterMap_append

/-- A preparation prints nothing. -/
theorem printed_prepare (h : (prepare fuel conf).run.Admits tr) : printed tr = [] := by
  refine printed_eq_nil fun e he hk => ?_
  have hmem := h.of_uses uses_prepare e he
  simp [hk] at hmem

/-! ## The server -/

/-- **What a dry run has to say**: a batch, and the keys to delete. -/
structure Forecast where
  changes : List Change
  deleteKeys : List S3Key

/-- What there is to say of a plan. -/
def Plan.forecast (plan : Plan) : Forecast := ⟨plan.changes, plan.deleteKeys⟩

/-- The lines that say it. -/
def Forecast.lines (f : Forecast) : List String :=
  [foretoldChanges f.changes, foretoldKeys f.deleteKeys]

/-- The batches of what is said: one, or none where there is nothing to
say. -/
def batchesOf (o : Option Forecast) : List (List Change) := (o.map Forecast.changes).toList

/-- The keys of what is said. -/
def keysOf (o : Option Forecast) : List String :=
  o.elim [] fun f => f.deleteKeys.map S3Key.key

omit [Externals] in
@[simp] theorem forecast_withDryRun {o : Option Plan} :
    (o.map fun plan => plan.withDryRun b).map Plan.forecast = o.map Plan.forecast := by
  cases o <;> rfl

/-- **What was said is done**: at most the batch, then the keys in their
order. -/
structure Foretold (o : Option Forecast) (rest : Trace) : Prop where
  batches : (posts rest).map ChangeRequest.changes <+: batchesOf o
  keys : deletes rest <+: keysOf o

/-- A run from a plan on does what a dry run says of it. -/
theorem foretold_of_finish {o : Option Plan} {rest : Trace}
    (h : (finish false o).run.Admits rest) : Foretold (o.map Plan.forecast) rest := by
  cases o with
  | none =>
    rw [admits_pure.mp h]
    exact ⟨List.prefix_refl _, List.prefix_refl _⟩
  | some plan =>
    refine ⟨?_, deletes_carryOut h⟩
    rcases posts_carryOut h with hnone | ⟨headers, hpost⟩
    · rw [hnone]
      exact List.nil_prefix
    · rw [hpost]
      exact List.prefix_refl _

/-- A run from a plan on that returns does all of it. -/
theorem all_of_finish {o : Option Plan} {rest : Trace}
    (h : (finish false o).run.Exec rest (.ok ())) :
    (posts rest).map ChangeRequest.changes = batchesOf (o.map Plan.forecast) ∧
      deletes rest = keysOf (o.map Plan.forecast) := by
  cases o with
  | none =>
    rw [(exec_pure.mp h).1]
    exact ⟨rfl, rfl⟩
  | some plan =>
    rcases exec_carryOut h with ⟨⟨e, he⟩, -⟩ | ⟨pre, headers, resp, rest, hpre, -, rfl, hrest⟩
    · cases he
    · have hall : posts (pre ++ plan.postEvent headers (.ok resp) :: rest) ≠ [] := by
        rw [posts_append]
        exact fun hnil => List.cons_ne_nil _ _ (List.append_eq_nil_iff.mp hnil).2
      constructor
      · rcases posts_carryOut h.admits with hnone | ⟨headers', hpost⟩
        · exact absurd hnone hall
        · rw [hpost]
          rfl
      · have hdeletes : deletes (pre ++ plan.postEvent headers (.ok resp) :: rest) =
            deletes rest := by
          rw [deletes_append, (quiet_beforePost hpre).2.1]
          rfl
        rw [hdeletes]
        rcases hrest with ⟨e, he, -⟩ | ⟨answers, hkeys, -, rfl⟩
        · cases he
        · show deletes (handleEvent plan.server :: _) = plan.deleteKeys.map S3Key.key
          rw [← hkeys, List.map_map]
          exact deletes_map_deleteEvent

/-- From a plan on, a dry run prints what there is to say of it. -/
theorem exec_finish_dry {o : Option Plan} {rest : Trace} {r : Result Unit}
    (h : (finish true o).run.Exec rest r) :
    printed rest = ((o.map Plan.forecast).map Forecast.lines).getD [] ∧
      ∀ e ∈ rest, e.op.kind = .print := by
  cases o with
  | none =>
    rw [(exec_pure.mp h).1]
    exact ⟨rfl, by simp⟩
  | some plan =>
    obtain ⟨rfl, -⟩ := exec_foretell.mp h
    refine ⟨rfl, fun e he => ?_⟩
    simp only [Plan.foretold, List.mem_cons, List.not_mem_nil, or_false] at he
    rcases he with rfl | rfl <;> rfl

/-- **A dry run of the server foretells.** A dry run that returned has
printed what it has to say last, and called nothing after it. A run without
the flag can be answered alike up to there, and whatever it is answered
from then on, it posts at most the batch that was printed, and deletes only
the keys that were printed, in that order; and it returns `Ok` only when it
has done all of it. -/
theorem dry_run_foretells (hdry : args.isDryRun = true)
    (h : (handleServer fuel args).run.Exec tr (.ok ())) :
    ∃ (o : Option Forecast) (t said : Trace), tr = t ++ said ∧ printed t = [] ∧
      printed said = (o.map Forecast.lines).getD [] ∧ (∀ e ∈ said, e.op.kind = .print) ∧
      (handleServer fuel { args with isDryRun := false }).run.Admits t ∧
      (∀ rest, (handleServer fuel { args with isDryRun := false }).run.Admits (t ++ rest) →
        Foretold o rest) ∧
      ∀ rest, (handleServer fuel { args with isDryRun := false }).run.Exec (t ++ rest) (.ok ()) →
        (posts rest).map ChangeRequest.changes = batchesOf o ∧ deletes rest = keysOf o := by
  rw [handleServer_eq] at h
  obtain ⟨o, t₁, t₂, rfl, h₁, h₂⟩ := exec_bind_ok.mp h
  have hflag : (ConfigServer.parse args).isDryRun = true := hdry
  rw [hflag] at h₂
  obtain ⟨hsaid, hprint⟩ := exec_finish_dry h₂
  -- the preparation of the run without the flag
  have hconf : ConfigServer.parse { args with isDryRun := false } =
      (ConfigServer.parse args).withDryRun false := rfl
  have hprepare : (prepare fuel (ConfigServer.parse { args with isDryRun := false })).run.Exec t₁
      (.ok (o.map fun plan => plan.withDryRun false)) := by
    rw [hconf, prepare_withDryRun]
    exact exec_bind_ok.mpr ⟨o, t₁, [], (List.append_nil _).symm, h₁, exec_pure.mpr ⟨rfl, rfl⟩⟩
  refine ⟨o.map Plan.forecast, t₁, t₂, rfl, printed_prepare h₁.admits, hsaid, hprint, ?_,
    fun rest hrest => ?_, fun rest hrest => ?_⟩
  · rw [handleServer_eq]
    exact admits_bind.mpr (Or.inl hprepare.admits)
  · rw [handleServer_eq] at hrest
    rcases admits_bind.mp hrest with hrest | ⟨o', t', u, heq, h₁', h₂'⟩
    · obtain rfl := hprepare.no_continuation hrest
      exact ⟨List.nil_prefix, List.nil_prefix⟩
    · obtain ⟨rfl, ho, rfl⟩ := hprepare.unique h₁' heq
      cases ho
      have hforetold := foretold_of_finish h₂'
      rwa [forecast_withDryRun] at hforetold
  · rw [handleServer_eq] at hrest
    obtain ⟨o', t', u, heq, h₁', h₂'⟩ := exec_bind_ok.mp hrest
    obtain ⟨rfl, ho, rfl⟩ := hprepare.unique h₁' heq
    cases ho
    have hall := all_of_finish h₂'
    rwa [forecast_withDryRun] at hall

end

namespace Sample

/-- The arguments of the server, for a dry run. -/
def dryArgs : ServerArgs := { serverArgs with isDryRun := true }

/-- A dry run over the sample bucket. -/
@[irreducible] def dryRun : Services.Observed (Result Unit) :=
  (@handleServer externals 1 dryArgs).run.drive (Services.answer (host 1780000030 inRange030)) mixed

theorem dryRun_driven : Services.Driven (host 1780000030 (by decide))
    (@handleServer externals 1 dryArgs).run mixed dryRun := by
  unfold dryRun
  exact Services.driven _ _ _

set_option maxRecDepth 10000 in
/-- What it prints. -/
theorem dryRun_shows : dryRun.2.1 = .ok (.ok ()) ∧ printed dryRun.1 =
    ["Will write these changes to the DNS records:\n\n```json\n" ++
      "[Change \x7b action: Upsert, record_set: ResourceRecordSet \x7b " ++
      "name: \"augs.sarif.example.\", ttl: 300, data: A([192.168.1.1]) \x7d \x7d]\n```",
    "Will delete the following keys from the s3 bucket:\n" ++
      "[S3Key(\"d/augs.sarif.example.ddns.json\"), S3Key(\"d/lost.ddns.json\"), " ++
      "S3Key(\"d/bad.ddns.json\")]"] := by
  decide +kernel

end Sample

/-- The dry run over the sample bucket, and the run it foretells. -/
theorem dry_run_foretells_mixed :
    letI := Sample.externals
    ∃ (o : Option Forecast) (t said : Trace), Sample.dryRun.1 = t ++ said ∧
      printed Sample.dryRun.1 = (o.map Forecast.lines).getD [] ∧
      printed Sample.dryRun.1 ≠ [] ∧
      ∀ rest, (handleServer 1 Sample.serverArgs).run.Admits (t ++ rest) → Foretold o rest := by
  let := Sample.externals
  obtain ⟨hok, hprinted⟩ := Sample.dryRun_shows
  obtain ⟨o, t, said, htr, hquiet, hsaid, -, -, hforetold, -⟩ :=
    dry_run_foretells rfl (Sample.dryRun_driven.exec hok)
  refine ⟨o, t, said, htr, ?_, ?_, hforetold⟩
  · rw [htr, printed_append, hquiet, hsaid, List.nil_append]
  · rw [hprinted]
    exact List.cons_ne_nil _ _

section

variable [Externals] {tr : Trace} {b : Bool}

/-! ## The client -/

/-- A configuration with the flag as given. -/
def ConfigClient.withDryRun (conf : ConfigClient) (b : Bool) : ConfigClient :=
  { conf with isDryRun := b }

omit [Externals] in
theorem parse_withDryRun {cargs : ClientArgs} :
    ConfigClient.parse { cargs with isDryRun := b } =
      (ConfigClient.parse cargs).map fun conf => conf.withDryRun b := by
  unfold ConfigClient.parse
  cases hdomain : DomainName.parse cargs.domainToUpdate <;> rfl

/-- **A record is signed alike** with the flag and without it. -/
theorem exec_clientPrepare_withDryRun {cargs : ClientArgs} {draft : Draft}
    (h : (clientPrepare cargs).run.Exec tr (.ok draft)) :
    (clientPrepare { cargs with isDryRun := b }).run.Exec tr
      (.ok { draft with conf := draft.conf.withDryRun b }) := by
  unfold clientPrepare at h ⊢
  obtain ⟨conf', t₁, t₂, rfl, h₁, h₂⟩ := exec_bind_ok.mp h
  obtain ⟨rfl, hparse⟩ := exec_ofResult.mp h₁
  rw [Result.context_eq_ok] at hparse
  refine exec_bind_ok.mpr ⟨conf'.withDryRun b, [], t₂, rfl, exec_ofResult.mpr ⟨rfl, ?_⟩, ?_⟩
  · rw [Result.context_eq_ok, parse_withDryRun, hparse]
    rfl
  · -- the rest is the same program, up to the configuration it hands on
    obtain ⟨signingKey, t₃, t₄, rfl, h₃, h₄⟩ := exec_bind_ok.mp h₂
    obtain ⟨ip, t₅, t₆, rfl, h₅, h₆⟩ := exec_bind_ok.mp h₄
    obtain ⟨bytes, t₇, t₈, rfl, h₇, h₈⟩ := exec_bind_ok.mp h₆
    obtain ⟨rfl, heq⟩ := exec_pure.mp h₈
    cases heq
    exact exec_bind_ok.mpr ⟨signingKey, t₃, _, rfl, h₃, exec_bind_ok.mpr ⟨ip, t₅, _, rfl, h₅,
      exec_bind_ok.mpr ⟨_, t₇, _, rfl, h₇, exec_pure.mpr ⟨rfl, rfl⟩⟩⟩⟩

/-- What a call puts, and where. -/
def put? : Event → Option (String × String × Bytes)
  | ⟨.putObject bucket path content _, _⟩ => some (bucket, path, content)
  | _ => none

/-- What is put in a run, in order. -/
def puts (t : Trace) : List (String × String × Bytes) := t.filterMap put?

omit [Externals] in
/-- A run without a put puts nothing. -/
theorem puts_eq_nil (h : ∀ e ∈ tr, e.op.kind ≠ .put) : puts tr = [] := by
  refine List.filterMap_eq_nil_iff.mpr fun e he => ?_
  have hk := h e he
  obtain ⟨o, x⟩ := e
  cases o <;> first | rfl | exact absurd rfl hk

omit [Externals] in
theorem puts_handles {pre : Trace} (hpre : ∀ e ∈ pre, e.op.kind = .handle) : puts pre = [] :=
  puts_eq_nil fun e he hk => by
    rw [hpre e he] at hk
    cases hk

omit [Externals] in
/-- The put is all that is put. -/
theorem puts_putEvent {pre : Trace} (hpre : ∀ e ∈ pre, e.op.kind = .handle)
    (draft : Draft) (ans : Result ℕ) : puts (pre ++ [draft.putEvent ans]) =
      [(draft.conf.s3QueueBucket, draft.path, draft.content)] := by
  have hnone := puts_handles hpre
  unfold puts at hnone ⊢
  rw [List.filterMap_append, hnone]
  rfl

/-- What a dry run says it would write, and where. -/
def willWrite (bucket path : String) (content : Bytes) : String :=
  "Will write to: s3://" ++ bucket ++ path ++ "\nJSON:\n" ++ fromUtf8Lossy content

/-- **A dry run of a client foretells.** A dry run that returned has printed
one line, last of all it did: the bucket, the path and the content of an
object. A run without the flag can be answered alike up to there, and
whatever it is answered from then on, all it changes is that object: it
puts at most that content, at that path of that bucket; and it returns `Ok`
only when it has put it. -/
theorem client_dry_run_foretells {cargs : ClientArgs} (hdry : cargs.isDryRun = true)
    (h : (handleClient cargs).run.Exec tr (.ok ())) :
    ∃ (bucket path : String) (content : Bytes) (t : Trace),
      tr = t ++ [⟨.println (willWrite bucket path content), ()⟩] ∧ printed t = [] ∧
      (handleClient { cargs with isDryRun := false }).run.Admits t ∧
      (∀ rest, (handleClient { cargs with isDryRun := false }).run.Admits (t ++ rest) →
        puts rest <+: [(bucket, path, content)] ∧ ∀ e ∈ rest, e.op.kind ∈ [Kind.handle, .put]) ∧
      ∀ rest, (handleClient { cargs with isDryRun := false }).run.Exec (t ++ rest) (.ok ()) →
        puts rest = [(bucket, path, content)] := by
  rw [handleClient_eq] at h
  obtain ⟨draft, t₁, t₂, rfl, h₁, h₂⟩ := exec_bind_ok.mp h
  have hprepare := exec_clientPrepare_withDryRun (b := false) h₁
  have hflag : draft.conf.isDryRun = true := by
    obtain ⟨-, -, -, -, -, -, hparse, -⟩ := exec_clientPrepare h₁
    obtain ⟨-, -, -, hsame, -⟩ := ConfigClient.parse_eq_ok hparse
    exact hsame.trans hdry
  unfold clientFinish at h₂
  rw [if_pos hflag] at h₂
  obtain ⟨_, rfl, -⟩ := exec_ask.mp h₂
  have hquiet : printed t₁ = [] := printed_eq_nil fun e he hk => by
    have hmem := h₁.admits.of_uses uses_clientPrepare e he
    simp [hk] at hmem
  refine ⟨draft.conf.s3QueueBucket, draft.path, draft.content, t₁, rfl, hquiet, ?_,
    fun rest hrest => ?_, fun rest hrest => ?_⟩
  · rw [handleClient_eq]
    exact admits_bind.mpr (Or.inl hprepare.admits)
  · rw [handleClient_eq] at hrest
    rcases admits_bind.mp hrest with hrest | ⟨x, t', u, heq, h₁', h₂'⟩
    · obtain rfl := hprepare.no_continuation hrest
      exact ⟨List.nil_prefix, by simp⟩
    · obtain ⟨rfl, hx, rfl⟩ := hprepare.unique h₁' heq
      cases hx
      obtain ⟨pre, hpre, hrest⟩ := admits_clientFinish rfl h₂'
      rcases hrest with rfl | ⟨ans, rfl⟩
      · rw [puts_handles hpre]
        exact ⟨List.nil_prefix, fun e he => by simp [hpre e he]⟩
      · refine ⟨?_, fun e he => ?_⟩
        · rw [puts_putEvent hpre]
          exact List.prefix_refl _
        · rcases List.mem_append.mp he with he | he
          · simp [hpre e he]
          · rw [List.mem_singleton.mp he]
            simp [Draft.putEvent, Op.kind]
  · rw [handleClient_eq] at hrest
    obtain ⟨x, t', u, heq, h₁', h₂'⟩ := exec_bind_ok.mp hrest
    obtain ⟨rfl, hx, rfl⟩ := hprepare.unique h₁' heq
    cases hx
    obtain ⟨pre, hpre, rfl⟩ := exec_clientFinish rfl h₂'
    exact puts_putEvent hpre _ _

end

namespace Sample

/-- The arguments of the client, for a dry run. -/
def dryClientArgs : ClientArgs := { clientArgs "d" with isDryRun := true }

/-- A dry run of the client. -/
@[irreducible] def dryClientRun : Services.Observed (Result Unit) :=
  (@handleClient externals dryClientArgs).run.drive (Services.answer (host 1780000060 inRange060))
    (vacant ["d/augs.sarif.example.ddns.json"] augs_sorted)

theorem dryClientRun_driven : Services.Driven (host 1780000060 (by decide))
    (@handleClient externals dryClientArgs).run
    (vacant ["d/augs.sarif.example.ddns.json"] (by decide)) dryClientRun := by
  unfold dryClientRun
  exact Services.driven _ _ _

theorem dryClientRun_shows : dryClientRun.2.1 = .ok (.ok ()) := by decide +kernel

end Sample

/-- The dry run of the sample client, and the run it foretells. -/
theorem client_dry_run_foretells_sample :
    letI := Sample.externals
    ∃ (bucket path : String) (content : Bytes) (t : Trace),
      Sample.dryClientRun.1 = t ++ [⟨.println (willWrite bucket path content), ()⟩] ∧
      ∀ rest, (handleClient (Sample.clientArgs "d")).run.Exec (t ++ rest) (.ok ()) →
        puts rest = [(bucket, path, content)] := by
  let := Sample.externals
  obtain ⟨bucket, path, content, t, htr, -, -, -, hputs⟩ :=
    client_dry_run_foretells rfl (Sample.dryClientRun_driven.exec Sample.dryClientRun_shows)
  exact ⟨bucket, path, content, t, htr, hputs⟩

end DynDynser
