import DynDynser.Batch
import DynDynser.Leftovers
/-!
# A run after one that was killed

A server run that is killed leaves its work to the next: what it has not
deleted is fetched again, and what it had accepted of that is submitted
again. The keys are deleted in the order they were submitted in, so what
is submitted again is the end of the batch, and applying the end of a
batch again changes nothing (`records_recovered`). That rests on every
delete before the kill having succeeded. A delete that fails is recorded
and the next one is attempted, and then what is submitted again is not the
end of the batch (`earlier_key_returns`).
-/

namespace DynDynser

open Text Interact Fallible World DynDynserServer Externals

section

variable [Externals] {fuel : ℕ} {args : ServerArgs} {conf : ConfigServer} {plan : Plan}
variable {tr t u : Trace} {o : Option Plan} {keys : List String}
variable {tokenKey : String → String} {w w₁ w₂ w' : World} {bucket : String}

/-! ## The batch of a plan -/

/-- The change asked for by the object under a key. -/
def changeAt (w : World) (bucket key : String) : Option Change :=
  (w.objects bucket (objectKey key)).bind fun o =>
    (fromSlice o.bytes : Result (SignedPayload ResourceRecordSet)).toOption.map
      fun q => q.envelope.payload.change

/-- The keys of the requests accepted on the way to a plan. -/
def acceptedKeys : Option Plan → List String
  | none => []
  | some plan => plan.verified.map fun v => v.s3Key.key

/-- The accepted keys were listed, and are in the order of the listing. -/
theorem Preparation.acceptedKeys_sublist (p : Preparation fuel conf tr plan) :
    (acceptedKeys (some plan)).Sublist (eligible (listed tr)) := by
  have hkeys : ((requestsOf (gets tr)).map fun u => u.s3Key.key).Sublist
      ((gets tr).map Prod.fst) :=
    Lists.filterMap_map_sublist (fun _ _ => key_of_request?) _
  rw [← p.keys]
  exact p.verified_sublist.trans hkeys

/-- **The batch is that of the objects under the accepted keys.** -/
theorem Preparation.changes_eq (p : Preparation fuel conf tr plan) (h : Run tokenKey w tr w')
    (hprepare : (prepare fuel conf).run.Admits tr) :
    plan.changes = (acceptedKeys (some plan)).filterMap (changeAt w conf.s3QueueBucket) := by
  unfold Plan.changes acceptedKeys
  rw [buildChanges_eq, List.filterMap_map, ← List.filterMap_eq_map]
  refine List.filterMap_congr fun v hv => ?_
  obtain ⟨c, hc, hverdict⟩ := p.mem_verified hv
  have hrun := c.run
  rw [hverdict] at hrun
  obtain rfl := verified_of_check hrun
  -- the request was read from the object
  have hmem : c.request ∈ requestsOf (gets tr) := by
    rw [← p.requests_eq]
    exact List.mem_map_of_mem hc
  obtain ⟨data, hget, hparse⟩ := mem_requestsOf hmem
  obtain ⟨o, ho, rfl⟩ := Run.object_of_prepare p h hprepare hget
  have hkey : c.request.verified.s3Key.key = c.request.s3Key.key := rfl
  simp only [Function.comp_apply, changeAt, hkey, ho, Option.bind_some, hparse, Except.toOption,
    Option.map_some]
  rfl

/-! ## Verdicts -/

/-- A run has come to its verdicts, and these are the keys it accepted. -/
def HasAccepted (fuel : ℕ) (args : ServerArgs) (tr : Trace) (keys : List String) : Prop :=
  ∃ t u o, tr = t ++ u ∧ (prepare fuel (ConfigServer.parse args)).run.Exec t (.ok o) ∧
    keys = acceptedKeys o

/-- What two runs have both listed, and what is there for the first of them
to fetch, has the same verdict in both, if both have come to their
verdicts. -/
def SameVerdicts (fuel : ℕ) (args : ServerArgs) (w : World) (tr tr' : Trace) : Prop :=
  ∀ keys keys', HasAccepted fuel args tr keys → HasAccepted fuel args tr' keys' →
    ∀ key ∈ listed tr, key ∈ listed tr' →
      (w.objects args.s3QueueBucket (objectKey key)).isSome → (key ∈ keys ↔ key ∈ keys')

/-- What follows a preparation finishes it. -/
theorem finish_of_prepare (h : (handleServer fuel args).run.Admits (t ++ u))
    (h₁ : (prepare fuel (ConfigServer.parse args)).run.Exec t (.ok o)) :
    (finish (ConfigServer.parse args).isDryRun o).run.Admits u := by
  rw [handleServer_eq] at h
  rcases Fallible.admits_bind.mp h with h | ⟨o', t', u', heq, h₁', h₂⟩
  · rw [h₁.no_continuation h]
    exact Prog.admits_nil _
  · obtain ⟨rfl, ho, rfl⟩ := h₁.unique h₁' heq
    cases ho
    exact h₂

/-- Nothing is listed after a preparation. -/
theorem listed_finish {isDryRun : Bool} (h : (finish isDryRun o).run.Admits u) : listed u = [] := by
  cases o with
  | none => rw [admits_pure.mp h]; rfl
  | some plan =>
    unfold finish at h
    dsimp only at h
    split at h
    · refine listed_eq_nil fun e he hk => ?_
      rw [h.of_uses uses_foretell e he] at hk
      cases hk
    · refine listed_eq_nil fun e he hk => ?_
      have hmem := h.of_uses uses_carryOut e he
      simp [hk] at hmem

/-- The keys a run accepts are some of those it lists, in their order. -/
theorem HasAccepted.sublist (h : HasAccepted fuel args tr keys)
    (hadmits : (handleServer fuel args).run.Admits tr) : keys.Sublist (listed tr) := by
  obtain ⟨t, u, o, rfl, h₁, rfl⟩ := h
  rw [listed_append, listed_finish (finish_of_prepare hadmits h₁), List.append_nil]
  cases o with
  | none => exact List.nil_sublist _
  | some plan =>
    obtain ⟨p⟩ := exec_prepare h₁
    exact p.acceptedKeys_sublist.trans List.filter_sublist

/-- **The keys a run accepts** are in order, and it lists what there is in
the directory. -/
theorem HasAccepted.in_listing (h : HasAccepted fuel args tr keys)
    (hadmits : (handleServer fuel args).run.Admits tr) (hrun : Run tokenKey w tr w') :
    keys.Pairwise (· < ·) ∧ (∀ key ∈ keys, key ∈ listed tr) ∧
      ∀ key, key ∈ listed tr ↔ (w.objects args.s3QueueBucket key).isSome ∧
        UnderPrefix (ConfigServer.parse args).s3DdnsJsonDirectory "/" key := by
  have hsub := h.sublist hadmits
  obtain ⟨t, u, o, rfl, h₁, -⟩ := h
  obtain ⟨m, hm, -⟩ := along_append.mp hrun
  obtain ⟨-, hsorted, -, hlisted⟩ := Run.listed_prepare hm h₁
  have hrest : listed (t ++ u) = listed t := by
    rw [listed_append, listed_finish (finish_of_prepare hadmits h₁), List.append_nil]
  rw [hrest] at hsub ⊢
  exact ⟨hsorted.sublist hsub, fun key hkey => hsub.subset hkey, hlisted⟩

/-- What a run accepts was there for it to fetch. -/
theorem HasAccepted.object_isSome (h : HasAccepted fuel args tr keys) (hrun : Run tokenKey w tr w') :
    ∀ key ∈ keys, (w.objects args.s3QueueBucket (objectKey key)).isSome := by
  obtain ⟨t, u, o, rfl, h₁, rfl⟩ := h
  intro key hkey
  cases o with
  | none => cases hkey
  | some plan =>
    obtain ⟨p⟩ := exec_prepare h₁
    obtain ⟨v, hv, rfl⟩ := List.mem_map.mp hkey
    obtain ⟨c, hc, hverdict⟩ := p.mem_verified hv
    have hcheck := c.run
    rw [hverdict] at hcheck
    obtain rfl := verified_of_check hcheck
    obtain ⟨data, hget, -⟩ := p.fetched hc
    obtain ⟨m, hm, -⟩ := along_append.mp hrun
    obtain ⟨stored, hstored, -⟩ := Run.object_of_prepare p hm h₁.admits hget
    exact Option.isSome_iff_exists.mpr ⟨stored, hstored⟩

/-- A run that submits as many changes as it lists keys has accepted every
one of them. -/
theorem HasAccepted.eq_listed (h : HasAccepted fuel args tr keys)
    (hadmits : (handleServer fuel args).run.Admits tr) {req : ChangeRequest}
    (hreq : req ∈ posts tr) (hlength : req.changes.length = (listed tr).length) :
    keys = listed tr := by
  refine (h.sublist hadmits).eq_of_length ?_
  obtain ⟨plan, t₁, t₂, headers, rfl, h₁, rfl⟩ := mem_posts hadmits hreq
  obtain ⟨t, u, o, heq, h₁', rfl⟩ := h
  obtain ⟨-, ho, -⟩ := h₁.unique h₁' heq
  cases ho
  rw [← hlength]
  have hchanges : plan.changes.length = plan.verified.length := by
    unfold Plan.changes
    rw [buildChanges_eq, List.length_map]
  have hkeys : (acceptedKeys (some plan)).length = plan.verified.length := List.length_map _
  exact hkeys.trans hchanges.symm

/-- Runs that accept all that they list agree. -/
theorem sameVerdicts_of_all {tr' : Trace}
    (h : ∀ keys, HasAccepted fuel args tr keys → keys = listed tr)
    (h' : ∀ keys, HasAccepted fuel args tr' keys → keys = listed tr') :
    SameVerdicts fuel args w tr tr' := by
  intro keys keys' hkeys hkeys' key hkey hkey' _
  obtain rfl := h keys hkeys
  obtain rfl := h' keys' hkeys'
  exact iff_of_true hkey hkey'

/-! ## Records -/

/-- The records after the batch of some keys. -/
def recordsAfter (args : ServerArgs) (w : World) (keys : List String) :
    String → RecordKey → Option RecordValue :=
  (w.apply (changeUrl args.hostedDnsZoneId)
    (keys.filterMap (changeAt w args.s3QueueBucket))).records

omit [Externals] in
/-- An empty batch changes nothing. -/
theorem World.apply_nil (w : World) (url : String) : (w.apply url []).records = w.records :=
  Function.update_eq_self url w.records

omit [Externals] in
/-- **The end of a batch, applied again, changes nothing.** -/
theorem World.apply_suffix {url : String} {l s : List Change} (hsuffix : s <:+ l)
    (h : w₁.records = (w.apply url l).records) :
    (w₁.apply url s).records = (w.apply url l).records := by
  unfold World.apply at h ⊢
  dsimp only at h ⊢
  rw [h, Function.update_self, Function.update_idem,
    Upsert.applyAll_suffix recordKey recordValue hsuffix]

/-- What a plan submits is the batch of the keys it accepted. -/
theorem records_of_plan (h₁ : (prepare fuel (ConfigServer.parse args)).run.Exec t (.ok (some plan)))
    (hrun : Run tokenKey w t w₁) :
    (w.apply (changeUrl plan.server.conf.hostedDnsZoneId) plan.changes).records =
      recordsAfter args w (acceptedKeys (some plan)) := by
  obtain ⟨p⟩ := exec_prepare h₁
  rw [p.changes_eq hrun h₁.admits, p.server_eq]
  rfl

/-- **A run that no failure cut short** has submitted the batch of the keys
it accepted, and Route53 has applied it. -/
theorem records_of_stages {x : Exit × ServerErrors} (hdry : args.isDryRun = false)
    (h : (stages fuel args).run.Exec tr (.ok x)) (hrun : Run tokenKey w tr w') :
    ∃ keys, HasAccepted fuel args tr keys ∧ w'.records = recordsAfter args w keys := by
  obtain ⟨exit, errors⟩ := x
  rcases exec_stages_plan hdry h with ⟨-, hnone⟩ |
    ⟨-, plan, t₁, pre, headers, resp, answers, rfl, hplan, hpre, hack, -⟩
  · obtain ⟨rfl, -⟩ := Run.listed_prepare hrun hnone
    exact ⟨[], ⟨tr, [], none, (List.append_nil tr).symm, hnone, rfl⟩, (World.apply_nil w' _).symm⟩
  · refine ⟨_, ⟨t₁, _, some plan, rfl, hplan, rfl⟩, ?_⟩
    obtain ⟨m, hm, hrest⟩ := along_append.mp hrun
    obtain ⟨m', hm', m'', hpost, hafter⟩ := along_append.mp hrest
    obtain ⟨rfl, -⟩ := Run.listed_prepare hm hplan
    obtain rfl := Run.eq_of_quiet hm' fun e he => by rcases hpre e he with hk | hk <;> simp [hk]
    -- after the post there are a handle and deletes
    have hrecords : w'.records = m''.records := by
      refine Run.records_eq hafter fun e he => ?_
      rcases List.mem_cons.mp he with rfl | he
      · exact Kind.noConfusion
      · obtain ⟨a, -, rfl⟩ := List.mem_map.mp he
        exact Kind.noConfusion
    rw [hrecords, ← records_of_plan hplan hm]
    rcases Step.records_post hpost with ⟨-, hno⟩ | heq
    · exact absurd (hack.symm.trans hno) (by decide)
    · exact heq

/-! ## The run that was killed -/

/-- Every delete before the last call has succeeded. -/
def DeletesSucceeded (tr : Trace) : Prop :=
  ∀ bucket key answer, (⟨.deleteObject bucket key, answer⟩ : Event) ∈ tr.dropLast →
    ∃ status, answer = .ok status ∧ successStatus status = true

omit [Externals] in
/-- **Deletes that succeed take their objects away in their order**,
whatever becomes of the last one. -/
theorem Run.gone {answers : List (S3Key × Result ℕ)}
    (h : Run tokenKey w (answers.map (deleteEvent bucket)) w')
    (hok : ∀ a ∈ answers.dropLast, ∃ status, a.2 = .ok status ∧ successStatus status = true) :
    ∃ gone, gone <+: answers.map (fun a => a.1.key) ∧ ∀ key, w'.objects bucket key =
      if key ∈ gone.map objectKey then none else w.objects bucket key := by
  induction answers generalizing w with
  | nil =>
    obtain rfl := along_nil.mp h
    exact ⟨[], List.prefix_refl _, fun key => by simp⟩
  | cons a answers ih =>
    obtain ⟨m, hstep, hrest⟩ := along_cons.mp h
    have hdeleted : ∀ key, (w.delete bucket (objectKey a.1.key)).objects bucket key =
        if key = objectKey a.1.key then none else w.objects bucket key := by
      intro key
      by_cases hkey : key = objectKey a.1.key
      · simp [World.delete, hkey]
      · simp [World.delete, hkey]
    rcases hstep with rfl | ⟨rfl, hrefused⟩
    · -- the object is gone, and the rest follows
      obtain ⟨gone, hgone, hobjects⟩ := ih hrest fun b hb => by
        cases answers with
        | nil => cases hb
        | cons c answers => exact hok b (List.mem_cons_of_mem _ hb)
      refine ⟨a.1.key :: gone, ?_, fun key => ?_⟩
      · rw [List.map_cons]
        exact (List.prefix_cons_inj _).mpr hgone
      · rw [hobjects, hdeleted]
        by_cases hkey : key = objectKey a.1.key
        · simp [hkey]
        · simp [hkey]
    · cases answers with
      | nil =>
        -- the last delete need not have taken effect
        obtain rfl := along_nil.mp hrest
        exact ⟨[], List.nil_prefix, fun key => by simp⟩
      | cons c answers =>
        obtain ⟨status, hstatus, hsuccess⟩ := hok a List.mem_cons_self
        rw [hrefused status hstatus] at hsuccess
        cases hsuccess

/-- What a plan deletes, it deletes last, and after an acknowledgement. -/
theorem deletes_last (h : (carryOut plan).run.Admits tr) :
    ∃ (s : Trace) (answers : List (S3Key × Result ℕ)),
      tr = s ++ answers.map (deleteEvent plan.server.conf.s3QueueBucket) ∧
      (∀ e ∈ s, e.op.kind ∈ [Kind.client, .clock, .post, .handle]) ∧
      answers.map Prod.fst <+: plan.deleteKeys ∧
      (answers ≠ [] → ∃ e ∈ s, acknowledges e = true) := by
  obtain ⟨pre, hpre, htr⟩ := admits_carryOut h
  have hquiet : ∀ e ∈ pre, e.op.kind ∈ [Kind.client, .clock, .post, .handle] := by
    intro e he
    rcases hpre e he with hk | hk <;> simp [hk]
  rcases htr with rfl | ⟨-, ⟨headers, ans, rfl⟩ | ⟨headers, resp, rest, hack, rfl, hrest⟩⟩
  · exact ⟨tr, [], by simp, hquiet, List.nil_prefix, fun h => absurd rfl h⟩
  · refine ⟨_, [], (List.append_nil _).symm, fun e he => ?_, List.nil_prefix, fun h => absurd rfl h⟩
    rcases List.mem_append.mp he with he | he
    · exact hquiet e he
    · rw [List.mem_singleton.mp he]
      simp [Plan.postEvent, Op.kind]
  · rcases hrest with hk | ⟨answers, hkeys, rfl⟩
    · refine ⟨_, [], (List.append_nil _).symm, fun e he => ?_, List.nil_prefix,
        fun h => absurd rfl h⟩
      rcases List.mem_append.mp he with he | he
      · exact hquiet e he
      · rcases List.mem_cons.mp he with rfl | he
        · simp [Plan.postEvent, Op.kind]
        · simp [hk e he]
    · refine ⟨pre ++ [plan.postEvent headers (.ok resp), handleEvent plan.server], answers,
        by simp, fun e he => ?_, hkeys, fun _ => ⟨_, by simp, hack⟩⟩
      rcases List.mem_append.mp he with he | he
      · exact hquiet e he
      · rcases List.mem_cons.mp he with rfl | he
        · simp [Plan.postEvent, Op.kind]
        · rw [List.mem_singleton.mp he]
          simp [handleEvent, Op.kind]

/-- **What is left when some keys of the directory are gone**: all but the
objects that are fetched for them. -/
structure ObjectsLeft (args : ServerArgs) (w w' : World) (gone : List String) : Prop where
  under : ∀ key ∈ gone, UnderPrefix (ConfigServer.parse args).s3DdnsJsonDirectory "/" key
  objects : ∀ key, w'.objects args.s3QueueBucket key =
    if key ∈ gone.map objectKey then none else w.objects args.s3QueueBucket key

/-- **What a run that was killed leaves**, where its deletes succeeded:
nothing of it, or the batch it submitted and what is left of the objects
when the first of the keys it deletes are gone. The accepted keys are the
first of these. -/
structure LeftBehind (fuel : ℕ) (args : ServerArgs) (tr : Trace) (w w' : World)
    (gone : List String) : Prop extends ObjectsLeft args w w' gone where
  records : gone = [] ∧ w'.records = w.records ∨
    ∃ keys deleted, HasAccepted fuel args tr keys ∧ keys <+: deleted ∧ gone <+: deleted ∧
      w'.records = recordsAfter args w keys

/-- **A run that was killed, whose deletes succeeded, leaves the end of its
batch.** -/
theorem leftBehind_of_admits (h : (handleServer fuel args).run.Admits tr)
    (hdeleted : DeletesSucceeded tr) (hrun : Run tokenKey w tr w') :
    ∃ gone, LeftBehind fuel args tr w w' gone := by
  rcases admits_handleServer h with ⟨hposts, hdeletes, -⟩ | ⟨-, plan, t₁, t₂, rfl, h₁, h₂⟩
  · refine ⟨[], ⟨fun key hkey => absurd hkey List.not_mem_nil, fun key => ?_⟩,
      Or.inl ⟨rfl, Run.records_eq hrun fun e he => not_post_of_posts hposts he⟩⟩
    rw [List.map_nil, if_neg List.not_mem_nil, objects_eq_of_deletes h hdeletes hrun]
  · obtain ⟨m, hm, hrest⟩ := along_append.mp hrun
    obtain ⟨rfl, -, -, hlisted⟩ := Run.listed_prepare hm h₁
    obtain ⟨p⟩ := exec_prepare h₁
    obtain ⟨s, answers, rfl, hs, hkeys, hacked⟩ := deletes_last h₂
    have hbucket : plan.server.conf.s3QueueBucket = args.s3QueueBucket := p.bucket_eq
    rw [hbucket] at hdeleted hrest h₂ hrun
    obtain ⟨m', hm', hlast⟩ := along_append.mp hrest
    -- the objects are there until the deletes
    have hobjects : ∀ key, m'.objects args.s3QueueBucket key = m.objects args.s3QueueBucket key := by
      intro key
      refine Run.object_eq hm' (fun path ans _ hmem => ?_) fun path content ct ans _ hmem => ?_
      · have hk := hs _ hmem
        simp [Op.kind] at hk
      · have hk := hs _ hmem
        simp [Op.kind] at hk
    obtain ⟨gone, hgone, hleft⟩ := Run.gone hlast fun a ha => by
      refine hdeleted args.s3QueueBucket a.1.key a.2 ?_
      have hne : answers.map (deleteEvent args.s3QueueBucket) ≠ [] := by
        rintro hnil
        rw [List.map_eq_nil_iff.mp hnil] at ha
        cases ha
      rw [← List.append_assoc, List.dropLast_append_of_ne_nil hne, ← List.map_dropLast]
      exact List.mem_append_right _ (List.mem_map_of_mem ha)
    have hplan : gone <+: plan.deleteKeys.map S3Key.key := by
      refine hgone.trans ?_
      have hmap := hkeys.map S3Key.key
      rwa [List.map_map] at hmap
    have hunder : ∀ key ∈ gone,
        UnderPrefix (ConfigServer.parse args).s3DdnsJsonDirectory "/" key := by
      intro key hkey
      obtain ⟨k, hk, rfl⟩ := List.mem_map.mp (hplan.subset hkey)
      obtain ⟨answer, hget⟩ := p.get_of_mem_deleteKeys hk
      exact ((hlisted k.key).mp (p.eligible_of_get hget).1).2
    refine ⟨gone, ⟨hunder, fun key => by rw [hleft, hobjects]⟩, ?_⟩
    rcases Run.records_carryOut hrest h₂ with ⟨hsame, hno⟩ | hrecords
    · -- nothing was acknowledged, so nothing was deleted
      have hnil : answers = [] := by
        by_contra hne
        obtain ⟨e, he, hack⟩ := hacked hne
        rw [hno e (List.mem_append_left _ he)] at hack
        cases hack
      rw [hnil] at hgone
      exact Or.inl ⟨List.prefix_nil.mp hgone, hsame⟩
    · refine Or.inr ⟨acceptedKeys (some plan), plan.deleteKeys.map S3Key.key,
        ⟨t₁, _, some plan, rfl, h₁, rfl⟩, ?_, ?_, ?_⟩
      · rw [p.deleteKeys_eq, List.map_append, List.map_append, List.append_assoc, List.map_map]
        exact List.prefix_append _ _
      · exact hplan
      · rw [hrecords, ← records_of_plan h₁ hm]

/-! ## The run after it -/

/-- A dry run leaves the records alone. -/
theorem records_of_dry (hdry : args.isDryRun = true) (h : (handleServer fuel args).run.Admits tr)
    (hrun : Run tokenKey w tr w') : w'.records = w.records := by
  rcases admits_handleServer h with ⟨hposts, -⟩ | ⟨hno, -⟩
  · exact Run.records_eq hrun fun e he => not_post_of_posts hposts he
  · rw [hdry] at hno
    cases hno

/-- A run of the stages is a run of the server. -/
theorem admits_of_stages {r : Result (Exit × ServerErrors)}
    (h : (stages fuel args).run.Exec tr r) : (handleServer fuel args).run.Admits tr := by
  rw [handleServer_eq_stages]
  exact Fallible.admits_bind.mpr (Or.inl h.admits)

namespace ObjectsLeft

variable {gone : List String} {key : String}

omit [Externals] in
/-- What is left was there. -/
theorem isSome (hleft : ObjectsLeft args w w₁ gone)
    (h : (w₁.objects args.s3QueueBucket key).isSome) :
    (w.objects args.s3QueueBucket key).isSome := by
  rw [hleft.objects] at h
  split at h
  · cases h
  · exact h

omit [Externals] in
/-- **A key of the directory that is not gone is left whole**: neither it
nor the object that is fetched for it is the object of a key that is
gone. -/
theorem not_gone (hleft : ObjectsLeft args w w₁ gone)
    (h : UnderPrefix (ConfigServer.parse args).s3DdnsJsonDirectory "/" key) (hgone : key ∉ gone) :
    key ∉ gone.map objectKey ∧ objectKey key ∉ gone.map objectKey := by
  constructor
  · intro hmem
    obtain ⟨k, hk, heq⟩ := List.mem_map.mp hmem
    rw [h.eq_of_objectKey (hleft.under k hk) heq] at hk
    exact hgone hk
  · intro hmem
    obtain ⟨k, hk, heq⟩ := List.mem_map.mp hmem
    rw [(hleft.under k hk).objectKey_inj h heq] at hk
    exact hgone hk

/-- What is left has the changes it had. -/
theorem changes_eq (hleft : ObjectsLeft args w w₁ gone)
    (h : ∀ key ∈ keys, UnderPrefix (ConfigServer.parse args).s3DdnsJsonDirectory "/" key) :
    (keys.filter fun key => key ∉ gone).filterMap (changeAt w₁ args.s3QueueBucket) =
      (keys.filter fun key => key ∉ gone).filterMap (changeAt w args.s3QueueBucket) := by
  refine List.filterMap_congr fun key hkey => ?_
  obtain ⟨hmem, hgone⟩ := List.mem_filter.mp hkey
  unfold changeAt
  rw [hleft.objects, if_neg (hleft.not_gone (h key hmem) (of_decide_eq_true hgone)).2]

end ObjectsLeft

/-- What a run over the rest of the objects accepts is what is left of what
a run over all of them accepts. -/
theorem HasAccepted.eq_filter {t₂ : Trace} {gone keys₂ : List String}
    (hleft : ObjectsLeft args w w₁ gone)
    (h₂ : (handleServer fuel args).run.Admits t₂) (hrun₂ : Run tokenKey w₁ t₂ w₂)
    (h : (handleServer fuel args).run.Admits tr) (hrun : Run tokenKey w tr w')
    (hsame : SameVerdicts fuel args w₁ t₂ tr) (hkeys₂ : HasAccepted fuel args t₂ keys₂)
    (hkeys : HasAccepted fuel args tr keys) : keys₂ = keys.filter fun key => key ∉ gone := by
  obtain ⟨hsorted₂, hin₂, hlisted₂⟩ := hkeys₂.in_listing h₂ hrun₂
  obtain ⟨hsorted, hin, hlisted⟩ := hkeys.in_listing h hrun
  refine List.Pairwise.eq_of_mem_iff hsorted₂ (hsorted.filter _) fun key => ?_
  rw [List.mem_filter, decide_eq_true_iff]
  constructor
  · intro hkey
    have hlist₂ := hin₂ key hkey
    obtain ⟨hsome, hkeyUnder⟩ := (hlisted₂ key).mp hlist₂
    have hthere := hkeys₂.object_isSome hrun₂ key hkey
    have hlist := (hlisted key).mpr ⟨hleft.isSome hsome, hkeyUnder⟩
    refine ⟨(hsame _ _ hkeys₂ hkeys key hlist₂ hlist hthere).mp hkey, fun hgone => ?_⟩
    -- its object is not gone, for it was fetched
    rw [hleft.objects, if_pos (List.mem_map_of_mem hgone)] at hthere
    cases hthere
  · rintro ⟨hkey, hgone⟩
    have hlist := hin key hkey
    obtain ⟨hsome, hkeyUnder⟩ := (hlisted key).mp hlist
    have hthere : (w₁.objects args.s3QueueBucket (objectKey key)).isSome := by
      rw [hleft.objects, if_neg (hleft.not_gone hkeyUnder hgone).2]
      exact hkeys.object_isSome hrun key hkey
    have hlist₂ : key ∈ listed t₂ := by
      rw [hlisted₂, hleft.objects, if_neg (hleft.not_gone hkeyUnder hgone).1]
      exact ⟨hsome, hkeyUnder⟩
    exact (hsame _ _ hkeys₂ hkeys key hlist₂ hlist hthere).mpr hkey

/-- **A run after one that was killed** leaves the records as one run that
was not killed does, where the deletes before the kill succeeded and the
runs agree on what they accept. -/
theorem records_recovered {t₁ t₂ : Trace} {x₂ x : Exit × ServerErrors}
    (h₁ : (handleServer fuel args).run.Admits t₁) (hdeleted : DeletesSucceeded t₁)
    (hrun₁ : Run tokenKey w t₁ w₁)
    (h₂ : (stages fuel args).run.Exec t₂ (.ok x₂)) (hrun₂ : Run tokenKey w₁ t₂ w₂)
    (h : (stages fuel args).run.Exec tr (.ok x)) (hrun : Run tokenKey w tr w')
    (hsame₁ : SameVerdicts fuel args w t₁ tr) (hsame₂ : SameVerdicts fuel args w₁ t₂ tr) :
    w₂.records = w'.records := by
  by_cases hdry : args.isDryRun = true
  · rw [records_of_dry hdry (admits_of_stages h₂) hrun₂, records_of_dry hdry h₁ hrun₁,
      records_of_dry hdry (admits_of_stages h) hrun]
  rw [Bool.not_eq_true] at hdry
  obtain ⟨gone, hleft⟩ := leftBehind_of_admits h₁ hdeleted hrun₁
  obtain ⟨keys₂, hkeys₂, hrecords₂⟩ := records_of_stages hdry h₂ hrun₂
  obtain ⟨keys, hkeys, hrecords⟩ := records_of_stages hdry h hrun
  have hfilter := HasAccepted.eq_filter hleft.toObjectsLeft (admits_of_stages h₂) hrun₂
    (admits_of_stages h) hrun hsame₂ hkeys₂ hkeys
  obtain ⟨hsorted, hin, hlisted⟩ := hkeys.in_listing (admits_of_stages h) hrun
  -- what is left has the changes it had
  have hchanges : keys₂.filterMap (changeAt w₁ args.s3QueueBucket) =
      keys₂.filterMap (changeAt w args.s3QueueBucket) := by
    rw [hfilter]
    exact hleft.changes_eq fun key hkey => ((hlisted key).mp (hin key hkey)).2
  rw [hrecords₂, hrecords]
  unfold recordsAfter
  rw [hchanges]
  rcases hleft.records with ⟨rfl, hsame⟩ | ⟨keys₁, deleted, hkeys₁, hfirst, hgone, happlied⟩
  · -- nothing was deleted, and the batch is submitted as a whole
    have hall : keys₂ = keys := by
      rw [hfilter]
      exact List.filter_eq_self.mpr fun key _ => decide_eq_true List.not_mem_nil
    rw [hall]
    unfold World.apply
    simp only [hsame]
  · obtain ⟨hsorted₁, hin₁, hlisted₁⟩ := hkeys₁.in_listing h₁ hrun₁
    have hboth : ∀ key, key ∈ listed t₁ ↔ key ∈ listed tr := fun key =>
      (hlisted₁ key).trans (hlisted key).symm
    obtain rfl : keys₁ = keys := by
      refine List.Pairwise.eq_of_mem_iff hsorted₁ hsorted fun key => ⟨fun hkey => ?_, fun hkey => ?_⟩
      · have hlist := hin₁ key hkey
        exact (hsame₁ _ _ hkeys₁ hkeys key hlist ((hboth key).mp hlist)
          (hkeys₁.object_isSome hrun₁ key hkey)).mp hkey
      · have hlist := hin key hkey
        exact (hsame₁ _ _ hkeys₁ hkeys key ((hboth key).mpr hlist) hlist
          (hkeys.object_isSome hrun key hkey)).mpr hkey
    -- what is left is the end of the batch
    have hsuffix : keys₂ <:+ keys₁ := by
      rw [hfilter]
      exact Lists.filter_not_mem_suffix hfirst hgone (hsorted.imp ne_of_lt)
    exact World.apply_suffix (hsuffix.filterMap _) happlied

/-- A run of the server that returns `Ok` is one of the stages. -/
theorem stages_of_ok (h : (handleServer fuel args).run.Exec tr (.ok ())) :
    ∃ x, (stages fuel args).run.Exec tr (.ok x) := by
  rw [handleServer_eq_stages] at h
  obtain ⟨x, t₁, t₂, rfl, h₁, h₂⟩ := exec_bind_ok.mp h
  obtain ⟨rfl, -⟩ := exec_ofResult.mp h₂
  exact ⟨x, by rwa [List.append_nil]⟩

end

namespace Sample

/-- The sample run over two requests of one name, up to the first of its
two deletes. -/
@[irreducible] def cutTrace : Trace := staleRun.1.dropLast

/-- The services then. -/
@[irreducible] def cutServices : Services :=
  outOfOrder.after (host 1780000070 inRange070) cutTrace

theorem staleRun_cut : ∃ rest, staleRun.1 = cutTrace ++ rest := by
  unfold cutTrace
  by_cases h : staleRun.1 = []
  · exact ⟨[], by rw [h]; rfl⟩
  · exact ⟨_, (List.dropLast_append_getLast h).symm⟩

theorem cutTrace_world : Run id outOfOrder.world cutTrace cutServices.world := by
  obtain ⟨rest, hrest⟩ := staleRun_cut
  unfold cutServices
  exact staleRun_driven.stretch hrest

/-- The next run. -/
@[irreducible] def nextRun : Services.Observed (Result Unit) :=
  (@handleServer externals 1 serverArgs).run.drive (Services.answer (host 1780000090 inRange090))
    cutServices

theorem nextRun_driven : Services.Driven (host 1780000090 (by decide))
    (@handleServer externals 1 serverArgs).run cutServices nextRun := by
  unfold nextRun
  exact Services.driven _ _ _

set_option maxRecDepth 10000 in
/-- The first run deletes one of two objects, and the next run submits the
other again. -/
theorem nextRun_shows :
    deletes cutTrace = ["d/a.ddns.json"] ∧ deletes cutTrace.dropLast = [] ∧
      (posts cutTrace).map (fun req => req.changes.length) = [2] ∧ (listed cutTrace).length = 2 ∧
      (listed staleRun.1).length = 2 ∧ nextRun.2.1 = .ok (.ok ()) ∧
      (posts nextRun.1).map (fun req => req.changes.length) = [1] ∧
      (listed nextRun.1).length = 1 := by
  decide +kernel

/-- A sample run that submits as many changes as it lists keys has
accepted all. -/
theorem accepts_all {tr : Trace} {n : ℕ} :
    letI := externals
    (handleServer 1 serverArgs).run.Admits tr →
      (posts tr).map (fun req => req.changes.length) = [n] → (listed tr).length = n →
        ∀ keys, HasAccepted 1 serverArgs tr keys → keys = listed tr := by
  let := externals
  intro hadmits hposts hlisted keys hkeys
  obtain ⟨req, hreq, hlength⟩ := List.map_eq_singleton_iff.mp hposts
  have hmem : req ∈ posts tr := by
    rw [hreq]
    exact List.mem_singleton_self req
  exact hkeys.eq_listed hadmits hmem (hlength.trans hlisted.symm)

end Sample

/-- The run after the sample run that was killed between its deletes
leaves the records as the sample run does. -/
theorem records_recovered_stale :
    Sample.nextRun.2.2.world.records = Sample.staleRun.2.2.world.records := by
  let := Sample.externals
  obtain ⟨-, hnone, hposts₁, hlisted₁, hlisted, hok₂, hposts₂, hlisted₂⟩ := Sample.nextRun_shows
  obtain ⟨hok, -, -, hposts, -⟩ := Sample.staleRun_shows
  have hexec := Sample.staleRun_driven.exec hok
  have hexec₂ := Sample.nextRun_driven.exec hok₂
  obtain ⟨x, hstages⟩ := stages_of_ok hexec
  obtain ⟨x₂, hstages₂⟩ := stages_of_ok hexec₂
  have hcut : (handleServer 1 Sample.serverArgs).run.Admits Sample.cutTrace := by
    obtain ⟨rest, hrest⟩ := Sample.staleRun_cut
    have hadmits := hexec.admits
    rw [hrest] at hadmits
    exact Prog.Admits.of_append hadmits
  have hdeleted : DeletesSucceeded Sample.cutTrace := by
    intro bucket key answer hmem
    have hkey : key ∈ deletes Sample.cutTrace.dropLast := mem_deletes.mpr ⟨bucket, answer, hmem⟩
    rw [hnone] at hkey
    cases hkey
  have hall := Sample.accepts_all hexec.admits hposts hlisted
  exact records_recovered hcut hdeleted Sample.cutTrace_world hstages₂ Sample.nextRun_driven.world
    hstages Sample.staleRun_driven.world
    (sameVerdicts_of_all (Sample.accepts_all hcut hposts₁ hlisted₁) hall)
    (sameVerdicts_of_all (Sample.accepts_all hexec₂.admits hposts₂ hlisted₂) hall)

namespace Sample

/-- The services, where the delete of one key is refused. -/
def answerRefusing (refused : String) (host : Host) (s : Services) : (o : Op) → Op.Ans o × Services
  | .deleteObject bucket key =>
    if key = refused then (.error (Error.msg "503"), s)
    else s.answer host (.deleteObject bucket key)
  | o => s.answer host o

theorem step_answerRefusing (refused : String) (host : Host) (s : Services) (o : Op) :
    Step id s.world ⟨o, (answerRefusing refused host s o).1⟩
      (answerRefusing refused host s o).2.world := by
  cases o with
  | deleteObject bucket key =>
    simp only [answerRefusing]
    split
    · exact Or.inr ⟨rfl, fun status h => by cases h⟩
    · exact Services.step_answer host s _
  | _ => exact Services.step_answer host s _

/-- A program driven by them makes a run of the world. -/
theorem run_answerRefusing {α : Type} {refused : String} {host : Host} {p : Io α} {s : Services}
    {r : Services.Observed α} (hr : r = p.drive (answerRefusing refused host) s) :
    Run id s.world r.1 r.2.2.world := by
  subst hr
  have hchain : Along (fun s e s' => Step id s.world e s'.world) s
      (p.drive (answerRefusing refused host) s).1 (p.drive (answerRefusing refused host) s).2.2 :=
    along_drive (step_answerRefusing refused host) p s
  exact hchain.map Services.world fun _ _ _ h => h

/-- The run over the two requests, where the first delete is refused. -/
@[irreducible] def refusedRun : Services.Observed (Result Unit) :=
  (@handleServer externals 1 serverArgs).run.drive
    (answerRefusing "d/a.ddns.json" (host 1780000070 inRange070)) outOfOrder

theorem refusedRun_admits : (@handleServer externals 1 serverArgs).run.Admits refusedRun.1 := by
  unfold refusedRun
  exact Prog.admits_drive _ _

theorem refusedRun_world : Run id outOfOrder.world refusedRun.1 refusedRun.2.2.world := by
  have hr : refusedRun = (@handleServer externals 1 serverArgs).run.drive
      (answerRefusing "d/a.ddns.json" (host 1780000070 (by decide))) outOfOrder := by
    unfold refusedRun
    rfl
  exact run_answerRefusing hr

/-- The run after that. -/
@[irreducible] def laterRun : Services.Observed (Result Unit) :=
  (@handleServer externals 1 serverArgs).run.drive (Services.answer (host 1780000090 inRange090))
    refusedRun.2.2

theorem laterRun_driven : Services.Driven (host 1780000090 (by decide))
    (@handleServer externals 1 serverArgs).run refusedRun.2.2 laterRun := by
  unfold laterRun
  exact Services.driven _ _ _

set_option maxRecDepth 10000 in
/-- The second delete succeeds, and the next run submits the change of the
first object alone. -/
theorem laterRun_shows :
    deletes refusedRun.1 = ["d/a.ddns.json", "d/b.ddns.json"] ∧
      (posts refusedRun.1).map (fun req => req.changes.length) = [2] ∧
      (listed refusedRun.1).length = 2 ∧ laterRun.2.1 = .ok (.ok ()) ∧
      (posts laterRun.1).map (fun req => req.changes.length) = [1] ∧
      (listed laterRun.1).length = 1 ∧
      laterRun.2.2.world.records (changeUrl serverArgs.hostedDnsZoneId)
        (recordKey (record [address]).change) = some (300, .a [⟨#v[192, 168, 1, 2]⟩]) := by
  decide +kernel

end Sample

/-- **The request under the earlier key comes back**, where its delete was
refused and that of the later one was not: the next run submits it alone,
and the record is no longer what one run leaves. -/
theorem earlier_key_returns :
    letI := Sample.externals
    ∃ (w w₁ w₂ w' : World) (t₁ t₂ tr : Trace) (x₂ x : Exit × ServerErrors),
      (handleServer 1 Sample.serverArgs).run.Admits t₁ ∧ Run id w t₁ w₁ ∧
      (stages 1 Sample.serverArgs).run.Exec t₂ (.ok x₂) ∧ Run id w₁ t₂ w₂ ∧
      (stages 1 Sample.serverArgs).run.Exec tr (.ok x) ∧ Run id w tr w' ∧
      SameVerdicts 1 Sample.serverArgs w t₁ tr ∧ SameVerdicts 1 Sample.serverArgs w₁ t₂ tr ∧
      w₂.records ≠ w'.records := by
  let := Sample.externals
  obtain ⟨-, hposts₁, hlisted₁, hok₂, hposts₂, hlisted₂, hrecord₂⟩ := Sample.laterRun_shows
  obtain ⟨hok, -, -, hposts, hrecord⟩ := Sample.staleRun_shows
  obtain ⟨-, -, -, -, hlisted, -⟩ := Sample.nextRun_shows
  have hexec := Sample.staleRun_driven.exec hok
  have hexec₂ := Sample.laterRun_driven.exec hok₂
  obtain ⟨x, hstages⟩ := stages_of_ok hexec
  obtain ⟨x₂, hstages₂⟩ := stages_of_ok hexec₂
  have hall := Sample.accepts_all hexec.admits hposts hlisted
  refine ⟨_, _, _, _, _, _, _, x₂, x, Sample.refusedRun_admits, Sample.refusedRun_world, hstages₂,
    Sample.laterRun_driven.world, hstages, Sample.staleRun_driven.world,
    sameVerdicts_of_all (Sample.accepts_all Sample.refusedRun_admits hposts₁ hlisted₁) hall,
    sameVerdicts_of_all (Sample.accepts_all hexec₂.admits hposts₂ hlisted₂) hall, fun heq => ?_⟩
  rw [heq, hrecord] at hrecord₂
  revert hrecord₂
  decide

end DynDynser
