import DynDynser.Common.Interleaving
import DynDynser.Helpers.Changes
import DynDynser.Helpers.Publish
import DynDynser.Helpers.Runs
import DynDynser.Helpers.Services
/-!
# Servers and clients side by side

Any number of server runs and client runs on the same services, their
calls interleaved in any order. A delete names a key and not a version of
the object there, so what it removes is the version its run fetched, or
one that was put since (`deleteObject_removes`). Nothing in the program
rules the second out, and `newer_request_lost` is a history in which every
call succeeds and a request nobody looked at is removed.
-/

namespace DynDynser

open Text Interact World

/-- A run of one of the two commands. -/
inductive Process where
  | server (fuel : ℕ) (args : ServerArgs)
  | client (args : ClientArgs)

section

variable [Externals]

/-- The program a process runs. -/
def Process.program : Process → Io (Result Unit)
  | server fuel args => (handleServer fuel args).run
  | client args => (handleClient args).run

variable {ι : Type} [DecidableEq ι] {procs : ι → Process} {i : ι}
variable {tokenKey : String → String} {w w' m : World}
variable {before after : History ι Event} {bucket key : String} {ans : Result ℕ}

/-- What a run knows of the object it removes: it fetched these bytes from
the version `o`, and either submitted the change they ask for in a batch
that was acknowledged, or found them to be no request. -/
structure Handled (before : History ι Event) (i : ι) (bucket key : String) (data : Bytes) : Prop where
  fetched : (i, (⟨.getObject bucket key, .ok data⟩ : Event)) ∈ before
  settled : (∃ (payload : SignedPayload ResourceRecordSet) (req : ChangeRequest)
      (resp : Response String), fromSlice data = .ok payload ∧
      (i, (⟨.changeResourceRecordSets req, .ok resp⟩ : Event)) ∈ before ∧
      acknowledges ⟨.changeResourceRecordSets req, .ok resp⟩ = true ∧
      payload.envelope.payload.change ∈ req.changes) ∨
    ∃ e, (fromSlice data : Result (SignedPayload ResourceRecordSet)) = .error e

omit [Externals] in
/-- An event of a run that is before its delete. -/
theorem mem_before {e : Event}
    (he : e ∈ History.events (before ++ [(i, (⟨.deleteObject bucket key, ans⟩ : Event))]) i)
    (hk : e.op.kind ≠ .delete) : (i, e) ∈ before := by
  rw [History.events_append, History.events_cons_self, List.mem_append] at he
  rcases he with he | he
  · exact History.mem_events.mp he
  · exact absurd (by rw [List.mem_singleton.mp he]; rfl) hk

/-- **Only a server deletes, and only what it has handled** or could not
fetch. -/
theorem handled_of_deleteObject
    (h : Interleaving (fun i => (procs i).program) (Step tokenKey) w
      (before ++ [(i, ⟨.deleteObject bucket key, ans⟩)]) m) :
    (∃ fuel args, procs i = .server fuel args ∧ args.s3QueueBucket = bucket) ∧
      ((∃ e, (i, (⟨.getObject bucket key, .error e⟩ : Event)) ∈ before) ∨
        ∃ data, Handled before i bucket key data) := by
  have hadmits := h.admits i
  have hmem : (⟨.deleteObject bucket key, ans⟩ : Event) ∈ History.events
      (before ++ [(i, (⟨.deleteObject bucket key, ans⟩ : Event))]) i :=
    History.mem_events.mpr (by simp)
  cases hproc : procs i with
  | client args =>
    rw [hproc] at hadmits
    have hk := hadmits.of_uses uses_handleClient _ hmem
    simp [Op.kind] at hk
  | server fuel args =>
    rw [hproc] at hadmits
    obtain ⟨plan, t₁, t₂, headers, resp, hsplit, hprepare, hbucket, hkey, hpost, hack⟩ :=
      plan_of_deleteObject hadmits hmem
    subst hbucket
    obtain ⟨p⟩ := exec_prepare hprepare
    have hbefore : ∀ e ∈ t₁ ++ t₂, e.op.kind ≠ .delete → (i, e) ∈ before := by
      rw [← hsplit]
      exact fun e => mem_before
    have hget : ∀ answer, (key, answer) ∈ gets t₁ →
        (i, (⟨.getObject args.s3QueueBucket key, answer⟩ : Event)) ∈ before := fun answer ha =>
      hbefore _ (List.mem_append_left _ (p.getEvent_mem ha)) Kind.noConfusion
    have hposted : (i, plan.postEvent headers (.ok resp)) ∈ before :=
      hbefore _ (List.mem_append_right _ hpost) Kind.noConfusion
    refine ⟨⟨fuel, args, rfl, rfl⟩, ?_⟩
    rcases p.cause_of_mem_deleteKeys hkey with ⟨data, payload, ha, hparse, hv⟩ | ⟨e, ha⟩ |
      ⟨data, e, ha, hparse⟩
    · refine Or.inr ⟨data, hget _ ha, Or.inl ⟨payload, _, resp, hparse, hposted, hack, ?_⟩⟩
      exact Plan.change_mem hv
    · exact Or.inl ⟨e, hget _ ha⟩
    · exact Or.inr ⟨data, hget _ ha, Or.inr ⟨e, hparse⟩⟩

/-- **What a delete removes.** In every interleaving of server and client
runs, whenever a run deletes a key at which there is an object, that run
is a server's, and unless its own fetch of the key failed, it fetched a
version of the object which it has handled, and the version removed is
the one it fetched, or was made by a put of the key after that fetch. -/
theorem deleteObject_removes
    (h : Interleaving (fun i => (procs i).program) (Step tokenKey) w
      (before ++ (i, ⟨.deleteObject bucket key, ans⟩) :: after) w')
    (hm : Run tokenKey w (before.map Prod.snd) m) {o : StoredObject}
    (ho : m.objects bucket (objectKey key) = some o) :
    (∃ fuel args, procs i = .server fuel args ∧ args.s3QueueBucket = bucket) ∧
      ((∃ e, (i, (⟨.getObject bucket key, .error e⟩ : Event)) ∈ before) ∨
        ∃ b₁ data b₂ w₀ o₀, before = b₁ ++ (i, ⟨.getObject bucket key, .ok data⟩) :: b₂ ∧
          Run tokenKey w (b₁.map Prod.snd) w₀ ∧ w₀.objects bucket (objectKey key) = some o₀ ∧
          o₀.bytes = data ∧ Handled before i bucket key data ∧
          (o = o₀ ∨ ∃ b₃ j path content contentType ans b₄ w₁,
            b₂ = b₃ ++ (j, ⟨.putObject bucket path content contentType, ans⟩) :: b₄ ∧
            Run tokenKey w₀ (b₃.map Prod.snd) w₁ ∧ objectKey path = objectKey key ∧
            o = ⟨w₁.nextVersion, content⟩)) := by
  have hsplit : before ++ (i, (⟨.deleteObject bucket key, ans⟩ : Event)) :: after =
      (before ++ [(i, ⟨.deleteObject bucket key, ans⟩)]) ++ after := by simp
  rw [hsplit] at h
  obtain ⟨_, hstart, -⟩ := h.of_append
  obtain ⟨hserver, hfailed | ⟨data, hhandled⟩⟩ := handled_of_deleteObject hstart
  · exact ⟨hserver, Or.inl hfailed⟩
  · refine ⟨hserver, Or.inr ?_⟩
    obtain ⟨b₁, b₂, hb⟩ := List.append_of_mem hhandled.fetched
    -- the world at the fetch, and the stretch from there to the delete
    rw [hb, List.map_append, List.map_cons] at hm
    obtain ⟨w₀, hw₀, w₁, hstep, hrest⟩ := along_append.mp hm
    obtain ⟨rfl, o₀, ho₀, hbytes⟩ := hstep
    refine ⟨b₁, data, b₂, w₁, o₀, hb, hw₀, ho₀, hbytes, hhandled, ?_⟩
    rcases Run.object_made hrest ho with hsame |
      ⟨t₁, path, content, contentType, ans', t₂, w₂, htrace, hrun, hpath, rfl⟩
    · rw [ho₀] at hsame
      exact Or.inl (Option.some.inj hsame).symm
    · obtain ⟨b₃, b', rfl, rfl, hb'⟩ := List.map_eq_append_iff.mp htrace
      obtain ⟨⟨j, e⟩, b₄, rfl, rfl, rfl⟩ := List.map_eq_cons_iff.mp hb'
      exact Or.inr ⟨b₃, j, path, content, contentType, ans', b₄, w₂, rfl, hrun, hpath, rfl⟩

end

/-! ## A request that is lost -/

namespace Sample

/-- The key of the sample requests. -/
def key : String := "d/augs.sarif.example.ddns.json"

theorem objectKey_key : objectKey key = key := by decide

/-- A bucket with the sample request alone. -/
def single : Services := services [(key, goodRequest)] (List.pairwise_singleton _ _)

/-- The server's run over it. -/
@[irreducible] def singleRun : Services.Observed (Result Unit) :=
  (@handleServer externals 1 serverArgs).run.drive (Services.answer (host 1780000030 inRange030))
    single

theorem singleRun_driven :
    Services.Driven (host 1780000030 (by decide)) (@handleServer externals 1 serverArgs).run single
      singleRun := by
  unfold singleRun
  exact Services.driven _ _ _

/-- The server's run up to its last call. -/
def stretch : Trace := singleRun.1.dropLast

/-- The client's run at that point. -/
@[irreducible] def lateRun : Services.Observed (Result Unit) :=
  clientRun "d" (single.after (host 1780000030 inRange030) stretch)

theorem lateRun_driven : Services.Driven (host 1780000060 (by decide))
    (@handleClient externals (clientArgs "d")).run
    (single.after (host 1780000030 (by decide)) stretch) lateRun := by
  unfold lateRun
  exact clientRun_driven _ _

/-- Is this a delete of the sample key that succeeded? -/
def deletesKey : Event → Bool
  | ⟨.deleteObject bucket key', .ok status⟩ => bucket == "ddns" && key' == key && status == 204
  | _ => false

theorem eq_of_deletesKey {e : Event} (h : deletesKey e = true) :
    e = ⟨.deleteObject "ddns" key, .ok 204⟩ := by
  unfold deletesKey at h
  split at h
  · simp only [Bool.and_eq_true, beq_iff_eq] at h
    obtain ⟨⟨rfl, rfl⟩, rfl⟩ := h
    rfl
  · cases h

theorem lateRun_shows : singleRun.2.1 = .ok (.ok ()) ∧ singleRun.1.getLast?.any deletesKey = true ∧
    gets stretch = [(key, .ok goodRequest)] ∧ lateRun.2.1 = .ok (.ok ()) ∧
    (lateRun.2.2.world.objects "ddns" key).map StoredObject.bytes = some newerRequest ∧
    newerRequest ≠ goodRequest := by
  decide +kernel

/-- The run is its stretch and the delete. -/
theorem singleRun_eq : singleRun.1 = stretch ++ [⟨.deleteObject "ddns" key, .ok 204⟩] := by
  have hlast := lateRun_shows.2.1
  cases he : singleRun.1.getLast? with
  | none =>
    rw [he] at hlast
    cases hlast
  | some e =>
    rw [he] at hlast
    rw [← eq_of_deletesKey hlast]
    exact (List.dropLast_append_getLast? e he).symm

/-- A server and a client. -/
def processes : ℕ → Process
  | 0 => .server 1 serverArgs
  | _ => .client (clientArgs "d")

/-- The server up to its last call, and then the client. -/
def lateHistory : History ℕ Event := History.ofRun 0 stretch ++ History.ofRun 1 lateRun.1

theorem map_snd_lateHistory : lateHistory.map Prod.snd = stretch ++ lateRun.1 := by
  unfold lateHistory
  rw [List.map_append, History.map_snd_ofRun, History.map_snd_ofRun]

/-- With the server's last call, the history holds the two runs. -/
theorem events_lateHistory :
    History.events (lateHistory ++ [(0, (⟨.deleteObject "ddns" key, .ok 204⟩ : Event))]) 0 =
        singleRun.1 ∧
      History.events (lateHistory ++ [(0, (⟨.deleteObject "ddns" key, .ok 204⟩ : Event))]) 1 =
        lateRun.1 ∧
      ∀ i, i ≠ 0 → i ≠ 1 → History.events
        (lateHistory ++ [(0, (⟨.deleteObject "ddns" key, .ok 204⟩ : Event))]) i = [] := by
  rw [singleRun_eq]
  exact History.events_inserted (by decide) _ _ _

theorem lateHistory_world : Run id single.world (lateHistory.map Prod.snd) lateRun.2.2.world := by
  rw [map_snd_lateHistory]
  exact along_append.mpr ⟨_, singleRun_driven.stretch singleRun_eq, lateRun_driven.world⟩

theorem lateHistory_interleaving :
    Interleaving (fun i => (@Process.program externals (processes i))) (Step id) single.world
      (lateHistory ++ [(0, ⟨.deleteObject "ddns" key, .ok 204⟩)])
      (lateRun.2.2.world.delete "ddns" key) where
  admits i := by
    obtain ⟨h₀, h₁, hnone⟩ := events_lateHistory
    match i with
    | 0 =>
      rw [h₀]
      exact (singleRun_driven.exec lateRun_shows.1).admits
    | 1 =>
      rw [h₁]
      exact (lateRun_driven.exec lateRun_shows.2.2.2.1).admits
    | i + 2 =>
      rw [hnone (i + 2) (by omega) (by omega)]
      exact Prog.admits_nil _
  along := by
    rw [List.map_append]
    have hdelete : Step id lateRun.2.2.world ⟨.deleteObject "ddns" key, .ok 204⟩
        (lateRun.2.2.world.delete "ddns" key) := Or.inl (by rw [objectKey_key])
    exact along_append.mpr ⟨_, lateHistory_world, _, hdelete, rfl⟩

/-- The server fetched the first request, and only that. -/
theorem get_of_lateHistory {answer : Result Bytes}
    (h : (0, (⟨.getObject "ddns" key, answer⟩ : Event)) ∈ lateHistory) :
    answer = .ok goodRequest := by
  have hget : (key, answer) ∈ gets stretch := by
    rcases List.mem_append.mp h with h | h
    · obtain ⟨e, he, hpair⟩ := List.mem_map.mp h
      cases hpair
      exact List.mem_filterMap.mpr ⟨_, he, rfl⟩
    · obtain ⟨e, -, hpair⟩ := List.mem_map.mp h
      cases hpair
  rw [lateRun_shows.2.2.1] at hget
  exact (Prod.mk.inj (List.mem_singleton.mp hget)).2

end Sample

/-- In that history, what is removed is the object the server fetched or
one put since. -/
theorem deleteObject_removes_sample :
    ∃ o, Sample.lateRun.2.2.world.objects "ddns" Sample.key = some o ∧
      (o.bytes = Sample.goodRequest ∨ ∃ j path content contentType ans, ∃ w : World,
        (j, (⟨.putObject "ddns" path content contentType, ans⟩ : Event)) ∈ Sample.lateHistory ∧
        objectKey path = Sample.key ∧ o = ⟨w.nextVersion, content⟩) := by
  let := Sample.externals
  obtain ⟨o, ho, -⟩ := Option.map_eq_some_iff.mp Sample.lateRun_shows.2.2.2.2.1
  refine ⟨o, ho, ?_⟩
  rw [← Sample.objectKey_key] at ho
  obtain ⟨-, ⟨e, he⟩ | ⟨b₁, data, b₂, w₀, o₀, hsplit, -, ho₀, hbytes, hhandled, hremoved⟩⟩ :=
    deleteObject_removes Sample.lateHistory_interleaving Sample.lateHistory_world ho
  · cases Sample.get_of_lateHistory he
  · have hdata := Except.ok.inj (Sample.get_of_lateHistory hhandled.fetched)
    rcases hremoved with rfl |
      ⟨b₃, j, path, content, contentType, ans, b₄, w₁, rfl, -, hpath, rfl⟩
    · exact Or.inl (hbytes.trans hdata)
    · refine Or.inr ⟨j, path, content, contentType, ans, w₁, ?_, ?_, rfl⟩
      · rw [hsplit]
        simp
      · rw [hpath, Sample.objectKey_key]

/-- **A request is lost.** The sample client puts a new request between
the server's commit and its delete. Every call of the two runs succeeds,
both report success, and the object removed is not the one the server
fetched. -/
theorem newer_request_lost :
    letI := Sample.externals
    ∃ (before : History ℕ Event) (w m w' : World) (o : StoredObject),
      Interleaving (fun i => (Sample.processes i).program) (Step id) w
        (before ++ [(0, ⟨.deleteObject "ddns" Sample.key, .ok 204⟩)]) w' ∧
      (handleServer 1 Sample.serverArgs).run.Exec (History.events
        (before ++ [(0, (⟨.deleteObject "ddns" Sample.key, .ok 204⟩ : Event))]) 0) (.ok ()) ∧
      (handleClient (Sample.clientArgs "d")).run.Exec (History.events
        (before ++ [(0, (⟨.deleteObject "ddns" Sample.key, .ok 204⟩ : Event))]) 1) (.ok ()) ∧
      Run id w (before.map Prod.snd) m ∧
      m.objects "ddns" Sample.key = some o ∧ w'.objects "ddns" Sample.key = none ∧
      ∀ answer, (0, (⟨.getObject "ddns" Sample.key, answer⟩ : Event)) ∈ before →
        answer ≠ .ok o.bytes := by
  let := Sample.externals
  obtain ⟨hserver, -, -, hclient, hobject, hne⟩ := Sample.lateRun_shows
  obtain ⟨h₀, h₁, -⟩ := Sample.events_lateHistory
  obtain ⟨o, ho, hbytes⟩ := Option.map_eq_some_iff.mp hobject
  refine ⟨Sample.lateHistory, Sample.single.world, Sample.lateRun.2.2.world, _, o,
    Sample.lateHistory_interleaving, ?_, ?_, Sample.lateHistory_world, ho, ?_, ?_⟩
  · rw [h₀]
    exact Sample.singleRun_driven.exec hserver
  · rw [h₁]
    exact Sample.lateRun_driven.exec hclient
  · simp [World.delete]
  · intro answer hmem heq
    rw [Sample.get_of_lateHistory hmem, hbytes] at heq
    exact hne (Except.ok.inj heq).symm

end DynDynser
