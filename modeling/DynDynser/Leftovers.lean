import DynDynser.Cleanup
import DynDynser.Reporting
/-!
# What a run leaves behind

The bytes that are no request are deleted with the requests that were
accepted, in the cleanup at the end of a run. A run that accepts no
request leaves by an exit before it. So bytes that are no request stay in
the bucket for as long as no run accepts a request
(`unparsable_deleted_iff`).
-/

namespace DynDynser

open Text Interact Fallible DynDynserServer

section

variable [Externals] {fuel : ℕ} {args : ServerArgs} {tr : Trace}

/-! ## The exit and the plan -/

/-- **A run that no failure cut short** arrived at no plan, and did
nothing from then on; or it arrived at one, and the batch was acknowledged
and every delete of the plan was attempted. -/
theorem exec_stages_plan {exit : Exit} {errors : ServerErrors} (hdry : args.isDryRun = false)
    (h : (stages fuel args).run.Exec tr (.ok (exit, errors))) :
    (exit ≠ .summary ∧ (prepare fuel (ConfigServer.parse args)).run.Exec tr (.ok none)) ∨
      exit = .summary ∧ ∃ (plan : Plan) (t₁ pre : Trace) (headers : List (String × String))
          (resp : Response String) (answers : List (S3Key × Result ℕ)),
        tr = t₁ ++ (pre ++ plan.postEvent headers (.ok resp) :: handleEvent plan.server ::
          answers.map (deleteEvent plan.server.conf.s3QueueBucket)) ∧
        (prepare fuel (ConfigServer.parse args)).run.Exec t₁ (.ok (some plan)) ∧
        (∀ e ∈ pre, e.op.kind = .client ∨ e.op.kind = .clock) ∧
        acknowledges (plan.postEvent headers (.ok resp)) = true ∧
        answers.map Prod.fst = plan.deleteKeys := by
  unfold stages at h
  obtain ⟨x, t₁, t₂, rfl, h₁, h₂⟩ := exec_bind_ok.mp h
  have hprepare : (prepare fuel (ConfigServer.parse args)).run.Exec t₁ (.ok x.getLeft?) :=
    exec_prepare_iff.mpr ⟨x, h₁, rfl⟩
  cases x with
  | inr x =>
    obtain ⟨rfl, heq⟩ := exec_pure.mp h₂
    cases heq
    rw [List.append_nil]
    exact Or.inl ⟨Exit.noConfusion, hprepare⟩
  | inl plan =>
    obtain ⟨hdry', -⟩ | ⟨-, rfl, h₃⟩ := exec_conclude h₂
    · rw [show (ConfigServer.parse args).isDryRun = false from hdry] at hdry'
      cases hdry'
    rcases exec_effect h₃ with ⟨⟨e, he⟩, -⟩ |
      ⟨pre, headers, resp, rest, hpre, hack, rfl, ⟨e, he, -⟩ | ⟨answers, hkeys, -, rfl⟩⟩
    · cases he
    · cases he
    · exact Or.inr ⟨rfl, plan, t₁, pre, headers, resp, answers, rfl, hprepare, hpre, hack, hkeys⟩

/-! ## What is left -/

/-- The run has accepted a request. -/
def Course.Accepts (course : Course args tr) : Prop := ∃ c ∈ course.checks, ∃ v, c.verdict = .ok v

/-- **Bytes that are no request do not survive the run**: each object they
were fetched from has a delete. -/
def UnparsableDeleted (tr : Trace) : Prop := ∀ key, Unparsable tr key → key ∈ deletes tr

/-- What was fetched and is no request is among the keys of a plan. -/
theorem Preparation.mem_deleteKeys_of_unparsable {plan : Plan} {t₁ : Trace}
    (p : Preparation fuel (ConfigServer.parse args) t₁ plan) {key : String}
    (h : Unparsable t₁ key) : (⟨key⟩ : S3Key) ∈ plan.deleteKeys := by
  obtain ⟨data, e, hget, hparse⟩ := h
  have hfailure : parseFailure? (key, .ok data) =
      some (⟨key⟩, e.context "failed to deserialize into a DdnsJson object") := by
    simp only [parseFailure?, hparse]
  rw [p.deleteKeys_eq]
  have hmem := List.mem_filterMap.mpr ⟨_, hget, hfailure⟩
  exact List.mem_append_right _ (List.mem_map_of_mem hmem)

/-- **What a run leaves behind.** A run that no failure cut short deletes
the bytes that are no request exactly where it accepts a request, or there
are none. -/
theorem unparsable_deleted_iff {r : Result Unit} (hdry : args.isDryRun = false)
    (h : (handleServer fuel args).run.Exec tr r)
    (hblocked : ∀ e, ¬ (stages fuel args).run.Exec tr (.error e)) :
    Nonempty (Course args tr) ∧ ∀ course : Course args tr,
      (UnparsableDeleted tr ↔ course.Accepts ∨ ∀ key, ¬ Unparsable tr key) := by
  rw [handleServer_eq_stages] at h
  obtain ⟨e, h₁, -⟩ | ⟨⟨exit, errors⟩, t₁, t₂, rfl, h₁, h₂⟩ := Fallible.exec_bind.mp h
  · exact absurd h₁ (hblocked e)
  obtain ⟨rfl, -⟩ := exec_ofResult.mp h₂
  rw [List.append_nil]
  obtain ⟨course, -, hexit⟩ := exec_stages h₁
  refine ⟨⟨course⟩, fun course' => ?_⟩
  have haccepts : exit = .summary ↔ course'.Accepts :=
    (hexit.trans (and_iff_right hdry)).trans (course.accepted_iff course')
  rw [← haccepts]
  obtain ⟨hne, hnone⟩ | ⟨rfl, plan, t, pre, headers, resp, answers, rfl, hplan, hpre, -, hkeys⟩ :=
    exec_stages_plan hdry h₁
  · -- without a plan nothing is deleted
    have hdeletes := (quiet_prepare hnone.admits).2.1
    unfold UnparsableDeleted
    simp [hne, hdeletes]
  · refine iff_of_true (fun key hkey => ?_) (Or.inl rfl)
    obtain ⟨p⟩ := exec_prepare hplan
    obtain ⟨data, e, hget, hparse⟩ := hkey
    -- what was fetched was fetched before the plan
    have hrest : gets (pre ++ plan.postEvent headers (.ok resp) :: handleEvent plan.server ::
        answers.map (deleteEvent plan.server.conf.s3QueueBucket)) = [] := by
      refine gets_eq_nil fun x hx hk => ?_
      rcases List.mem_append.mp hx with hx | hx
      · rcases hpre x hx with hc | hc <;> simp [hk] at hc
      · rcases List.mem_cons.mp hx with rfl | hx
        · exact Kind.noConfusion hk
        · rcases List.mem_cons.mp hx with rfl | hx
          · exact Kind.noConfusion hk
          · obtain ⟨a, -, rfl⟩ := List.mem_map.mp hx
            exact Kind.noConfusion hk
    rw [gets_append, hrest, List.append_nil] at hget
    have hmem := p.mem_deleteKeys_of_unparsable ⟨data, e, hget, hparse⟩
    rw [← hkeys] at hmem
    obtain ⟨⟨k, ans⟩, ha, heq⟩ := List.mem_map.mp hmem
    obtain rfl : k = ⟨key⟩ := heq
    refine mem_deletes.mpr ⟨plan.server.conf.s3QueueBucket, ans, ?_⟩
    refine List.mem_append_right _ (List.mem_append_right _ ?_)
    exact List.mem_cons_of_mem _ (List.mem_cons_of_mem _ (List.mem_map.mpr ⟨_, ha, rfl⟩))

end

namespace Sample

/-- The run over bytes that are no request fetches them and deletes
nothing. -/
theorem badRun_leaves :
    gets badRun.1 = [("d/bad.ddns.json", .ok [0x78])] ∧ deletes badRun.1 = [] := by
  decide +kernel

theorem unparsable_bad : @Unparsable externals badRun.1 "d/bad.ddns.json" := by
  let := externals
  refine ⟨[0x78], ⟨["expected value at line 1 column 1"]⟩, ?_, rfl⟩
  rw [badRun_leaves.1]
  exact List.mem_singleton_self _

/-- No failure cuts it short. -/
theorem badRun_unblocked (e : Error) :
    ¬ (@stages externals 1 serverArgs).run.Exec badRun.1 (.error e) := by
  let := externals
  intro herror
  have hok := badRun_driven.exec badRun_shows
  have hsame : badRun.1 ++ ([] : Trace) = badRun.1 ++ [] := rfl
  have heq := (hok.unique herror hsame).2.1
  cases heq

end Sample

/-- The sample run deletes the bytes it could not read exactly where it
accepts a request. -/
theorem unparsable_deleted_iff_bad :
    letI := Sample.externals
    Nonempty (Course Sample.serverArgs Sample.badRun.1) ∧
      ∀ course : Course Sample.serverArgs Sample.badRun.1, (UnparsableDeleted Sample.badRun.1 ↔
        course.Accepts ∨ ∀ key, ¬ Unparsable Sample.badRun.1 key) := by
  let := Sample.externals
  exact unparsable_deleted_iff rfl Sample.badRun_ok Sample.badRun_unblocked

/-- **Bytes that are no request survive a run** over a bucket that has
nothing else. -/
theorem unparsable_survives :
    letI := Sample.externals
    ∃ tr, (handleServer 1 Sample.serverArgs).run.Exec tr (.ok ()) ∧
      (∀ e, ¬ (stages 1 Sample.serverArgs).run.Exec tr (.error e)) ∧
      Unparsable tr "d/bad.ddns.json" ∧ ¬ UnparsableDeleted tr := by
  let := Sample.externals
  refine ⟨_, Sample.badRun_ok, Sample.badRun_unblocked, Sample.unparsable_bad, fun hdeleted => ?_⟩
  have hmem := hdeleted _ Sample.unparsable_bad
  rw [Sample.badRun_leaves.2] at hmem
  cases hmem

end DynDynser
