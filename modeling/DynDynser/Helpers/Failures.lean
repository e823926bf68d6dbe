import DynDynser.Helpers.Privileges
import DynDynser.Helpers.Stages
/-!
# Runs that met no failure

A stage that returned a value met no failure that ends a run: where a
call of it fails, so does the stage. So the first failure of a server run
is the end of what it does.
-/

namespace DynDynser

open Text Interact Fallible DynDynserServer

variable {tr : Trace}

/-- No run of `x` that returned a value met a failure. -/
abbrev Unfailing {α : Type} (x : Rust α) : Prop := OkRuns (fun e => fails e = false) x

theorem unfailing_getS3Credentials {awsConfig : AWSCliConfig} :
    Unfailing awsConfig.getS3Credentials := by
  unfold AWSCliConfig.getS3Credentials
  split
  · refine okRuns_context (okRuns_tryCall fun tr a h e he => ?_)
    rw [exec_call.mp h, List.mem_singleton] at he
    rw [he]
    rfl
  · refine okRuns_context (okRuns_tryCall fun tr a h e he => ?_)
    rw [exec_call.mp h, List.mem_singleton] at he
    rw [he]
    rfl

/-- The events of a chain of pages are pages that came and fetches. -/
theorem not_fails_pagesTrace {bucket dir : String} {token : Option String}
    {ps : List FetchedPage} : ∀ e ∈ pagesTrace bucket dir token ps, fails e = false := by
  induction ps generalizing token with
  | nil => simp [pagesTrace]
  | cons p ps ih =>
    intro e he
    rcases List.mem_cons.mp he with rfl | he
    · rfl
    · rcases List.mem_append.mp he with he | he
      · obtain ⟨a, -, rfl⟩ := List.mem_map.mp he
        exact not_fails (Or.inl rfl)
      · exact ih e he

/-- The events of files that were read did not fail. -/
theorem not_fails_filesTrace {dir : String} {fs : List ReadFile} :
    ∀ e ∈ filesTrace dir fs, fails e = false := by
  intro e he
  obtain ⟨f, -, he⟩ := List.mem_flatMap.mp he
  simp only [readTrace, List.mem_cons, List.not_mem_nil, or_false] at he
  rcases he with rfl | rfl | rfl <;> rfl

theorem unfailing_maybeDropPrivileges {username : String} :
    Unfailing (maybeDropPrivileges username) := by
  intro tr u h e he
  rcases exec_maybeDropPrivileges h with ⟨euid, -, rfl⟩ | ⟨lookups, user, err, hlooked, rfl⟩
  · rw [List.mem_singleton.mp he]
    rfl
  · rcases List.mem_cons.mp he with rfl | he
    · rfl
    · rcases List.mem_append.mp he with he | he
      · rcases hlooked with rfl | rfl
        · rw [List.mem_singleton.mp he]
          rfl
        · simp only [List.mem_cons, List.not_mem_nil, or_false] at he
          rcases he with rfl | rfl <;> rfl
      · simp only [dropTrace, List.mem_cons, List.not_mem_nil, or_false] at he
        rcases he with rfl | rfl | rfl | rfl | rfl | rfl <;> rfl

variable [Externals] {fuel : ℕ} {conf : ConfigServer}

theorem unfailing_fetchDdnsJsonsFromS3 {self : DynDynserServer} :
    Unfailing (self.fetchDdnsJsonsFromS3 fuel) := by
  intro tr st h e he
  obtain ⟨-, ps, -, -, rfl, -⟩ := exec_fetchDdnsJsonsFromS3.mp h
  rcases List.mem_cons.mp he with rfl | he
  · rfl
  · exact not_fails_pagesTrace e he

theorem unfailing_domainCertificates {server : DynDynserServer} {errors : ServerErrors} :
    Unfailing (domainCertificates server errors) := by
  unfold domainCertificates
  split
  · exact OkRuns.pure
  · refine okRuns_context fun tr st h e he => ?_
    obtain ⟨entries, fs, -, rfl, -⟩ := exec_getPublicKeyMap.mp h
    rcases List.mem_cons.mp he with rfl | he
    · rfl
    · exact not_fails_filesTrace e he

/-- **A preparation that returned met no failure.** -/
theorem unfailing_prepare : Unfailing (prepare fuel conf) := by
  refine OkRuns.bind ?_ fun _ => OkRuns.pure
  refine OkRuns.bind unfailing_getS3Credentials fun credentials => ?_
  refine OkRuns.bind (okRuns_context unfailing_fetchDdnsJsonsFromS3) fun fetched => ?_
  unfold judge
  split
  · exact OkRuns.pure
  · refine OkRuns.bind unfailing_domainCertificates fun keyMap => ?_
    split
    · exact OkRuns.pure
    · refine OkRuns.bind (fun tr st h e he => ?_) fun st => ?_
      · have hclock := h.admits.of_uses (uses_lift.mpr uses_validateUnverified) e he
        exact not_fails (Or.inr hclock)
      · refine OkRuns.bind (okRuns_context unfailing_maybeDropPrivileges) fun _ => ?_
        split <;> exact OkRuns.pure

variable {plan : Plan}

/-- **A failure before the acknowledgement rules it out.** -/
theorem not_acknowledges_of_fails {args : ServerArgs}
    (h : (handleServer fuel args).run.Admits tr) {before after : Trace} {e : Event}
    (hsplit : tr = before ++ e :: after) (hfails : fails e = true)
    (hbefore : ∀ a ∈ before, acknowledges a = false) : ∀ a ∈ tr, acknowledges a = false := by
  rcases admits_handleServer h with ⟨-, -, hno⟩ | ⟨-, plan, t₁, t₂, rfl, h₁, h₂⟩
  · exact hno
  have hquiet := (quiet_prepare h₁.admits).2.2
  have hok := unfailing_prepare _ _ h₁
  obtain ⟨pre, hpre, rfl | ⟨hf, hpost⟩⟩ := admits_carryOut h₂
  · intro a ha
    rcases List.mem_append.mp ha with ha | ha
    · exact hquiet a ha
    · exact (quiet_beforePost hpre).2.2 a ha
  -- what comes before the post has not failed, so the post is the failure
  have hpost' : ∃ headers ans rest, t₂ = pre ++ plan.postEvent headers ans :: rest ∧
      (acknowledges (plan.postEvent headers ans) = false → rest = []) := by
    rcases hpost with ⟨headers, ans, rfl⟩ | ⟨headers, resp, rest, hack, rfl, -⟩
    · exact ⟨headers, ans, [], rfl, fun _ => rfl⟩
    · exact ⟨headers, .ok resp, rest, rfl, fun hno => by rw [hack] at hno; cases hno⟩
  obtain ⟨headers, ans, rest, rfl, hrest⟩ := hpost'
  have hnot : plan.postEvent headers ans ∉ before ∨
      acknowledges (plan.postEvent headers ans) = false := by
    by_cases hmem : plan.postEvent headers ans ∈ before
    · exact Or.inr (hbefore _ hmem)
    · exact Or.inl hmem
  have hno : acknowledges (plan.postEvent headers ans) = false := by
    rcases hnot with hmem | hno
    · have hcut : (t₁ ++ pre) ++ plan.postEvent headers ans :: rest = before ++ e :: after := by
        rw [← hsplit, List.append_assoc]
      rcases Lists.mem_or_eq_of_append hcut hmem with he | rfl
      · have hfine : fails e = false := (List.mem_append.mp he).elim (hok e) (hf e)
        rw [hfine] at hfails
        cases hfails
      · rw [Plan.acknowledges_postEvent, hfails]
        rfl
    · exact hno
  obtain rfl := hrest hno
  intro a ha
  rcases List.mem_append.mp ha with ha | ha
  · exact hquiet a ha
  · rcases List.mem_append.mp ha with ha | ha
    · exact (quiet_beforePost hpre).2.2 a ha
    · rw [List.mem_singleton.mp ha]
      exact hno

end DynDynser
