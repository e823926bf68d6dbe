import DynDynser.Helpers.Stages
import DynDynser.Model.World
/-!
# The world along a run

What a run does to the two services is read off its events. A step
touches one object or one zone, or nothing (`Step.object_cases`,
`Step.records_cases`); a run without puts, deletes and posts leaves the
world as it is, so its pages are the pages of one listing and its fetches
are of the objects listed.
-/

namespace DynDynser

open Text Interact

namespace World

variable {tokenKey : String → String} {w w' : World} {e : Event} {tr : Trace}
variable {bucket dir key : String}

/-! ## Keys -/

/-- An object command takes a path as it is, or without the slash it
begins with. -/
theorem objectKey_eq_or (path : String) :
    objectKey path = path ∨ path.toList = '/' :: (objectKey path).toList := by
  unfold objectKey
  split
  · next cs heq =>
    right
    rw [heq, String.toList_ofList]
  · exact Or.inl rfl

/-- A key a listing shows has the slashes of the prefix and no other. -/
theorem UnderPrefix.count_slash (h : UnderPrefix dir "/" key) :
    key.toList.count '/' = dir.toList.count '/' := by
  obtain ⟨⟨rest, hrest⟩, hno⟩ := h
  rw [← hrest, List.drop_left] at hno
  have hslash : '/' ∉ rest := fun hmem => hno ((List.singleton_infix_iff _ _).mpr hmem)
  rw [← hrest, List.count_append, List.count_eq_zero_of_not_mem hslash, Nat.add_zero]

/-- The object of a key in a directory is in that directory without its
slash. -/
theorem UnderPrefix.without_slash (h : UnderPrefix dir "/" key) :
    UnderPrefix (objectKey dir) "/" (objectKey key) := by
  obtain ⟨⟨rest, hrest⟩, hno⟩ := h
  cases hdir : dir.toList with
  | nil =>
    -- there is no slash in the key at all
    rw [hdir, List.nil_append] at hrest
    rw [hdir] at hno
    rcases objectKey_eq_or key with hkey | hkey
    · have hsame : objectKey dir = dir := by
        unfold objectKey
        rw [hdir]
      rw [hkey, hsame]
      exact ⟨⟨rest, by rw [hdir, hrest, List.nil_append]⟩, by rwa [hdir]⟩
    · refine absurd ?_ hno
      rw [hkey]
      exact ⟨[], _, rfl⟩
  | cons c cs =>
    have hkey : key.toList = c :: (cs ++ rest) := by rw [← hrest, hdir, List.cons_append]
    have hdrop : ¬ "/".toList <:+: rest := by
      rwa [← hrest, List.drop_left] at hno
    unfold objectKey
    rw [hdir, hkey]
    split
    · next heq =>
      obtain ⟨rfl, rfl⟩ := List.cons.inj heq
      refine ⟨⟨rest, by simp⟩, ?_⟩
      simpa using hdrop
    · next hne =>
      have hsame : ∀ ds, c :: (cs ++ rest) ≠ '/' :: ds := by
        rintro ds heq
        exact hne cs (by rw [(List.cons.inj heq).1])
      split
      · next heq => exact absurd heq (hsame _)
      · exact ⟨⟨rest, hrest⟩, by rwa [← hrest, List.drop_left]⟩

/-- **Two keys of a listing are two objects.** -/
theorem UnderPrefix.objectKey_inj {key' : String} (h : UnderPrefix dir "/" key)
    (h' : UnderPrefix dir "/" key') (heq : objectKey key = objectKey key') : key = key' := by
  have hcount : key.toList.count '/' = key'.toList.count '/' := by
    rw [h.count_slash, h'.count_slash]
  rcases objectKey_eq_or key with hkey | hkey <;> rcases objectKey_eq_or key' with hkey' | hkey'
  · rw [← hkey, heq, hkey']
  · rw [hkey', ← heq, hkey, List.count_cons_self] at hcount
    omega
  · rw [hkey, heq, hkey', List.count_cons_self] at hcount
    omega
  · exact String.toList_injective (by rw [hkey, hkey', heq])

/-- The object of a key of a listing is not shown under another key of
it. -/
theorem UnderPrefix.eq_of_objectKey {key' : String} (h : UnderPrefix dir "/" key)
    (h' : UnderPrefix dir "/" key') (heq : objectKey key' = key) : key' = key := by
  rcases objectKey_eq_or key' with hkey | hkey
  · rw [← hkey, heq]
  · have hcount : key.toList.count '/' = key'.toList.count '/' := by
      rw [h.count_slash, h'.count_slash]
    rw [hkey, heq, List.count_cons_self] at hcount
    omega

/-! ## One step -/

/-- **What a step can do to an object**: nothing, remove it by a delete of
its key, or put a new version of it. -/
theorem Step.object_cases (h : Step tokenKey w e w') (bucket key : String) :
    w'.objects bucket key = w.objects bucket key ∨
      (∃ path ans, e = ⟨.deleteObject bucket path, ans⟩ ∧ objectKey path = key ∧
        w'.objects bucket key = none) ∨
      ∃ path content contentType ans, e = ⟨.putObject bucket path content contentType, ans⟩ ∧
        objectKey path = key ∧ w'.objects bucket key = some ⟨w.nextVersion, content⟩ := by
  obtain ⟨o, x⟩ := e
  cases o with
  | putObject b path content contentType =>
    rcases h with rfl | ⟨rfl, -⟩
    · by_cases hb : b = bucket
      · subst hb
        by_cases hk : objectKey path = key
        · exact Or.inr (Or.inr ⟨path, content, contentType, x, rfl, hk, by simp [put, hk]⟩)
        · exact Or.inl (by simp [put, Function.update_of_ne (Ne.symm hk)])
      · exact Or.inl (by simp [put, Function.update_of_ne (Ne.symm hb)])
    · exact Or.inl rfl
  | deleteObject b path =>
    rcases h with rfl | ⟨rfl, -⟩
    · by_cases hb : b = bucket
      · subst hb
        by_cases hk : objectKey path = key
        · exact Or.inr (Or.inl ⟨path, x, rfl, hk, by simp [delete, hk]⟩)
        · exact Or.inl (by simp [delete, Function.update_of_ne (Ne.symm hk)])
      · exact Or.inl (by simp [delete, Function.update_of_ne (Ne.symm hb)])
    · exact Or.inl rfl
  | changeResourceRecordSets req =>
    left
    cases x with
    | ok resp =>
      unfold Step at h
      dsimp only at h
      rw [h]
      split <;> rfl
    | error err => rcases h with rfl | rfl <;> rfl
  | listPage => cases x with
    | ok page => exact Or.inl (by rw [h.1])
    | error err => exact Or.inl (by rw [show w' = w from h])
  | getObject => cases x with
    | ok page => exact Or.inl (by rw [h.1])
    | error err => exact Or.inl (by rw [show w' = w from h])
  | _ => exact Or.inl (by rw [show w' = w from h])

/-- **What a step can do to the records**: nothing, or apply a batch. -/
theorem Step.records_cases (h : Step tokenKey w e w') :
    w'.records = w.records ∨ ∃ req ans, e = ⟨.changeResourceRecordSets req, ans⟩ ∧
      w'.records = (w.apply req.url req.changes).records := by
  obtain ⟨o, x⟩ := e
  cases o with
  | putObject => rcases h with rfl | ⟨rfl, -⟩ <;> exact Or.inl rfl
  | deleteObject => rcases h with rfl | ⟨rfl, -⟩ <;> exact Or.inl rfl
  | changeResourceRecordSets req =>
    cases x with
    | ok resp =>
      unfold Step at h
      dsimp only at h
      by_cases hs : resp.isSuccess = true
      · rw [if_pos hs] at h
        exact Or.inr ⟨req, _, rfl, by rw [h]⟩
      · rw [if_neg hs] at h
        exact Or.inl (by rw [h])
    | error err =>
      rcases h with rfl | rfl
      · exact Or.inr ⟨req, _, rfl, rfl⟩
      · exact Or.inl rfl
  | listPage => cases x with
    | ok page => exact Or.inl (by rw [h.1])
    | error err => exact Or.inl (by rw [show w' = w from h])
  | getObject => cases x with
    | ok page => exact Or.inl (by rw [h.1])
    | error err => exact Or.inl (by rw [show w' = w from h])
  | _ => exact Or.inl (by rw [show w' = w from h])

/-- A call that neither puts, deletes nor posts leaves the world alone. -/
theorem Step.eq_of_quiet (h : Step tokenKey w e w')
    (hk : e.op.kind ∉ [Kind.put, .delete, .post]) : w' = w := by
  obtain ⟨o, x⟩ := e
  cases o with
  | putObject => exact absurd (by simp [Op.kind]) hk
  | deleteObject => exact absurd (by simp [Op.kind]) hk
  | changeResourceRecordSets => exact absurd (by simp [Op.kind]) hk
  | listPage => cases x with
    | ok page => exact h.1
    | error err => exact h
  | getObject => cases x with
    | ok page => exact h.1
    | error err => exact h
  | _ => exact h

/-! ## A run -/

/-- **A run that neither puts, deletes nor posts leaves the world alone.** -/
theorem Run.eq_of_quiet (h : Run tokenKey w tr w')
    (hk : ∀ e ∈ tr, e.op.kind ∉ [Kind.put, .delete, .post]) : w' = w :=
  h.invariant (I := fun v => v = w) (fun e he a b hstep ha => by
    rw [Step.eq_of_quiet hstep (hk e he), ha]) rfl

/-- An object nobody puts or deletes stays as it is. -/
theorem Run.object_eq (h : Run tokenKey w tr w')
    (hdelete : ∀ path ans, objectKey path = key → (⟨.deleteObject bucket path, ans⟩ : Event) ∉ tr)
    (hput : ∀ path content contentType ans, objectKey path = key →
      (⟨.putObject bucket path content contentType, ans⟩ : Event) ∉ tr) :
    w'.objects bucket key = w.objects bucket key :=
  h.invariant (I := fun v => v.objects bucket key = w.objects bucket key)
    (fun e he a b hstep ha => by
      rcases Step.object_cases hstep bucket key with heq | ⟨p, ans, rfl, hp, -⟩ |
        ⟨p, c, ct, ans, rfl, hp, -⟩
      · rw [heq, ha]
      · exact absurd he (hdelete p ans hp)
      · exact absurd he (hput p c ct ans hp)) rfl

/-- An object nobody puts stays as it is, until it is gone. -/
theorem Run.object_eq_or_none (h : Run tokenKey w tr w')
    (hput : ∀ path content contentType ans, objectKey path = key →
      (⟨.putObject bucket path content contentType, ans⟩ : Event) ∉ tr) :
    w'.objects bucket key = w.objects bucket key ∨ w'.objects bucket key = none :=
  h.invariant
    (I := fun v => v.objects bucket key = w.objects bucket key ∨ v.objects bucket key = none)
    (fun e he a b hstep ha => by
      rcases Step.object_cases hstep bucket key with heq | ⟨_, _, rfl, -, hn⟩ |
        ⟨p, c, ct, ans, rfl, hp, -⟩
      · rw [heq]
        exact ha
      · exact Or.inr hn
      · exact absurd he (hput p c ct ans hp)) (Or.inl rfl)

/-- **Where an object comes from**: it is the one there was, or a put of the
run has made it. -/
theorem Run.object_made (h : Run tokenKey w tr w') {o : StoredObject}
    (ho : w'.objects bucket key = some o) :
    w.objects bucket key = some o ∨
      ∃ (t₁ : Trace) (path : String) (content : Bytes) (contentType : String) (ans : Result ℕ)
        (t₂ : Trace) (m : World), tr = t₁ ++ ⟨.putObject bucket path content contentType, ans⟩ :: t₂ ∧
        Run tokenKey w t₁ m ∧ objectKey path = key ∧ o = ⟨m.nextVersion, content⟩ := by
  induction tr using List.reverseRecOn generalizing w' with
  | nil =>
    obtain rfl := along_nil.mp h
    exact Or.inl ho
  | append_singleton tr e ih =>
    obtain ⟨m, hm, m', hstep, hnil⟩ := along_append.mp h
    obtain rfl := along_nil.mp hnil
    rcases Step.object_cases hstep bucket key with heq | ⟨_, _, -, -, hnone⟩ |
      ⟨path, content, contentType, ans, rfl, hpath, hput⟩
    · -- the last call left it alone
      rw [heq] at ho
      rcases ih hm ho with hfirst | ⟨t₁, path, content, contentType, ans, t₂, m₁, rfl, hrest⟩
      · exact Or.inl hfirst
      · exact Or.inr ⟨t₁, path, content, contentType, ans, t₂ ++ [e], m₁, by simp, hrest⟩
    · rw [hnone] at ho
      cases ho
    · rw [hput] at ho
      exact Or.inr ⟨tr, path, content, contentType, ans, [], m, rfl, hm, hpath,
        (Option.some.inj ho).symm⟩

/-- Records change by posts alone. -/
theorem Run.records_eq (h : Run tokenKey w tr w') (hk : ∀ e ∈ tr, e.op.kind ≠ .post) :
    w'.records = w.records :=
  h.invariant (I := fun v => v.records = w.records) (fun e he a b hstep ha => by
    rcases Step.records_cases hstep with heq | ⟨req, ans, rfl, -⟩
    · rw [heq, ha]
    · exact absurd rfl (hk _ he)) rfl

/-- What a quiet run fetched is in the bucket. -/
theorem Run.object_of_get {data : Bytes} (h : Run tokenKey w tr w')
    (hk : ∀ e ∈ tr, e.op.kind ∉ [Kind.put, .delete, .post])
    (hget : (⟨.getObject bucket key, .ok data⟩ : Event) ∈ tr) :
    ∃ o, w.objects bucket (objectKey key) = some o ∧ o.bytes = data := by
  obtain ⟨t₁, t₂, rfl⟩ := List.append_of_mem hget
  obtain ⟨m, h₁, m', hstep, -⟩ := along_append.mp h
  obtain rfl := Run.eq_of_quiet h₁ fun e he => hk e (List.mem_append_left _ he)
  exact hstep.2

/-! ## A listing -/

variable {ps : List FetchedPage} {token : Option String}

/-- A fetch is no put, no delete and no post. -/
theorem quiet_getEvents {answers : List (String × Result Bytes)} :
    ∀ e ∈ answers.map (getEvent bucket), e.op.kind ∉ [Kind.put, .delete, .post] := by
  intro e he
  obtain ⟨a, -, rfl⟩ := List.mem_map.mp he
  simp [getEvent, Op.kind]

/-- **The pages of a chain are one listing.** Together they show, in
order and each once, the visible keys after the token they start at. -/
theorem Run.pages (h : Run tokenKey w (pagesTrace bucket dir token ps) w') (hchain : Chained ps) :
    w' = w ∧ (ps.flatMap fun p => p.page.contents).Pairwise (· < ·) ∧
      ∀ key, key ∈ (ps.flatMap fun p => p.page.contents) ↔ (w.objects bucket key).isSome ∧
        UnderPrefix dir "/" key ∧ ∀ t ∈ token, tokenKey t < key := by
  induction ps generalizing token w with
  | nil => exact hchain.elim
  | cons p ps ih =>
    obtain ⟨m, ⟨rfl, hpage⟩, hpages⟩ := h
    obtain ⟨m, hgets, hrest⟩ := along_append.mp hpages
    obtain rfl := Run.eq_of_quiet hgets quiet_getEvents
    cases hnext : p.page.nextContinuationToken with
    | none =>
      -- the last page goes to the end
      simp only [Chained, hnext] at hchain
      subst hchain
      obtain rfl := along_nil.mp hrest
      simp only [List.flatMap_cons, List.flatMap_nil, List.append_nil]
      refine ⟨trivial, hpage.sorted, fun key => (hpage.mem_iff key).trans ?_⟩
      simp [hnext]
    | some next =>
      simp only [Chained, hnext] at hchain
      rw [hnext] at hrest
      obtain ⟨rfl, hsorted, hmem⟩ := ih hrest hchain
      have hpage_le : ∀ key ∈ p.page.contents, key ≤ tokenKey next := fun key hkey =>
        ((hpage.mem_iff key).mp hkey).2.2.2 next hnext
      have hrest_lt : ∀ key ∈ (ps.flatMap fun p => p.page.contents), tokenKey next < key :=
        fun key hkey => ((hmem key).mp hkey).2.2 next rfl
      simp only [List.flatMap_cons]
      refine ⟨trivial, List.pairwise_append.mpr ⟨hpage.sorted, hsorted, fun a ha b hb =>
        lt_of_le_of_lt (hpage_le a ha) (hrest_lt b hb)⟩, fun key => ?_⟩
      rw [List.mem_append, hpage.mem_iff, hmem, hnext]
      constructor
      · rintro (⟨hsome, hunder, ht, -⟩ | ⟨hsome, hunder, ht⟩)
        · exact ⟨hsome, hunder, ht⟩
        · -- a token stands for a later key than the one before it
          exact ⟨hsome, hunder, fun t hmem => (hpage.advances t hmem next hnext).trans (ht next rfl)⟩
      · rintro ⟨hsome, hunder, ht⟩
        rcases le_or_gt key (tokenKey next) with hle | hlt
        · refine Or.inl ⟨hsome, hunder, ht, fun t hmem => ?_⟩
          cases hmem
          exact hle
        · refine Or.inr ⟨hsome, hunder, fun t hmem => ?_⟩
          cases hmem
          exact hlt

section

variable [Externals] {self : DynDynserServer} {fuel : ℕ} {st : FetchState}

/-- **A complete fetch lists the visible keys, in order and each once**,
and leaves the world alone. -/
theorem Run.listed_fetch (h : Run tokenKey w tr w')
    (hfetch : (self.fetchDdnsJsonsFromS3 fuel).run.Exec tr (.ok st)) :
    w' = w ∧ (listed tr).Pairwise (· < ·) ∧ ∀ key, key ∈ listed tr ↔
      (w.objects self.conf.s3QueueBucket key).isSome ∧
        UnderPrefix self.conf.s3DdnsJsonDirectory "/" key := by
  obtain ⟨-, ps, -, hchain, rfl, -⟩ := exec_fetchDdnsJsonsFromS3.mp hfetch
  obtain ⟨m, hhandle, hpages⟩ := h
  obtain rfl : m = w := hhandle
  obtain ⟨hw, hsorted, hmem⟩ := Run.pages hpages hchain
  have hlisted : listed (⟨.bucketNew self.conf.s3QueueBucket self.conf.awsConfig.region, .ok ()⟩ ::
      pagesTrace self.conf.s3QueueBucket self.conf.s3DdnsJsonDirectory none ps) =
      ps.flatMap fun p => p.page.contents := listed_pagesTrace
  rw [hlisted]
  exact ⟨hw, hsorted, fun key => (hmem key).trans (by simp)⟩

/-- **A complete preparation lists the visible keys, in order and each
once**, fetches the eligible ones, and leaves the world alone. -/
theorem Run.listed_prepare {conf : ConfigServer} {o : Option Plan} (h : Run tokenKey w tr w')
    (hprepare : (prepare fuel conf).run.Exec tr (.ok o)) :
    w' = w ∧ (listed tr).Pairwise (· < ·) ∧ (gets tr).map Prod.fst = eligible (listed tr) ∧
      ∀ key, key ∈ listed tr ↔ (w.objects conf.s3QueueBucket key).isSome ∧
        UnderPrefix conf.s3DdnsJsonDirectory "/" key := by
  obtain ⟨credentials, t₁, t₂, t₃, rfl, h₁, h₂, h₃⟩ := exec_prepare_fetch hprepare
  obtain ⟨m, hm₁, hrest⟩ := along_append.mp h
  obtain ⟨m', hm₂, hm₃⟩ := along_append.mp hrest
  obtain rfl := Run.eq_of_quiet hm₁ fun e he => by simp [h₁ e he]
  obtain ⟨rfl, hsorted, hmem⟩ := Run.listed_fetch hm₂ h₂
  -- what comes after the fetch neither changes anything nor lists or fetches
  have hkinds : ∀ e ∈ t₃, e.op.kind ∉ [Kind.put, .delete, .post, .list, .get] := by
    intro e he
    have hk := h₃ e he
    simp only [List.mem_cons, List.not_mem_nil, or_false] at hk
    rcases hk with hk | hk | hk <;> simp [hk]
  have hworld := Run.eq_of_quiet hm₃ fun e he hk => hkinds e he (by
    simp only [List.mem_cons, List.not_mem_nil, or_false] at hk ⊢
    tauto)
  have hlisted : listed (t₁ ++ (t₂ ++ t₃)) = listed t₂ := by
    rw [listed_append, listed_append, listed_eq_nil fun e he => by simp [h₁ e he],
      listed_eq_nil fun e he hk => hkinds e he (by simp [hk]), List.nil_append, List.append_nil]
  have hgets : gets (t₁ ++ (t₂ ++ t₃)) = gets t₂ := by
    rw [gets_append, gets_append, gets_eq_nil fun e he => by simp [h₁ e he],
      gets_eq_nil fun e he hk => hkinds e he (by simp [hk]), List.nil_append, List.append_nil]
  rw [hlisted, hgets]
  exact ⟨hworld, hsorted, fetch_keys h₂, hmem⟩

/-- A preparation is no put, no delete and no post. -/
theorem quiet_of_prepare {conf : ConfigServer} (hprepare : (prepare fuel conf).run.Admits tr) :
    ∀ e ∈ tr, e.op.kind ∉ [Kind.put, .delete, .post] := by
  intro e he hk
  have hmem := hprepare.of_uses uses_prepare e he
  simp only [List.mem_cons, List.not_mem_nil, or_false] at hmem hk
  rcases hk with hk | hk | hk <;> simp [hk] at hmem

/-- What a preparation fetched is in the bucket. -/
theorem Run.object_of_prepare {conf : ConfigServer} {plan : Plan}
    (p : Preparation fuel conf tr plan) (h : Run tokenKey w tr w')
    (hprepare : (prepare fuel conf).run.Admits tr) {data : Bytes}
    (hget : (key, .ok data) ∈ gets tr) :
    ∃ o, w.objects conf.s3QueueBucket (objectKey key) = some o ∧ o.bytes = data :=
  Run.object_of_get h (quiet_of_prepare hprepare) (p.getEvent_mem hget)

/-! ## A plan -/

variable {plan : Plan}

omit [Externals] in
/-- What a post and its answer do to the records: nothing, and it was not
acknowledged, or the batch is applied. -/
theorem Step.records_post {req : ChangeRequest} {ans : Result (Response String)}
    (h : Step tokenKey w ⟨.changeResourceRecordSets req, ans⟩ w') :
    (w'.records = w.records ∧ acknowledges ⟨.changeResourceRecordSets req, ans⟩ = false) ∨
      w'.records = (w.apply req.url req.changes).records := by
  cases ans with
  | error e =>
    rcases h with rfl | rfl
    · exact Or.inr rfl
    · exact Or.inl ⟨rfl, rfl⟩
  | ok resp =>
    have heq : w' = if resp.isSuccess then w.apply req.url req.changes else w := h
    by_cases hs : resp.isSuccess = true
    · rw [if_pos hs] at heq
      exact Or.inr (by rw [heq])
    · rw [if_neg hs] at heq
      refine Or.inl ⟨by rw [heq], ?_⟩
      simp [acknowledges, hs]

/-- **The records along a run of a plan**: as they were, and nothing was
acknowledged, or with the batch of the plan applied. -/
theorem Run.records_carryOut (h : Run tokenKey w tr w') (hplan : (carryOut plan).run.Admits tr) :
    (w'.records = w.records ∧ ∀ e ∈ tr, acknowledges e = false) ∨
      w'.records =
        (w.apply (changeUrl plan.server.conf.hostedDnsZoneId) plan.changes).records := by
  obtain ⟨pre, hpre, htr⟩ := admits_carryOut hplan
  have hquiet := (quiet_beforePost hpre).2.2
  have hworld : ∀ m, Run tokenKey w pre m → m = w := fun m hm =>
    Run.eq_of_quiet hm fun e he => by rcases hpre e he with hk | hk <;> simp [hk]
  rcases htr with rfl | ⟨-, ⟨headers, ans, rfl⟩ | ⟨headers, resp, rest, -, rfl, hrest⟩⟩
  · rw [hworld _ h]
    exact Or.inl ⟨rfl, hquiet⟩
  · obtain ⟨m, hm, m', hpost, hnil⟩ := along_append.mp h
    obtain rfl := hworld m hm
    obtain rfl := along_nil.mp hnil
    rcases Step.records_post hpost with ⟨heq, hno⟩ | heq
    · refine Or.inl ⟨heq, fun e he => ?_⟩
      rcases List.mem_append.mp he with he | he
      · exact hquiet e he
      · rw [List.mem_singleton.mp he]
        exact hno
    · exact Or.inr heq
  · obtain ⟨m, hm, m', hpost, hafter⟩ := along_append.mp h
    obtain rfl := hworld m hm
    -- what follows the post is a handle and deletes
    have hkinds : ∀ e ∈ rest, e.op.kind = .handle ∨ e.op.kind = .delete := by
      intro e he
      rcases hrest with hk | ⟨answers, -, rfl⟩
      · exact Or.inl (hk e he)
      · rcases List.mem_cons.mp he with rfl | he
        · exact Or.inl rfl
        · obtain ⟨a, -, rfl⟩ := List.mem_map.mp he
          exact Or.inr rfl
    have hrecords : w'.records = m'.records := Run.records_eq hafter fun e he => by
      rcases hkinds e he with hk | hk <;> simp [hk]
    rw [hrecords]
    rcases Step.records_post hpost with ⟨heq, hno⟩ | heq
    · refine Or.inl ⟨heq, fun e he => ?_⟩
      rcases List.mem_append.mp he with he | he
      · exact hquiet e he
      · rcases List.mem_cons.mp he with rfl | he
        · exact hno
        · exact not_acknowledges (by rcases hkinds e he with hk | hk <;> simp [hk])
    · exact Or.inr heq

end

end World

end DynDynser
