import DynDynser.Provenance
/-!
# Deployments side by side

One account serves many deployments: servers with directories and zones of
their own, in one bucket or in several. What a server looks at and changes
is its plot, the objects in its directory and the records of its zone; and
where the plots are apart, a server cannot tell that the others are there.
An object command drops the slash a key begins with, so the directory
without that slash is of the plot too.
Its events are a run of the server alone, and the plot is what that run
leaves (`server_alone`).
-/

namespace DynDynser

open Text Interact Fallible World DynDynserServer Externals

/-! ## Plots -/

/-- **A plot**: a directory of a bucket, and a zone by its address. -/
structure Plot where
  bucket : String
  dir : String
  url : String

/-- The plot of a server. -/
def plot (args : ServerArgs) : Plot where
  bucket := args.s3QueueBucket
  dir := args.s3DdnsJsonDir
  url := changeUrl args.hostedDnsZoneId

namespace Plot

variable {p q : Plot} {tokenKey : String → String} {a b c : World} {e : Event} {o : Op}
variable {keys : List String}

/-- The directories of a plot: the one that is listed, and the one its keys
are fetched and deleted in. -/
def dirs (p : Plot) : List String := [p.dir, objectKey p.dir]

/-- Is the object under the key in the plot? -/
def Holds (p : Plot) (bucket key : String) : Prop :=
  bucket = p.bucket ∧ ∃ dir ∈ p.dirs, UnderPrefix dir "/" key

/-- **Worlds that agree on a plot.** -/
structure Agree (p : Plot) (a b : World) : Prop where
  objects : ∀ key, p.Holds p.bucket key → a.objects p.bucket key = b.objects p.bucket key
  records : a.records p.url = b.records p.url

/-- A call that leaves a plot alone. -/
def Spares (p : Plot) : Op → Prop
  | .putObject bucket path _ _ => ¬ p.Holds bucket (objectKey path)
  | .deleteObject bucket path => ¬ p.Holds bucket (objectKey path)
  | .changeResourceRecordSets req => req.url ≠ p.url
  | _ => True

/-- A call that keeps to a plot: it lists the directory, fetches and
deletes some keys, and posts to the zone. -/
def Keeps (p : Plot) (keys : List String) : Op → Prop
  | .listPage bucket dir delimiter _ => bucket = p.bucket ∧ dir = p.dir ∧ delimiter = "/"
  | .getObject bucket path => bucket = p.bucket ∧ path ∈ keys
  | .putObject .. => False
  | .deleteObject bucket path => bucket = p.bucket ∧ path ∈ keys
  | .changeResourceRecordSets req => req.url = p.url
  | _ => True

/-- **Plots apart**: no object is in both, and their zones differ. -/
structure Apart (p q : Plot) : Prop where
  objects : ∀ bucket key, p.Holds bucket key → ¬ q.Holds bucket key
  zones : p.url ≠ q.url

/-- A key that is listed is in the plot. -/
theorem holds_of_listed {key : String} (h : UnderPrefix p.dir "/" key) : p.Holds p.bucket key :=
  ⟨rfl, p.dir, List.mem_cons_self, h⟩

/-- So is the object it is fetched from. -/
theorem holds_objectKey {key : String} (h : UnderPrefix p.dir "/" key) :
    p.Holds p.bucket (objectKey key) :=
  ⟨rfl, objectKey p.dir, List.mem_cons_of_mem _ List.mem_cons_self, h.without_slash⟩

/-- A name of a directory: nothing, or what ends with a slash. -/
def DirName (d : String) : Prop := d = "" ∨ endsWith d "/" = true

/-- A key has one directory at most. -/
theorem dir_unique {d d' key : String} (hd : DirName d) (hd' : DirName d')
    (h : UnderPrefix d "/" key) (h' : UnderPrefix d' "/" key) : d = d' := by
  -- the longer of the two would have a slash after the shorter one
  have hle : ∀ {d d' : String}, DirName d' → UnderPrefix d "/" key →
      UnderPrefix d' "/" key → d.toList <+: d'.toList → d = d' := by
    intro d d' hd' h h' hprefix
    obtain ⟨r, hr⟩ := hprefix
    obtain ⟨s, hs⟩ := h'.1
    have hdrop : key.toList.drop d.toList.length = r ++ s := by
      rw [← hs, ← hr, List.append_assoc, List.drop_left]
    have hnone : '/' ∉ r := fun hmem => h.2 (by
      rw [hdrop]
      exact (List.singleton_infix_iff _ _).mpr (List.mem_append_left s hmem))
    by_cases hnil : r = []
    · rw [hnil, List.append_nil] at hr
      exact String.toList_injective hr
    rcases hd' with rfl | hd'
    · exact absurd (List.append_eq_nil_iff.mp hr).2 hnil
    · obtain ⟨x, hx⟩ := List.isSuffixOf_iff_suffix.mp hd'
      have hlast : r.getLast? = some '/' := by
        rw [← List.getLast?_append_of_ne_nil d.toList hnil, hr, ← hx, List.getLast?_append]
        rfl
      exact absurd (List.mem_of_getLast? hlast) hnone
  rcases List.prefix_or_prefix_of_prefix h.1 h'.1 with hprefix | hprefix
  · exact hle hd' h h' hprefix
  · exact (hle hd h' h hprefix).symm

/-- The directories of a plot end with a slash if the one that is listed
does, or are nothing. -/
theorem dirName_of_mem {d : String} (hp : endsWith p.dir "/" = true) (h : d ∈ p.dirs) :
    DirName d := by
  rcases List.mem_pair.mp h with rfl | rfl
  · exact Or.inr hp
  rcases objectKey_eq_or p.dir with hsame | hsame
  · exact Or.inr (by rwa [hsame])
  · obtain ⟨x, hx⟩ := List.isSuffixOf_iff_suffix.mp hp
    rw [hsame] at hx
    rcases List.append_eq_cons_iff.mp hx with ⟨-, hx⟩ | ⟨y, -, hx⟩
    · exact Or.inl (String.toList_injective (List.cons.inj hx).2.symm)
    · exact Or.inr (List.isSuffixOf_iff_suffix.mpr ⟨y, hx.symm⟩)

/-- Directories that differ are apart, where they end with a slash. -/
theorem apart_of_dirs (hdirs : ∀ d ∈ p.dirs, d ∉ q.dirs) (hp : endsWith p.dir "/" = true)
    (hq : endsWith q.dir "/" = true) (hzones : p.url ≠ q.url) : p.Apart q where
  objects := by
    rintro _ _ ⟨-, d, hd, h⟩ ⟨-, d', hd', h'⟩
    refine hdirs d hd ?_
    rwa [dir_unique (dirName_of_mem hp hd) (dirName_of_mem hq hd') h h']
  zones := hzones

/-- What keeps to one plot leaves the plots apart from it alone. -/
theorem Keeps.spares (h : p.Keeps keys o) (hkeys : ∀ key ∈ keys, UnderPrefix p.dir "/" key)
    (hapart : p.Apart q) : q.Spares o := by
  cases o with
  | putObject bucket path content contentType => exact h.elim
  | deleteObject bucket path =>
    obtain ⟨rfl, hpath⟩ := h
    exact hapart.objects p.bucket _ (holds_objectKey (hkeys path hpath))
  | changeResourceRecordSets req => exact fun hurl => hapart.zones (h.symm.trans hurl)
  | _ => trivial

/-- **A call that leaves a plot alone** does not change it. -/
theorem Agree.step_spares (hagree : p.Agree a c) (hstep : Step tokenKey a e b)
    (h : p.Spares e.op) : p.Agree b c where
  objects key hheld := by
    rw [← hagree.objects key hheld]
    rcases Step.object_cases hstep p.bucket key with heq | ⟨path, ans, rfl, rfl, -⟩ |
      ⟨path, content, contentType, ans, rfl, rfl, -⟩
    · exact heq
    · exact absurd hheld h
    · exact absurd hheld h
  records := by
    rw [← hagree.records]
    rcases zone_cases hstep p.url with ⟨req, ans, rfl, hurl, -⟩ | ⟨heq, -⟩
    · exact absurd hurl h
    · exact heq

/-- A page of the plot is the same where the worlds agree. -/
theorem Agree.page (hagree : p.Agree a c) {token : Option String} {page : ListBucketResult}
    (h : Page tokenKey a p.bucket p.dir "/" token page) :
    Page tokenKey c p.bucket p.dir "/" token page where
  sorted := h.sorted
  mem_iff key := by
    rw [h.mem_iff]
    refine and_congr_left fun hrest => ?_
    rw [hagree.objects key (holds_of_listed hrest.1)]
  advances := h.advances

/-- Deletes and batches change what they are about alike. -/
theorem Agree.delete (hagree : p.Agree a c) (bucket key : String) :
    p.Agree (a.delete bucket key) (c.delete bucket key) where
  objects k hheld := by
    unfold World.delete
    dsimp only
    by_cases hb : p.bucket = bucket
    · subst hb
      rw [Function.update_self, Function.update_self]
      by_cases hk : k = key
      · rw [hk, Function.update_self, Function.update_self]
      · rw [Function.update_of_ne hk, Function.update_of_ne hk, hagree.objects k hheld]
    · rw [Function.update_of_ne hb, Function.update_of_ne hb, hagree.objects k hheld]
  records := hagree.records

theorem Agree.apply (hagree : p.Agree a c) (changes : List Change) :
    p.Agree (a.apply p.url changes) (c.apply p.url changes) where
  objects := hagree.objects
  records := by
    unfold World.apply
    dsimp only
    rw [Function.update_self, Function.update_self, hagree.records]

/-- **A call that keeps to a plot** is answered alike where the worlds
agree on it, and they agree on it after. -/
theorem Agree.step_keeps (hagree : p.Agree a c) (hstep : Step tokenKey a e b)
    (hkeys : ∀ key ∈ keys, UnderPrefix p.dir "/" key) (h : p.Keeps keys e.op) :
    ∃ d, Step tokenKey c e d ∧ p.Agree b d := by
  have hquiet : e.op.kind ∉ [Kind.put, .delete, .post] → Step tokenKey c e c →
      ∃ d, Step tokenKey c e d ∧ p.Agree b d := fun hk hc =>
    ⟨c, hc, by rwa [Step.eq_of_quiet hstep hk]⟩
  obtain ⟨o, x⟩ := e
  cases o with
  | listPage bucket dir delimiter token =>
    obtain ⟨rfl, rfl, rfl⟩ := h
    refine hquiet (by simp [Op.kind]) ?_
    cases x with
    | ok page => exact ⟨rfl, hagree.page hstep.2⟩
    | error err => rfl
  | getObject bucket path =>
    obtain ⟨rfl, hpath⟩ := h
    refine hquiet (by simp [Op.kind]) ?_
    cases x with
    | ok bytes =>
      obtain ⟨-, o, ho, hbytes⟩ := hstep
      have hsame := hagree.objects _ (holds_objectKey (hkeys path hpath))
      exact ⟨rfl, o, by rw [← hsame, ho], hbytes⟩
    | error err => rfl
  | putObject bucket path content contentType => exact h.elim
  | deleteObject bucket path =>
    rcases hstep with rfl | ⟨rfl, hno⟩
    · exact ⟨c.delete bucket (objectKey path), Or.inl rfl, hagree.delete bucket _⟩
    · exact ⟨c, Or.inr ⟨rfl, hno⟩, hagree⟩
  | changeResourceRecordSets req =>
    have hurl : req.url = p.url := h
    have happly : p.Agree (a.apply req.url req.changes) (c.apply req.url req.changes) := by
      rw [hurl]
      exact hagree.apply req.changes
    cases x with
    | ok resp =>
      have hworld : b = if resp.isSuccess then a.apply req.url req.changes else a := hstep
      refine ⟨if resp.isSuccess then c.apply req.url req.changes else c, rfl, ?_⟩
      rw [hworld]
      split
      · exact happly
      · exact hagree
    | error err =>
      rcases hstep with rfl | rfl
      · exact ⟨_, Or.inl rfl, happly⟩
      · exact ⟨c, Or.inr rfl, hagree⟩
  | _ => exact hquiet (by simp [Op.kind]) rfl

end Plot

section

variable [Externals] {fuel : ℕ} {args : ServerArgs} {conf : ConfigServer} {tr : Trace}

/-! ## What a server keeps to -/

omit [Externals] in
/-- Calls of the other kinds keep to any plot. -/
theorem Plot.keeps_of_kind {p : Plot} {keys : List String} {o : Op}
    (h : o.kind ∉ [Kind.list, .get, .put, .delete, .post]) : p.Keeps keys o := by
  cases o <;> first | trivial | exact absurd (by simp [Op.kind]) h

omit [Externals] in
/-- A call that keeps to a plot with some keys does with more. -/
theorem Plot.Keeps.mono {p : Plot} {keys keys' : List String} {o : Op} (h : p.Keeps keys o)
    (hsub : keys ⊆ keys') : p.Keeps keys' o := by
  cases o with
  | getObject bucket key => exact ⟨h.1, hsub h.2⟩
  | deleteObject bucket key => exact ⟨h.1, hsub h.2⟩
  | _ => exact h

/-- A page's keys are what is fetched of it. -/
theorem uses_fetchContents_keys {p : Plot} {contents : List String} {st : FetchState} :
    (fetchContents p.bucket contents st).Uses (p.Keeps contents) := by
  induction contents generalizing st with
  | nil => trivial
  | cons key contents ih =>
    have hrest : ∀ st, (fetchContents p.bucket contents st).Uses (p.Keeps (key :: contents)) :=
      fun _ => ih.mono fun o ho => ho.mono (List.subset_cons_self _ _)
    rw [fetchContents]
    split
    · exact Prog.Uses.bind (uses_call.mpr ⟨rfl, List.mem_cons_self⟩) fun _ => hrest _
    · exact hrest _

/-- **The loop over the pages fetches what it lists**, as far as it comes. -/
theorem keeps_of_fetchPages {self : DynDynserServer} {p : Plot}
    (hdir : self.conf.s3DdnsJsonDirectory = p.dir) {token : Option String} {st : FetchState}
    (h : (self.fetchPages p.bucket fuel token st).run.Admits tr) :
    ∀ e ∈ tr, p.Keeps (listed tr) e.op := by
  induction fuel generalizing token st tr with
  | zero =>
    obtain rfl : tr = [] := h
    exact fun e he => absurd he List.not_mem_nil
  | succ fuel ih =>
    rw [fetchPages] at h
    have hlist : ∀ {t : Trace}, (context "failed to list contents of s3 bucket" (tryCall
        (call (.listPage p.bucket self.conf.s3DdnsJsonDirectory "/" token)))).run.Admits t →
          ∀ e ∈ t, ∀ keys, p.Keeps keys e.op := fun ht e he keys =>
      ht.of_uses (uses_context (uses_call.mpr ⟨rfl, hdir, rfl⟩)) e he
    rcases admits_bind.mp h with h | ⟨page, t₁, t₂, rfl, h₁, h₂⟩
    · exact fun e he => hlist h e he _
    · have hshown : listed t₁ = page.contents := by
        rw [exec_call.mp (exec_context_ok.mp h₁)]
        exact List.append_nil _
      have hcontents : ∀ {st : FetchState} {t : Trace},
          (ExceptT.lift (fetchContents p.bucket page.contents st) : Rust FetchState).run.Admits t →
            ∀ e ∈ t, p.Keeps page.contents e.op := fun ht e he =>
        ht.of_uses (uses_lift.mpr uses_fetchContents_keys) e he
      intro e he
      rw [listed_append, hshown]
      rcases List.mem_append.mp he with he | he
      · exact hlist h₁.admits e he _
      rcases admits_bind.mp h₂ with h₂ | ⟨st', t₃, t₄, rfl, h₃, h₄⟩
      · exact (hcontents h₂ e he).mono (List.subset_append_left _ _)
      · rcases List.mem_append.mp he with he | he
        · exact (hcontents h₃.admits e he).mono (List.subset_append_left _ _)
        · split at h₄
          · refine (ih h₄ e he).mono fun key hkey => ?_
            simp [hkey]
          · rw [admits_pure.mp h₄] at he
            cases he

/-- **A preparation keeps to the plot.** -/
theorem keeps_of_prepare (h : (prepare fuel (ConfigServer.parse args)).run.Admits tr) :
    ∀ e ∈ tr, (plot args).Keeps (listed tr) e.op := by
  have hother : ∀ {e : Event} {keys}, e.op.kind ∈ [Kind.handle, .file, .clock, .user] →
      (plot args).Keeps keys e.op := fun hk => Plot.keeps_of_kind fun hmem => by
    simp only [List.mem_cons, List.not_mem_nil, or_false] at hk hmem
    rcases hk with hk | hk | hk | hk <;> simp [hk] at hmem
  rw [admits_prepare_iff] at h
  rcases admits_bind.mp h with h | ⟨credentials, t₁, t₂, rfl, h₁, h₂⟩
  · exact fun e he => hother (by simp [h.of_uses uses_getS3Credentials e he])
  have hcred := h₁.admits.of_uses uses_getS3Credentials
  have hfetch : ∀ {t : Trace}, (context "failed to query S3 for outstanding ddns requests"
      (fetchDdnsJsonsFromS3 ⟨ConfigServer.parse args, credentials⟩ fuel)).run.Admits t →
        ∀ e ∈ t, (plot args).Keeps (listed t) e.op := by
    intro t ht e he
    rw [admits_context, fetchDdnsJsonsFromS3] at ht
    have hbucket : ∀ {t : Trace}, (context "failed to get S3 bucket"
        (getS3Bucket ⟨ConfigServer.parse args, credentials⟩)).run.Admits t →
          ∀ e ∈ t, e.op.kind = .handle := fun ht =>
      ht.of_uses (uses_context uses_getS3Bucket)
    rcases admits_bind.mp ht with ht | ⟨b, t₃, t₄, rfl, h₃, h₄⟩
    · exact hother (by simp [hbucket ht e he])
    · obtain ⟨-, -, rfl⟩ := exec_getS3Bucket.mp (exec_context_ok.mp h₃)
      rcases List.mem_append.mp he with he | he
      · exact hother (by simp [hbucket h₃.admits e he])
      · refine (keeps_of_fetchPages (p := plot args) rfl h₄ e he).mono fun key hkey => ?_
        simp [hkey]
  intro e he
  rcases List.mem_append.mp he with he | he
  · exact hother (by simp [hcred e he])
  rcases admits_bind.mp h₂ with h₂ | ⟨fetched, t₃, t₄, rfl, h₃, h₄⟩
  · refine (hfetch h₂ e he).mono fun key hkey => ?_
    simp [hkey]
  · rcases List.mem_append.mp he with he | he
    · refine (hfetch h₃.admits e he).mono fun key hkey => ?_
      simp [hkey]
    · have hk := h₄.of_uses uses_judge e he
      refine hother ?_
      simp only [List.mem_cons, List.not_mem_nil, or_false] at hk ⊢
      tauto

/-- **A server keeps to its plot**: it fetches and deletes what it lists. -/
theorem keeps_of_handleServer (h : (handleServer fuel args).run.Admits tr) :
    ∀ e ∈ tr, (plot args).Keeps (listed tr) e.op := by
  intro e he
  obtain ⟨o, x⟩ := e
  by_cases hk : o.kind = .delete
  · obtain ⟨bucket, key, rfl⟩ : ∃ bucket key, o = .deleteObject bucket key := by
      cases o <;> first | exact ⟨_, _, rfl⟩ | cases hk
    obtain ⟨plan, t₁, t₂, -, -, rfl, h₁, rfl, hmem, -⟩ := plan_of_deleteObject h he
    obtain ⟨p⟩ := exec_prepare h₁
    obtain ⟨answer, hget⟩ := p.get_of_mem_deleteKeys hmem
    refine ⟨rfl, ?_⟩
    rw [listed_append]
    exact List.mem_append_left _ (p.eligible_of_get hget).1
  by_cases hpost : o.kind = .post
  · obtain ⟨req, rfl⟩ : ∃ req, o = .changeResourceRecordSets req := by
      cases o <;> first | exact ⟨_, rfl⟩ | cases hpost
    have hreq : req ∈ posts tr := List.mem_filterMap.mpr ⟨_, he, rfl⟩
    obtain ⟨plan, t₁, t₂, headers, rfl, h₁, rfl⟩ := mem_posts h hreq
    obtain ⟨p⟩ := exec_prepare h₁
    exact congrArg changeUrl p.zone_eq
  -- anything else is of the preparation, or keeps to any plot
  rw [handleServer_eq] at h
  rcases admits_bind.mp h with h | ⟨o', t₁, t₂, rfl, h₁, h₂⟩
  · exact keeps_of_prepare h _ he
  rcases List.mem_append.mp he with he | he
  · refine (keeps_of_prepare h₁.admits _ he).mono fun key hkey => ?_
    simp [hkey]
  · refine Plot.keeps_of_kind ?_
    have hmem := h₂.of_uses uses_finish _ he
    simp only [List.mem_cons, List.not_mem_nil, or_false] at hmem ⊢
    rcases hmem with hk' | hk' | hk' | hk' | hk' | hk' <;> simp_all

/-! ## Alone -/

variable {ι : Type} [DecidableEq ι] {procs : ι → Io (Result Unit)} {h : History ι Event}
variable {tokenKey : String → String} {w w' : World}

/-- What a server in company lists is under its directory. -/
theorem underPrefix_of_listed (hi : Interleaving procs (Step tokenKey) w h w') {i : ι}
    (hproc : procs i = (handleServer fuel args).run) {key : String}
    (hkey : key ∈ listed (h.events i)) : UnderPrefix args.s3DdnsJsonDir "/" key := by
  have hadmits := hi.admits i
  rw [hproc] at hadmits
  obtain ⟨⟨o, x⟩, he, hkey⟩ := List.mem_flatMap.mp hkey
  have hkeeps := keeps_of_handleServer hadmits _ he
  obtain ⟨a, b, hstep⟩ := hi.along.step_of_mem
    (List.mem_map_of_mem (f := Prod.snd) (History.mem_events.mp he))
  cases o with
  | listPage bucket dir delimiter token =>
    obtain ⟨rfl, rfl, rfl⟩ := hkeeps
    cases x with
    | ok page => exact ((hstep.2.mem_iff key).mp hkey).2.1
    | error err => cases hkey
  | _ => cases hkey

/-- **A server among others is alone.** Where every other program leaves the
plot of a server alone, or is a server of a plot apart from it, the events
of that server are a run of it alone, from the same world and with the same
answers, and the plot ends as that run leaves it. So what a run of a lone
server is known to do, each server of an account with many deployments
does. -/
theorem server_alone (hi : Interleaving procs (Step tokenKey) w h w') {i : ι}
    (hproc : procs i = (handleServer fuel args).run)
    (hothers : ∀ j, j ≠ i → (procs j).Uses (plot args).Spares ∨
      ∃ fuel' args', procs j = (handleServer fuel' args').run ∧ (plot args').Apart (plot args)) :
    (handleServer fuel args).run.Admits (h.events i) ∧
      ∃ m, Run tokenKey w (h.events i) m ∧ (plot args).Agree w' m := by
  have hadmits := hi.admits i
  rw [hproc] at hadmits
  refine ⟨hadmits, hi.alone (R := (plot args).Agree) ⟨fun _ _ => rfl, rfl⟩ ?_ ?_⟩
  · intro j e hj he a b c hstep hagree
    refine hagree.step_spares hstep ?_
    have hmem := History.mem_events.mpr he
    rcases hothers j hj with huses | ⟨fuel', args', hproc', hapart⟩
    · exact (hi.admits j).of_uses huses e hmem
    · have hadmits' := hi.admits j
      rw [hproc'] at hadmits'
      exact (keeps_of_handleServer hadmits' e hmem).spares
        (fun key hkey => underPrefix_of_listed hi hproc' hkey) hapart
  · intro e he a b c hstep hagree
    exact hagree.step_keeps hstep (fun key hkey => underPrefix_of_listed hi hproc hkey)
      (keeps_of_handleServer hadmits e (History.mem_events.mpr he))

end

namespace Sample

/-- The arguments of another deployment in the bucket. -/
def otherArgs : ServerArgs :=
  { serverArgs with s3DdnsJsonDir := "other/", hostedDnsZoneId := "Z2" }

theorem shared_sorted : ["d/augs.sarif.example.ddns.json",
    "other/augs.sarif.example.ddns.json"].Pairwise (· < ·) := by decide

/-- A bucket with a request for either. -/
def shared : Services :=
  services [("d/augs.sarif.example.ddns.json", goodRequest),
    ("other/augs.sarif.example.ddns.json", newerRequest)] shared_sorted

/-- The run of the other server. -/
@[irreducible] def otherRun : Services.Observed (Result Unit) :=
  (@handleServer externals 1 otherArgs).run.drive (Services.answer (host 1780000070 inRange070))
    shared

theorem otherRun_driven : Services.Driven (host 1780000070 (by decide))
    (@handleServer externals 1 otherArgs).run shared otherRun := by
  unfold otherRun
  exact Services.driven _ _ _

/-- The run of the first server after it. -/
@[irreducible] def ownRun : Services.Observed (Result Unit) :=
  (@handleServer externals 1 serverArgs).run.drive (Services.answer (host 1780000090 inRange090))
    otherRun.2.2

theorem ownRun_driven : Services.Driven (host 1780000090 (by decide))
    (@handleServer externals 1 serverArgs).run otherRun.2.2 ownRun := by
  unfold ownRun
  exact Services.driven _ _ _

set_option maxRecDepth 10000 in
theorem ownRun_shows : otherRun.2.1 = .ok (.ok ()) ∧ ownRun.2.1 = .ok (.ok ()) ∧
    ownRun.2.2.world.records (changeUrl "Z1") ("augs.sarif.example.", .a) =
      some (300, .a [address]) := by
  decide +kernel

/-- The two servers. -/
def servers (i : ℕ) : Io (Result Unit) :=
  if i = 0 then (@handleServer externals 1 serverArgs).run
  else (@handleServer externals 1 otherArgs).run

theorem servers_interleaving : Interleaving servers (Step id) shared.world
    (History.ofRun 1 otherRun.1 ++ History.ofRun 0 ownRun.1) ownRun.2.2.world := by
  have hother : (servers 1).Admits otherRun.1 := (otherRun_driven.exec ownRun_shows.1).admits
  have hown : (servers 0).Admits ownRun.1 := (ownRun_driven.exec ownRun_shows.2.1).admits
  have hfirst := Interleaving.ofRun hother otherRun_driven.world
  exact hfirst.append_run (History.events_ofRun_of_ne (by decide)) hown ownRun_driven.world

theorem events_servers :
    (History.ofRun 1 otherRun.1 ++ History.ofRun 0 ownRun.1).events 0 = ownRun.1 := by
  rw [History.events_append, History.events_ofRun_of_ne (by decide), History.events_ofRun_self,
    List.nil_append]

theorem apart_otherArgs : (plot otherArgs).Apart (plot serverArgs) :=
  Plot.apart_of_dirs (by decide) (by decide) (by decide) (by decide)

end Sample

/-- The first of the sample servers could have run before the other. -/
theorem server_alone_sample :
    ∃ m, Run id Sample.shared.world Sample.ownRun.1 m ∧
      m.records (changeUrl "Z1") ("augs.sarif.example.", .a) =
        some (300, .a [Sample.address]) := by
  let := Sample.externals
  have hproc : Sample.servers 0 = (handleServer 1 Sample.serverArgs).run := rfl
  obtain ⟨-, m, hrun, hagree⟩ := server_alone Sample.servers_interleaving hproc fun j hj =>
    Or.inr ⟨1, Sample.otherArgs, if_neg hj, Sample.apart_otherArgs⟩
  rw [Sample.events_servers] at hrun
  refine ⟨m, hrun, ?_⟩
  have hrecords : _ = m.records (changeUrl "Z1") := hagree.records
  rw [← hrecords]
  exact Sample.ownRun_shows.2.2

end DynDynser
