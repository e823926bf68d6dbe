import DynDynser.Helpers.Privileges
import DynDynser.Helpers.Publish
import DynDynser.Helpers.Services
import DynDynser.Model.Process
/-!
# What is done as root

A drop that returned leaves a process that was root with the ids of the
user it looked up and no way back. A server always drops before it
commits; a client drops where it reads its key, and a client that is told
to skip verification reads none. So a client's put is made as root exactly
there (`mutates_unprivileged`).
-/

namespace DynDynser

open Text Interact Fallible DynDynserServer

/-- The process is the user, in all its ids, and the user is not root. -/
structure DroppedTo (user : User) (p : ProcessIds) : Prop where
  uids : p.uids.real = user.uid ∧ p.uids.effective = user.uid ∧ p.uids.saved = user.uid
  gids : p.gids.real = user.gid ∧ p.gids.effective = user.gid ∧ p.gids.saved = user.gid
  groups : p.groups = []
  not_root : user.uid ≠ 0

/-- **Nothing is changed as root**: where the run puts, posts or deletes,
the process has become the user named, or `nobody`, as the user database
has it. -/
def Unprivileged (username : String) (p : ProcessIds) (tr : Trace) : Prop :=
  ∀ before e after p', tr = before ++ e :: after → e.op.kind ∈ [Kind.put, .post, .delete] →
    Along ProcessIds.Step p before p' →
    ∃ lookups user, Looked username lookups user ∧ lookups <:+: before ∧ DroppedTo user p'

namespace ProcessIds

variable {p p' : ProcessIds} {tr : Trace} {e : Event} {username : String}

/-- A call that is not about users leaves the process as it is. -/
theorem step_iff_of_kind (h : e.op.kind ≠ .user) : Step p e p' ↔ p' = p := by
  obtain ⟨o, x⟩ := e
  cases o with
  | geteuid => exact absurd rfl h
  | getuid => exact absurd rfl h
  | getgid => exact absurd rfl h
  | userFromName => exact absurd rfl h
  | setgroups => exact absurd rfl h
  | setresgid => exact absurd rfl h
  | setresuid => exact absurd rfl h
  | setuid => exact absurd rfl h
  | _ => exact Iff.rfl

/-- A run that makes no call about users leaves the process as it is. -/
theorem along_iff_of_kind (h : ∀ e ∈ tr, e.op.kind ≠ .user) : Along Step p tr p' ↔ p' = p := by
  induction tr with
  | nil => exact Iff.rfl
  | cons e tr ih =>
    have htail := ih fun e he => h e (List.mem_cons_of_mem _ he)
    rw [along_cons]
    constructor
    · rintro ⟨m, hstep, hrest⟩
      obtain rfl := (step_iff_of_kind (h e List.mem_cons_self)).mp hstep
      exact htail.mp hrest
    · rintro rfl
      exact ⟨_, (step_iff_of_kind (h e List.mem_cons_self)).mpr rfl, htail.mpr rfl⟩

/-- Looking up a user leaves the process as it is. -/
theorem along_looked {lookups : Trace} {user : User} (h : Looked username lookups user)
    (hsteps : Along Step p lookups p') : p' = p := by
  rcases h with rfl | rfl
  · obtain ⟨m, hstep, hnil⟩ := hsteps
    obtain rfl : m = p := hstep
    exact hnil
  · obtain ⟨m, hstep, m', hstep', hnil⟩ := hsteps
    obtain rfl : m = p := hstep
    obtain rfl : m' = m := hstep'
    exact hnil

/-- Ids that were all set to one that is not `-1` are that one. -/
theorem set_same {ids ids' : Ids} {i : ℕ} (h : ids.Set i i i ids') (hreal : ids'.real = i) :
    ids'.effective = i ∧ ids'.saved = i := by
  have hvalid : i ≠ noId := hreal ▸ ids'.valid.1
  obtain ⟨-, heffective, hsaved⟩ := h
  unfold chosen at heffective hsaved
  rw [if_neg hvalid] at heffective hsaved
  exact ⟨heffective, hsaved⟩

/-- **A drop that returned has dropped**: a process that was root is the
user it looked up, for good. -/
theorem droppedTo (h : (maybeDropPrivileges username).run.Exec tr (.ok ()))
    (hroot : p.uids.effective = 0) (hsteps : Along Step p tr p') :
    ∃ lookups user, Looked username lookups user ∧ lookups <:+: tr ∧ DroppedTo user p' := by
  rcases exec_maybeDropPrivileges h with ⟨euid, hne, rfl⟩ | ⟨lookups, user, err, hlooked, rfl⟩
  · obtain ⟨m, ⟨-, heuid⟩, -⟩ := hsteps
    exact absurd (heuid.trans hroot) hne
  · refine ⟨lookups, user, hlooked, ⟨[⟨.geteuid, (0 : ℕ)⟩], dropTrace user err, by simp⟩, ?_⟩
    obtain ⟨m, ⟨rfl, -⟩, hrest⟩ := hsteps
    obtain ⟨m', hlookups, hcalls⟩ := along_append.mp hrest
    obtain rfl := along_looked hlooked hlookups
    obtain ⟨p₁, ⟨-, rfl⟩, p₂, ⟨-, huids₂, hgroups₂, hgids⟩, p₃, ⟨-, hgids₃, hgroups₃, huids⟩,
      p₄, ⟨h₄, huid⟩, p₅, ⟨h₅, hgid⟩, p₆, ⟨h₆, hnot, -⟩, hnil⟩ := hcalls
    rw [h₄] at hgid h₅
    rw [h₅] at hnot h₆
    rw [along_nil.mp hnil, h₆]
    obtain ⟨heffective, hsaved⟩ := set_same huids huid.symm
    rw [hgids₃] at hgid
    obtain ⟨hgeffective, hgsaved⟩ := set_same hgids hgid.symm
    exact {
      uids := ⟨huid.symm, heffective, hsaved⟩
      gids := by
        rw [hgids₃]
        exact ⟨hgid.symm, hgeffective, hgsaved⟩
      groups := hgroups₃.trans hgroups₂
      -- root would have been let back
      not_root := fun hzero => hnot (heffective.trans hzero) }

end ProcessIds

section

variable [Externals] {fuel : ℕ} {tr : Trace} {p p' : ProcessIds}

/-- **A server changes nothing as root.** What it posts and deletes comes
after a preparation, and that ends with a drop. -/
theorem handleServer_unprivileged {args : ServerArgs} (hroot : p.uids.effective = 0)
    (h : (handleServer fuel args).run.Admits tr) : Unprivileged args.dropToUser p tr := by
  intro before e after p' hsplit hkind hsteps
  have hmem : e ∈ tr := by simp [hsplit]
  have hput : e.op.kind ≠ .put := h.of_uses uses_handleServer e hmem
  rcases admits_handleServer h with ⟨hposts, hdeletes, -⟩ | ⟨-, plan, t₁, t₂, rfl, h₁, h₂⟩
  · simp only [List.mem_cons, List.not_mem_nil, or_false] at hkind
    rcases hkind with hk | hk | hk
    · exact absurd hk hput
    · exact absurd hk (not_post_of_posts hposts hmem)
    · exact absurd hk (not_delete_of_deletes hdeletes hmem)
  obtain ⟨q⟩ := exec_prepare h₁
  -- nothing is changed in the preparation, so it lies before
  have hquiet := h₁.admits.of_uses uses_prepare
  have hout : e ∉ t₁ := by
    intro he
    have hin := hquiet e he
    simp only [List.mem_cons, List.not_mem_nil, or_false] at hkind hin
    rcases hkind with hk | hk | hk <;> simp [hk] at hin
  obtain ⟨mid, rfl, hmid⟩ := Lists.append_eq_append_cons_of_not_mem hsplit hout
  obtain ⟨p₁, hprepare, hrest⟩ := along_append.mp hsteps
  have hcarry := h₂.of_uses uses_carryOut
  obtain rfl := (ProcessIds.along_iff_of_kind fun x hx hk => by
    have hin := hcarry x (by rw [hmid]; exact List.mem_append_left _ hx)
    simp [hk] at hin).mp hrest
  have hprepare' := q.events ▸ hprepare
  obtain ⟨p₂, hbefore, hdrop⟩ := along_append.mp hprepare'
  obtain rfl := (ProcessIds.along_iff_of_kind fun x hx hk => by
    simp only [List.mem_append, List.mem_flatMap] at hx
    rcases hx with ((hx | hx) | hx) | ⟨c, -, hx⟩
    · simp [q.credentialsRun.admits.of_uses uses_getS3Credentials x hx] at hk
    · have hin := q.fetchRun.admits.of_uses uses_fetchDdnsJsonsFromS3 x hx
      simp [hk] at hin
    · simp [q.certificatesRun.admits.of_uses uses_domainCertificates x hx] at hk
    · simp [c.run.admits.of_uses uses_check x hx] at hk).mp hbefore
  obtain ⟨lookups, user, hlooked, hpart, hdropped⟩ := ProcessIds.droppedTo q.dropRun hroot hdrop
  have hwithin : q.dropEvents <:+: t₁ := ⟨_, [], (List.append_nil _).trans q.events.symm⟩
  exact ⟨lookups, user, hlooked,
    (hpart.trans hwithin).trans (List.prefix_append t₁ mid).isInfix, hdropped⟩

/-- A client past its key is past the drop, unless it skips
verification. -/
theorem exec_clientSigningKey {conf : ConfigClient} {signingKey : SigningKey}
    (h : (clientSigningKey conf).run.Exec tr (.ok signingKey)) :
    conf.insecureSkipVerify = true ∧ tr = [] ∨
      conf.insecureSkipVerify = false ∧ ∃ t₁ t₂, tr = t₁ ++ t₂ ∧ (∀ e ∈ t₁, e.op.kind = .file) ∧
        (maybeDropPrivileges conf.dropUser).run.Exec t₂ (.ok ()) := by
  unfold clientSigningKey at h
  split at h
  · next hinsecure => exact Or.inl ⟨hinsecure, (exec_pure.mp h).1⟩
  · next hsecure =>
    obtain ⟨keyBytes, t₁, t', rfl, h₁, h⟩ := exec_bind_ok.mp h
    obtain ⟨_, t₂, t', rfl, h₂, h⟩ := exec_bind_ok.mp h
    obtain ⟨rfl, -⟩ := exec_ofResult.mp h
    refine Or.inr ⟨(Bool.not_eq_true _).mp hsecure, t₁, t₂, by rw [List.append_nil], ?_,
      exec_context_ok.mp h₂⟩
    exact (exec_context_ok.mp h₁).admits.of_uses uses_readFileLimited

/-- **A client that puts is past its key**, and asks about users no
more. -/
theorem admits_handleClient_put {args : ClientArgs} (h : (handleClient args).run.Admits tr)
    {e : Event} (he : e ∈ tr) (hput : e.op.kind = .put) :
    ∃ conf signingKey t₁ t₂, ConfigClient.parse args = .ok conf ∧ tr = t₁ ++ t₂ ∧
      (clientSigningKey conf).run.Exec t₁ (.ok signingKey) ∧ ∀ x ∈ t₂, x.op.kind ≠ .user := by
  rw [handleClient_eq] at h
  rcases Fallible.admits_bind.mp h with hprepare | ⟨draft, t, t₂, rfl, h₁, h₂⟩
  · have hin := hprepare.of_uses uses_clientPrepare e he
    simp [hput] at hin
  obtain ⟨signingKey, ip, t₁, ipEvents, signEvents, rfl, hconf, -, hkey, hip, hsign⟩ :=
    exec_clientPrepare h₁
  refine ⟨draft.conf, signingKey, t₁, (ipEvents ++ signEvents) ++ t₂, hconf, by simp, hkey, ?_⟩
  intro x hx
  rcases List.mem_append.mp hx with hx | hx
  · rcases List.mem_append.mp hx with hx | hx
    · simp [hip.admits.of_uses uses_queryForIp x hx]
    · simp [hsign.admits.of_uses uses_sign x hx]
  · intro huser
    have hin := h₂.of_uses uses_clientFinish x hx
    simp [huser] at hin

/-- A client neither posts nor deletes. -/
theorem kind_of_mutating {args : ClientArgs} (h : (handleClient args).run.Admits tr) {e : Event}
    (he : e ∈ tr) (hkind : e.op.kind ∈ [Kind.put, .post, .delete]) : e.op.kind = .put := by
  have hin := h.of_uses uses_handleClient e he
  simp only [List.mem_cons, List.not_mem_nil, or_false] at hkind
  rcases hkind with hk | hk | hk
  · exact hk
  · simp [hk] at hin
  · simp [hk] at hin

/-- **A client changes nothing as root** exactly where it does not skip
verification, or puts nothing. -/
theorem handleClient_unprivileged_iff {args : ClientArgs} (hroot : p.uids.effective = 0)
    (h : (handleClient args).run.Admits tr) (hsteps : Along ProcessIds.Step p tr p') :
    Unprivileged args.dropToUser p tr ↔
      args.insecureSkipVerify = false ∨ ∀ e ∈ tr, e.op.kind ≠ .put := by
  constructor
  · intro hunprivileged
    by_contra hcontra
    rw [not_or] at hcontra
    obtain ⟨hinsecure, hput⟩ := hcontra
    simp only [not_forall, not_not] at hput
    obtain ⟨e, he, hput⟩ := hput
    obtain ⟨conf, signingKey, t₁, t₂, hconf, rfl, h₁, h₂⟩ := admits_handleClient_put h he hput
    obtain ⟨-, -, -, -, -, hsame, -⟩ := ConfigClient.parse_eq_ok hconf
    rcases exec_clientSigningKey h₁ with ⟨-, rfl⟩ | ⟨hsecure, -⟩
    · -- no call about users, so the put is made by root still
      obtain ⟨before, after, hsplit⟩ := List.append_of_mem he
      rw [List.nil_append] at hsplit
      obtain ⟨lookups, user, hlooked, hpart, -⟩ := hunprivileged before e after p hsplit
        (by simp [hput]) ((ProcessIds.along_iff_of_kind fun x hx => h₂ x (by simp [hsplit, hx])).mpr
          rfl)
      obtain ⟨x, hx, hkind⟩ : ∃ x ∈ lookups, x.op.kind = .user := by
        rcases hlooked with rfl | rfl
        · exact ⟨_, List.mem_cons_self, rfl⟩
        · exact ⟨_, List.mem_cons_self, rfl⟩
      exact h₂ x (by simp [hsplit, hpart.subset hx]) hkind
    · exact hinsecure (hsame.symm.trans hsecure)
  · rintro (hsecure | hnone)
    · intro before e after p₁ hsplit hkind hbefore
      have he : e ∈ tr := by simp [hsplit]
      have hput := kind_of_mutating h he hkind
      obtain ⟨conf, signingKey, t₁, t₂, hconf, rfl, h₁, h₂⟩ := admits_handleClient_put h he hput
      obtain ⟨-, -, -, -, huser, hsame, -⟩ := ConfigClient.parse_eq_ok hconf
      rcases exec_clientSigningKey h₁ with ⟨hinsecure, -⟩ | ⟨-, t₃, t₄, rfl, hfile, hdrop⟩
      · rw [hsame, hsecure] at hinsecure
        cases hinsecure
      have hout : e ∉ t₃ ++ t₄ := by
        intro hin
        rcases List.mem_append.mp hin with hin | hin
        · have hk := hfile e hin
          rw [hput] at hk
          cases hk
        · have hk := hdrop.admits.of_uses uses_maybeDropPrivileges e hin
          rw [hput] at hk
          cases hk
      obtain ⟨mid, rfl, rfl⟩ := Lists.append_eq_append_cons_of_not_mem hsplit hout
      obtain ⟨p₂, hkey, hrest⟩ := along_append.mp hbefore
      obtain rfl := (ProcessIds.along_iff_of_kind fun x hx => h₂ x (by simp [hx])).mp hrest
      obtain ⟨p₃, hread, hdropped⟩ := along_append.mp hkey
      obtain rfl := (ProcessIds.along_iff_of_kind fun x hx => by simp [hfile x hx]).mp hread
      obtain ⟨lookups, user, hlooked, hpart, hto⟩ := ProcessIds.droppedTo hdrop hroot hdropped
      rw [huser] at hlooked
      refine ⟨lookups, user, hlooked, ?_, hto⟩
      exact (hpart.trans (List.suffix_append t₃ t₄).isInfix).trans
        (List.prefix_append (t₃ ++ t₄) mid).isInfix
    · intro before e after p' hsplit hkind
      have he : e ∈ tr := by simp [hsplit]
      exact absurd (kind_of_mutating h he hkind) (hnone e he)

end

section

variable [Externals]

/-- **What is done as root.** Of a process that was started as root, every
server run changes nothing as root, and a client run exactly where it does
not skip verification, or puts nothing. -/
theorem mutates_unprivileged (p : ProcessIds) (hroot : p.uids.effective = 0) :
    (∀ fuel args tr, (handleServer fuel args).run.Admits tr →
        Unprivileged args.dropToUser p tr) ∧
      ∀ args tr p', (handleClient args).run.Admits tr → Along ProcessIds.Step p tr p' →
        (Unprivileged args.dropToUser p tr ↔
          args.insecureSkipVerify = false ∨ ∀ e ∈ tr, e.op.kind ≠ .put) :=
  ⟨fun _ _ _ h => handleServer_unprivileged hroot h,
    fun _ _ _ h hsteps => handleClient_unprivileged_iff hroot h hsteps⟩

end

namespace Sample

/-- A process of root. -/
def root : ProcessIds where
  uids := ⟨0, 0, 0, by decide⟩
  gids := ⟨0, 0, 0, by decide⟩
  groups := [0]

/-- The process after a drop to the user `dyndynser`. -/
def dropped : ProcessIds where
  uids := ⟨990, 990, 990, by decide⟩
  gids := ⟨991, 991, 991, by decide⟩
  groups := []

/-- The user `dyndynser`. -/
def dyndynser : User := ⟨"dyndynser", 990, 991⟩

/-- The events of a drop to that user. -/
def dropEvents : Trace :=
  ⟨.geteuid, (0 : ℕ)⟩ :: ⟨.userFromName "dyndynser", .ok (some dyndynser)⟩ ::
    dropTrace dyndynser (Error.msg "EPERM")

/-- Root can drop to that user. -/
theorem drop_of_root : Along ProcessIds.Step root dropEvents dropped := by
  refine ⟨root, ⟨rfl, rfl⟩, root, rfl, { root with groups := [] }, ⟨rfl, rfl⟩,
    { root with groups := [], gids := dropped.gids }, ⟨Or.inl rfl, rfl, rfl, rfl, rfl, rfl⟩,
    dropped, ⟨Or.inl rfl, rfl, rfl, rfl, rfl, rfl⟩, dropped, ⟨rfl, rfl⟩, dropped, ⟨rfl, rfl⟩,
    dropped, ⟨rfl, ?_, ?_, ?_⟩, rfl⟩
  · decide
  · decide
  · decide

/-- The arguments of a client that skips verification. -/
def insecureArgs : ClientArgs := { clientArgs "d" with insecureSkipVerify := true }

/-- A run of that client. -/
@[irreducible] def insecureRun : Services.Observed (Result Unit) :=
  (@handleClient externals insecureArgs).run.drive
    (Services.answer (host 1780000060 inRange060))
    (vacant ["d/augs.sarif.example.ddns.json"] augs_sorted)

theorem insecureRun_driven : Services.Driven (host 1780000060 (by decide))
    (@handleClient externals insecureArgs).run
    (vacant ["d/augs.sarif.example.ddns.json"] (by decide)) insecureRun := by
  unfold insecureRun
  exact Services.driven _ _ _

set_option maxRecDepth 10000 in
theorem insecureRun_shows : insecureRun.2.1 = .ok (.ok ()) ∧
    insecureRun.1.map (·.op.kind) = [.query, .clock, .handle, .handle, .put] := by
  decide +kernel

end Sample

/-- For a process of root in particular, which can drop to a user. -/
theorem mutates_unprivileged_root :
    letI := Sample.externals
    Along ProcessIds.Step Sample.root Sample.dropEvents Sample.dropped ∧
    (∀ fuel args tr, (handleServer fuel args).run.Admits tr →
        Unprivileged args.dropToUser Sample.root tr) ∧
      ∀ args tr p', (handleClient args).run.Admits tr → Along ProcessIds.Step Sample.root tr p' →
        (Unprivileged args.dropToUser Sample.root tr ↔
          args.insecureSkipVerify = false ∨ ∀ e ∈ tr, e.op.kind ≠ .put) := by
  let := Sample.externals
  exact ⟨Sample.drop_of_root, mutates_unprivileged Sample.root rfl⟩

/-- **A client that skips verification puts as root.** The sample run of
one, started as root, has put its object with every id of root. -/
theorem put_as_root :
    letI := Sample.externals
    ∃ (tr : Trace) (p' : ProcessIds), (handleClient Sample.insecureArgs).run.Exec tr (.ok ()) ∧
      Along ProcessIds.Step Sample.root tr p' ∧
      ¬ Unprivileged Sample.insecureArgs.dropToUser Sample.root tr := by
  let := Sample.externals
  obtain ⟨hok, hkinds⟩ := Sample.insecureRun_shows
  have hno : ∀ e ∈ Sample.insecureRun.1, e.op.kind ≠ .user := by
    intro e he
    have hmem : e.op.kind ∈ Sample.insecureRun.1.map (·.op.kind) := List.mem_map_of_mem he
    rw [hkinds] at hmem
    intro hk
    simp [hk] at hmem
  have hsteps : Along ProcessIds.Step Sample.root Sample.insecureRun.1 Sample.root :=
    (ProcessIds.along_iff_of_kind hno).mpr rfl
  have hexec := Sample.insecureRun_driven.exec hok
  refine ⟨_, _, hexec, hsteps, fun hunprivileged => ?_⟩
  rcases (handleClient_unprivileged_iff rfl hexec.admits hsteps).mp hunprivileged with hsecure | hnone
  · cases hsecure
  · have hput : Kind.put ∈ Sample.insecureRun.1.map (·.op.kind) := by
      rw [hkinds]
      decide
    obtain ⟨e, he, hk⟩ := List.mem_map.mp hput
    exact hnone e he hk

end DynDynser
