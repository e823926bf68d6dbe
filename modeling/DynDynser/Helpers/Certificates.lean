import DynDynser.Helpers.Calls
import DynDynser.Model.Server
/-!
# Loading the certificates

A complete run that loads the certificates reads every certificate file of
the directory, in the order of the directory; a certificate it returns was
parsed from a file it read.
-/

namespace DynDynser

open Text Interact Fallible DynDynserServer

variable {tr : Trace}

/-! ## One file -/

@[simp] theorem orMustBeRoot_eq_ok {α : Type} {c : String} {r : Except IoError α} {a : α} :
    orMustBeRoot c r = .ok a ↔ r = .ok a := by
  cases r <;> simp [orMustBeRoot, Except.mapError]

/-- The events of a file read under the limit. -/
def readTrace (path : String) (size : ℕ) (content : Bytes) : Trace :=
  [⟨.metadata path, .ok size⟩, ⟨.openFile path, .ok ()⟩, ⟨.readToEnd path, .ok content⟩]

/-- **A bounded read that returned** looked at the size, and took no more
of the content than the limit. -/
theorem exec_readFileLimited {path : String} {maxBytes : ℕ} {b : Bytes} :
    (readFileLimited path maxBytes).run.Exec tr (.ok b) ↔
      ∃ size content, size ≤ maxBytes ∧ tr = readTrace path size content ∧
        b = content.take maxBytes := by
  rw [readFileLimited]
  constructor
  · intro h
    obtain ⟨reported, t₁, t₂, rfl, h₁, h₂⟩ := exec_bind_ok.1 h
    obtain ⟨_, rfl, heq⟩ := exec_ask.1 h₁
    cases heq
    obtain ⟨size, t₃, t₄, rfl, h₃, h₄⟩ := exec_bind_ok.1 h₂
    obtain ⟨rfl, hsize⟩ := exec_ofResult.1 h₃
    obtain rfl := orMustBeRoot_eq_ok.1 hsize
    split at h₄
    · cases (exec_throw.1 h₄).2
    · next hle =>
      obtain ⟨opened, t₅, t₆, rfl, h₅, h₆⟩ := exec_bind_ok.1 h₄
      obtain ⟨_, rfl, heq⟩ := exec_ask.1 h₅
      cases heq
      obtain ⟨_, t₇, t₈, rfl, h₇, h₈⟩ := exec_bind_ok.1 h₆
      obtain ⟨rfl, hopen⟩ := exec_ofResult.1 h₇
      obtain rfl := orMustBeRoot_eq_ok.1 hopen
      obtain ⟨delivered, t₉, t₁₀, rfl, h₉, h₁₀⟩ := exec_bind_ok.1 h₈
      obtain ⟨_, rfl, heq⟩ := exec_ask.1 h₉
      cases heq
      obtain ⟨content, t₁₁, t₁₂, rfl, h₁₁, h₁₂⟩ := exec_bind_ok.1 h₁₀
      obtain ⟨rfl, hread⟩ := exec_ofResult.1 h₁₁
      obtain rfl := orMustBeRoot_eq_ok.1 hread
      obtain ⟨rfl, heq⟩ := exec_pure.1 h₁₂
      cases heq
      exact ⟨size, content, Nat.le_of_not_gt hle, rfl, rfl⟩
  · rintro ⟨size, content, hle, rfl, rfl⟩
    refine exec_bind_ok.2 ⟨.ok size, [_], _, rfl, exec_ask.2 ⟨_, rfl, rfl⟩, ?_⟩
    refine exec_bind_ok.2 ⟨size, [], _, rfl, exec_ofResult.2 ⟨rfl, rfl⟩, ?_⟩
    rw [if_neg (Nat.not_lt.2 hle)]
    refine exec_bind_ok.2 ⟨.ok (), [_], _, rfl, exec_ask.2 ⟨_, rfl, rfl⟩, ?_⟩
    refine exec_bind_ok.2 ⟨(), [], _, rfl, exec_ofResult.2 ⟨rfl, rfl⟩, ?_⟩
    refine exec_bind_ok.2 ⟨.ok content, [_], [], rfl, exec_ask.2 ⟨_, rfl, rfl⟩, ?_⟩
    exact exec_bind_ok.2 ⟨content, [], [], rfl, exec_ofResult.2 ⟨rfl, rfl⟩, exec_pure.2 ⟨rfl, rfl⟩⟩

theorem uses_readFileLimited {path : String} {maxBytes : ℕ} :
    (readFileLimited path maxBytes).run.Uses (·.kind = .file) := by
  refine uses_bind (uses_ask.2 rfl) fun reported => uses_bind uses_ofResult fun size => ?_
  split
  · exact uses_throw
  · refine uses_bind (uses_ask.2 rfl) fun _ => uses_bind uses_ofResult fun _ => ?_
    exact uses_bind (uses_ask.2 rfl) fun _ => uses_bind uses_ofResult fun _ => uses_pure

/-! ## The directory -/

/-- A certificate file that was read. -/
structure ReadFile where
  entry : DirEntry
  size : ℕ
  content : Bytes
  fits : size ≤ fileSizeMaxBytes

/-- The events of the files read, one after the other. -/
def filesTrace (dir : String) (fs : List ReadFile) : Trace :=
  fs.flatMap fun f => readTrace (joinPath dir f.entry.fileName) f.size f.content

/-- The certificate files of a directory. -/
def certificateFiles (entries : List (Result DirEntry)) : List DirEntry :=
  (entries.filterMap Except.toOption).filter isCertificateFile

variable [Externals]

/-- What the loop makes of the files it read. -/
def loadAll (fs : List ReadFile) (st : KeyMapState) : KeyMapState :=
  fs.foldl (fun st f => loaded f.entry.fileName (f.content.take fileSizeMaxBytes) st) st

theorem exec_loadCertificates {dir : String} {entries : List DirEntry} {st st' : KeyMapState} :
    (loadCertificates dir entries st).run.Exec tr (.ok st') ↔
      ∃ fs : List ReadFile, fs.map ReadFile.entry = entries ∧ tr = filesTrace dir fs ∧
        st' = loadAll fs st := by
  induction entries generalizing st tr with
  | nil =>
    simp only [loadCertificates, exec_pure, List.map_eq_nil_iff]
    constructor
    · rintro ⟨rfl, heq⟩
      cases heq
      exact ⟨[], rfl, rfl, rfl⟩
    · rintro ⟨_, rfl, rfl, rfl⟩
      exact ⟨rfl, rfl⟩
  | cons entry entries ih =>
    rw [loadCertificates, exec_bind_ok]
    constructor
    · rintro ⟨b, t₁, t₂, rfl, h₁, h₂⟩
      obtain ⟨size, content, hle, rfl, rfl⟩ := exec_readFileLimited.1 (exec_context_ok.1 h₁)
      obtain ⟨fs, rfl, rfl, rfl⟩ := ih.1 h₂
      exact ⟨⟨entry, size, content, hle⟩ :: fs, rfl, rfl, rfl⟩
    · rintro ⟨fs, hentries, rfl, rfl⟩
      obtain ⟨f, fs, rfl, rfl, rfl⟩ := List.map_eq_cons_iff.1 hentries
      exact ⟨_, _, _, rfl, exec_context_ok.2 (exec_readFileLimited.2 ⟨f.size, f.content, f.fits,
        rfl, rfl⟩), ih.2 ⟨fs, rfl, rfl, rfl⟩⟩

variable {self : DynDynserServer}

/-- **A complete run that loads the certificates.** -/
theorem exec_getPublicKeyMap {errors : ServerErrors} {st : KeyMapState} :
    (self.getPublicKeyMap errors).run.Exec tr (.ok st) ↔
      ∃ (entries : List (Result DirEntry)) (fs : List ReadFile),
        fs.map ReadFile.entry = certificateFiles entries ∧
        tr = ⟨.readDir self.conf.keysSearchPath, .ok entries⟩ ::
          filesTrace self.conf.keysSearchPath fs ∧
        st = loadAll fs ([], errors) := by
  rw [getPublicKeyMap, exec_bind_ok]
  constructor
  · rintro ⟨entries, t₁, t₂, rfl, h₁, h₂⟩
    obtain rfl := exec_call.1 (exec_context_ok.1 h₁)
    obtain ⟨fs, hfs, rfl, rfl⟩ := exec_loadCertificates.1 h₂
    exact ⟨entries, fs, hfs, rfl, rfl⟩
  · rintro ⟨entries, fs, hfs, rfl, rfl⟩
    exact ⟨entries, [_], _, rfl, exec_context_ok.2 (exec_call.2 rfl),
      exec_loadCertificates.2 ⟨fs, hfs, rfl, rfl⟩⟩

theorem uses_getPublicKeyMap {errors : ServerErrors} :
    (self.getPublicKeyMap errors).run.Uses (·.kind = .file) := by
  have hload : ∀ dir entries st, (loadCertificates dir entries st).run.Uses (·.kind = .file) := by
    intro dir entries
    induction entries with
    | nil => exact fun _ => trivial
    | cons entry entries ih =>
      exact fun st => uses_bind (uses_context uses_readFileLimited) fun _ => ih _
  exact uses_bind (uses_context (uses_call.2 rfl)) fun _ => hload _ _ _

/-- The certificate in a file. -/
def certificate? (f : ReadFile) : Option CertMatch :=
  (loadEd25519CertificatePem (f.content.take fileSizeMaxBytes)).toOption

/-- What is recorded of a file that is no certificate. -/
def keyFailure? (f : ReadFile) : Option (String × Error) :=
  match loadEd25519CertificatePem (f.content.take fileSizeMaxBytes) with
  | .ok _ => none
  | .error e => some (f.entry.fileName, e.context "failed to load an x509 certificate from bytes")

/-- **The certificates are those of the files that parse**, and the files
that do not are recorded; no other error list is touched. -/
theorem loadAll_eq (fs : List ReadFile) (st : KeyMapState) :
    loadAll fs st = (st.1 ++ fs.filterMap certificate?, { st.2 with
      failedKeyParses := st.2.failedKeyParses ++ fs.filterMap keyFailure? }) := by
  induction fs generalizing st with
  | nil => simp [loadAll]
  | cons f fs ih =>
    obtain ⟨v, errors⟩ := st
    change loadAll fs (loaded f.entry.fileName (f.content.take fileSizeMaxBytes) (v, errors)) = _
    rw [ih]
    cases h : loadEd25519CertificatePem (f.content.take fileSizeMaxBytes) with
    | ok crt => simp [loaded, certificate?, keyFailure?, h, Except.toOption]
    | error e => simp [loaded, certificate?, keyFailure?, h, Except.toOption]

/-- **What is loaded is in the trace**, whatever errors were recorded before. -/
theorem getPublicKeyMap_unique {other : DynDynserServer} {errors errors' : ServerErrors}
    {st st' : KeyMapState} {t t' s s' : Trace} (hconf : other.conf = self.conf)
    (h : (self.getPublicKeyMap errors).run.Exec t (.ok st))
    (h' : (other.getPublicKeyMap errors').run.Exec t' (.ok st')) (heq : t ++ s = t' ++ s') :
    st.1 = st'.1 ∧ s = s' := by
  obtain ⟨entries, fs, hfs, rfl, rfl⟩ := exec_getPublicKeyMap.1 h
  -- the errors before it make no difference to what it loads
  have hother : (other.getPublicKeyMap errors').run.Exec
      (⟨.readDir self.conf.keysSearchPath, .ok entries⟩ :: filesTrace self.conf.keysSearchPath fs)
      (.ok (loadAll fs ([], errors'))) :=
    exec_getPublicKeyMap.2 ⟨entries, fs, hfs, by rw [hconf], rfl⟩
  obtain ⟨-, hst, hs⟩ := hother.unique h' heq
  rw [← Except.ok.inj hst, loadAll_eq, loadAll_eq]
  exact ⟨rfl, hs⟩

/-- A certificate a run loaded: the directory has a certificate file, the
file was read, and what was read of it parses to the certificate. -/
def LoadedCertificate (dir : String) (t : Trace) (cert : CertMatch) : Prop :=
  ∃ (entries : List (Result DirEntry)) (entry : DirEntry) (content : Bytes),
    (⟨.readDir dir, .ok entries⟩ : Event) ∈ t ∧ Except.ok entry ∈ entries ∧
    isCertificateFile entry = true ∧
    (⟨.readToEnd (joinPath dir entry.fileName), .ok content⟩ : Event) ∈ t ∧
    loadEd25519CertificatePem (content.take fileSizeMaxBytes) = .ok cert

/-- **Every certificate returned was loaded**, and the errors differ in
the certificate files alone. -/
theorem getPublicKeyMap_loaded {errors : ServerErrors} {st : KeyMapState}
    (h : (self.getPublicKeyMap errors).run.Exec tr (.ok st)) :
    (∀ cert ∈ st.1, LoadedCertificate self.conf.keysSearchPath tr cert) ∧
      ∃ ks, st.2 = { errors with failedKeyParses := errors.failedKeyParses ++ ks } := by
  obtain ⟨entries, fs, hfs, rfl, rfl⟩ := exec_getPublicKeyMap.1 h
  rw [loadAll_eq]
  refine ⟨fun cert hcert => ?_, fs.filterMap keyFailure?, rfl⟩
  obtain ⟨f, hf, hparse⟩ := List.mem_filterMap.1 (by simpa using hcert)
  have hentry : f.entry ∈ certificateFiles entries := by
    rw [← hfs]
    exact List.mem_map_of_mem hf
  obtain ⟨hentry, hfile⟩ := List.mem_filter.1 hentry
  obtain ⟨r, hr, hre⟩ := List.mem_filterMap.1 hentry
  cases r with
  | error e => cases hre
  | ok entry =>
    obtain rfl : entry = f.entry := by simpa [Except.toOption] using hre
    refine ⟨entries, f.entry, f.content, List.mem_cons_self, hr, hfile, ?_, ?_⟩
    · refine List.mem_cons_of_mem _ (List.mem_flatMap.2 ⟨f, hf, ?_⟩)
      simp [readTrace]
    · unfold certificate? at hparse
      cases hp : loadEd25519CertificatePem (f.content.take fileSizeMaxBytes) with
      | error e => simp [hp, Except.toOption] at hparse
      | ok c =>
        rw [hp] at hparse
        cases hparse
        rfl

end DynDynser
