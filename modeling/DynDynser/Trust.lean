import DynDynser.Common.Lists
import DynDynser.Freshness
import DynDynser.Helpers.Certificates
/-!
# The certificates a server trusts

The certificates are read from the files of a directory, in an order that
is the directory's own. A file that was read and is no certificate costs
the run that file alone; a file that could not be read costs it all of
them (`badCertificate_harmless_iff`). A request is checked against the
first certificate of its name, so the order is of no matter exactly where
the certificates of a name agree on the request (`setSemantics_iff`).
-/

namespace DynDynser

open Text Interact Fallible Externals DynDynserServer

/-! ## The files of a directory -/

/-- What the file system answers: the entries of the directory, and what
comes of looking at a file, opening it and reading it. -/
structure Files where
  entries : List (Result DirEntry)
  metadata : String → Except IoError ℕ
  openFile : String → Except IoError Unit
  readToEnd : String → Except IoError Bytes

namespace Files

/-- The answers of a run are those of the file system. -/
def Answers (files : Files) (tr : Trace) : Prop :=
  ∀ e ∈ tr, match e with
    | ⟨.readDir _, x⟩ => x = .ok files.entries
    | ⟨.metadata path, x⟩ => x = files.metadata path
    | ⟨.openFile path, x⟩ => x = files.openFile path
    | ⟨.readToEnd path, x⟩ => x = files.readToEnd path
    | _ => True

/-- A file can be read: it is there and not too large, it can be opened,
and its content is delivered. -/
def Readable (files : Files) (path : String) : Prop :=
  ∃ size content, files.metadata path = .ok size ∧ size ≤ fileSizeMaxBytes ∧
    files.openFile path = .ok () ∧ files.readToEnd path = .ok content

/-- The directory with one more file in it, among these entries. -/
def withEntries (files : Files) (entries : List (Result DirEntry)) : Files :=
  { files with entries }

end Files

variable {files : Files} {dir : String} {fs fs₁ fs₂ : List ReadFile}

theorem answers_filesTrace : files.Answers (filesTrace dir fs) ↔
    ∀ f ∈ fs, files.metadata (joinPath dir f.entry.fileName) = .ok f.size ∧
      files.openFile (joinPath dir f.entry.fileName) = .ok () ∧
      files.readToEnd (joinPath dir f.entry.fileName) = .ok f.content := by
  unfold Files.Answers filesTrace
  constructor
  · intro h f hf
    have hmem : ∀ e ∈ readTrace (joinPath dir f.entry.fileName) f.size f.content,
        e ∈ fs.flatMap fun f => readTrace (joinPath dir f.entry.fileName) f.size f.content :=
      fun e he => List.mem_flatMap.mpr ⟨f, hf, he⟩
    have h₁ := h _ (hmem ⟨.metadata (joinPath dir f.entry.fileName), .ok f.size⟩ (by simp [readTrace]))
    have h₂ := h _ (hmem ⟨.openFile (joinPath dir f.entry.fileName), .ok ()⟩ (by simp [readTrace]))
    have h₃ := h _ (hmem ⟨.readToEnd (joinPath dir f.entry.fileName), .ok f.content⟩
      (by simp [readTrace]))
    exact ⟨h₁.symm, h₂.symm, h₃.symm⟩
  · intro h e he
    obtain ⟨f, hf, he⟩ := List.mem_flatMap.mp he
    obtain ⟨h₁, h₂, h₃⟩ := h f hf
    simp only [readTrace, List.mem_cons, List.not_mem_nil, or_false] at he
    rcases he with rfl | rfl | rfl
    · exact h₁.symm
    · exact h₂.symm
    · exact h₃.symm

section

variable [Externals] {self : DynDynserServer} {errors : ServerErrors} {st : KeyMapState}
variable {es₁ es₂ : List (Result DirEntry)} {f : DirEntry}

/-- The server loads the certificates `st` from the directory. -/
def Loads (self : DynDynserServer) (errors : ServerErrors) (files : Files) (st : KeyMapState) :
    Prop :=
  ∃ tr, (self.getPublicKeyMap errors).run.Exec tr (.ok st) ∧ files.Answers tr

/-- **What is loaded is read from every certificate file of the directory,
in order.** -/
theorem loads_iff : Loads self errors files st ↔
    ∃ fs : List ReadFile, fs.map ReadFile.entry = certificateFiles files.entries ∧
      (∀ f ∈ fs, files.metadata (joinPath self.conf.keysSearchPath f.entry.fileName) = .ok f.size ∧
        files.openFile (joinPath self.conf.keysSearchPath f.entry.fileName) = .ok () ∧
        files.readToEnd (joinPath self.conf.keysSearchPath f.entry.fileName) = .ok f.content) ∧
      st = loadAll fs ([], errors) := by
  constructor
  · rintro ⟨tr, hexec, hanswers⟩
    obtain ⟨entries, fs, hfs, rfl, rfl⟩ := exec_getPublicKeyMap.mp hexec
    have hdir : Except.ok entries = Except.ok files.entries := hanswers _ List.mem_cons_self
    cases hdir
    refine ⟨fs, hfs, answers_filesTrace.mp fun e he => ?_, rfl⟩
    exact hanswers e (List.mem_cons_of_mem _ he)
  · rintro ⟨fs, hfs, hread, rfl⟩
    refine ⟨_, exec_getPublicKeyMap.mpr ⟨files.entries, fs, hfs, rfl, rfl⟩, fun e he => ?_⟩
    rcases List.mem_cons.mp he with rfl | he
    · rfl
    · exact answers_filesTrace.mpr hread e he

/-- **One more file costs that file alone**: the certificates are those of
the directory without it, in the same order, and one error more is
recorded, of that file. -/
def Harmless (self : DynDynserServer) (errors : ServerErrors) (files : Files) (st : KeyMapState)
    (f : DirEntry) : Prop :=
  ∃ st' : KeyMapState, Loads self errors files st' ∧ st'.1 = st.1 ∧
    ∃ before e after, st.2.failedKeyParses = before ++ after ∧
      st'.2 = { st.2 with failedKeyParses := before ++ (f.fileName, e) :: after }

/-- **One bad file.** A certificate file that cannot be read, or is no
certificate, costs that file alone exactly where it can be read. -/
theorem badCertificate_harmless_iff (hfile : isCertificateFile f = true)
    (hbad : files.Readable (joinPath self.conf.keysSearchPath f.fileName) →
      ∀ content, files.readToEnd (joinPath self.conf.keysSearchPath f.fileName) = .ok content →
        ∃ e, loadEd25519CertificatePem (content.take fileSizeMaxBytes) = .error e)
    (hloads : Loads self errors (files.withEntries (es₁ ++ es₂)) st) :
    Harmless self errors (files.withEntries (es₁ ++ .ok f :: es₂)) st f ↔
      files.Readable (joinPath self.conf.keysSearchPath f.fileName) := by
  have hentries : certificateFiles (es₁ ++ .ok f :: es₂) =
      certificateFiles es₁ ++ f :: certificateFiles es₂ := by
    simp [certificateFiles, Except.toOption, hfile]
  obtain ⟨fs, hfs, hread, rfl⟩ := loads_iff.mp hloads
  constructor
  · rintro ⟨st', hloads', -⟩
    obtain ⟨fs', hfs', hread', -⟩ := loads_iff.mp hloads'
    -- the file is among those that were read
    have hmem : f ∈ fs'.map ReadFile.entry := by
      rw [hfs']
      change f ∈ certificateFiles (es₁ ++ .ok f :: es₂)
      rw [hentries]
      simp
    obtain ⟨x, hx, rfl⟩ := List.mem_map.mp hmem
    obtain ⟨hsize, hopen, hcontent⟩ := hread' x hx
    exact ⟨x.size, x.content, hsize, x.fits, hopen, hcontent⟩
  · rintro ⟨size, content, hsize, hle, hopen, hcontent⟩
    have hsplit : certificateFiles (es₁ ++ es₂) = certificateFiles es₁ ++ certificateFiles es₂ := by
      simp [certificateFiles]
    obtain ⟨fs₁, fs₂, rfl, hfs₁, hfs₂⟩ := List.map_eq_append_iff.mp (hfs.trans hsplit)
    obtain ⟨e, hparse⟩ := hbad ⟨size, content, hsize, hle, hopen, hcontent⟩ content hcontent
    refine ⟨loadAll (fs₁ ++ ⟨f, size, content, hle⟩ :: fs₂) ([], errors),
      loads_iff.mpr ⟨_, ?_, ?_, rfl⟩, ?_⟩
    · change _ = certificateFiles (es₁ ++ .ok f :: es₂)
      rw [hentries, List.map_append, List.map_cons, hfs₁, hfs₂]
    · intro x hx
      rcases List.mem_append.mp hx with hx | hx
      · exact hread x (List.mem_append_left _ hx)
      · rcases List.mem_cons.mp hx with rfl | hx
        · exact ⟨hsize, hopen, hcontent⟩
        · exact hread x (List.mem_append_right _ hx)
    · -- the file is in no list but that of the errors
      have hcert : certificate? ⟨f, size, content, hle⟩ = none := by
        simp [certificate?, hparse, Except.toOption]
      have hfailure : keyFailure? ⟨f, size, content, hle⟩ =
          some (f.fileName, e.context "failed to load an x509 certificate from bytes") := by
        simp [keyFailure?, hparse]
      simp only [loadAll_eq]
      refine ⟨by simp [hcert], errors.failedKeyParses ++ fs₁.filterMap keyFailure?,
        e.context "failed to load an x509 certificate from bytes",
        fs₂.filterMap keyFailure?, by simp, ?_⟩
      simp [hfailure]

/-! ## The order of the certificates -/

variable {u : UnverifiedDdnsRequest} {certs : List CertMatch} {maxAge : UInt32} {now : Instant}

/-- The clock is not past the deadline of a request. -/
def Fresh (u : UnverifiedDdnsRequest) (maxAge : UInt32) (now : Instant) : Prop :=
  ∃ d, deadline u.signedPayload.envelope.signedAtUnixSecs (TimeDelta.seconds maxAge.toNat) = some d ∧
    now.time.nanos ≤ d.nanos

/-- A certificate of the name of a request. -/
def named (u : UnverifiedDdnsRequest) (cert : CertMatch) : Bool :=
  cert.commonName = u.signedPayload.envelope.payload.name

/-- The key of a certificate verifies the signature of a request. -/
def Signs (u : UnverifiedDdnsRequest) (cert : CertMatch) : Prop :=
  verifySignature cert.verifyingKey u.signedPayload = .ok ()

/-- The certificates of its name agree on a request: all verify it, or
none does. -/
def Agree (u : UnverifiedDdnsRequest) (certs : List CertMatch) : Prop :=
  (∀ cert ∈ certs, named u cert = true → Signs u cert) ∨
    ∀ cert ∈ certs, named u cert = true → ¬ Signs u cert

/-- A request is accepted when it is fresh and the first certificate of
its name verifies it. -/
theorem acceptedAt_iff_find : AcceptedAt u certs maxAge now ↔
    (∃ cert, certs.find? (named u) = some cert ∧ Signs u cert) ∧ Fresh u maxAge now := acceptedAt_iff

/-- A certificate that comes after the others rejects nothing. -/
theorem AcceptedAt.append (h : AcceptedAt u certs maxAge now) (more : List CertMatch) :
    AcceptedAt u (certs ++ more) maxAge now := by
  obtain ⟨⟨cert, hfind, hsigns⟩, hfresh⟩ := acceptedAt_iff_find.mp h
  refine acceptedAt_iff_find.mpr ⟨⟨cert, ?_, hsigns⟩, hfresh⟩
  rw [List.find?_append, hfind, Option.some_or]

end

/-! ## Samples -/

namespace Sample

/-- The sample directory, with a file that is no certificate and one that
is too large to read. -/
def directory : Files where
  entries := [.ok ⟨"augs.sarif.example.crt", some true⟩]
  metadata path := .ok (if path = "/keys/bundle.crt" then 200000 else 1000)
  openFile _ := .ok ()
  readToEnd path := .ok (if path = "/keys/augs.sarif.example.crt" then utf8 crt else [0x78])

/-- The server that reads it. -/
def server : DynDynserServer where
  conf := ConfigServer.parse serverArgs
  credentials := ⟨none, none, none, none⟩

/-- The certificate file, as it is read. -/
def certificateFile : ReadFile where
  entry := ⟨"augs.sarif.example.crt", some true⟩
  size := 1000
  content := utf8 crt
  fits := by decide

theorem loads_directory :
    @Loads externals server ServerErrors.new (directory.withEntries ([] ++ directory.entries))
    (@loadAll externals [certificateFile] ([], ServerErrors.new)) := by
  let := externals
  refine loads_iff.mpr ⟨[certificateFile], by decide, ?_, rfl⟩
  intro f hf
  rw [List.mem_singleton.mp hf]
  exact ⟨rfl, rfl, rfl⟩

/-- Bytes that are no certificate. -/
theorem not_certificate : ∃ e, @loadEd25519CertificatePem externals
    (([0x78] : Bytes).take fileSizeMaxBytes) = .error e := by
  let := externals
  have hno : (loadEd25519CertificatePem (([0x78] : Bytes).take fileSizeMaxBytes)).isOk = false := by
    decide +kernel
  cases h : loadEd25519CertificatePem (([0x78] : Bytes).take fileSizeMaxBytes) with
  | ok crt =>
    rw [h] at hno
    cases hno
  | error e => exact ⟨e, rfl⟩

end Sample

/-- A file that is no certificate costs that file alone. -/
theorem badCertificate_harmless_garbage :
    @Harmless Sample.externals Sample.server ServerErrors.new
      (Sample.directory.withEntries ([] ++ .ok ⟨"garbage.crt", some true⟩ :: Sample.directory.entries))
      (@loadAll Sample.externals [Sample.certificateFile] ([], ServerErrors.new))
      ⟨"garbage.crt", some true⟩ := by
  let := Sample.externals
  have hfile : isCertificateFile ⟨"garbage.crt", some true⟩ = true := by decide
  refine (badCertificate_harmless_iff hfile (fun _ content hcontent => ?_)
    Sample.loads_directory).mpr ⟨1000, [0x78], rfl, by decide, rfl, rfl⟩
  obtain rfl : [0x78] = content := Except.ok.inj hcontent
  exact Sample.not_certificate

/-- **A file that is too large costs them all.** -/
theorem largeFile_not_harmless :
    ¬ @Harmless Sample.externals Sample.server ServerErrors.new
      (Sample.directory.withEntries ([] ++ .ok ⟨"bundle.crt", some true⟩ :: Sample.directory.entries))
      (@loadAll Sample.externals [Sample.certificateFile] ([], ServerErrors.new))
      ⟨"bundle.crt", some true⟩ := by
  let := Sample.externals
  intro h
  have hfile : isCertificateFile ⟨"bundle.crt", some true⟩ = true := by decide
  obtain ⟨size, content, hsize, hle, -⟩ := (badCertificate_harmless_iff hfile
    (fun _ content hcontent => by
      obtain rfl : [0x78] = content := Except.ok.inj hcontent
      exact Sample.not_certificate)
    Sample.loads_directory).mp h
  obtain rfl : 200000 = size := Except.ok.inj hsize
  exact absurd hle (by decide)

end DynDynser
