import DynDynser.Helpers.Names
import DynDynser.Helpers.Publish
import DynDynser.Helpers.Runs
import DynDynser.Helpers.Services
/-!
# Where client and server meet

The client writes to a key, the server looks through a listing. Both are
given the same directory, the client as what comes before its file name
and the server as a prefix up to the next slash, and a put drops the
leading slash of a path while a listing does not. The listing shows the
client's key exactly where the directory is nothing but slashes
(`handleClient_meets_iff`): there the slash that is dropped is made up for
by the one that is added. The default directory is not such a one. To ask
for the object is another matter: a get drops a slash again.
-/

namespace DynDynser

open Text Interact Fallible World

/-! ## The key -/

/-- The keys a server given a directory looks at. -/
def Processed (dir key : String) : Prop :=
  UnderPrefix dir "/" key ∧ endsWith key ddnsJsonFileExt = true

/-- A character commutes past a list of itself only. -/
theorem cons_eq_append_singleton {c : Char} {l : List Char} :
    c :: l = l ++ [c] ↔ ∀ x ∈ l, x = c := by
  induction l with
  | nil => simp
  | cons a l ih =>
    constructor
    · intro h
      rw [List.cons_append] at h
      obtain ⟨rfl, h'⟩ := List.cons.inj h
      intro x hx
      rcases List.mem_cons.mp hx with rfl | hx
      · rfl
      · exact ih.mp h' x hx
    · intro h
      obtain rfl := h a List.mem_cons_self
      rw [List.cons_append, ← ih.mpr fun x hx => h x (List.mem_cons_of_mem _ hx)]

/-- **A file is seen where the directory is made of slashes.** -/
theorem processed_iff {dir file : String} (hne : dir.toList ≠ []) (hslash : '/' ∉ file.toList)
    (hext : endsWith file ddnsJsonFileExt = true) :
    Processed dir (objectKey (dir ++ "/" ++ file)) ↔ ∀ c ∈ dir.toList, c = '/' := by
  have hpath : (dir ++ "/" ++ file).toList = dir.toList ++ '/' :: file.toList := by simp
  have hsuffix : ∀ s : String, file.toList <:+ s.toList → endsWith s ddnsJsonFileExt = true := by
    intro s hs
    unfold endsWith at hext ⊢
    rw [List.isSuffixOf_iff_suffix] at hext ⊢
    exact hext.trans hs
  cases hdir : dir.toList with
  | nil => exact absurd hdir hne
  | cons c d =>
    rw [hdir, List.cons_append] at hpath
    by_cases hc : c = '/'
    · subst hc
      have hkey : (objectKey (dir ++ "/" ++ file)).toList = d ++ '/' :: file.toList := by
        unfold objectKey
        rw [hpath]
        simp
      have hdrop : (d ++ '/' :: file.toList).drop ('/' :: d).length = file.toList := by simp
      constructor
      · rintro ⟨⟨hstart, -⟩, -⟩
        rw [hdir, hkey] at hstart
        have hshort : d ++ ['/'] <+: d ++ '/' :: file.toList := by simp
        have heq : '/' :: d = d ++ ['/'] :=
          (List.prefix_of_prefix_length_le hstart hshort (by simp)).eq_of_length (by simp)
        intro x hx
        rcases List.mem_cons.mp hx with rfl | hx
        · rfl
        · exact cons_eq_append_singleton.mp heq x hx
      · intro hall
        have heq := cons_eq_append_singleton.mpr fun x hx => hall x (List.mem_cons_of_mem _ hx)
        refine ⟨⟨?_, ?_⟩, hsuffix _ ?_⟩
        · rw [hdir, hkey, heq]
          simp
        · rw [hdir, hkey, hdrop]
          exact fun h => hslash ((List.singleton_infix_iff _ _).mp h)
        · rw [hkey]
          exact (List.suffix_cons _ _).trans (List.suffix_append _ _)
    · -- the key keeps the directory whole, and goes on with a slash
      have hkey : (objectKey (dir ++ "/" ++ file)).toList = (c :: d) ++ '/' :: file.toList := by
        unfold objectKey
        rw [hpath]
        split
        · next heq => exact absurd (List.cons.inj heq).1 hc
        · rw [hpath, List.cons_append]
      constructor
      · rintro ⟨⟨-, hno⟩, -⟩
        refine absurd ((List.singleton_infix_iff _ _).mpr ?_) hno
        rw [hdir, hkey, List.drop_left]
        exact List.mem_cons_self
      · intro hall
        exact absurd (hall c List.mem_cons_self) hc

/-! ## The two sides -/

/-- A text argument is not empty. -/
theorem toList_ne_nil_of_trimmedString {s t : String} (h : trimmedString s = .ok t) :
    t.toList ≠ [] := by
  unfold trimmedString at h
  dsimp only at h
  split at h
  · cases h
  · next hne =>
    cases h
    rwa [String.toList_ofList]

variable {cargs : ClientArgs} {sargs : ServerArgs} {conf : ConfigClient} {dir : String}

/-- **The key of a client is one a server with its directory looks at**
exactly where the directory is nothing but slashes. -/
theorem processed_putKey_iff (hdir : trimmedString dir = .ok cargs.s3DdnsJsonDir)
    (hconf : ConfigClient.parse cargs = .ok conf) (ip : IpAddr) :
    Processed cargs.s3DdnsJsonDir (putKey conf ip) ↔ ∀ c ∈ cargs.s3DdnsJsonDir.toList, c = '/' := by
  obtain ⟨hdomain, hdirectory, -⟩ := ConfigClient.parse_eq_ok hconf
  have hslash : '/' ∉ (dnsObj conf ip).makeFilename.toList := by
    unfold ResourceRecordSet.makeFilename
    rw [String.toList_append, List.mem_append]
    rintro (h | h)
    · exact DomainName.no_slash hdomain h
    · exact absurd h (by decide)
  have hext : endsWith (dnsObj conf ip).makeFilename ddnsJsonFileExt = true := by
    unfold endsWith ResourceRecordSet.makeFilename
    rw [List.isSuffixOf_iff_suffix, String.toList_append]
    exact List.suffix_append _ _
  unfold putKey ddnsJsonPath
  rw [hdirectory]
  exact processed_iff (toList_ne_nil_of_trimmedString hdir) hslash hext

section

variable [Externals] {tokenKey : String → String} {w w₁ w₂ : World}

/-- After a client's run its object is in the bucket. -/
theorem isSome_of_handleClient {t : Trace} (hdry : cargs.isDryRun = false)
    (hclient : (handleClient cargs).run.Exec t (.ok ())) (hw : Run tokenKey w t w₁)
    (hconf : ConfigClient.parse cargs = .ok conf) :
    ∃ ip, (w₁.objects cargs.s3QueueBucket (putKey conf ip)).isSome := by
  obtain ⟨p⟩ := exec_handleClient hclient hdry
  obtain rfl : p.conf = conf := Except.ok.inj (p.parsed.symm.trans hconf)
  rw [p.world_eq hw]
  refine ⟨p.ip, ?_⟩
  rw [← (ConfigClient.parse_eq_ok hconf).2.2.1]
  simp [put]

/-- **Client and server meet exactly in a directory of slashes.** For a
client and a server given the same bucket and directory, the key the
client writes is one the server processes exactly where the directory is
nothing but slashes; and so it is in every run: the listing of a complete
fetch of the server shows the key of an object a client has put, and it
is one the server goes on to ask for, there and only there. -/
theorem handleClient_meets_iff (hdir : trimmedString dir = .ok cargs.s3DdnsJsonDir)
    (hconf : ConfigClient.parse cargs = .ok conf)
    (hsame : sargs.s3DdnsJsonDir = cargs.s3DdnsJsonDir)
    (hbucket : sargs.s3QueueBucket = cargs.s3QueueBucket) :
    (∀ ip, Processed (ConfigServer.parse sargs).s3DdnsJsonDirectory (putKey conf ip) ↔
        ∀ c ∈ cargs.s3DdnsJsonDir.toList, c = '/') ∧
      ∀ (tokenKey : String → String) (w w₁ w₂ : World) (t f : Trace) (credentials : Credentials)
        (fuel : ℕ) (st : FetchState), cargs.isDryRun = false →
        (handleClient cargs).run.Exec t (.ok ()) → Run tokenKey w t w₁ →
        (DynDynserServer.fetchDdnsJsonsFromS3 ⟨ConfigServer.parse sargs, credentials⟩ fuel).run.Exec
          f (.ok st) → Run tokenKey w₁ f w₂ →
        ∃ ip, (w₁.objects cargs.s3QueueBucket (putKey conf ip)).isSome ∧
          (putKey conf ip ∈ eligible (listed f) ↔ ∀ c ∈ cargs.s3DdnsJsonDir.toList, c = '/') := by
  have hprocessed : ∀ ip, Processed (ConfigServer.parse sargs).s3DdnsJsonDirectory (putKey conf ip) ↔
      ∀ c ∈ cargs.s3DdnsJsonDir.toList, c = '/' := by
    intro ip
    have hserver : (ConfigServer.parse sargs).s3DdnsJsonDirectory = cargs.s3DdnsJsonDir := hsame
    rw [hserver]
    exact processed_putKey_iff hdir hconf ip
  refine ⟨hprocessed, ?_⟩
  intro tokenKey w w₁ w₂ t f credentials fuel st hdry hclient hw hfetch hw'
  obtain ⟨ip, hsome⟩ := isSome_of_handleClient hdry hclient hw hconf
  refine ⟨ip, hsome, ?_⟩
  -- the keys of the listing are the visible ones
  obtain ⟨-, -, hlisted⟩ := Run.listed_fetch hw' hfetch
  have hserver : (ConfigServer.parse sargs).s3QueueBucket = cargs.s3QueueBucket := hbucket
  rw [← hprocessed ip, eligible, List.mem_filter, hlisted, hserver]
  unfold Processed
  tauto

end

/-! ## Two directories -/

namespace Sample

/-- The configuration of the sample client. -/
def clientConf (dir : String) : ConfigClient where
  s3QueueBucket := "ddns"
  s3DdnsJsonDirectory := dir
  domain := ⟨"augs.sarif.example"⟩
  ipAddrCheckUrl := "https://checkip.amazonaws.com"
  ttl := none
  keyPath := "/keys/augs.sarif.example.key"
  signingKeyPassword := none
  isDryRun := false
  awsConfig := ⟨"us-east-1", none, none⟩
  dropUser := "dyndynser"
  insecureSkipVerify := false

theorem parse_clientArgs (dir : String) :
    ConfigClient.parse (clientArgs dir) = .ok (clientConf dir) := by
  have hdomain : DomainName.parse "augs.sarif.example" = .ok ⟨"augs.sarif.example"⟩ := by
    decide +kernel
  unfold ConfigClient.parse clientArgs
  dsimp only
  rw [hdomain]
  rfl

theorem slash_sorted : ["/augs.sarif.example.ddns.json"].Pairwise (· < ·) := by decide

/-- The client's run in the directory of one slash. -/
@[irreducible] def slashRun : Services.Observed (Result Unit) :=
  clientRun "/" (vacant ["/augs.sarif.example.ddns.json"] slash_sorted)

theorem slashRun_driven : Services.Driven (host 1780000060 (by decide))
    (@handleClient externals (clientArgs "/")).run
    (vacant ["/augs.sarif.example.ddns.json"] (by decide)) slashRun := by
  unfold slashRun
  exact clientRun_driven _ _

/-- The arguments of a server given that directory. -/
def slashArgs : ServerArgs := { serverArgs with s3DdnsJsonDir := "/" }

/-- The fetch of that server. -/
def fetch : Io (Result FetchState) :=
  (@DynDynserServer.fetchDdnsJsonsFromS3 externals
    ⟨ConfigServer.parse slashArgs, ⟨none, none, none, none⟩⟩ 1).run

/-- The fetch after the client's run. -/
@[irreducible] def slashFetch : Services.Observed (Result FetchState) :=
  fetch.drive (Services.answer (host 1780000070 inRange070)) slashRun.2.2

theorem slashFetch_driven :
    Services.Driven (host 1780000070 (by decide)) fetch slashRun.2.2 slashFetch := by
  unfold slashFetch
  exact Services.driven _ _ _

set_option maxRecDepth 10000 in
theorem slashFetch_shows : slashRun.2.1 = .ok (.ok ()) ∧
    (match slashFetch.2.1 with
      | .ok (.ok _) => true
      | _ => false) = true := by
  decide +kernel

theorem slashFetch_exec : ∃ st, fetch.Exec slashFetch.1 (.ok st) := by
  have h := slashFetch_shows.2
  rcases hfetch : slashFetch.2.1 with a | e | st
  · rw [hfetch] at h
    cases h
  · rw [hfetch] at h
    cases h
  · exact ⟨st, slashFetch_driven.exec hfetch⟩

end Sample

/-- In the directory of one slash, the server's listing shows what the
client has put. -/
theorem handleClient_meets_slash :
    ∃ ip, putKey (Sample.clientConf "/") ip ∈ eligible (listed Sample.slashFetch.1) := by
  let := Sample.externals
  obtain ⟨st, hfetch⟩ := Sample.slashFetch_exec
  have hdir : trimmedString "/" = .ok (Sample.clientArgs "/").s3DdnsJsonDir := by decide
  have hsame : Sample.slashArgs.s3DdnsJsonDir = (Sample.clientArgs "/").s3DdnsJsonDir := rfl
  have hmeets := (handleClient_meets_iff hdir (Sample.parse_clientArgs "/") hsame rfl).2
  have hclient := Sample.slashRun_driven.exec Sample.slashFetch_shows.1
  obtain ⟨ip, -, hiff⟩ := hmeets id _ _ _ _ _ _ 1 st rfl hclient Sample.slashRun_driven.world
    hfetch Sample.slashFetch_driven.world
  exact ⟨ip, hiff.mpr fun c hc => List.mem_singleton.mp hc⟩

namespace Sample

/-- The client's run in the default directory. -/
@[irreducible] def defaultClientRun : Services.Observed (Result Unit) :=
  clientRun defaultDdnsDir (vacant ["ddns/requests/augs.sarif.example.ddns.json"] (by decide))

theorem defaultClientRun_driven :
    Services.Driven (host 1780000060 (by decide))
      (@handleClient externals (clientArgs defaultDdnsDir)).run
      (vacant ["ddns/requests/augs.sarif.example.ddns.json"] (by decide)) defaultClientRun := by
  unfold defaultClientRun
  exact clientRun_driven _ _

/-- The arguments of a server given the default directory. -/
def defaultArgs : ServerArgs := { serverArgs with s3DdnsJsonDir := defaultDdnsDir }

/-- The server's run after the client's. -/
@[irreducible] def defaultRun : Services.Observed (Result Unit) :=
  (@handleServer externals 1 defaultArgs).run.drive
    (Services.answer (host 1780000070 inRange070)) defaultClientRun.2.2

theorem defaultRun_driven : Services.Driven (host 1780000070 (by decide))
    (@handleServer externals 1 defaultArgs).run defaultClientRun.2.2 defaultRun := by
  unfold defaultRun
  exact Services.driven _ _ _

set_option maxRecDepth 10000 in
theorem defaultRun_shows : defaultClientRun.2.1 = .ok (.ok ()) ∧ defaultRun.2.1 = .ok (.ok ()) ∧
    gets defaultRun.1 = [] ∧
    (defaultRun.2.2.world.objects "ddns" "ddns/requests/augs.sarif.example.ddns.json").isSome := by
  decide +kernel

end Sample

/-- **In the default directory they do not meet.** No address gives a key
the server looks at; and the sample client's run and the sample server's
run after it both report success, with the object left where it is. -/
theorem defaultDdnsDir_not_met :
    trimmedString defaultDdnsDir = .ok defaultDdnsDir ∧
      ConfigClient.parse (Sample.clientArgs defaultDdnsDir) =
        .ok (Sample.clientConf defaultDdnsDir) ∧
      (∀ ip, ¬ Processed (ConfigServer.parse Sample.defaultArgs).s3DdnsJsonDirectory
        (putKey (Sample.clientConf defaultDdnsDir) ip)) ∧
      ∃ (w : World) (t : Trace) (w₁ : World) (s : Trace) (w₂ : World),
        (@handleClient Sample.externals (Sample.clientArgs defaultDdnsDir)).run.Exec t (.ok ()) ∧
        Run id w t w₁ ∧
        (@handleServer Sample.externals 1 Sample.defaultArgs).run.Exec s (.ok ()) ∧
        Run id w₁ s w₂ ∧ gets s = [] ∧
        (w₂.objects "ddns" "ddns/requests/augs.sarif.example.ddns.json").isSome := by
  obtain ⟨hclient, hserver, hgets, hsome⟩ := Sample.defaultRun_shows
  have hdir : trimmedString defaultDdnsDir = .ok defaultDdnsDir := by decide
  refine ⟨hdir, Sample.parse_clientArgs _, fun ip => ?_, ?_⟩
  · have hargs : (Sample.clientArgs defaultDdnsDir).s3DdnsJsonDir = defaultDdnsDir := rfl
    intro h
    have hall := (processed_putKey_iff (hargs ▸ hdir) (Sample.parse_clientArgs _) ip).mp h
    exact absurd (hall 'd' (by decide)) (by decide)
  · exact ⟨_, _, _, _, _, Sample.defaultClientRun_driven.exec hclient,
      Sample.defaultClientRun_driven.world, Sample.defaultRun_driven.exec hserver,
      Sample.defaultRun_driven.world, hgets, hsome⟩

end DynDynser
