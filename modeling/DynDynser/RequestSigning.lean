import DynDynser.Common.Lists
import DynDynser.Helpers.Calls
import DynDynser.Helpers.Services
import DynDynser.Model.Config
import DynDynser.Model.Route53
import Mathlib.Data.String.Basic
/-!
# The signature of a request

The headers of a request to Route53 are signed with signature version 4.
The verifier here is made from what the signature is to be, and is given
what the other side is given: the method, the path, the body, the headers
in any order, and the secret key. It takes the names of the signed headers
and the scope of the key out of the authorization header. What it computes
is the signature in that header (`awsSigv4Headers_verifiable`).
-/

namespace DynDynser

open Text Interact Fallible Externals

/-! ## The verifier -/

/-- The characters a canonical path has as they are, apart from slashes. -/
def isUnreserved (c : Char) : Bool :=
  isAsciiAlphanumeric c || c == '-' || c == '.' || c == '_' || c == '~'

/-- A character of a canonical path: its bytes are percent-encoded, with
capital digits, where it may not stand for itself. -/
def uriEncodeChar (c : Char) : List Char :=
  if isUnreserved c || c == '/' then [c]
  else (utf8 (String.singleton c)).flatMap fun b => '%' :: (hexPair b).map Char.toUpper

/-- The canonical form of a path. -/
def canonicalUri (path : String) : String := String.ofList (path.toList.flatMap uriEncodeChar)

/-- A text with one space for each run of spaces. -/
def collapseSpaces : List Char → List Char
  | [] => []
  | c :: cs => if c = ' ' ∧ cs.head? = some ' ' then collapseSpaces cs else c :: collapseSpaces cs

/-- The canonical form of the value of a header. -/
def canonicalValue (value : String) : String :=
  String.ofList (collapseSpaces (trimChars value.toList))

/-- The name of a header in lower case. -/
def lowerName (name : String) : String := String.ofList (name.toList.map Char.toLower)

/-- The value of the header of that name, in whichever case it is written. -/
def headerValue (headers : List (String × String)) (name : String) : Option String :=
  (headers.find? fun h => lowerName h.1 = name).map Prod.snd

/-- What an authorization header says. -/
structure Authorization where
  accessKey : String
  date : String
  region : String
  service : String
  signedHeaders : List String
  signature : String
deriving DecidableEq

/-- The rest of a text that begins so. -/
def stripPrefix? (start cs : List Char) : Option (List Char) :=
  if start.isPrefixOf cs then some (cs.drop start.length) else none

/-- What a field of the header is set to, without the spaces before it. -/
def field? (start : String) (cs : List Char) : Option (List Char) :=
  stripPrefix? start.toList (cs.dropWhile (· = ' '))

/-- An authorization header, read. -/
def Authorization.parse (header : String) : Option Authorization := do
  let fields ← stripPrefix? "AWS4-HMAC-SHA256 ".toList header.toList
  match fields.splitOn ',' with
  | [credential, signedHeaders, signature] =>
    let credential ← field? "Credential=" credential
    let signedHeaders ← field? "SignedHeaders=" signedHeaders
    let signature ← field? "Signature=" signature
    match credential.splitOn '/' with
    | [accessKey, date, region, service, terminator] =>
      if terminator = "aws4_request".toList then
        some {
          accessKey := String.ofList accessKey
          date := String.ofList date
          region := String.ofList region
          service := String.ofList service
          signedHeaders := (signedHeaders.splitOn ';').map String.ofList
          signature := String.ofList signature }
      else none
    | _ => none
  | _ => none

/-- The line of a signed header, if there is that header. -/
def canonicalLine? (headers : List (String × String)) (name : String) : Option String :=
  (headerValue headers name).map fun value => name ++ ":" ++ canonicalValue value ++ "\n"

section

variable [Externals]

/-- **The signature a request should have**, by what its authorization
header says. -/
def expectedSignature (method path : String) (body : Bytes) (headers : List (String × String))
    (secretKey : String) (auth : Authorization) : Option String := do
  let names := auth.signedHeaders.mergeSort (· ≤ ·)
  let lines ← names.mapM (canonicalLine? headers)
  let datetime ← headerValue headers "x-amz-date"
  let scope := [auth.date, auth.region, auth.service, "aws4_request"]
  let request := "\n".intercalate [method, canonicalUri path, "", String.join lines,
    ";".intercalate names, hexEncode (sha256 body)]
  let stringToSign := "\n".intercalate ["AWS4-HMAC-SHA256", datetime, "/".intercalate scope,
    hexEncode (sha256 (utf8 request))]
  let key := scope.foldl (fun key part => hmacSha256 key (utf8 part)) (utf8 ("AWS4" ++ secretKey))
  return hexEncode (hmacSha256 key (utf8 stringToSign))

/-- **A request that verifies**: its signature is what it should be, every
header but the authorization is signed, and the body and the date are
those of the request. -/
structure Verifiable (method path : String) (body : Bytes) (headers : List (String × String))
    (secretKey : String) (auth : Authorization) : Prop where
  read : ∃ header, headerValue headers "authorization" = some header ∧
    Authorization.parse header = some auth
  agrees : expectedSignature method path body headers secretKey auth = some auth.signature
  increasing : auth.signedHeaders.Pairwise (· < ·)
  complete : ∀ name,
    name ∈ auth.signedHeaders ↔ name ∈ headers.map Prod.fst ∧ name ≠ "authorization"
  hashed : headerValue headers "x-amz-content-sha256" = some (hexEncode (sha256 body))
  dated : ∃ datetime, headerValue headers "x-amz-date" = some datetime ∧
    datetime.toList.takeWhile (· ≠ 'T') = auth.date.toList

end

/-! ## The headers -/

namespace HeaderTree

variable {k v : String} {m : HeaderTree}

/-- The keys are in order, and differ. -/
def Sorted (m : HeaderTree) : Prop := m.Pairwise fun a b => a.1 < b.1

/-- A new key is put among the others. -/
theorem perm_insert (hk : k ∉ m.map Prod.fst) : (m.insert k v).Perm ((k, v) :: m) := by
  induction m with
  | nil => exact List.Perm.refl _
  | cons e m ih =>
    obtain ⟨k', v'⟩ := e
    rw [List.map_cons, List.mem_cons, not_or] at hk
    unfold HeaderTree.insert
    split_ifs with hlt heq
    · exact List.Perm.refl _
    · exact absurd heq hk.1
    · exact ((ih hk.2).cons _).trans (List.Perm.swap _ _ _)

/-- What is in a tree after an insertion was inserted or was there. -/
theorem eq_or_mem_of_mem_insert {e : String × String} (he : e ∈ m.insert k v) :
    e = (k, v) ∨ e ∈ m := by
  induction m with
  | nil => exact Or.inl (List.mem_singleton.mp he)
  | cons e' m ih =>
    obtain ⟨k', v'⟩ := e'
    unfold HeaderTree.insert at he
    split_ifs at he with hlt heq
    · exact List.mem_cons.mp he
    · rcases List.mem_cons.mp he with rfl | he
      · exact Or.inl rfl
      · exact Or.inr (List.mem_cons_of_mem _ he)
    · rcases List.mem_cons.mp he with rfl | he
      · exact Or.inr List.mem_cons_self
      · exact (ih he).imp id (List.mem_cons_of_mem _)

/-- **The keys stay in order.** -/
theorem Sorted.insert (h : m.Sorted) : (m.insert k v).Sorted := by
  induction m with
  | nil => exact List.pairwise_singleton _ _
  | cons e m ih =>
    obtain ⟨k', v'⟩ := e
    obtain ⟨hfirst, hrest⟩ := List.pairwise_cons.mp h
    unfold HeaderTree.insert
    split_ifs with hlt heq
    · refine List.pairwise_cons.mpr ⟨fun e he => ?_, h⟩
      rcases List.mem_cons.mp he with rfl | he
      · exact hlt
      · exact hlt.trans (hfirst e he)
    · subst heq
      exact List.pairwise_cons.mpr ⟨hfirst, hrest⟩
    · refine List.pairwise_cons.mpr ⟨fun e he => ?_, ih hrest⟩
      rcases eq_or_mem_of_mem_insert he with rfl | he
      · exact lt_of_le_of_ne (not_lt.mp hlt) (Ne.symm heq)
      · exact hfirst e he

theorem Sorted.nodup (h : m.Sorted) : (m.map Prod.fst).Nodup :=
  List.pairwise_map.mpr (h.imp fun hlt => ne_of_lt hlt)

end HeaderTree

/-- **The value of a header is found** in any order of the headers, where
their names are in lower case and differ. -/
theorem headerValue_of_mem {headers : List (String × String)} {name value : String}
    (hlower : ∀ h ∈ headers, lowerName h.1 = h.1) (hnodup : (headers.map Prod.fst).Nodup)
    (hmem : (name, value) ∈ headers) : headerValue headers name = some value := by
  unfold headerValue
  cases hfind : headers.find? fun h => lowerName h.1 = name with
  | none =>
    have hno := List.find?_eq_none.mp hfind _ hmem
    simp [hlower _ hmem] at hno
  | some found =>
    have hfound := List.mem_of_find?_eq_some hfind
    have hname := List.find?_some hfind
    rw [hlower found hfound, decide_eq_true_eq] at hname
    rw [List.inj_on_of_nodup_map hnodup hfound hmem hname]
    rfl

/-! ## The authorization header -/

theorem stripPrefix?_append (start cs : List Char) : stripPrefix? start (start ++ cs) = some cs := by
  unfold stripPrefix?
  rw [if_pos (List.isPrefixOf_iff_prefix.mpr (List.prefix_append _ _)), List.drop_left]

/-- A field is read with a space before it and without. -/
theorem field?_append (start : String) (cs : List Char) (hstart : start.toList.head? ≠ some ' ')
    (hne : start.toList ≠ []) :
    field? start (start.toList ++ cs) = some cs ∧
      field? start (' ' :: (start.toList ++ cs)) = some cs := by
  have hdrop : (start.toList ++ cs).dropWhile (· = ' ') = start.toList ++ cs := by
    cases h : start.toList with
    | nil => exact absurd h hne
    | cons c rest =>
      rw [h, List.head?_cons, ne_eq, Option.some.injEq] at hstart
      rw [List.cons_append, List.dropWhile_cons_of_neg (by simpa using hstart)]
  unfold field?
  rw [List.dropWhile_cons_of_pos (by simp), hdrop]
  exact ⟨stripPrefix?_append _ _, stripPrefix?_append _ _⟩

namespace Authorization

/-- The scope of the key of a request. -/
def scope (auth : Authorization) : String := s!"{auth.date}/{auth.region}/{auth.service}/aws4_request"

/-- The header that says so. -/
def header (auth : Authorization) : String :=
  let signedHeaders := ";".intercalate auth.signedHeaders
  s!"AWS4-HMAC-SHA256 Credential={auth.accessKey}/{auth.scope}, " ++
    s!"SignedHeaders={signedHeaders}, Signature={auth.signature}"

variable {auth : Authorization}

/-- The header is three fields with commas between them. -/
theorem toList_header : auth.header.toList = "AWS4-HMAC-SHA256 ".toList ++
    [','].intercalate ["Credential=".toList ++ ['/'].intercalate [auth.accessKey.toList,
        auth.date.toList, auth.region.toList, auth.service.toList, "aws4_request".toList],
      ' ' :: ("SignedHeaders=".toList ++ [';'].intercalate (auth.signedHeaders.map String.toList)),
      ' ' :: ("Signature=".toList ++ auth.signature.toList)] := by
  have hstart : "AWS4-HMAC-SHA256 Credential=".toList =
      "AWS4-HMAC-SHA256 ".toList ++ "Credential=".toList := by decide
  unfold header scope
  simp only [toString, String.toList_append, hstart, String.toList_intercalate]
  simp [List.intercalate]

/-- **The header reads back**, where its parts have no marks in them. -/
theorem parse_header
    (hparts : ∀ part ∈ [auth.accessKey, auth.date, auth.region, auth.service],
      '/' ∉ part.toList ∧ ',' ∉ part.toList)
    (hne : auth.signedHeaders ≠ [])
    (hnames : ∀ name ∈ auth.signedHeaders, ';' ∉ name.toList ∧ ',' ∉ name.toList)
    (hsignature : ',' ∉ auth.signature.toList) : Authorization.parse auth.header = some auth := by
  -- the five parts of the credential
  have hcredential : ∀ part ∈ [auth.accessKey.toList, auth.date.toList, auth.region.toList,
      auth.service.toList, "aws4_request".toList], '/' ∉ part ∧ ',' ∉ part := by
    intro part hpart
    simp only [List.mem_cons, List.not_mem_nil, or_false] at hpart
    rcases hpart with rfl | rfl | rfl | rfl | rfl
    · exact hparts _ (by simp)
    · exact hparts _ (by simp)
    · exact hparts _ (by simp)
    · exact hparts _ (by simp)
    · decide
  have hnames' : ∀ name ∈ auth.signedHeaders.map String.toList, ';' ∉ name ∧ ',' ∉ name := by
    intro name hname
    obtain ⟨n, hn, rfl⟩ := List.mem_map.mp hname
    exact hnames n hn
  -- no field has a comma in it
  have hfields : ∀ field ∈ ["Credential=".toList ++ ['/'].intercalate [auth.accessKey.toList,
        auth.date.toList, auth.region.toList, auth.service.toList, "aws4_request".toList],
      ' ' :: ("SignedHeaders=".toList ++ [';'].intercalate (auth.signedHeaders.map String.toList)),
      ' ' :: ("Signature=".toList ++ auth.signature.toList)], ',' ∉ field := by
    intro field hfield hcomma
    simp only [List.mem_cons, List.not_mem_nil, or_false] at hfield
    rcases hfield with rfl | rfl | rfl
    · rcases List.mem_append.mp hcomma with h | h
      · exact absurd h (by decide)
      · rcases Lists.mem_intercalate h with h | ⟨part, hpart, h⟩
        · exact absurd h (by decide)
        · exact (hcredential part hpart).2 h
    · rcases List.mem_append.mp (List.mem_of_ne_of_mem (by decide) hcomma) with h | h
      · exact absurd h (by decide)
      · rcases Lists.mem_intercalate h with h | ⟨name, hname, h⟩
        · exact absurd h (by decide)
        · exact (hnames' name hname).2 h
    · rcases List.mem_append.mp (List.mem_of_ne_of_mem (by decide) hcomma) with h | h
      · exact absurd h (by decide)
      · exact hsignature h
  unfold Authorization.parse
  rw [toList_header, stripPrefix?_append]
  simp only [Option.bind_eq_bind, Option.bind_some,
    List.splitOn_intercalate ',' hfields (List.cons_ne_nil _ _),
    (field?_append "Credential=" _ (by decide) (by decide)).1,
    (field?_append "SignedHeaders=" _ (by decide) (by decide)).2,
    (field?_append "Signature=" _ (by decide) (by decide)).2,
    List.splitOn_intercalate '/' (fun part hpart => (hcredential part hpart).1)
      (List.cons_ne_nil _ _),
    List.splitOn_intercalate ';' (fun name hname => (hnames' name hname).1) (by simpa using hne)]
  simp [Function.comp_def]

end Authorization

/-! ## The texts -/

/-- A numeral is made of digits. -/
theorem isAsciiDigit_of_mem_toString {n : ℕ} {c : Char} (h : c ∈ (toString n).toList) :
    isAsciiDigit c = true := by
  have hdigit := Nat.isDigit_of_mem_toDigits (b := 10) (n := n) (by decide) (by decide)
    (by simpa using h)
  obtain ⟨hlo, hhi⟩ : 48 ≤ c.val ∧ c.val ≤ 57 := by simpa [Char.isDigit] using hdigit
  unfold isAsciiDigit
  rw [Bool.and_eq_true, decide_eq_true_eq, decide_eq_true_eq]
  exact ⟨UInt32.le_iff_toNat_le.mp hlo, UInt32.le_iff_toNat_le.mp hhi⟩

theorem padZeros_chars {width n : ℕ} {c : Char} (h : c ∈ (padZeros width n).toList) :
    isAsciiDigit c = true := by
  unfold padZeros at h
  rw [String.toList_append, String.toList_ofList, List.mem_append] at h
  rcases h with h | h
  · rw [(List.mem_replicate.mp h).2]
    decide
  · exact isAsciiDigit_of_mem_toString h

/-- A date is made of digits, and a sign where its year has five. -/
theorem formatDate_chars {t : Instant} {c : Char} (h : c ∈ (formatDate t).toList) :
    isAsciiDigit c = true ∨ c = '+' := by
  unfold formatDate at h
  simp only [String.toList_append, List.mem_append] at h
  rcases h with (h | h) | h
  · split at h
    · exact Or.inl (padZeros_chars h)
    · rw [String.toList_append, List.mem_append] at h
      rcases h with h | h
      · exact Or.inr (List.mem_singleton.mp h)
      · exact Or.inl (isAsciiDigit_of_mem_toString h)
  · exact Or.inl (padZeros_chars h)
  · exact Or.inl (padZeros_chars h)

/-- **A date and time** is the date, a mark, and the time. -/
theorem formatDatetime_toList (t : Instant) : ∃ rest, (formatDatetime t).toList =
    (formatDate t).toList ++ 'T' :: rest ∧ ∀ c ∈ rest, isAsciiDigit c = true ∨ c = 'Z' := by
  refine ⟨(padZeros 2 (t.time.timestamp.toNat % 86400 / 3600)).toList ++
    (padZeros 2 (t.time.timestamp.toNat % 86400 / 60 % 60)).toList ++
    (padZeros 2 (t.time.timestamp.toNat % 86400 % 60)).toList ++ ['Z'], ?_, ?_⟩
  · unfold formatDatetime
    simp [String.toList_append]
  · intro c hc
    simp only [List.mem_append, List.mem_singleton] at hc
    rcases hc with ((hc | hc) | hc) | hc
    · exact Or.inl (padZeros_chars hc)
    · exact Or.inl (padZeros_chars hc)
    · exact Or.inl (padZeros_chars hc)
    · exact Or.inr hc

/-- A hash in hexadecimal is made of letters and digits. -/
theorem hexEncode_chars {bs : Bytes} {c : Char} (h : c ∈ (hexEncode bs).toList) :
    isAsciiAlphanumeric c = true := by
  have key : ∀ n : Fin 16, isAsciiAlphanumeric (Char.ofNat (hexDigit n)) = true := by decide
  unfold hexEncode at h
  rw [String.toList_ofList, List.mem_flatMap] at h
  obtain ⟨b, -, hc⟩ := h
  have hlt : b.toNat < 256 := b.toNat_lt
  simp only [hexPair, List.mem_cons, List.not_mem_nil, or_false] at hc
  rcases hc with rfl | rfl
  · exact key ⟨b.toNat / 16, by omega⟩
  · exact key ⟨b.toNat % 16, by omega⟩

/-- A text in which no space comes after another. -/
def SingleSpaced (s : String) : Prop := ¬ [' ', ' '] <:+: s.toList

instance (s : String) : Decidable (SingleSpaced s) := inferInstanceAs (Decidable (¬ _))

theorem singleSpaced_of_not_mem {s : String} (h : ' ' ∉ s.toList) : SingleSpaced s :=
  fun hinf => h (hinf.subset List.mem_cons_self)

theorem collapseSpaces_eq {cs : List Char} (h : ¬ [' ', ' '] <:+: cs) : collapseSpaces cs = cs := by
  induction cs with
  | nil => rfl
  | cons c cs ih =>
    unfold collapseSpaces
    rw [if_neg, ih fun hinf => h (List.infix_cons hinf)]
    rintro ⟨rfl, hhead⟩
    obtain ⟨rest, rfl⟩ := List.head?_eq_some_iff.mp hhead
    exact h ⟨[], rest, rfl⟩

/-- The canonical form of such a text is the text, trimmed. -/
theorem canonicalValue_eq {s : String} (h : SingleSpaced s) : canonicalValue s = trim s := by
  have hinf : trimChars s.toList <:+: s.toList :=
    (List.rdropWhile_prefix _ _).isInfix.trans (List.dropWhile_suffix _).isInfix
  unfold canonicalValue trim
  rw [collapseSpaces_eq fun hsub => h (hsub.trans hinf)]

/-- A path of characters that stand for themselves is canonical. -/
theorem canonicalUri_eq {path : String} (h : ∀ c ∈ path.toList, c = '/' ∨ isUnreserved c = true) :
    canonicalUri path = path := by
  have hchar : ∀ c ∈ path.toList, uriEncodeChar c = [c] := by
    intro c hc
    unfold uriEncodeChar
    rw [if_pos]
    rcases h c hc with rfl | hplain
    · rfl
    · rw [hplain, Bool.true_or]
  unfold canonicalUri
  rw [List.flatMap_congr hchar, List.flatMap_singleton', String.ofList_toList]

/-! ## What is signed -/

/-- The names of the headers that may be signed. -/
def signableNames : List String :=
  ["content-type", "host", "x-amz-content-sha256", "x-amz-date", "x-amz-security-token"]

/-- Headers that can be signed: in order, under known names, and with no
space after another in their values. -/
structure Signable (m : HeaderTree) : Prop where
  sorted : m.Sorted
  known : ∀ e ∈ m, e.1 ∈ signableNames
  spaced : ∀ e ∈ m, SingleSpaced e.2

/-- Their names are as they are to be written, and have no marks in
them. -/
theorem signableNames_plain : ∀ name ∈ signableNames, lowerName name = name ∧
    (';' ∉ name.toList ∧ ',' ∉ name.toList) ∧ name ≠ "authorization" := by
  decide

/-- A header of a known name can be signed with the others. -/
theorem Signable.insert {m : HeaderTree} {k v : String} (h : Signable m)
    (hknown : k ∈ signableNames) (hv : SingleSpaced v) : Signable (m.insert k v) := by
  refine ⟨h.sorted.insert, fun e he => ?_, fun e he => ?_⟩
  · rcases HeaderTree.eq_or_mem_of_mem_insert he with rfl | he
    · exact hknown
    · exact h.known e he
  · rcases HeaderTree.eq_or_mem_of_mem_insert he with rfl | he
    · exact hv
    · exact h.spaced e he

/-- **The headers of a request can be signed.** -/
theorem signable_signableHeaders {host datetime payloadHash : String} {body : Bytes}
    {sessionToken : Option String} (hhost : SingleSpaced host) (hdatetime : ' ' ∉ datetime.toList)
    (hhash : ' ' ∉ payloadHash.toList) (htoken : ∀ tok, sessionToken = some tok → SingleSpaced tok) :
    Signable (signableHeaders host datetime payloadHash body sessionToken) := by
  have hempty : Signable [] := ⟨List.Pairwise.nil, by simp, by simp⟩
  have hstart : Signable (if body.isEmpty then ([] : HeaderTree)
      else HeaderTree.insert "content-type" "application/xml" []) := by
    split
    · exact hempty
    · exact hempty.insert (by decide) (by decide)
  have hhosted := hstart.insert (k := "host") (by decide) hhost
  have hhashed := hhosted.insert (k := "x-amz-content-sha256") (by decide)
    (singleSpaced_of_not_mem hhash)
  have hdated := hhashed.insert (k := "x-amz-date") (by decide) (singleSpaced_of_not_mem hdatetime)
  unfold signableHeaders
  cases sessionToken with
  | none => exact hdated
  | some tok => exact hdated.insert (by decide) (htoken tok rfl)

/-- What is inserted is there, -/
theorem HeaderTree.mem_insert_self {k v : String} {m : HeaderTree} : (k, v) ∈ m.insert k v := by
  induction m with
  | nil => exact List.mem_singleton_self _
  | cons e m ih =>
    obtain ⟨k', v'⟩ := e
    unfold HeaderTree.insert
    split_ifs with hlt heq
    · exact List.mem_cons_self
    · exact List.mem_cons_self
    · exact List.mem_cons_of_mem _ ih

/-- and what was there under another name. -/
theorem HeaderTree.mem_insert_of_ne {k v k' v' : String} {m : HeaderTree}
    (hmem : (k', v') ∈ m) (hne : k' ≠ k) : (k', v') ∈ m.insert k v := by
  induction m with
  | nil => cases hmem
  | cons e m ih =>
    obtain ⟨l, u⟩ := e
    unfold HeaderTree.insert
    split_ifs with hlt heq
    · exact List.mem_cons_of_mem _ hmem
    · rcases List.mem_cons.mp hmem with hsame | hmem
      · exact absurd ((Prod.mk.inj hsame).1.trans heq.symm) hne
      · exact List.mem_cons_of_mem _ hmem
    · rcases List.mem_cons.mp hmem with hsame | hmem
      · rw [hsame]
        exact List.mem_cons_self
      · exact List.mem_cons_of_mem _ (ih hmem)

/-- The hash of the body and the date are among the headers of a
request. -/
theorem mem_signableHeaders {host datetime payloadHash : String} {body : Bytes}
    {sessionToken : Option String} :
    ("x-amz-content-sha256", payloadHash) ∈
        signableHeaders host datetime payloadHash body sessionToken ∧
      ("x-amz-date", datetime) ∈ signableHeaders host datetime payloadHash body sessionToken := by
  unfold signableHeaders
  dsimp only
  generalize (if body.isEmpty then ([] : HeaderTree)
    else HeaderTree.insert "content-type" "application/xml" []) = m
  have hhash : ("x-amz-content-sha256", payloadHash) ∈ HeaderTree.insert "x-amz-date" datetime
      (HeaderTree.insert "x-amz-content-sha256" payloadHash (HeaderTree.insert "host" host m)) :=
    HeaderTree.mem_insert_of_ne HeaderTree.mem_insert_self (by decide)
  cases sessionToken with
  | none => exact ⟨hhash, HeaderTree.mem_insert_self⟩
  | some tok =>
    exact ⟨HeaderTree.mem_insert_of_ne hhash (by decide),
      HeaderTree.mem_insert_of_ne HeaderTree.mem_insert_self (by decide)⟩

/-! ## Signer and verifier -/

section

variable [Externals] {method path host service region accessKey secretKey : String}
variable {body : Bytes} {sessionToken : Option String} {now : Instant} {tr : Trace}
variable {hdrs : HeaderTree} {headers : List (String × String)}

/-- A text that can be a part of a credential. -/
def Unmarked (s : String) : Prop := '/' ∉ s.toList ∧ ',' ∉ s.toList

instance (s : String) : Decidable (Unmarked s) := inferInstanceAs (Decidable (_ ∧ _))

/-- What is said of the signed headers of a request. -/
def authorizationAt (now : Instant) (method path : String) (body : Bytes)
    (service region accessKey secretKey : String) (m : HeaderTree) : Authorization where
  accessKey
  date := formatDate now
  region
  service
  signedHeaders := m.map Prod.fst
  signature := hexEncode (hmacSha256 (sigv4SigningKey secretKey (formatDate now) region service)
    (utf8 ("\n".intercalate ["AWS4-HMAC-SHA256", formatDatetime now,
      s!"{formatDate now}/{region}/{service}/aws4_request",
      sha256Hex (utf8 (canonicalRequest method path "" m (sha256Hex body)))])))

/-- **What the signer adds to the headers** is that. -/
theorem sigv4HeadersAt_eq :
    sigv4HeadersAt now method host path "" body service region accessKey secretKey sessionToken =
      (signableHeaders host (formatDatetime now) (sha256Hex body) body sessionToken).insert
        "authorization" (authorizationAt now method path body service region accessKey secretKey
          (signableHeaders host (formatDatetime now) (sha256Hex body) body sessionToken)).header :=
  rfl

omit [Externals] in
/-- The lines of signed headers, each with its value. -/
theorem mapM_canonicalLine? {m : HeaderTree} (hm : Signable m)
    (hvalue : ∀ e ∈ m, headerValue headers e.1 = some e.2) :
    (m.map Prod.fst).mapM (canonicalLine? headers) =
      some (m.map fun (k, v) => k ++ ":" ++ trim v ++ "\n") := by
  have hspaced := hm.spaced
  clear hm
  induction m with
  | nil => rfl
  | cons e m ih =>
    have hline : canonicalLine? headers e.1 = some (e.1 ++ ":" ++ trim e.2 ++ "\n") := by
      unfold canonicalLine?
      rw [hvalue e List.mem_cons_self, Option.map_some,
        canonicalValue_eq (hspaced e List.mem_cons_self)]
    rw [List.map_cons, List.mapM_cons, hline, ih (fun e he => hvalue e (List.mem_cons_of_mem _ he))
      fun e he => hspaced e (List.mem_cons_of_mem _ he)]
    rfl

/-- **The verifier computes the signature** of headers that can be
signed. -/
theorem expectedSignature_authorizationAt {m : HeaderTree} (hm : Signable m)
    (hvalue : ∀ e ∈ m, headerValue headers e.1 = some e.2)
    (hdate : ("x-amz-date", formatDatetime now) ∈ m)
    (hpath : ∀ c ∈ path.toList, c = '/' ∨ isUnreserved c = true) :
    expectedSignature method path body headers secretKey
        (authorizationAt now method path body service region accessKey secretKey m) =
      some (authorizationAt now method path body service region accessKey secretKey m).signature := by
  have hsorted : (m.map Prod.fst).mergeSort (· ≤ ·) = m.map Prod.fst := by
    refine List.mergeSort_of_pairwise (List.pairwise_map.mpr (hm.sorted.imp fun hlt => ?_))
    exact decide_eq_true (le_of_lt hlt)
  have hscope : "/".intercalate [formatDate now, region, service, "aws4_request"] =
      s!"{formatDate now}/{region}/{service}/aws4_request" := by
    refine String.toList_injective ?_
    simp [toString]
  unfold expectedSignature authorizationAt
  simp only [hsorted, mapM_canonicalLine? hm hvalue, hvalue _ hdate, Option.bind_eq_bind,
    Option.bind_some, canonicalUri_eq hpath, hscope]
  rfl

/-- The parts of what is said of them have no marks in them, so it is read
as it was written. -/
theorem parse_header_authorizationAt {m : HeaderTree} (hm : Signable m) (hne : m ≠ [])
    (hkey : Unmarked accessKey) (hregion : Unmarked region) (hservice : Unmarked service) :
    Authorization.parse
        (authorizationAt now method path body service region accessKey secretKey m).header =
      some (authorizationAt now method path body service region accessKey secretKey m) := by
  refine Authorization.parse_header (fun part hpart => ?_) (by simpa [authorizationAt] using hne)
    (fun name hname => ?_) (fun hcomma => ?_)
  · simp only [authorizationAt, List.mem_cons, List.not_mem_nil, or_false] at hpart
    rcases hpart with rfl | rfl | rfl | rfl
    · exact hkey
    · constructor
      · intro hslash
        exact absurd (formatDate_chars hslash) (by decide)
      · intro hcomma
        exact absurd (formatDate_chars hcomma) (by decide)
    · exact hregion
    · exact hservice
  · obtain ⟨e, he, rfl⟩ := List.mem_map.mp hname
    exact (signableNames_plain _ (hm.known e he)).2.1
  · exact absurd (hexEncode_chars hcomma) (by decide)

/-- **Signer and verifier agree.** What the signer returns, in any order,
verifies: the paths are those of slashes and of characters that stand for
themselves, and no part of the credential has a slash or a comma in it. -/
theorem awsSigv4Headers_verifiable
    (h : (awsSigv4Headers method host path "" body service region accessKey secretKey
      sessionToken).run.Exec tr (.ok hdrs))
    (hperm : headers.Perm hdrs) (hpath : ∀ c ∈ path.toList, c = '/' ∨ isUnreserved c = true)
    (hkey : Unmarked accessKey) (hregion : Unmarked region) (hservice : Unmarked service)
    (hhost : SingleSpaced host) (htoken : ∀ tok, sessionToken = some tok → SingleSpaced tok) :
    ∃ auth : Authorization, auth.accessKey = accessKey ∧
      Verifiable method path body headers secretKey auth := by
  unfold awsSigv4Headers at h
  obtain ⟨now, t₁, t₂, -, -, h₂⟩ := exec_bind_ok.mp h
  obtain ⟨-, heq⟩ := exec_pure.mp h₂
  cases heq
  rw [sigv4HeadersAt_eq] at hperm
  obtain ⟨rest, hdatetime, htime⟩ := formatDatetime_toList now
  have hspace : ' ' ∉ (formatDatetime now).toList := by
    rw [hdatetime]
    intro hmem
    rcases List.mem_append.mp hmem with hmem | hmem
    · exact absurd (formatDate_chars hmem) (by decide)
    · exact absurd (htime _ (List.mem_of_ne_of_mem (by decide) hmem)) (by decide)
  have hhashed : ' ' ∉ (sha256Hex body).toList := fun hmem =>
    absurd (hexEncode_chars hmem) (by decide)
  have hm : Signable (signableHeaders host (formatDatetime now) (sha256Hex body) body
      sessionToken) := signable_signableHeaders hhost hspace hhashed htoken
  obtain ⟨hhash, hdate⟩ : ("x-amz-content-sha256", sha256Hex body) ∈
        signableHeaders host (formatDatetime now) (sha256Hex body) body sessionToken ∧
      ("x-amz-date", formatDatetime now) ∈
        signableHeaders host (formatDatetime now) (sha256Hex body) body sessionToken :=
    mem_signableHeaders
  revert hperm hm hhash hdate
  generalize signableHeaders host (formatDatetime now) (sha256Hex body) body sessionToken = m
  intro hperm hm hhash hdate
  -- the authorization is one more header
  have hfresh : "authorization" ∉ m.map Prod.fst := by
    intro hmem
    obtain ⟨e, he, hname⟩ := List.mem_map.mp hmem
    exact (signableNames_plain _ (hm.known e he)).2.2 hname
  have hall := hperm.trans (HeaderTree.perm_insert hfresh)
  have hnodup : (headers.map Prod.fst).Nodup :=
    (hall.map Prod.fst).nodup_iff.mpr (List.nodup_cons.mpr ⟨hfresh, hm.sorted.nodup⟩)
  have hlower : ∀ e ∈ headers, lowerName e.1 = e.1 := by
    intro e he
    rcases List.mem_cons.mp (hall.subset he) with rfl | he
    · exact (by decide : lowerName "authorization" = "authorization")
    · exact (signableNames_plain _ (hm.known e he)).1
  have hvalue : ∀ e ∈ m, headerValue headers e.1 = some e.2 := fun e he =>
    headerValue_of_mem hlower hnodup (hall.symm.subset (List.mem_cons_of_mem _ he))
  refine ⟨authorizationAt now method path body service region accessKey secretKey m, rfl, ?_⟩
  exact {
    read := ⟨_, headerValue_of_mem hlower hnodup (hall.symm.subset List.mem_cons_self),
      parse_header_authorizationAt hm (List.ne_nil_of_mem hdate) hkey hregion hservice⟩
    agrees := expectedSignature_authorizationAt hm hvalue hdate hpath
    increasing := List.pairwise_map.mpr hm.sorted
    complete := by
      intro name
      rw [(hall.map Prod.fst).mem_iff, List.map_cons, List.mem_cons]
      constructor
      · intro hname
        exact ⟨Or.inr hname, fun heq => hfresh (heq ▸ hname)⟩
      · rintro ⟨heq | hname, hne⟩
        · exact absurd heq hne
        · exact hname
    hashed := hvalue _ hhash
    dated := by
      refine ⟨_, hvalue _ hdate, ?_⟩
      have hday : ∀ c ∈ (formatDate now).toList, decide (c ≠ 'T') = true := by
        intro c hc
        refine decide_eq_true ?_
        rintro rfl
        exact absurd (formatDate_chars hc) (by decide)
      change (formatDatetime now).toList.takeWhile _ = (formatDate now).toList
      rw [hdatetime, List.takeWhile_append_of_pos hday, List.takeWhile_cons_of_neg (by simp),
        List.append_nil] }

end

namespace Sample

/-- The canonical form of a request that sends a byte, with a session
token. -/
def canonicalForm : String :=
  "POST\n/2013-04-01/hostedzone/Z1/rrset/\n\n" ++
  "content-type:application/xml\nhost:route53.amazonaws.com\n" ++
  "x-amz-content-sha256:2d711642b726b04401627ca9fbac32f5c8530fb1903cc4db02258717921a4881\n" ++
  "x-amz-date:20260528T202710Z\nx-amz-security-token:a token\n\n" ++
  "content-type;host;x-amz-content-sha256;x-amz-date;x-amz-security-token\n" ++
  "2d711642b726b04401627ca9fbac32f5c8530fb1903cc4db02258717921a4881"

/-- The digests of its body and of that form. -/
def digests : List (Bytes × String) :=
  [([0x78], "2d711642b726b04401627ca9fbac32f5c8530fb1903cc4db02258717921a4881"),
    (utf8 canonicalForm, "14d89075b00a77d98ee15eac487e075df11853d3b8c3a51e0f2a653efefa0605")]

/-- The keys on the way to its signature, and the signature: what is
hashed under each. -/
def macs : List (String × String) :=
  [("20260528", "5803577cd279548845321c4d9b7979ada95f29fef7f2fcb6537c01ab318147d0"),
    ("us-east-1", "1192d8e5fe21e8db7fc2b03f2946d27666a7cfeab6b02f66763cf486f7b548ba"),
    ("route53", "bb80ae58d9074f81d3fc7cb81624015415b9f20131021d00c0ae38a1ef2b25a4"),
    ("aws4_request", "752bbd5cf40d007126090cd8531716ffdac874c650da23b5b90e38a65de5943e"),
    ("AWS4-HMAC-SHA256\n20260528T202710Z\n20260528/us-east-1/route53/aws4_request\n" ++
        "14d89075b00a77d98ee15eac487e075df11853d3b8c3a51e0f2a653efefa0605",
      "8847fbac51160e68eba8c29fabfc675d52ef3710e0a7643880ef9de9e400227e")]

/-- The sample libraries, with the hashes of that request. -/
@[reducible] def hashingExternals : Externals :=
  { externals with
    sha256 := fun bs => (((digests.lookup bs).bind hexDecode?).getD [])
    hmacSha256 := fun _ data =>
      (((macs.find? fun m => utf8 m.1 = data).bind fun m => hexDecode? m.2).getD []) }

/-- Its headers. -/
def signedRequest : HeaderTree :=
  @sigv4HeadersAt hashingExternals (host 1780000030 inRange030).now "POST" route53Host
    "/2013-04-01/hostedzone/Z1/rrset/" "" [0x78] route53Service route53Region "AKIDEXAMPLE"
    "secret" (some "a token")

end Sample

example : Sample.signedRequest.head? = some ("authorization",
    "AWS4-HMAC-SHA256 Credential=AKIDEXAMPLE/20260528/us-east-1/route53/aws4_request, " ++
    "SignedHeaders=content-type;host;x-amz-content-sha256;x-amz-date;x-amz-security-token, " ++
    "Signature=8847fbac51160e68eba8c29fabfc675d52ef3710e0a7643880ef9de9e400227e") := by
  decide +kernel

/-- The request verifies in the reverse order of its headers. -/
theorem awsSigv4Headers_verifiable_reverse :
    letI := Sample.hashingExternals
    ∃ auth : Authorization, auth.accessKey = "AKIDEXAMPLE" ∧
      Verifiable "POST" "/2013-04-01/hostedzone/Z1/rrset/" [0x78] Sample.signedRequest.reverse
        "secret" auth := by
  let := Sample.hashingExternals
  have hrun : (awsSigv4Headers "POST" route53Host "/2013-04-01/hostedzone/Z1/rrset/" "" [0x78]
      route53Service route53Region "AKIDEXAMPLE" "secret" (some "a token")).run.Exec
      [⟨.utcNow, (Sample.host 1780000030 (by decide)).now⟩] (.ok Sample.signedRequest) :=
    exec_bind_ok.mpr ⟨_, [⟨.utcNow, (Sample.host 1780000030 (by decide)).now⟩], [], rfl,
      exec_ask.mpr ⟨_, rfl, rfl⟩, exec_pure.mpr ⟨rfl, rfl⟩⟩
  have hpath : ("/2013-04-01/hostedzone/Z1/rrset/".toList.all
      fun c => c == '/' || isUnreserved c) = true := by decide
  refine awsSigv4Headers_verifiable hrun (List.reverse_perm _)
    (fun c hc => by simpa using List.all_eq_true.mp hpath c hc) (by decide) (by decide) (by decide)
    (by decide) fun tok htok => ?_
  rw [← Option.some.inj htok]
  decide

end DynDynser
