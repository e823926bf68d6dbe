import DynDynser.Model.Host
import DynDynser.Model.Rust
/-!
# The Route53 client

`src/dns/route53/`: the XML of a change batch, the SigV4 headers of a
request, and the one call the program makes of Route53.
-/

namespace DynDynser

open Text Externals

/-! ## XML -/

/-- The characters that are escaped. -/
def xmlSpecial (c : Char) : Bool := c == '&' || c == '<' || c == '>' || c == '"' || c == '\''

/-- The escape of one character. -/
def xmlEscapeChar (c : Char) : List Char :=
  if c = '&' then "&amp;".toList
  else if c = '<' then "&lt;".toList
  else if c = '>' then "&gt;".toList
  else if c = '"' then "&quot;".toList
  else if c = '\'' then "&apos;".toList
  else [c]

/-- `xml_escape`. -/
def xmlEscape (s : String) : String :=
  if s.toList.any xmlSpecial then String.ofList (s.toList.flatMap xmlEscapeChar) else s

/-- The element of one address. -/
def resourceRecordXml (value : String) : String :=
  "            <ResourceRecord>\n" ++
  "                     <Value>" ++ value ++ "</Value>\n" ++
  "            </ResourceRecord>\n"

section

variable [Externals]

/-- The addresses of a record, as text. -/
def RecordData.values : RecordData → List String
  | a addrs => addrs.map ipv4Display
  | aaaa addrs => addrs.map ipv6Display

/-- The element of one change. -/
def changeXml (change : Change) : String :=
  let rrs := change.recordSet
  "      <Change>\n" ++
  "        <Action>" ++ change.action.display ++ "</Action>\n" ++
  "        <ResourceRecordSet>\n" ++
  "          <Name>" ++ xmlEscape rrs.name ++ "</Name>\n" ++
  "          <Type>" ++ rrs.data.recordType.display ++ "</Type>\n" ++
  "          <TTL>" ++ toString rrs.ttl.toNat ++ "</TTL>\n" ++
  "          <ResourceRecords>\n" ++
  String.join (rrs.data.values.map resourceRecordXml) ++
  "          </ResourceRecords>\n" ++
  "        </ResourceRecordSet>\n" ++
  "      </Change>\n"

/-- `build_change_xml`. -/
def buildChangeXml (comment : Option String) (changes : List Change) : String :=
  "<?xml version=\"1.0\" encoding=\"UTF-8\"?>\n" ++
  "<ChangeResourceRecordSetsRequest " ++
  "xmlns=\"https://route53.amazonaws.com/doc/2013-04-01/\">\n" ++
  "  <ChangeBatch>\n" ++
  (match comment with
    | some c => "    <Comment>" ++ xmlEscape c ++ "</Comment>\n"
    | none => "") ++
  "    <Changes>\n" ++
  String.join (changes.map changeXml) ++
  "    </Changes>\n" ++
  "  </ChangeBatch>\n" ++
  "</ChangeResourceRecordSetsRequest>"

end

/-- `str::find`, with the text before the first occurrence of the pattern
and the text after it. -/
def splitAtFirst (pat : List Char) : List Char → Option (List Char × List Char)
  | [] => if pat = [] then some ([], []) else none
  | c :: cs =>
    if pat.isPrefixOf (c :: cs) then some ([], (c :: cs).drop pat.length)
    else (splitAtFirst pat cs).map fun (before, after) => (c :: before, after)

/-- `extract_xml_text`: the trimmed text content of the first element of
that name. -/
def extractXmlText (xml tag : String) : Option String := do
  let (_, rest) ← splitAtFirst ("<" ++ tag ++ ">").toList xml.toList
  let (text, _) ← splitAtFirst ("</" ++ tag ++ ">").toList rest
  return String.ofList (trimChars text)

/-! ## Signature version 4 -/

/-- A calendar date, of a number of days since the epoch. -/
structure CivilDate where
  year : ℕ
  month : ℕ
  day : ℕ
deriving DecidableEq

/-- The date so many days after 1970-01-01, by the count of days in eras
of four hundred years that begin in March. -/
def civilFromDays (days : ℕ) : CivilDate :=
  let z := days + 719468
  let era := z / 146097
  let doe := z % 146097
  let yoe := (doe - doe / 1460 + doe / 36524 - doe / 146096) / 365
  let doy := doe - (365 * yoe + yoe / 4 - yoe / 100)
  let mp := (5 * doy + 2) / 153
  let month := if mp < 10 then mp + 3 else mp - 9
  { year := yoe + era * 400 + (if month ≤ 2 then 1 else 0)
    month
    day := doy - (153 * mp + 2) / 5 + 1 }

/-- A number of at least `width` digits, zeros in front. -/
def padZeros (width n : ℕ) : String :=
  let digits := toString n
  String.ofList (List.replicate (width - digits.toList.length) '0') ++ digits

/-- The date part of `%Y%m%d`. -/
def formatDate (t : Instant) : String :=
  let d := civilFromDays (t.time.timestamp.toNat / 86400)
  (if d.year ≤ 9999 then padZeros 4 d.year else "+" ++ toString d.year) ++
    padZeros 2 d.month ++ padZeros 2 d.day

/-- `%Y%m%dT%H%M%SZ`. -/
def formatDatetime (t : Instant) : String :=
  let secs := t.time.timestamp.toNat % 86400
  formatDate t ++ "T" ++ padZeros 2 (secs / 3600) ++ padZeros 2 (secs / 60 % 60) ++
    padZeros 2 (secs % 60) ++ "Z"

/-- `BTreeMap<String, String>`: its entries, in the order of the keys. -/
abbrev HeaderTree : Type := List (String × String)

/-- `BTreeMap::insert`. -/
def HeaderTree.insert (k v : String) : HeaderTree → HeaderTree
  | [] => [(k, v)]
  | (k', v') :: m =>
    if k < k' then (k, v) :: (k', v') :: m
    else if k = k' then (k, v) :: m
    else (k', v') :: HeaderTree.insert k v m

section

variable [Externals]

/-- `sha256_hex`. -/
def sha256Hex (data : Bytes) : String := hexEncode (sha256 data)

/-- The headers that are signed. -/
def signableHeaders (host datetime payloadHash : String) (body : Bytes)
    (sessionToken : Option String) : HeaderTree :=
  let hdrs : HeaderTree := []
  let hdrs := if body.isEmpty then hdrs else hdrs.insert "content-type" "application/xml"
  let hdrs := hdrs.insert "host" host
  let hdrs := hdrs.insert "x-amz-content-sha256" payloadHash
  let hdrs := hdrs.insert "x-amz-date" datetime
  match sessionToken with
  | some tok => hdrs.insert "x-amz-security-token" tok
  | none => hdrs

/-- The canonical request. -/
def canonicalRequest (method path query : String) (hdrs : HeaderTree) (payloadHash : String) :
    String :=
  let canonicalHeaders := String.join (hdrs.map fun (k, v) => k ++ ":" ++ trim v ++ "\n")
  let signedHeaders := ";".intercalate (hdrs.map Prod.fst)
  "\n".intercalate [method, path, query, canonicalHeaders, signedHeaders, payloadHash]

/-- The key a request of that day, region and service is signed with. -/
def sigv4SigningKey (secretKey date region service : String) : Bytes :=
  let kDate := hmacSha256 (utf8 ("AWS4" ++ secretKey)) (utf8 date)
  let kRegion := hmacSha256 kDate (utf8 region)
  let kService := hmacSha256 kRegion (utf8 service)
  hmacSha256 kService (utf8 "aws4_request")

/-- What `aws_sigv4_headers` computes of a reading of the clock. -/
def sigv4HeadersAt (now : Instant) (method host path query : String) (body : Bytes)
    (service region accessKey secretKey : String) (sessionToken : Option String) : HeaderTree :=
  let datetime := formatDatetime now
  let date := formatDate now
  let payloadHash := sha256Hex body
  let hdrs := signableHeaders host datetime payloadHash body sessionToken
  let signedHeaders := ";".intercalate (hdrs.map Prod.fst)
  let request := canonicalRequest method path query hdrs payloadHash
  let credentialScope := s!"{date}/{region}/{service}/aws4_request"
  let stringToSign :=
    "\n".intercalate ["AWS4-HMAC-SHA256", datetime, credentialScope, sha256Hex (utf8 request)]
  let kSigning := sigv4SigningKey secretKey date region service
  let signature := hexEncode (hmacSha256 kSigning (utf8 stringToSign))
  hdrs.insert "authorization"
    (s!"AWS4-HMAC-SHA256 Credential={accessKey}/{credentialScope}, " ++
      s!"SignedHeaders={signedHeaders}, Signature={signature}")

/-- `aws_sigv4_headers`. -/
def awsSigv4Headers (method host path query : String) (body : Bytes)
    (service region accessKey secretKey : String) (sessionToken : Option String) :
    Rust HeaderTree := do
  let now : Instant ← ask .utcNow
  return sigv4HeadersAt now method host path query body service region accessKey secretKey
    sessionToken

/-- `to_header_map`: the headers one after the other, up to the first
that is refused. -/
def toHeaderMap : HeaderTree → Result (List (String × String))
  | [] => .ok []
  | (k, v) :: m => do
    Result.context (headerNameFromStr k) s!"invalid header name: {k}"
    Result.context (headerValueFromStr v) s!"invalid header value for {k}: {v}"
    let rest ← toHeaderMap m
    return (k, v) :: rest

end

/-! ## The client -/

/-- `aws_route53::HOST`. -/
def route53Host : String := "route53.amazonaws.com"

/-- `aws_route53::REGION`. -/
def route53Region : String := "us-east-1"

/-- `aws_route53::SERVICE`. -/
def route53Service : String := "route53"

/-- `Route53Client`. -/
structure Route53Client where
  accessKey : String
  secretKey : String
  sessionToken : Option String

namespace Route53Client

/-- `Route53Client::new`. -/
def new (accessKey secretKey : String) (sessionToken : Option String) : Rust Route53Client := do
  context "failed to build reqwest client" (tryCall (call .httpClientBuild))
  return { accessKey, secretKey, sessionToken }

/-- `Route53Client::from_s3_credentials`. -/
def fromS3Credentials (creds : Credentials) : Rust Route53Client := do
  let accessKey ← okOr creds.accessKey "credentials missing access_key"
  let secretKey ← okOr creds.secretKey "credentials missing secret_key"
  new accessKey secretKey (creds.securityToken.or creds.sessionToken)

section

variable [Externals]

/-- `Route53Client::signed_headers`. -/
def signedHeaders (self : Route53Client) (method path : String) (body : Bytes) :
    Rust (List (String × String)) := do
  let map ← awsSigv4Headers method route53Host path "" body route53Service route53Region
    self.accessKey self.secretKey self.sessionToken
  ofResult (toHeaderMap map)

/-- `Route53Client::check_response`. -/
def checkResponse (resp : Response String) : Result String := do
  let body ← Result.context resp.body "reading Route 53 response body"
  if resp.isSuccess then .ok body
  else .error (Error.msg s!"Route 53 HTTP {statusDisplay resp.status}: {body}")

/-- The zone id without what may stand in front of it. -/
def zoneOf (hostedZoneId : String) : String :=
  trim (trimStartMatches "hostedzone/" (trimStartMatches "/hostedzone/" hostedZoneId))

/-- What the answer of Route53 says of the change. -/
def changeInfoOf (rawXml : String) : ChangeInfo where
  id := trimStartMatches "/change/" ((extractXmlText rawXml "Id").getD "")
  status := (extractXmlText rawXml "Status").getD ""

/-- `Route53Client::change_resource_record_sets`. -/
def changeResourceRecordSets (self : Route53Client) (hostedZoneId : String)
    (comment : Option String) (changes : List Change) : Rust ChangeInfo := do
  let path := s!"/2013-04-01/hostedzone/{zoneOf hostedZoneId}/rrset/"
  let body := buildChangeXml comment changes
  let url := s!"https://{route53Host}{path}"
  let headers ← signedHeaders self "POST" path (utf8 body)
  let resp ← context "sending ChangeResourceRecordSets request"
    (tryCall (call (.changeResourceRecordSets { url, headers, comment, changes })))
  let rawXml ← context "failed to deserialize route53 response" (ofResult (checkResponse resp))
  return changeInfoOf rawXml

end

end Route53Client

end DynDynser
