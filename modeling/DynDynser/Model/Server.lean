import DynDynser.Model.Config
import DynDynser.Model.Keys
import DynDynser.Model.Route53
/-!
# The server

`src/server.rs`: fetch the requests, validate them, build the changes,
commit them, and clean up. A loop of the source is a recursion over what
it loops over, with the vectors it pushes to as its state; the loop over
pages, which ends when a page carries no token, has a bound on the number
of pages as its first argument.
-/

namespace DynDynser

open Text Externals Interact

/-- `S3Key`. -/
structure S3Key where
  key : String
deriving DecidableEq

/-- A DDNS request that is structurally sound and has not yet passed
signature validation. -/
structure UnverifiedDdnsRequest where
  signedPayload : SignedPayload ResourceRecordSet
  s3Key : S3Key
deriving DecidableEq

/-- A DDNS request that passed validation. -/
structure VerifiedDdnsRequest where
  resourceRecord : ResourceRecordSet
  s3Key : S3Key
deriving DecidableEq

/-! ## Errors that do not end the run -/

/-- `ServerErrors`. -/
structure ServerErrors where
  failedS3Fetches : List (S3Key × Error) := []
  failedJsonParses : List (S3Key × Error) := []
  failedKeyParses : List (String × Error) := []
  failedSignatureChecks : List (String × Error) := []
  failedS3Deletions : List (S3Key × Error) := []
deriving DecidableEq

namespace ServerErrors

/-- `ServerErrors::new`. -/
def new : ServerErrors := {}

/-- `ServerErrors::has_errors`. -/
def hasErrors (self : ServerErrors) : Bool :=
  !self.failedS3Fetches.isEmpty || !self.failedJsonParses.isEmpty ||
    !self.failedKeyParses.isEmpty || !self.failedSignatureChecks.isEmpty ||
    !self.failedS3Deletions.isEmpty

/-- `ServerErrors::print_summary`. -/
def printSummary (self : ServerErrors) : Result Unit :=
  if self.hasErrors then .error (Error.msg "errors occurred while executing this dyndynser run")
  else .ok ()

end ServerErrors

section

variable [Externals]

/-! ## Validation of one request -/

/-- `DateTime + TimeDelta`, which panics outside the range of dates. -/
def DateTime.add (t : DateTime) (d : TimeDelta) : Rust DateTime :=
  match t.checkedAddSigned d with
  | some t' => pure t'
  | none => panicWith "`DateTime + TimeDelta` overflowed"

/-- The check of a signature over the canonical bytes of its envelope. -/
def verifySignature (vk : VerifyingKey) (p : SignedPayload ResourceRecordSet) : Result Unit := do
  let canonical ← Result.context (canonicalize (toJson p.envelope))
    "failed to re-serialize during signature check"
  Result.context (verifyStrict vk canonical p.signature) "ddns json signature did not match"

/-- The tolerance for clock drift. -/
def clockDrift : TimeDelta := TimeDelta.seconds 15

/-- `UnverifiedDdnsRequest::validate`. -/
def UnverifiedDdnsRequest.validate (self : UnverifiedDdnsRequest) (vk : VerifyingKey)
    (maxTimeAgo : TimeDelta) (insecureSkipVerify : Bool) : Rust VerifiedDdnsRequest := do
  let verified : VerifiedDdnsRequest :=
    { resourceRecord := self.signedPayload.envelope.payload, s3Key := self.s3Key }
  if insecureSkipVerify then
    return verified
  else
    ofResult (verifySignature vk self.signedPayload)
    let signedAt ← okOr
      (DateTime.fromTimestamp self.signedPayload.envelope.signedAtUnixSecs.toInt)
      "could not construct a timestamp for this envelope"
    let limit ← signedAt.add maxTimeAgo
    let maxAgePermitted ← limit.add clockDrift
    let now : Instant ← ask .utcNow
    if maxAgePermitted.nanos < now.time.nanos then
      let age := (now.time.sub signedAt).numSeconds
      throw (Error.msg s!"Signature is too old (age: {age}s, max: {maxTimeAgo.numSeconds}s)")
    else
      return verified

/-- The key a request is validated with, which has accepted its signature
unless the check is skipped. -/
def matchingKey (unverifiedRequest : UnverifiedDdnsRequest) (domainKeyMap : List CertMatch)
    (insecureSkipVerify : Bool) : Result VerifyingKey := do
  if insecureSkipVerify then
    return Externals.verifyingKey dummyEd25519PrivateKey
  else
    let name := unverifiedRequest.signedPayload.envelope.payload.name
    match domainKeyMap.find? fun x => x.commonName = name with
    | none =>
      throw (Error.msg
        s!"Received ddns request for domain '{name}', but no matching key could be found")
    | some matchingCertificate =>
      verifySignature matchingCertificate.verifyingKey unverifiedRequest.signedPayload
      return matchingCertificate.verifyingKey

/-- `DynDynserServer::check_valid_ddns_request`. -/
def checkValidDdnsRequest (unverifiedRequest : UnverifiedDdnsRequest)
    (domainKeyMap : List CertMatch) (maxTimeAgo : TimeDelta) (insecureSkipVerify : Bool) :
    Rust VerifiedDdnsRequest := do
  let verifyingKey ← ofResult (matchingKey unverifiedRequest domainKeyMap insecureSkipVerify)
  context "Did not successfully validate the request"
    (unverifiedRequest.validate verifyingKey maxTimeAgo insecureSkipVerify)

/-! ## The server's steps -/

/-- `DynDynserServer`. -/
structure DynDynserServer where
  conf : ConfigServer
  credentials : Credentials

/-- What the fetch has pushed so far. -/
abbrev FetchState : Type := List UnverifiedDdnsRequest × ServerErrors

/-- What happens to the state with the answer to the fetch of a key. -/
def fetched (key : String) (answer : Result Bytes) : FetchState → FetchState
  | (unverifiedRequests, errors) =>
    match answer with
    | .ok data =>
      match fromSlice data with
      | .ok signedPayload => (unverifiedRequests ++ [{ signedPayload, s3Key := ⟨key⟩ }], errors)
      | .error e => (unverifiedRequests, { errors with
          failedJsonParses := errors.failedJsonParses ++
            [(⟨key⟩, e.context "failed to deserialize into a DdnsJson object")] })
    | .error e => (unverifiedRequests, { errors with
        failedS3Fetches := errors.failedS3Fetches ++
          [(⟨key⟩, e.context "failed to Get S3 Object")] })

/-- The loop over the contents of one page. -/
def fetchContents (bucket : String) : List String → FetchState → Io FetchState
  | [], st => pure st
  | key :: contents, st =>
    if endsWith key ddnsJsonFileExt then do
      let answer : Result Bytes ← call (.getObject bucket key)
      fetchContents bucket contents (fetched key answer st)
    else fetchContents bucket contents st

/-- The state of `getPublicKeyMap`: the certificates and the errors. -/
abbrev KeyMapState : Type := List CertMatch × ServerErrors

/-- `Path::extension` of a file name. -/
def extension (fileName : List Char) : Option (List Char) :=
  match fileName.reverse.dropWhile (· ≠ '.') with
  | _ :: _ :: _ => some (fileName.reverse.takeWhile (· ≠ '.')).reverse
  | _ => none

/-- `Path::join` of a directory and a file name. -/
def joinPath (dir fileName : String) : String :=
  if endsWith dir "/" then dir ++ fileName else dir ++ "/" ++ fileName

/-- Is the entry a file with the extension of a certificate? -/
def isCertificateFile (entry : DirEntry) : Bool :=
  entry.isFile.getD false && extension entry.fileName.toList == some publicCertExt.toList

/-- What happens to the state with the bytes of a certificate file. -/
def loaded (fileName : String) (fbytes : Bytes) : KeyMapState → KeyMapState
  | (v, errors) =>
    match Result.context (loadEd25519CertificatePem fbytes)
        "failed to load an x509 certificate from bytes" with
    | .ok crtmatch => (v ++ [crtmatch], errors)
    | .error e => (v, { errors with
        failedKeyParses := errors.failedKeyParses ++ [(fileName, e)] })

/-- The loop over the certificate files. -/
def loadCertificates (dir : String) : List DirEntry → KeyMapState → Rust KeyMapState
  | [], st => return st
  | entry :: entries, st => do
    let fbytes ← context "invalid key_path"
      (readFileLimited (joinPath dir entry.fileName) fileSizeMaxBytes)
    loadCertificates dir entries (loaded entry.fileName fbytes st)

/-- What validation has pushed so far. -/
abbrev ValidateState : Type := List VerifiedDdnsRequest × ServerErrors

/-- What happens to the state with the verdict on a request. -/
def validated (unverifiedRequest : UnverifiedDdnsRequest) (verdict : Result VerifiedDdnsRequest) :
    ValidateState → ValidateState
  | (verifiedRequests, errors) =>
    match Result.context verdict "failed to check signing key request" with
    | .ok verified => (verifiedRequests ++ [verified], errors)
    | .error e => (verifiedRequests, { errors with
        failedSignatureChecks := errors.failedSignatureChecks ++
          [(unverifiedRequest.signedPayload.envelope.payload.name,
            e.context "signature did not pass validation")] })

/-- What happens to the errors with the answer to a delete. -/
def deleted (s3Key : S3Key) (answer : Result ℕ) (errors : ServerErrors) : ServerErrors :=
  match Result.context answer "failed to delete S3 Key" with
  | .ok status =>
    if status < 200 ∨ 300 ≤ status then { errors with
      failedS3Deletions := errors.failedS3Deletions ++
        [(s3Key, Error.msg s!"got non-200 status code: {status}")] }
    else errors
  | .error e => { errors with failedS3Deletions := errors.failedS3Deletions ++ [(s3Key, e)] }

/-- The loop over the keys to delete. -/
def deleteObjects (bucket : String) : List S3Key → ServerErrors → Io ServerErrors
  | [], errors => pure errors
  | s3Key :: s3Keys, errors => do
    let answer : Result ℕ ← call (.deleteObject bucket s3Key.key)
    deleteObjects bucket s3Keys (deleted s3Key answer errors)

namespace DynDynserServer

/-- `DynDynserServer::get_s3_bucket`. A bucket handle is the name of the
bucket. -/
def getS3Bucket (self : DynDynserServer) : Rust String := do
  ofResult (Result.context (parseRegion self.conf.awsConfig.region)
    "invalid AWS region found during S3 write")
  context "failed to retrieve s3 credentials"
    (tryCall (call (.bucketNew self.conf.s3QueueBucket self.conf.awsConfig.region)))
  return self.conf.s3QueueBucket

/-- The loop over the pages of the listing. -/
def fetchPages (self : DynDynserServer) (bucket : String) :
    ℕ → Option String → FetchState → Rust FetchState
  | 0, _, _ => ExceptT.mk (Prog.abort .outOfFuel)
  | fuel + 1, continuationToken, st => do
    let listResult ← context "failed to list contents of s3 bucket"
      (tryCall (call (.listPage bucket self.conf.s3DdnsJsonDirectory "/" continuationToken)))
    let st ← ExceptT.lift (fetchContents bucket listResult.contents st)
    match listResult.nextContinuationToken with
    | some token => fetchPages self bucket fuel (some token) st
    | none => return st

/-- `DynDynserServer::fetch_ddns_jsons_from_s3`. -/
def fetchDdnsJsonsFromS3 (self : DynDynserServer) (fuel : ℕ) : Rust FetchState := do
  let bucket ← context "failed to get S3 bucket" self.getS3Bucket
  self.fetchPages bucket fuel none ([], ServerErrors.new)

/-- `DynDynserServer::get_public_key_map`. -/
def getPublicKeyMap (self : DynDynserServer) (errors : ServerErrors) : Rust KeyMapState := do
  let entries ← context "failed to read known key search path"
    (tryCall (call (.readDir self.conf.keysSearchPath)))
  let listPubKeyFiles := (entries.filterMap Except.toOption).filter isCertificateFile
  loadCertificates self.conf.keysSearchPath listPubKeyFiles ([], errors)

/-- `DynDynserServer::validate_unverified_dns_requests`, with the state of
its loop. -/
def validateUnverifiedDnsRequests (self : DynDynserServer) (domainCerts : List CertMatch)
    (insecureSkipVerify : Bool) : List UnverifiedDdnsRequest → ValidateState → Io ValidateState
  | [], st => pure st
  | unverifiedRequest :: unverifiedRequests, st => do
    let verdict ← (checkValidDdnsRequest unverifiedRequest domainCerts
      self.conf.maxTimeAgoSignedAt insecureSkipVerify).run
    validateUnverifiedDnsRequests self domainCerts insecureSkipVerify unverifiedRequests
      (validated unverifiedRequest verdict st)

/-- The fully qualified form of a name. -/
def fixedName (name : String) : String := if endsWith name "." then name else name.push '.'

/-- `DynDynserServer::build_changes`. -/
def buildChanges (verifiedDdnsRequests : List VerifiedDdnsRequest) : List Change :=
  verifiedDdnsRequests.map fun verifiedRequest =>
    { action := .upsert
      recordSet := {
        name := match verifiedRequest.resourceRecord.data.recordType with
          | .a | .aaaa => fixedName verifiedRequest.resourceRecord.name
        data := verifiedRequest.resourceRecord.data
        ttl := verifiedRequest.resourceRecord.ttl } }

/-- `DynDynserServer::commit_changes`. -/
def commitChanges (self : DynDynserServer) (changes : List Change) : Rust ChangeInfo := do
  let route53Client ← context "failed to construct a Route53 Client"
    (Route53Client.fromS3Credentials self.credentials)
  context "failed to issue a Route53 update"
    (route53Client.changeResourceRecordSets self.conf.hostedDnsZoneId
      (some "Updated via dyndynser") changes)

/-- `DynDynserServer::cleanup`. -/
def cleanup (self : DynDynserServer) (s3Keys : List S3Key) (errors : ServerErrors) :
    Rust ServerErrors := do
  let bucket ← context "failed to get S3 bucket" self.getS3Bucket
  ExceptT.lift (deleteObjects bucket s3Keys errors)

end DynDynserServer

open DynDynserServer

/-- The keys `handle_server` cleans up. -/
def deleteKeys (verifiedDdnsRequests : List VerifiedDdnsRequest) (errors : ServerErrors) :
    List S3Key :=
  verifiedDdnsRequests.map (·.s3Key) ++ errors.failedS3Fetches.map Prod.fst ++
    errors.failedJsonParses.map Prod.fst

/-! ## What a dry run prints -/

/-- The `Debug` of a vector, of the texts of its elements. -/
def debugList (elements : List String) : String := "[" ++ ", ".intercalate elements ++ "]"

/-- The `Debug` of the addresses of a record. -/
def RecordData.debug (data : RecordData) : String :=
  match data with
  | a _ => "A(" ++ debugList data.values ++ ")"
  | aaaa _ => "AAAA(" ++ debugList data.values ++ ")"

/-- The `Debug` of a record set. -/
def ResourceRecordSet.debug (r : ResourceRecordSet) : String :=
  "ResourceRecordSet \x7b name: " ++ strDebug r.name ++ ", ttl: " ++ toString r.ttl.toNat ++
    ", data: " ++ r.data.debug ++ " \x7d"

/-- The `Debug` of a change action. -/
def ChangeAction.debug : ChangeAction → String
  | upsert => "Upsert"

/-- The `Debug` of a change. -/
def Change.debug (c : Change) : String :=
  "Change \x7b action: " ++ c.action.debug ++ ", record_set: " ++ c.recordSet.debug ++ " \x7d"

/-- The `Debug` of a key. -/
def S3Key.debug (k : S3Key) : String := "S3Key(" ++ strDebug k.key ++ ")"

/-- What a dry run says of the changes. -/
def foretoldChanges (changes : List Change) : String :=
  "Will write these changes to the DNS records:\n\n```json\n" ++
    debugList (changes.map Change.debug) ++ "\n```"

/-- What a dry run says of the keys to delete. -/
def foretoldKeys (deleteKeys : List S3Key) : String :=
  "Will delete the following keys from the s3 bucket:\n" ++ debugList (deleteKeys.map S3Key.debug)

/-- The certificates `handle_server` validates with, loaded unless
verification is skipped. -/
def domainCertificates (dyndynser : DynDynserServer) (errors : ServerErrors) : Rust KeyMapState :=
  if dyndynser.conf.insecureSkipVerify then pure ([], errors)
  else context "failed to get public key map" (dyndynser.getPublicKeyMap errors)

/-- `handle_server`. -/
def handleServer (fuel : ℕ) (serverArgs : ServerArgs) : Rust Unit := do
  let conf := ConfigServer.parse serverArgs
  let credentials ← conf.awsConfig.getS3Credentials
  let dyndynser : DynDynserServer := { conf, credentials }
  let (unverifiedDdnsRequests, errors) ←
    context "failed to query S3 for outstanding ddns requests"
      (dyndynser.fetchDdnsJsonsFromS3 fuel)
  if unverifiedDdnsRequests.isEmpty then
    return ()
  else
    let (domainCerts, errors) ← domainCertificates dyndynser errors
    if !conf.insecureSkipVerify && domainCerts.isEmpty then
      return ()
    else
      let (verifiedDdnsRequests, errors) ←
        ExceptT.lift (dyndynser.validateUnverifiedDnsRequests domainCerts conf.insecureSkipVerify
          unverifiedDdnsRequests ([], errors))
      context "failed to drop privileges" (maybeDropPrivileges conf.dropToUser)
      if verifiedDdnsRequests.isEmpty then
        return ()
      else
        let changes := buildChanges verifiedDdnsRequests
        let deleteKeys := deleteKeys verifiedDdnsRequests errors
        if conf.isDryRun then
          printLine (foretoldChanges changes)
          printLine (foretoldKeys deleteKeys)
          return ()
        else
          let _changeResults ← context "failed to commit dns changes"
            (dyndynser.commitChanges changes)
          let errors ← context "failed to cleanup s3 ddns.json items"
            (dyndynser.cleanup deleteKeys errors)
          ofResult errors.printSummary

end

end DynDynser
