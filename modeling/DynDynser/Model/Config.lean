import DynDynser.Model.Host
import DynDynser.Model.Rust
/-!
# Arguments and configuration

`src/cli/mod.rs` and `src/config.rs`: the arguments of the two commands as
the command line hands them over, the domain names a client may update,
and the configuration made of the arguments. Every text argument has been
through `trimmedString`.
-/

namespace DynDynser

/-! ## The command line -/

/-- `cli::DEFAULT_DDNS_DIR`. -/
def defaultDdnsDir : String := "/ddns/requests"

/-- `cli::trimmed_string`, the value parser of every text argument. -/
def trimmedString (s : String) : Except String String :=
  let trimmed := trimChars s.toList
  if trimmed = [] then .error "value cannot be empty or whitespace-only"
  else .ok (String.ofList trimmed)

/-- `cli::ServerArgs`. -/
structure ServerArgs where
  isDryRun : Bool
  s3QueueBucket : String
  s3DdnsJsonDir : String
  hostedDnsZoneId : String
  keysSearchPath : String
  awsRegion : String
  awsAccessKeyId : Option String
  awsSecretAccessKey : Option String
  maxTimeAgoSignedAtSecs : UInt32
  dropToUser : String
  insecureSkipVerify : Bool

/-- `cli::ClientArgs`. -/
structure ClientArgs where
  isDryRun : Bool
  s3QueueBucket : String
  s3DdnsJsonDir : String
  domainToUpdate : String
  ttl : Option UInt32
  keyPath : String
  signingKeyPassword : Option String
  awsRegion : String
  awsAccessKeyId : Option String
  awsSecretAccessKey : Option String
  ipAddrCheckUrl : String
  dropToUser : String
  insecureSkipVerify : Bool

/-! ## Domain names -/

/-- `config::DomainName`. -/
structure DomainName where
  inner : String
deriving DecidableEq

/-- `char::is_ascii_digit`. -/
def isAsciiDigit (c : Char) : Bool := 0x30 ≤ c.toNat && c.toNat ≤ 0x39

/-- `char::is_ascii_alphanumeric`. -/
def isAsciiAlphanumeric (c : Char) : Bool :=
  isAsciiDigit c || (0x41 ≤ c.toNat && c.toNat ≤ 0x5a) || (0x61 ≤ c.toNat && c.toNat ≤ 0x7a)

/-- The checks made of one label, in order. -/
def checkLabel (label : List Char) : Result Unit :=
  if label = [] ∨ byteLen label > 63 then
    .error (Error.msg "domain sub-labels must be between 1-63 characters")
  else if label.head? = some '-' ∨ label.getLast? = some '-' then
    .error (Error.msg "domain sub-label cannot start or end with a hyphen")
  else if !label.all fun c => isAsciiAlphanumeric c || c == '-' then
    .error (Error.msg "domain sub-label must only be ascii alphanumeric")
  else .ok ()

/-- The labels are checked from the left, up to the first that fails. -/
def checkLabels : List (List Char) → Result Unit
  | [] => .ok ()
  | label :: labels => do
    checkLabel label
    checkLabels labels

/-- `DomainName::parse`. -/
def DomainName.parse (domainName : String) : Result DomainName := do
  let domainName := toLowercase (trimChars domainName.toList)
  if domainName = [] ∨ byteLen domainName > 253 then
    .error (Error.msg "domain must be between 1 and 253 ascii chars")
  else
    -- an optional trailing dot is allowed, and kept in the result
    let domain := stripSuffixChar '.' domainName
    let labels := domain.splitOn '.'
    checkLabels labels
    if labels.getLast?.any fun tld => tld.all isAsciiDigit then
      .error (Error.msg "TLD must not be entirely numeric")
    else .ok ⟨String.ofList domainName⟩

/-! ## Configuration -/

/-- `config::FILE_SIZE_MAX_BYTES`. -/
def fileSizeMaxBytes : ℕ := 10 * 1024

/-- `config::AWSCliConfig`. -/
structure AWSCliConfig where
  region : String
  accessKeyId : Option String
  secretAccessKey : Option String

/-- `AWSCliConfig::get_s3_credentials`. -/
def AWSCliConfig.getS3Credentials (self : AWSCliConfig) : Rust Credentials :=
  match self.accessKeyId, self.secretAccessKey with
  | some accessKeyId, some secretAccessKey =>
    context "failed to construct s3 credentials from supplied values"
      (tryCall (call (.credentialsNew accessKeyId secretAccessKey)))
  | _, _ => context "failed to retrieve default s3 credentials" (tryCall (call .credentialsDefault))

/-- `config::ConfigClient`. The time to live is a duration in seconds. -/
structure ConfigClient where
  s3QueueBucket : String
  s3DdnsJsonDirectory : String
  domain : DomainName
  ipAddrCheckUrl : String
  ttl : Option UInt64
  keyPath : String
  signingKeyPassword : Option String
  isDryRun : Bool
  awsConfig : AWSCliConfig
  dropUser : String
  insecureSkipVerify : Bool

/-- `ConfigClient::parse`. -/
def ConfigClient.parse (args : ClientArgs) : Result ConfigClient := do
  let ttl := args.ttl.map UInt32.toUInt64
  let domain ← Result.context (DomainName.parse args.domainToUpdate)
    "domain is invalid, must conform to RFC 1123"
  let awsConfig : AWSCliConfig := {
    region := args.awsRegion
    accessKeyId := args.awsAccessKeyId
    secretAccessKey := args.awsSecretAccessKey }
  return {
    isDryRun := args.isDryRun
    domain
    ttl
    keyPath := args.keyPath
    s3QueueBucket := args.s3QueueBucket
    s3DdnsJsonDirectory := args.s3DdnsJsonDir
    ipAddrCheckUrl := args.ipAddrCheckUrl
    signingKeyPassword := args.signingKeyPassword
    awsConfig
    dropUser := args.dropToUser
    insecureSkipVerify := args.insecureSkipVerify }

/-- `config::ConfigServer`. -/
structure ConfigServer where
  keysSearchPath : String
  s3QueueBucket : String
  s3DdnsJsonDirectory : String
  hostedDnsZoneId : String
  isDryRun : Bool
  /-- How many seconds a signed object is valid for, to lower the bounds on
  potential replay attacks. -/
  maxTimeAgoSignedAt : TimeDelta
  awsConfig : AWSCliConfig
  dropToUser : String
  insecureSkipVerify : Bool

/-- `ConfigServer::parse`, which cannot fail. -/
def ConfigServer.parse (args : ServerArgs) : ConfigServer where
  isDryRun := args.isDryRun
  hostedDnsZoneId := args.hostedDnsZoneId
  keysSearchPath := args.keysSearchPath
  s3QueueBucket := args.s3QueueBucket
  s3DdnsJsonDirectory := args.s3DdnsJsonDir
  maxTimeAgoSignedAt := TimeDelta.seconds args.maxTimeAgoSignedAtSecs.toNat
  awsConfig := {
    region := args.awsRegion
    accessKeyId := args.awsAccessKeyId
    secretAccessKey := args.awsSecretAccessKey }
  dropToUser := args.dropToUser
  insecureSkipVerify := args.insecureSkipVerify

end DynDynser
