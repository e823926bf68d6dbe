import DynDynser.Common.Json.Value
import DynDynser.Common.Prog
import DynDynser.Model.Chrono
import DynDynser.Model.Dns
/-!
# What the program calls

The program's own code stands on libraries and on the outside world.
`Externals` collects the library functions, which are functions of their
arguments: cryptography, the canonicaliser, the text form of addresses,
the readers of certificates and keys. `Op` lists the calls that reach
outside, with the type of each answer: S3, Route53, the file system, the
clock, the system calls about users, and the connection to syslog. Of what
the program prints, only what a dry run foretells is kept. That a line can
be printed, and that the clock is not before the epoch, is taken for
granted: the program panics where it is not so.
-/

namespace DynDynser

open Text Interact

/-! ## Errors -/

/-- `anyhow::Error`: the messages of its chain, the outermost context
first. -/
structure Error where
  chain : List String
deriving DecidableEq

/-- `anyhow!`. -/
def Error.msg (s : String) : Error := ⟨[s]⟩

/-- `Error::context`. -/
def Error.context (e : Error) (c : String) : Error := ⟨c :: e.chain⟩

/-- `Result<T, anyhow::Error>`. -/
abbrev Result (α : Type) : Type := Except Error α

/-- `Result::context`. -/
def Result.context {α : Type} (r : Result α) (c : String) : Result α := r.mapError (·.context c)

/-- `std::io::Error`, as far as the program looks into it. -/
structure IoError where
  permissionDenied : Bool
  text : String
deriving DecidableEq

/-- How a run ends without returning: a panic, or the model's own bound
on the number of pages. -/
inductive Abort where
  | panic (msg : String)
  | outOfFuel
deriving DecidableEq

/-! ## Keys and certificates -/

/-- `ed25519_dalek::SigningKey`. -/
structure SigningKey where
  bytes : Vector UInt8 32
deriving DecidableEq

/-- `ed25519_dalek::VerifyingKey`. -/
structure VerifyingKey where
  bytes : Vector UInt8 32
deriving DecidableEq

/-- `ed25519_dalek::Signature`. -/
structure Signature where
  bytes : Vector UInt8 64
deriving DecidableEq

/-- An attribute of a distinguished name: its type and its DER value. -/
structure AttributeTypeAndValue where
  oid : List ℕ
  tag : ℕ
  value : Bytes
deriving DecidableEq

/-- `x509_cert::Certificate`: the algorithm of the subject public key, the
key as a bit string, and the subject as its relative distinguished
names. -/
structure Certificate where
  algorithm : List ℕ
  subjectPublicKey : Bytes
  unusedBits : ℕ
  subject : List (List AttributeTypeAndValue)

/-- `ssh_key::PrivateKey`: the Ed25519 key pair it holds in the clear, if
it does. -/
structure SshPrivateKey where
  isEncrypted : Bool
  sealed : Bytes
  ed25519 : Option SigningKey

/-! ## Library functions -/

/-- The functions of the libraries the program is linked with. -/
class Externals where
  /-- `SigningKey::verifying_key`. -/
  verifyingKey : SigningKey → VerifyingKey
  /-- `SigningKey::try_sign`. -/
  trySign : SigningKey → Bytes → Result Signature
  /-- `VerifyingKey::verify_strict`. -/
  verifyStrict : VerifyingKey → Bytes → Signature → Result Unit
  /-- `VerifyingKey::from_bytes`, which refuses what is no point. -/
  verifyingKeyFromBytes : Vector UInt8 32 → Result VerifyingKey
  /-- `serde_json_canonicalizer::to_vec`. -/
  canonicalize : Json.Value → Result Bytes
  /-- The text of the error `serde_json::from_slice` gives. -/
  serdeError : Bytes → String
  /-- The text of the error `str::from_utf8` gives. -/
  utf8Error : Bytes → String
  /-- The text of the error `decode_as::<PrintableStringRef>` gives. -/
  derError : AttributeTypeAndValue → String
  /-- The `Debug` of a string. -/
  strDebug : String → String
  /-- The `Display` of an IPv4 address. -/
  ipv4Display : Ipv4Addr → String
  /-- The `FromStr` of an IPv4 address. -/
  ipv4FromStr : String → Option Ipv4Addr
  /-- The `Display` of an IPv6 address. -/
  ipv6Display : Ipv6Addr → String
  /-- The `FromStr` of an IPv6 address. -/
  ipv6FromStr : String → Option Ipv6Addr
  /-- `Certificate::from_pem`. -/
  certificateFromPem : Bytes → Result Certificate
  /-- `ssh_key::PrivateKey::from_openssh`. -/
  sshFromOpenssh : Bytes → Result SshPrivateKey
  /-- `ssh_key::PrivateKey::decrypt`. -/
  sshDecrypt : SshPrivateKey → Bytes → Result SshPrivateKey
  /-- `SigningKey::from_pkcs8_pem`. -/
  fromPkcs8Pem : String → Result SigningKey
  /-- The parser of an AWS region. -/
  parseRegion : String → Result Unit
  /-- The `Display` of an HTTP status. -/
  statusDisplay : ℕ → String
  /-- `HeaderName::from_str`. -/
  headerNameFromStr : String → Result Unit
  /-- `HeaderValue::from_str`. -/
  headerValueFromStr : String → Result Unit
  sha256 : Bytes → Bytes
  hmacSha256 : Bytes → Bytes → Bytes

/-! ## Calls -/

/-- `s3::creds::Credentials`. -/
structure Credentials where
  accessKey : Option String
  secretKey : Option String
  securityToken : Option String
  sessionToken : Option String
deriving DecidableEq

/-- `ListBucketResult`, one page: its keys, and the token of the next
page if there is one. -/
structure ListBucketResult where
  contents : List String
  nextContinuationToken : Option String
deriving DecidableEq

/-- An entry of a directory. -/
structure DirEntry where
  fileName : String
  isFile : Option Bool
deriving DecidableEq

/-- An entry of the user database. -/
structure User where
  name : String
  uid : ℕ
  gid : ℕ
deriving DecidableEq

/-- A `ChangeResourceRecordSets` request. Its body is a function of the
comment and the changes, so the two are what the request holds. -/
structure ChangeRequest where
  url : String
  headers : List (String × String)
  comment : Option String
  changes : List Change
deriving DecidableEq

/-- The answer to an HTTP request: its status, and its body unless that
could not be read. -/
structure Response (α : Type) where
  status : ℕ
  body : Result α

/-- `StatusCode::is_success`. -/
def Response.isSuccess {α : Type} (r : Response α) : Bool := 200 ≤ r.status && r.status < 300

/-- The calls that reach outside the program. -/
inductive Op where
  | credentialsDefault
  | credentialsNew (accessKey secretKey : String)
  | bucketNew (bucket region : String)
  | listPage (bucket dir delimiter : String) (token : Option String)
  | getObject (bucket key : String)
  | putObject (bucket path : String) (content : Bytes) (contentType : String)
  | deleteObject (bucket key : String)
  | readDir (path : String)
  | metadata (path : String)
  | openFile (path : String)
  | readToEnd (path : String)
  | utcNow
  | geteuid
  | getuid
  | getgid
  | userFromName (name : String)
  | setgroups (groups : List ℕ)
  | setresgid (rgid egid sgid : ℕ)
  | setresuid (ruid euid suid : ℕ)
  | setuid (uid : ℕ)
  | httpClientBuild
  | changeResourceRecordSets (req : ChangeRequest)
  | httpGet (url : String)
  | println (text : String)
  | syslogUnix
deriving DecidableEq

/-- The answer to a call. -/
def Op.Ans : Op → Type
  | credentialsDefault => Result Credentials
  | credentialsNew _ _ => Result Credentials
  | bucketNew _ _ => Result Unit
  | listPage _ _ _ _ => Result ListBucketResult
  | getObject _ _ => Result Bytes
  | putObject _ _ _ _ => Result ℕ
  | deleteObject _ _ => Result ℕ
  | readDir _ => Result (List (Result DirEntry))
  | metadata _ => Except IoError ℕ
  | openFile _ => Except IoError Unit
  | readToEnd _ => Except IoError Bytes
  | utcNow => Instant
  | geteuid => ℕ
  | getuid => ℕ
  | getgid => ℕ
  | userFromName _ => Result (Option User)
  | setgroups _ => Result Unit
  | setresgid _ _ _ => Result Unit
  | setresuid _ _ _ => Result Unit
  | setuid _ => Result Unit
  | httpClientBuild => Result Unit
  | changeResourceRecordSets _ => Result (Response String)
  | httpGet _ => Result (Response Bytes)
  | println _ => Unit
  | syslogUnix => Result Unit

/-- A call and its answer. -/
abbrev Event : Type := Interact.Event Op Op.Ans

/-- The events of a run, in order. -/
abbrev Trace : Type := List Event

/-- A program of this program's calls that cannot fail. -/
abbrev Io (α : Type) : Type := Prog Op Op.Ans Abort α

/-- A function returning `Result<T, anyhow::Error>`. -/
abbrev Rust (α : Type) : Type := Fallible Op Op.Ans Abort Error α

/-- Make a call. -/
def call (o : Op) : Io (Op.Ans o) := Prog.perform o

/-- Make a call and go on with its answer, whatever it is. -/
def ask (o : Op) : Rust (Op.Ans o) := ExceptT.lift (call o)

/-- Make a call and go on with what it returned, its failure being the
caller's. -/
def tryCall {α : Type} (x : Io (Result α)) : Rust α := ExceptT.mk x

/-- `println!`. -/
def printLine (text : String) : Rust Unit := ask (.println text)

/-- `Context::context` on the result of a fallible function. -/
def context {α : Type} (c : String) (x : Rust α) : Rust α :=
  ExceptT.mk (x.run >>= fun r => pure (Result.context r c))

/-- `?` on a result that needs no call. -/
def ofResult {α : Type} (r : Result α) : Rust α := ExceptT.mk (pure r)

/-- `ok_or_else`. -/
def okOr {α : Type} (x : Option α) (msg : String) : Rust α :=
  ofResult (match x with
    | some a => .ok a
    | none => .error (Error.msg msg))

/-- A panic. -/
def panicWith {α : Type} (msg : String) : Rust α := ExceptT.mk (Prog.abort (.panic msg))

end DynDynser
