import DynDynser.Model.Signatures
import DynDynser.Model.Unix
/-!
# Keys and certificates

`src/keys.rs`: the certificates the server trusts, the private keys the
client signs with, and the bounded read both come through.
-/

namespace DynDynser

open Text Externals

/-- A trusted certificate: its common name and its key. -/
structure CertMatch where
  commonName : String
  verifyingKey : VerifyingKey
deriving DecidableEq

/-- `rfc4519::COMMON_NAME`. -/
def commonNameOid : List ℕ := [2, 5, 4, 3]

/-- `decode_as::<Utf8StringRef>`. -/
def decodeUtf8String (atv : AttributeTypeAndValue) : Option String :=
  if atv.tag = 0x0c then ofUtf8? atv.value else none

/-- A character of a `PrintableString`. -/
def isPrintable (b : UInt8) : Bool :=
  let n := b.toNat
  (0x30 ≤ n && n ≤ 0x39) || (0x41 ≤ n && n ≤ 0x5a) || (0x61 ≤ n && n ≤ 0x7a) ||
    (utf8 " '()+,-./:=?").contains b

/-- `decode_as::<PrintableStringRef>`. -/
def decodePrintableString (atv : AttributeTypeAndValue) : Option String :=
  if atv.tag = 0x13 ∧ atv.value.all isPrintable then ofUtf8? atv.value else none

section

variable [Externals]

/-- `load_ed25519_certificate_pem`. -/
def loadEd25519CertificatePem (certBytes : Bytes) : Result CertMatch := do
  let cert ← Result.context (certificateFromPem (trimAscii certBytes))
    "Could not parse into an x509 PEM certificate"
  let subjectPublicKey ←
    if cert.unusedBits = 0 then .ok cert.subjectPublicKey
    else .error (Error.msg "unable to extract Public Key bytes")
  let pubKeyBytes : Vector UInt8 32 ←
    if h : subjectPublicKey.length = 32 then .ok ⟨subjectPublicKey.toArray, by simpa using h⟩
    else .error (Error.context (Error.msg "could not convert slice to array")
      "Public Key bytes were retrieved but size was not 32")
  let verifyingKey ← Result.context (verifyingKeyFromBytes pubKeyBytes)
    "unable to convert bytes into a Verifying Key"
  match cert.subject.flatten.find? fun atv => atv.oid = commonNameOid with
  | none => .error (Error.msg "unable to find the CommonName oid attribute in this certificate")
  | some cnAtv =>
    match (decodeUtf8String cnAtv).orElse fun _ => decodePrintableString cnAtv with
    | none => .error (Error.context (Error.msg (derError cnAtv))
        "found the CommonName oid, but was unable to transform it into a string")
    | some commonName => return { commonName, verifyingKey }

/-- `dummy_ed25519_private_key`: the key of 32 zero bytes. -/
def dummyEd25519PrivateKey : SigningKey := ⟨Vector.replicate 32 0⟩

/-- The context of a decryption tried without a password. -/
def noPasswordContext : String :=
  "Key is encrypted, and no password was supplied. Tried an empty decryption attempt, " ++
    "but a password is required"

/-- The context of a decryption under the supplied password. -/
def wrongPasswordContext : String := "Key is encrypted, but supplied password did not match"

/-- `load_ed25519_openssh_private_key`. -/
def loadEd25519OpensshPrivateKey (keyBytes : Bytes) (keyPassword : Option String) :
    Result SigningKey := do
  let sshkey ← sshFromOpenssh keyBytes
  let decrypted : Result SshPrivateKey :=
    match sshkey.isEncrypted, keyPassword with
    | true, none => Result.context (sshDecrypt sshkey []) noPasswordContext
    | true, some pw => Result.context (sshDecrypt sshkey (utf8 pw)) wrongPasswordContext
    | false, _ => .ok sshkey
  let sshkey ← decrypted
  match sshkey.ed25519 with
  | some key => return key
  | none => .error (Error.msg "signing key was not ed25519, we only support ed25519 keys")

/-- `load_ed25519_openssl_key`. -/
def loadEd25519OpensslKey (keyBytes : Bytes) : Result SigningKey :=
  match ofUtf8? keyBytes with
  | none => .error (Error.context (Error.msg (utf8Error keyBytes)) "not a valid utf8 string")
  | some s => Result.context (fromPkcs8Pem s) "failed to decode pkcs8 pem bytes from signing key"

/-- `load_ed25519_private_key`. -/
def loadEd25519PrivateKey (keyBytes : Bytes) (keyPassword : Option String) : Result SigningKey :=
  let keyBytes := trimAscii keyBytes
  if (utf8 opensshPrefixPrivateKey).isPrefixOf keyBytes then
    loadEd25519OpensshPrivateKey keyBytes keyPassword
  else if (utf8 opensslPrefixPrivateKey).isPrefixOf keyBytes then
    loadEd25519OpensslKey keyBytes
  else .error (Error.msg "Supplied signing key was not a valid supported format")

end

/-- `read_file_limited`: refuse a file reported larger than the limit, and
read no more of it than the limit. -/
def readFileLimited (path : String) (maxBytes : ℕ) : Rust Bytes := do
  let reported : Except IoError ℕ ← ask (.metadata path)
  let size ← ofResult (orMustBeRoot "reading file metadata" reported)
  if size > maxBytes then
    throw (Error.msg s!"File too large: {size} bytes (limit: {maxBytes} bytes)")
  else
    let opened : Except IoError Unit ← ask (.openFile path)
    ofResult (orMustBeRoot "opening file" opened)
    let delivered : Except IoError Bytes ← ask (.readToEnd path)
    let content ← ofResult (orMustBeRoot "reading file" delivered)
    return content.take maxBytes

end DynDynser
