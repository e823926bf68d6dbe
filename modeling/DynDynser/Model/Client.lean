import DynDynser.Model.Config
import DynDynser.Model.Keys
/-!
# The client

`src/client.rs`: learn the address of the machine, sign a record of it,
and put the signed record into the bucket.
-/

namespace DynDynser

open Text Externals

section

variable [Externals]

/-- `IpAddr::from_str`: an IPv4 address, or else an IPv6 one. -/
def ipAddrFromStr (s : String) : Option IpAddr :=
  ((ipv4FromStr s).map .v4).or ((ipv6FromStr s).map .v6)

/-- `DynDynserClient::query_for_ip`. -/
def queryForIp (conf : ConfigClient) : Rust IpAddr := do
  let res ← context "failed to check IP address" (tryCall (call (.httpGet conf.ipAddrCheckUrl)))
  if res.status ≠ 200 then
    throw (Error.msg "IP query returned non-200 status")
  else
    let bytes ← ofResult (Result.context res.body "could not read IP request body bytes")
    let s := fromUtf8Lossy (trimAscii bytes)
    match ipAddrFromStr s with
    | some ip => return ip
    | none => throw (Error.context (Error.msg "invalid IP address syntax")
        s!"failed to convert IP address, returned {s}")

/-- The key the client signs with, loaded before privileges are dropped. -/
def clientSigningKey (conf : ConfigClient) : Rust SigningKey := do
  if conf.insecureSkipVerify then
    return dummyEd25519PrivateKey
  else
    let keyBytes ← context "invalid key_path" (readFileLimited conf.keyPath fileSizeMaxBytes)
    context "failed to drop privileges" (maybeDropPrivileges conf.dropUser)
    ofResult (loadEd25519PrivateKey keyBytes conf.signingKeyPassword)

/-- The record the client publishes for an address. -/
def dnsObj (conf : ConfigClient) (ip : IpAddr) : ResourceRecordSet where
  ttl := match conf.ttl with
    | some d => d.toUInt32
    | none => 300
  name := conf.domain.inner
  data := match ip with
    | .v4 ipv4Addr => .a [ipv4Addr]
    | .v6 ipv6Addr => .aaaa [ipv6Addr]

/-- The path the client puts the record at. -/
def ddnsJsonPath (conf : ConfigClient) (r : ResourceRecordSet) : String :=
  conf.s3DdnsJsonDirectory ++ "/" ++ r.makeFilename

/-- What a dry run says of the object it does not put. -/
def foretoldPut (conf : ConfigClient) (path : String) (content : Bytes) : String :=
  "Will write to: s3://" ++ conf.s3QueueBucket ++ path ++ "\nJSON:\n" ++ fromUtf8Lossy content

/-- `handle_client`. -/
def handleClient (args : ClientArgs) : Rust Unit := do
  let conf ← ofResult (Result.context (ConfigClient.parse args) "failed to parse Client config")
  let signingKey ← clientSigningKey conf
  let ip ← context "failed to get IP address of this machine" (queryForIp conf)
  let dnsObj := dnsObj conf ip
  let signedJsonBytes ← context "Failed to sign payload object"
    ((SignableEnvelope.new dnsObj).sign signingKey)
  if conf.isDryRun then
    printLine (foretoldPut conf (ddnsJsonPath conf dnsObj) signedJsonBytes)
    return ()
  else
    ofResult (Result.context (parseRegion conf.awsConfig.region)
      "invalid AWS region found during S3 write")
    let _credentials ← conf.awsConfig.getS3Credentials
    tryCall (call (.bucketNew conf.s3QueueBucket conf.awsConfig.region))
    let status ← context "failed to put S3 object"
      (tryCall (call (.putObject conf.s3QueueBucket (ddnsJsonPath conf dnsObj) signedJsonBytes
        "application/json")))
    if status ≠ 200 then
      throw (Error.msg "s3 returned non-200")
    else
      return ()

end

end DynDynser
