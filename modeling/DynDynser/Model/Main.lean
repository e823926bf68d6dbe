import DynDynser.Model.Client
import DynDynser.Model.Server
/-!
# The command line

`src/ip.rs`, which tells the address of the machine, and `src/main.rs`,
which sets the loggers and chooses between the three commands.
-/

namespace DynDynser

open Text Externals

/-- `cli::IPArgs`. -/
structure IPArgs where
  ipAddrCheckUrl : String
  getPublic : Bool
  forceIpv4 : Bool
  forceIpv6 : Bool

/-- `config::IPConfig`. -/
structure IPConfig where
  ipAddrCheckUrl : String
  isPublic : Bool
  forceIpv4 : Bool
  forceIpv6 : Bool

/-- `IPConfig::parse`. -/
def IPConfig.parse (args : IPArgs) : Result IPConfig :=
  if args.forceIpv4 && args.forceIpv6 then
    .error (Error.msg ("force_ipv4 and force_ipv6 cannot both be true at the same time. " ++
      "Either leave both unset, or choose only one"))
  else
    .ok {
      ipAddrCheckUrl := args.ipAddrCheckUrl
      isPublic := args.getPublic
      forceIpv4 := args.forceIpv4
      forceIpv6 := args.forceIpv6 }

/-- The configuration of a client that asks for its address only. -/
def dummyConfig (conf : IPConfig) (domain : DomainName) : ConfigClient where
  ipAddrCheckUrl := conf.ipAddrCheckUrl
  s3QueueBucket := ""
  s3DdnsJsonDirectory := ""
  domain
  ttl := none
  keyPath := ""
  signingKeyPassword := none
  isDryRun := false
  awsConfig := {
    region := ""
    accessKeyId := none
    secretAccessKey := none }
  dropUser := ""
  insecureSkipVerify := false

/-- `cli::SubCommands`. -/
inductive SubCommands where
  | server (args : ServerArgs)
  | client (args : ClientArgs)
  | ip (args : IPArgs)

/-- `Result::unwrap`. -/
def unwrap {α : Type} : Result α → Rust α
  | .ok a => pure a
  | .error _ => panicWith "called `Result::unwrap()` on an `Err` value"

section

variable [Externals]

/-- `handle_ip`. -/
def handleIp (args : IPArgs) : Rust Unit := do
  let conf ← ofResult (Result.context (IPConfig.parse args) "failed to parse IP config")
  if conf.isPublic then
    let domain ← unwrap (DomainName.parse "sample.arpa")
    let ip ← context "failed to get IP address" (queryForIp (dummyConfig conf domain))
    match ip with
    | .v4 ipv4Addr =>
      if conf.forceIpv6 then
        throw (Error.msg
          s!"returned IP address was ipv4, but force-ipv6 was set: {ipv4Display ipv4Addr}")
      else
        printLine (ipv4Display ipv4Addr)
    | .v6 ipv6Addr =>
      if conf.forceIpv4 then
        throw (Error.msg
          s!"returned IP address was ipv4, but force-ipv6 was set: {ipv6Display ipv6Addr}")
      else
        printLine (ipv6Display ipv6Addr)
  else
    return ()

/-- `init_global_loggers`. -/
def initGlobalLoggers : Rust Unit := do
  let syslog : Result Unit ← ask .syslogUnix
  if syslog.isOk then
    return ()
  else
    throw (Error.msg "Cannot contact syslog service")

/-- `main`, of a command line that was parsed. -/
def main (fuel : ℕ) (command : SubCommands) : Rust Unit := do
  initGlobalLoggers
  match command with
  | .server args => handleServer fuel args
  | .client args => handleClient args
  | .ip args => handleIp args

end

end DynDynser
