import DynDynser.Model.Rust
/-!
# DNS records and changes

`src/dns/mod.rs`: record sets, the changes made of them, and the file
name a record set is stored under.
-/

namespace DynDynser

/-- `std::net::Ipv4Addr`. -/
structure Ipv4Addr where
  octets : Vector UInt8 4
deriving DecidableEq

/-- `std::net::Ipv6Addr`. -/
structure Ipv6Addr where
  octets : Vector UInt8 16
deriving DecidableEq

/-- `std::net::IpAddr`. -/
inductive IpAddr where
  | v4 (a : Ipv4Addr)
  | v6 (a : Ipv6Addr)
deriving DecidableEq

inductive RecordType where
  | a
  | aaaa
deriving DecidableEq

/-- The `Display` of a record type. -/
def RecordType.display : RecordType → String
  | a => "A"
  | aaaa => "AAAA"

inductive ChangeAction where
  /-- Create or replace. -/
  | upsert
deriving DecidableEq

/-- The `Display` of a change action. -/
def ChangeAction.display : ChangeAction → String
  | upsert => "UPSERT"

/-- IP addresses for a record set; the variant determines the record
type. -/
inductive RecordData where
  | a (addrs : List Ipv4Addr)
  | aaaa (addrs : List Ipv6Addr)
deriving DecidableEq

/-- The record type implied by the variant. -/
def RecordData.recordType : RecordData → RecordType
  | a _ => .a
  | aaaa _ => .aaaa

/-- One DNS record set. -/
structure ResourceRecordSet where
  name : String
  ttl : UInt32
  data : RecordData
deriving DecidableEq

/-- `ResourceRecordSet::DDNS_JSON_FILE_EXT`. -/
def ddnsJsonFileExt : String := ".ddns.json"

/-- `ResourceRecordSet::make_filename`. -/
def ResourceRecordSet.makeFilename (r : ResourceRecordSet) : String := r.name ++ ddnsJsonFileExt

/-- A single change within a batch. -/
structure Change where
  action : ChangeAction
  recordSet : ResourceRecordSet
deriving DecidableEq

/-- Parsed response from `ChangeResourceRecordSets`. -/
structure ChangeInfo where
  id : String
  status : String
deriving DecidableEq

end DynDynser
