import DynDynser.Common.Upsert
import DynDynser.Model.Client
import DynDynser.Model.Server
import Mathlib.Data.String.Basic
/-!
# S3 and Route53

What the program relies on of the two services: a table of objects and a
table of records, and what each answer says about them. `Step` relates
the tables before a call, the call with its answer, and the tables after
it. A call that reports a failure may or may not have taken effect, except
that a refusal by status leaves the records alone.

A program killed inside a call is a run whose last answer nobody read.
-/

namespace DynDynser

open Text Interact

/-- A version of an object. Every put makes a version of its own. -/
structure StoredObject where
  version : ℕ
  bytes : Bytes
deriving DecidableEq

/-- The name and type of a record set. -/
abbrev RecordKey : Type := String × RecordType

/-- The time to live and the addresses of a record set. -/
abbrev RecordValue : Type := UInt32 × RecordData

/-- The objects of every bucket, and the record sets of every zone, which
is named by the address requests for it go to. -/
structure World where
  objects : String → String → Option StoredObject
  nextVersion : ℕ
  records : String → RecordKey → Option RecordValue

namespace World

/-! ## Objects -/

/-- The key an object command makes of a path: at most one leading slash is
removed, in `get_object`, `put_object` and `delete_object` alike. A listing
sends its prefix as it is. -/
def objectKey (path : String) : String :=
  match path.toList with
  | '/' :: cs => String.ofList cs
  | _ => path

/-- The keys a listing by prefix and delimiter has in its contents: those
that start with the prefix and have no delimiter after it. -/
def UnderPrefix (dir delimiter key : String) : Prop :=
  dir.toList <+: key.toList ∧ ¬ delimiter.toList <:+: key.toList.drop dir.toList.length

instance (dir delimiter key : String) : Decidable (UnderPrefix dir delimiter key) :=
  inferInstanceAs (Decidable (_ ∧ _))

/-- The world after a put. -/
def put (w : World) (bucket key : String) (bytes : Bytes) : World where
  objects := Function.update w.objects bucket
    (Function.update (w.objects bucket) key (some ⟨w.nextVersion, bytes⟩))
  nextVersion := w.nextVersion + 1
  records := w.records

/-- The world after a delete. -/
def delete (w : World) (bucket key : String) : World where
  objects := Function.update w.objects bucket (Function.update (w.objects bucket) key none)
  nextVersion := w.nextVersion
  records := w.records

/-- **A page of a listing.** A token stands for a key, the last one the
pages so far went up to; a page has the visible keys from there to its own
token, or to the end, in order. -/
structure Page (tokenKey : String → String) (w : World) (bucket dir delimiter : String)
    (token : Option String) (page : ListBucketResult) : Prop where
  sorted : page.contents.Pairwise (· < ·)
  mem_iff : ∀ key, key ∈ page.contents ↔
    (w.objects bucket key).isSome ∧ UnderPrefix dir delimiter key ∧
      (∀ t ∈ token, tokenKey t < key) ∧ ∀ t ∈ page.nextContinuationToken, key ≤ tokenKey t
  advances : ∀ s ∈ token, ∀ t ∈ page.nextContinuationToken, tokenKey s < tokenKey t

/-! ## Records -/

/-- The record set a change is about. Names are compared without regard
to the case of ASCII letters. -/
def recordKey (c : Change) : RecordKey :=
  (String.ofList (c.recordSet.name.toList.map Char.toLower), c.recordSet.data.recordType)

/-- What an upsert writes. -/
def recordValue (c : Change) : RecordValue := (c.recordSet.ttl, c.recordSet.data)

/-- The world after a batch, applied in order and as a whole. -/
def apply (w : World) (url : String) (changes : List Change) : World where
  objects := w.objects
  nextVersion := w.nextVersion
  records := Function.update w.records url
    (Upsert.applyAll recordKey recordValue (w.records url) changes)

/-! ## Steps -/

/-- A status that reports success. -/
def successStatus (status : ℕ) : Bool := 200 ≤ status && status < 300

/-- **What a call and its answer say about the world.** `w'` is the world
after the call. -/
def Step (tokenKey : String → String) (w : World) (e : Event) (w' : World) : Prop :=
  match e with
  | ⟨.listPage bucket dir delimiter token, .ok page⟩ =>
    w' = w ∧ Page tokenKey w bucket dir delimiter token page
  | ⟨.getObject bucket path, .ok bytes⟩ =>
    w' = w ∧ ∃ o, w.objects bucket (objectKey path) = some o ∧ o.bytes = bytes
  | ⟨.putObject bucket path content _, answer⟩ =>
    w' = w.put bucket (objectKey path) content ∨ (w' = w ∧ answer ≠ Except.ok 200)
  | ⟨.deleteObject bucket path, answer⟩ =>
    w' = w.delete bucket (objectKey path) ∨ (w' = w ∧ ∀ status, answer = Except.ok status →
      successStatus status = false)
  | ⟨.changeResourceRecordSets req, .ok resp⟩ =>
    w' = if resp.isSuccess then w.apply req.url req.changes else w
  | ⟨.changeResourceRecordSets req, .error _⟩ => w' = w.apply req.url req.changes ∨ w' = w
  | _ => w' = w

/-- The world along the events of a run. -/
abbrev Run (tokenKey : String → String) : World → Trace → World → Prop := Along (Step tokenKey)

end World

end DynDynser
