import DynDynser.Common.Json.RoundTrip
import DynDynser.Helpers.Calls
import DynDynser.Model.Signatures
/-!
# Reading back what was serialised

A type is lawful when its values serialise to plain JSON and read back as
themselves; an envelope of a lawful type is lawful, and so is a signed
one. `fromSlice_pretty` carries that over the text: what a client stores
is what the server reads.
-/

namespace DynDynser

open Text Interact Fallible

/-- **A lawful pair of `Serialize` and `Deserialize`.** -/
class LawfulSerde (T : Type) [Serialize T] [Deserialize T] : Prop where
  plain : ∀ a : T, Json.Plain (toJson a)
  fromJson_toJson : ∀ a : T, fromJson (toJson a) = some a

/-! ## The fields -/

theorem fromJson_uint32 (n : UInt32) :
    (fromJson (.int n.toNat) : Option UInt32) = some n := by
  have hlt : (n.toNat : ℤ) < 2 ^ 32 := by
    have := n.toNat_lt
    omega
  change (if (0 : ℤ) ≤ n.toNat ∧ (n.toNat : ℤ) < 2 ^ 32 then _ else none) = _
  rw [if_pos ⟨by omega, hlt⟩, Int.toNat_natCast, UInt32.ofNat_toNat]

theorem fromJson_int64 (z : Int64) : (fromJson (.int z.toInt) : Option Int64) = some z := by
  have hlo := z.le_toInt
  have hhi := z.toInt_lt
  change (if -2 ^ 63 ≤ z.toInt ∧ z.toInt < 2 ^ 63 then _ else none) = _
  rw [if_pos ⟨hlo, hhi⟩, Int64.ofInt_toInt]

/-- The items of an array read back when each does. -/
theorem fromJson_list {α : Type} [Deserialize α] {f : α → Json.Value}
    (h : ∀ a, fromJson (f a) = some a) (xs : List α) :
    (fromJson (.arr (xs.map f)) : Option (List α)) = some xs :=
  mapM_map_eq_some h xs

theorem visitSignature_display (s : Signature) : visitSignature s.display = some s := by
  unfold visitSignature Signature.display
  rw [hexDecode?_hexEncode]
  obtain ⟨⟨bytes, hlen⟩⟩ := s
  simpa [Vector.toList] using hlen

instance : LawfulSerde Signature where
  plain s := .str s.display
  fromJson_toJson := visitSignature_display

/-! ## Envelopes -/

section

variable {T : Type} [Serialize T] [Deserialize T] [LawfulSerde T]

instance : LawfulSerde (SignableEnvelope T) where
  plain e := by
    refine .obj fun f hf => ?_
    rcases List.mem_cons.mp hf with rfl | hf
    · exact LawfulSerde.plain e.payload
    · rw [List.mem_singleton.mp hf]
      exact .int _
  fromJson_toJson e := by
    have hread : ∀ v, (fromJson v : Option (SignableEnvelope T)) =
        (structFields ["payload", "signed_at_unix_secs"] v).bind fun
          | [payload, signedAt] => (fromJson payload).bind fun payload =>
              (fromJson signedAt).bind fun signedAt => some ⟨payload, signedAt⟩
          | _ => none := fun _ => rfl
    have hfields : structFields ["payload", "signed_at_unix_secs"] (toJson e) =
        some [toJson e.payload, .int e.signedAtUnixSecs.toInt] := rfl
    rw [hread, hfields, Option.bind_some]
    dsimp only
    rw [LawfulSerde.fromJson_toJson, Option.bind_some, fromJson_int64, Option.bind_some]

instance : LawfulSerde (SignedPayload T) where
  plain p := by
    refine .obj fun f hf => ?_
    rcases List.mem_cons.mp hf with rfl | hf
    · exact LawfulSerde.plain p.envelope
    · rw [List.mem_singleton.mp hf]
      exact LawfulSerde.plain p.signature
  fromJson_toJson p := by
    have hread : ∀ v, (fromJson v : Option (SignedPayload T)) =
        (structFields ["envelope", "signature"] v).bind fun
          | [envelope, signature] => (fromJson envelope).bind fun envelope =>
              (fromJson signature).bind fun signature => some ⟨envelope, signature⟩
          | _ => none := fun _ => rfl
    have hfields : structFields ["envelope", "signature"] (toJson p) =
        some [toJson p.envelope, toJson p.signature] := rfl
    rw [hread, hfields, Option.bind_some]
    dsimp only
    rw [LawfulSerde.fromJson_toJson, Option.bind_some, LawfulSerde.fromJson_toJson,
      Option.bind_some]

end

/-! ## Records -/

section

variable [Externals]

open Externals

/-- **Records are lawful** where addresses survive their text form. -/
theorem lawfulSerde_resourceRecordSet
    (hv4 : ∀ a, ipv4FromStr (ipv4Display a) = some a)
    (hv6 : ∀ a, ipv6FromStr (ipv6Display a) = some a) : LawfulSerde ResourceRecordSet where
  plain r := by
    have hdata : Json.Plain (toJson r.data) := by
      cases r.data with
      | a addrs =>
        refine .obj fun f hf => ?_
        rw [List.mem_singleton.mp hf]
        refine .arr fun x hx => ?_
        obtain ⟨a, -, rfl⟩ := List.mem_map.mp hx
        exact .str _
      | aaaa addrs =>
        refine .obj fun f hf => ?_
        rw [List.mem_singleton.mp hf]
        refine .arr fun x hx => ?_
        obtain ⟨a, -, rfl⟩ := List.mem_map.mp hx
        exact .str _
    refine .obj fun f hf => ?_
    rcases List.mem_cons.mp hf with rfl | hf
    · exact .str _
    · rcases List.mem_cons.mp hf with rfl | hf
      · exact .int _
      · rw [List.mem_singleton.mp hf]
        exact hdata
  fromJson_toJson r := by
    have hdata : (fromJson (toJson r.data) : Option RecordData) = some r.data := by
      cases r.data with
      | a addrs =>
        change (fromJson (.arr (addrs.map fun x => .str (ipv4Display x)))).map RecordData.a = _
        rw [fromJson_list hv4]
        rfl
      | aaaa addrs =>
        change (fromJson (.arr (addrs.map fun x => .str (ipv6Display x)))).map RecordData.aaaa = _
        rw [fromJson_list hv6]
        rfl
    have hfields : structFields ["name", "ttl", "data"] (toJson r) =
        some [.str r.name, .int r.ttl.toNat, toJson r.data] := rfl
    have hname : (fromJson (.str r.name) : Option String) = some r.name := rfl
    change (structFields ["name", "ttl", "data"] (toJson r)).bind _ = _
    rw [hfields, Option.bind_some]
    dsimp only
    simp only [hname, Option.bind_eq_bind, Option.bind_some, fromJson_uint32, hdata]
    rfl

end

/-! ## The text -/

/-- **What is written in the pretty layout is read back.** -/
theorem fromSlice_pretty {T : Type} [Serialize T] [Deserialize T] [LawfulSerde T] [Externals]
    (a : T) : (fromSlice (Json.pretty (toJson a)) : Result T) = .ok a := by
  unfold fromSlice
  rw [Json.parse_pretty (LawfulSerde.plain a), Option.bind_some, LawfulSerde.fromJson_toJson]

end DynDynser
