import DynDynser.Model.World
/-!
# Names and changes

Two names are names of one domain when they are equal up to the case of
ASCII letters and one dot at the end. The change made of a record set is
about its domain and its type, whichever way the name is spelled.
-/

namespace DynDynser

open World

/-! ## Names -/

/-- The domain a name is a spelling of. -/
def domainOf (name : String) : String :=
  String.ofList ((stripSuffixChar '.' name.toList).map Char.toLower)

theorem endsWith_dot {name : String} :
    endsWith name "." = true ↔ name.toList.getLast? = some '.' := by
  unfold endsWith
  rw [show (".".toList) = ['.'] from rfl, List.isSuffixOf_iff_suffix]
  constructor
  · rintro ⟨cs, hcs⟩
    rw [← hcs, List.getLast?_append]
    rfl
  · intro h
    obtain ⟨cs, hcs⟩ := List.getLast?_eq_some_iff.mp h
    exact ⟨cs, hcs.symm⟩

/-- **The fully qualified form of a name** is the name without its dot,
and a dot. -/
theorem fixedName_toList (name : String) :
    (DynDynserServer.fixedName name).toList = stripSuffixChar '.' name.toList ++ ['.'] := by
  unfold DynDynserServer.fixedName stripSuffixChar
  by_cases h : name.toList.getLast? = some '.'
  · rw [if_pos (endsWith_dot.mpr h), if_pos h]
    obtain ⟨cs, hcs⟩ := List.getLast?_eq_some_iff.mp h
    rw [hcs, List.dropLast_concat]
  · rw [if_neg (fun hends => h (endsWith_dot.mp hends)), if_neg h, String.toList_push]

/-- The dot keeps its place under lower-casing. -/
theorem toLower_dot : Char.toLower '.' = '.' := by decide

/-! ## Changes -/

/-- The change made of a record set. -/
def ResourceRecordSet.change (r : ResourceRecordSet) : Change where
  action := .upsert
  recordSet := { r with name := DynDynserServer.fixedName r.name }

/-- The changes are made one by one. -/
theorem buildChanges_eq (vs : List VerifiedDdnsRequest) :
    DynDynserServer.buildChanges vs = vs.map fun v => v.resourceRecord.change := by
  unfold DynDynserServer.buildChanges
  refine List.map_congr_left fun v _ => ?_
  unfold ResourceRecordSet.change
  cases v.resourceRecord.data <;> rfl

/-- What a record set is about: its domain and its type. -/
def ResourceRecordSet.about (r : ResourceRecordSet) : RecordKey :=
  (domainOf r.name, r.data.recordType)

/-- **Changes are about the same record where their record sets are about
the same domain and type.** -/
theorem recordKey_change {r s : ResourceRecordSet} :
    recordKey r.change = recordKey s.change ↔ r.about = s.about := by
  have hname : ∀ t : ResourceRecordSet, recordKey t.change =
      (String.ofList ((domainOf t.name).toList ++ ['.']), t.data.recordType) := by
    intro t
    unfold recordKey ResourceRecordSet.change domainOf
    simp only [fixedName_toList, List.map_append, List.map_cons, List.map_nil, toLower_dot,
      String.toList_ofList]
  rw [hname, hname]
  unfold ResourceRecordSet.about
  constructor
  · intro h
    obtain ⟨hlist, htype⟩ := Prod.mk.inj h
    have happend := String.ofList_injective hlist
    have hdomain := (List.append_left_inj _).mp happend
    rw [String.toList_injective hdomain, htype]
  · intro h
    obtain ⟨hdomain, htype⟩ := Prod.mk.inj h
    rw [hdomain, htype]

end DynDynser
