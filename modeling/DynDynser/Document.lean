import DynDynser.Common.Lists
import DynDynser.Common.Xml
import DynDynser.Helpers.Services
/-!
# The document says what was decided

The XML of a change batch, decoded by a reference reader, is the comment
and the changes it was built from, in order and nothing else, whatever
characters the names and the comment have. The document is first written
as a tree of elements, which is what the reader finds in it; the tree is
then read field by field.
-/

namespace DynDynser

open Xml Externals

/-! ## Escaping -/

/-- The two paths of the escaper agree. -/
theorem toList_xmlEscape (s : String) : (xmlEscape s).toList = s.toList.flatMap xmlEscapeChar := by
  unfold xmlEscape
  split
  · rw [String.toList_ofList]
  · next h =>
    -- no character is special, so each one stands for itself
    have hplain : ∀ c ∈ s.toList, xmlEscapeChar c = [c] := by
      intro c hc
      have hspecial : xmlSpecial c = false := by
        by_contra htrue
        exact h (List.any_eq_true.mpr ⟨c, hc, by simpa using htrue⟩)
      simp only [xmlSpecial, Bool.or_eq_false_iff, beq_eq_false_iff_ne] at hspecial
      obtain ⟨⟨⟨⟨h₁, h₂⟩, h₃⟩, h₄⟩, h₅⟩ := hspecial
      rw [xmlEscapeChar, if_neg h₁, if_neg h₂, if_neg h₃, if_neg h₄, if_neg h₅]
    rw [List.flatMap_congr hplain, List.flatMap_singleton']

theorem unescape_xmlEscapeChar (c : Char) (cs : List Char) :
    unescape (xmlEscapeChar c ++ cs) = (unescape cs).map (c :: ·) := by
  unfold xmlEscapeChar
  split_ifs with h₁ h₂ h₃ h₄ h₅
  · subst h₁
    rfl
  · subst h₂
    rfl
  · subst h₃
    rfl
  · subst h₄
    rfl
  · subst h₅
    rfl
  · exact unescape_cons h₁ cs

/-- **An escaped text is undone to the text.** -/
theorem unescape_xmlEscape (s : String) : unescape (xmlEscape s).toList = some s.toList := by
  rw [toList_xmlEscape]
  induction s.toList with
  | nil => rfl
  | cons c cs ih =>
    rw [List.flatMap_cons, unescape_xmlEscapeChar, ih]
    rfl

/-- No escaped text opens markup. -/
theorem not_mem_xmlEscape (s : String) : '<' ∉ (xmlEscape s).toList := by
  rw [toList_xmlEscape]
  intro hmem
  obtain ⟨c, -, hc⟩ := List.mem_flatMap.mp hmem
  unfold xmlEscapeChar at hc
  split_ifs at hc with h₁ h₂ h₃ h₄ h₅
  · exact absurd hc (by decide)
  · exact absurd hc (by decide)
  · exact absurd hc (by decide)
  · exact absurd hc (by decide)
  · exact absurd hc (by decide)
  · exact h₂ (List.mem_singleton.mp hc).symm

/-! ## The tree of a batch -/

/-- Indentation. -/
def spaces (n : ℕ) : List Char := List.replicate n ' '

/-- An element that holds text. -/
def leaf (tag : String) (text tail : List Char) : Element := .mk tag.toList text [] tail

/-- The element of one address. -/
def recordElement (value : String) (tail : List Char) : Element :=
  .mk "ResourceRecord".toList ('\n' :: spaces 21)
    [leaf "Value" value.toList ('\n' :: spaces 12)] tail

/-- The start tag of the request. -/
def requestTag : String :=
  "ChangeResourceRecordSetsRequest xmlns=\"https://route53.amazonaws.com/doc/2013-04-01/\""

section

variable [Externals]

/-- The element of a record set. -/
def recordSetElement (rrs : ResourceRecordSet) (tail : List Char) : Element :=
  .mk "ResourceRecordSet".toList ('\n' :: spaces 10)
    [leaf "Name" (xmlEscape rrs.name).toList ('\n' :: spaces 10),
      leaf "Type" rrs.data.recordType.display.toList ('\n' :: spaces 10),
      leaf "TTL" (toString rrs.ttl.toNat).toList ('\n' :: spaces 10),
      .mk "ResourceRecords".toList ('\n' :: gap (spaces 12) (spaces 10) rrs.data.values)
        (lines (spaces 12) (spaces 10) recordElement rrs.data.values) ('\n' :: spaces 8)] tail

/-- The element of one change. -/
def changeElement (change : Change) (tail : List Char) : Element :=
  .mk "Change".toList ('\n' :: spaces 8)
    [leaf "Action" change.action.display.toList ('\n' :: spaces 8),
      recordSetElement change.recordSet ('\n' :: spaces 6)] tail

/-- The element of all changes. -/
def changesElement (changes : List Change) : Element :=
  .mk "Changes".toList ('\n' :: gap (spaces 6) (spaces 4) changes)
    (lines (spaces 6) (spaces 4) changeElement changes) ('\n' :: spaces 2)

/-- The element of the comment, where there is one. -/
def commentElements (comment : Option String) : List Element :=
  comment.toList.map fun c => leaf "Comment" (xmlEscape c).toList ('\n' :: spaces 4)

/-- The document of a batch. -/
def requestElement (comment : Option String) (changes : List Change) : Element :=
  .mk requestTag.toList ('\n' :: spaces 2)
    [.mk "ChangeBatch".toList ('\n' :: spaces 4)
      (commentElements comment ++ [changesElement changes]) ['\n']] []

omit [Externals] in
theorem write_leaf {tag : String} (h : nameOf tag.toList = tag.toList) (text tail : List Char) :
    (leaf tag text tail).write =
      '<' :: (tag.toList ++ '>' :: (text ++ '<' :: '/' :: (tag.toList ++ '>' :: tail))) := by
  rw [leaf, Element.write_mk, writeAll_nil, h]
  rfl

omit [Externals] in
/-- One address is written as its element. -/
theorem resourceRecordXml_eq (value : String) :
    (resourceRecordXml value).toList =
      spaces 12 ++ ((recordElement value []).write ++ ['\n']) := by
  have h₁ : "            <ResourceRecord>\n".toList =
      spaces 12 ++ '<' :: ("ResourceRecord".toList ++ ['>', '\n']) := by decide
  have h₂ : "                     <Value>".toList =
      spaces 21 ++ '<' :: ("Value".toList ++ ['>']) := by decide
  have h₃ : "</Value>\n".toList = '<' :: '/' :: ("Value".toList ++ ['>', '\n']) := by decide
  have h₄ : "            </ResourceRecord>\n".toList =
      spaces 12 ++ '<' :: '/' :: ("ResourceRecord".toList ++ ['>', '\n']) := by decide
  have hname : nameOf "ResourceRecord".toList = "ResourceRecord".toList := by decide
  unfold resourceRecordXml recordElement
  rw [Element.write_mk, writeAll_cons, writeAll_nil, write_leaf (by decide), hname]
  repeat rw [String.toList_append]
  rw [h₁, h₂, h₃, h₄]
  simp only [List.append_assoc, List.cons_append, List.nil_append]

omit [Externals] in
/-- The addresses are written one to a line. -/
theorem join_resourceRecordXml (values : List String) :
    (String.join (values.map resourceRecordXml)).toList ++ spaces 10 =
      gap (spaces 12) (spaces 10) values ++
        writeAll (lines (spaces 12) (spaces 10) recordElement values) := by
  rw [String.toList_join, List.flatMap_map]
  simp only [resourceRecordXml_eq]
  exact write_lines (f := recordElement) (fun value tail => Element.write_tail _ _ _ tail) values

/-- One change is written as its element. -/
theorem changeXml_eq (change : Change) :
    (changeXml change).toList = spaces 6 ++ ((changeElement change []).write ++ ['\n']) := by
  have h₁ : "      <Change>\n".toList = spaces 6 ++ '<' :: ("Change".toList ++ ['>', '\n']) := by
    decide
  have h₂ : "        <Action>".toList = spaces 8 ++ '<' :: ("Action".toList ++ ['>']) := by decide
  have h₃ : "</Action>\n".toList = '<' :: '/' :: ("Action".toList ++ ['>', '\n']) := by decide
  have h₄ : "        <ResourceRecordSet>\n".toList =
      spaces 8 ++ '<' :: ("ResourceRecordSet".toList ++ ['>', '\n']) := by decide
  have h₅ : "          <Name>".toList = spaces 10 ++ '<' :: ("Name".toList ++ ['>']) := by decide
  have h₆ : "</Name>\n".toList = '<' :: '/' :: ("Name".toList ++ ['>', '\n']) := by decide
  have h₇ : "          <Type>".toList = spaces 10 ++ '<' :: ("Type".toList ++ ['>']) := by decide
  have h₈ : "</Type>\n".toList = '<' :: '/' :: ("Type".toList ++ ['>', '\n']) := by decide
  have h₉ : "          <TTL>".toList = spaces 10 ++ '<' :: ("TTL".toList ++ ['>']) := by decide
  have h₁₀ : "</TTL>\n".toList = '<' :: '/' :: ("TTL".toList ++ ['>', '\n']) := by decide
  have h₁₁ : "          <ResourceRecords>\n".toList =
      spaces 10 ++ '<' :: ("ResourceRecords".toList ++ ['>', '\n']) := by decide
  have h₁₂ : "          </ResourceRecords>\n".toList =
      spaces 10 ++ '<' :: '/' :: ("ResourceRecords".toList ++ ['>', '\n']) := by decide
  have h₁₃ : "        </ResourceRecordSet>\n".toList =
      spaces 8 ++ '<' :: '/' :: ("ResourceRecordSet".toList ++ ['>', '\n']) := by decide
  have h₁₄ : "      </Change>\n".toList =
      spaces 6 ++ '<' :: '/' :: ("Change".toList ++ ['>', '\n']) := by decide
  have hchange : nameOf "Change".toList = "Change".toList := by decide
  have hset : nameOf "ResourceRecordSet".toList = "ResourceRecordSet".toList := by decide
  have hrecords : nameOf "ResourceRecords".toList = "ResourceRecords".toList := by decide
  have hlines := fun rest => congrArg (· ++ rest)
    (join_resourceRecordXml change.recordSet.data.values)
  simp only [List.append_assoc] at hlines
  unfold changeXml changeElement recordSetElement
  rw [Element.write_mk, hchange, writeAll_cons, writeAll_cons, writeAll_nil,
    write_leaf (by decide), Element.write_mk, hset, writeAll_cons, writeAll_cons, writeAll_cons,
    writeAll_cons, writeAll_nil, write_leaf (by decide), write_leaf (by decide),
    write_leaf (by decide), Element.write_mk, hrecords]
  dsimp only
  repeat rw [String.toList_append]
  rw [h₁, h₂, h₃, h₄, h₅, h₆, h₇, h₈, h₉, h₁₀, h₁₁, h₁₂, h₁₃, h₁₄]
  simp only [List.append_assoc, List.cons_append, List.nil_append, hlines]

/-- The changes are written one to a line. -/
theorem join_changeXml (changes : List Change) :
    (String.join (changes.map changeXml)).toList ++ spaces 4 =
      gap (spaces 6) (spaces 4) changes ++
        writeAll (lines (spaces 6) (spaces 4) changeElement changes) := by
  rw [String.toList_join, List.flatMap_map]
  simp only [changeXml_eq]
  exact write_lines (f := changeElement) (fun change tail => Element.write_tail _ _ _ tail) changes

/-- The line of the comment. -/
def commentXml : Option String → String
  | some c => "    <Comment>" ++ xmlEscape c ++ "</Comment>\n"
  | none => ""

omit [Externals] in
/-- The comment is written as its element. -/
theorem commentXml_eq (comment : Option String) :
    (commentXml comment).toList ++ spaces 4 = spaces 4 ++ writeAll (commentElements comment) := by
  cases comment with
  | none =>
    simp only [commentElements, Option.toList_none, List.map_nil, writeAll_nil, List.append_nil]
    rfl
  | some c =>
    have h₁ : "    <Comment>".toList = spaces 4 ++ '<' :: ("Comment".toList ++ ['>']) := by decide
    have h₂ : "</Comment>\n".toList = '<' :: '/' :: ("Comment".toList ++ ['>', '\n']) := by decide
    unfold commentElements commentXml
    rw [Option.toList_some, List.map_cons, List.map_nil, writeAll_cons, writeAll_nil,
      write_leaf (by decide)]
    rw [String.toList_append, String.toList_append, h₁, h₂]
    simp only [List.append_assoc, List.cons_append, List.nil_append, List.append_nil]

/-- The declaration in front of the document. -/
def declaration : String := "xml version=\"1.0\" encoding=\"UTF-8\"?"

/-- **The document is its tree, written out.** -/
theorem buildChangeXml_eq (comment : Option String) (changes : List Change) :
    (buildChangeXml comment changes).toList =
      '<' :: '?' :: (declaration.toList ++ '>' ::
        (['\n'] ++ (requestElement comment changes).write)) := by
  have h₁ : "<?xml version=\"1.0\" encoding=\"UTF-8\"?>\n".toList =
      '<' :: '?' :: (declaration.toList ++ ['>', '\n']) := by decide
  have h₂ : "<ChangeResourceRecordSetsRequest ".toList =
      '<' :: "ChangeResourceRecordSetsRequest ".toList := by decide
  have h₃ : "xmlns=\"https://route53.amazonaws.com/doc/2013-04-01/\">\n".toList =
      "xmlns=\"https://route53.amazonaws.com/doc/2013-04-01/\"".toList ++ ['>', '\n'] := by decide
  have h₄ : "  <ChangeBatch>\n".toList = spaces 2 ++ '<' :: ("ChangeBatch".toList ++ ['>', '\n']) := by
    decide
  have h₅ : "    <Changes>\n".toList = spaces 4 ++ '<' :: ("Changes".toList ++ ['>', '\n']) := by
    decide
  have h₆ : "    </Changes>\n".toList =
      spaces 4 ++ '<' :: '/' :: ("Changes".toList ++ ['>', '\n']) := by decide
  have h₇ : "  </ChangeBatch>\n".toList =
      spaces 2 ++ '<' :: '/' :: ("ChangeBatch".toList ++ ['>', '\n']) := by decide
  have h₈ : "</ChangeResourceRecordSetsRequest>".toList =
      '<' :: '/' :: ("ChangeResourceRecordSetsRequest".toList ++ ['>']) := by decide
  have htag : requestTag.toList = "ChangeResourceRecordSetsRequest ".toList ++
      "xmlns=\"https://route53.amazonaws.com/doc/2013-04-01/\"".toList := by decide
  have hrequest : nameOf requestTag.toList = "ChangeResourceRecordSetsRequest".toList := by decide
  have hbatch : nameOf "ChangeBatch".toList = "ChangeBatch".toList := by decide
  have hchanges : nameOf "Changes".toList = "Changes".toList := by decide
  have hcomment := fun rest => congrArg (· ++ rest) (commentXml_eq comment)
  have hlines := fun rest => congrArg (· ++ rest) (join_changeXml changes)
  simp only [List.append_assoc] at hcomment hlines
  have hparts : buildChangeXml comment changes = "<?xml version=\"1.0\" encoding=\"UTF-8\"?>\n" ++
      "<ChangeResourceRecordSetsRequest " ++
      "xmlns=\"https://route53.amazonaws.com/doc/2013-04-01/\">\n" ++ "  <ChangeBatch>\n" ++
      commentXml comment ++ "    <Changes>\n" ++ String.join (changes.map changeXml) ++
      "    </Changes>\n" ++ "  </ChangeBatch>\n" ++ "</ChangeResourceRecordSetsRequest>" := rfl
  rw [hparts]
  unfold requestElement changesElement
  rw [Element.write_mk, hrequest, writeAll_cons, writeAll_nil, Element.write_mk, hbatch,
    writeAll_append, writeAll_cons, writeAll_nil, Element.write_mk, hchanges, htag]
  repeat rw [String.toList_append]
  rw [h₁, h₂, h₃, h₄, h₅, h₆, h₇, h₈]
  simp only [List.append_assoc, List.cons_append, List.nil_append, List.append_nil, hcomment,
    hlines]

/-! ## What the reader finds -/

/-- **What `std` documents of the text of an address**: it reads back,
and it is made of digits and separators. -/
structure AddressTexts : Prop where
  v4_read : ∀ a, ipv4FromStr (ipv4Display a) = some a
  v4_chars : ∀ a, ∀ c ∈ (ipv4Display a).toList, c.isDigit = true ∨ c = '.'
  v6_read : ∀ a, ipv6FromStr (ipv6Display a) = some a
  v6_chars : ∀ a, ∀ c ∈ (ipv6Display a).toList,
    c.isDigit = true ∨ ('a' ≤ c ∧ c ≤ 'f') ∨ c = ':' ∨ c = '.'

/-- None of these is markup. -/
theorem AddressTexts.plain (h : AddressTexts) {d : RecordData} {value : String}
    (hvalue : value ∈ d.values) : '<' ∉ value.toList ∧ '&' ∉ value.toList := by
  have hchars : ∀ c ∈ value.toList,
      c.isDigit = true ∨ ('a' ≤ c ∧ c ≤ 'f') ∨ c = ':' ∨ c = '.' := by
    intro c hc
    cases d with
    | a addrs =>
      obtain ⟨a, -, rfl⟩ := List.mem_map.mp hvalue
      rcases h.v4_chars a c hc with hdigit | hdot
      · exact Or.inl hdigit
      · exact Or.inr (Or.inr (Or.inr hdot))
    | aaaa addrs =>
      obtain ⟨a, -, rfl⟩ := List.mem_map.mp hvalue
      exact h.v6_chars a c hc
  exact ⟨fun hmem => absurd (hchars _ hmem) (by decide),
    fun hmem => absurd (hchars _ hmem) (by decide)⟩

omit [Externals] in
theorem wf_leaf {tag : String} {text tail : List Char} (htag : IsTag tag.toList)
    (htext : '<' ∉ text) (htail : '<' ∉ tail) : (leaf tag text tail).Wf :=
  .mk htag htext htail (by simp)

omit [Externals] in
theorem not_mem_spaces (n : ℕ) : '<' ∉ spaces n := fun h =>
  absurd (List.eq_of_mem_replicate h) (by decide)

omit [Externals] in
theorem not_mem_indent (n : ℕ) : '<' ∉ '\n' :: spaces n := by
  simp [not_mem_spaces]

omit [Externals] in
theorem not_mem_gap {α : Type} (n m : ℕ) (xs : List α) : '<' ∉ gap (spaces n) (spaces m) xs := by
  cases xs with
  | nil => exact not_mem_spaces m
  | cons x xs => exact not_mem_spaces n

omit [Externals] in
/-- A numeral is digits. -/
theorem isDigit_of_mem_toString {n : ℕ} {c : Char} (h : c ∈ (toString n).toList) :
    c.isDigit = true := by
  have hdigits : (toString n).toList = Nat.toDigits 10 n := String.toList_ofList
  rw [hdigits] at h
  exact Nat.isDigit_of_mem_toDigits (by decide) (by decide) h

/-- A record set has a tree that can be written. -/
theorem wf_recordSetElement (h : AddressTexts) (rrs : ResourceRecordSet) {tail : List Char}
    (htail : '<' ∉ tail) : (recordSetElement rrs tail).Wf := by
  have hrecord : ∀ e ∈ lines (spaces 12) (spaces 10) recordElement rrs.data.values, e.Wf := by
    intro e he
    obtain ⟨value, hvalue, tail, htail, rfl⟩ := mem_lines he
    have hplain : '<' ∉ tail := by
      rcases htail with rfl | rfl
      · exact not_mem_indent 12
      · exact not_mem_indent 10
    refine .mk (by decide) (not_mem_indent 21) hplain ?_
    intro e he
    obtain rfl := List.mem_singleton.mp he
    exact wf_leaf (by decide) (h.plain hvalue).1 (not_mem_indent 12)
  refine .mk (by decide) (not_mem_indent 10) htail ?_
  intro e he
  simp only [List.mem_cons, List.not_mem_nil, or_false] at he
  rcases he with rfl | rfl | rfl | rfl
  · exact wf_leaf (by decide) (not_mem_xmlEscape _) (not_mem_indent 10)
  · refine wf_leaf (by decide) ?_ (not_mem_indent 10)
    cases rrs.data.recordType <;> decide
  · refine wf_leaf (by decide) (fun hmem => ?_) (not_mem_indent 10)
    exact absurd (isDigit_of_mem_toString hmem) (by decide)
  · refine .mk (by decide) ?_ (not_mem_indent 8) hrecord
    simp [not_mem_gap]

/-- So has a change. -/
theorem wf_changeElement (h : AddressTexts) (change : Change) {tail : List Char}
    (htail : '<' ∉ tail) : (changeElement change tail).Wf := by
  refine .mk (by decide) (not_mem_indent 8) htail ?_
  intro e he
  simp only [List.mem_cons, List.not_mem_nil, or_false] at he
  rcases he with rfl | rfl
  · refine wf_leaf (by decide) ?_ (not_mem_indent 8)
    cases change.action
    decide
  · exact wf_recordSetElement h change.recordSet (not_mem_indent 6)

/-- And so has a batch. -/
theorem wf_requestElement (h : AddressTexts) (comment : Option String) (changes : List Change) :
    (requestElement comment changes).Wf := by
  have hchanges : (changesElement changes).Wf := by
    refine .mk (by decide) (by simp [not_mem_gap]) (not_mem_indent 2) ?_
    intro e he
    obtain ⟨change, -, tail, htail, rfl⟩ := mem_lines he
    refine wf_changeElement h change ?_
    rcases htail with rfl | rfl
    · exact not_mem_indent 6
    · exact not_mem_indent 4
  refine .mk (by decide) (not_mem_indent 2) List.not_mem_nil ?_
  intro e he
  obtain rfl := List.mem_singleton.mp he
  refine .mk (by decide) (not_mem_indent 4) (by decide) ?_
  intro e he
  rcases List.mem_append.mp he with he | he
  · obtain ⟨c, -, rfl⟩ := List.mem_map.mp he
    exact wf_leaf (by decide) (not_mem_xmlEscape _) (not_mem_indent 4)
  · obtain rfl := List.mem_singleton.mp he
    exact hchanges

/-- **The reader finds the tree.** -/
theorem parse_buildChangeXml (h : AddressTexts) (comment : Option String) (changes : List Change) :
    parse (buildChangeXml comment changes).toList = some [requestElement comment changes] := by
  rw [buildChangeXml_eq]
  exact parse_write (wf_requestElement h comment changes) ⟨by decide, by decide⟩ (by decide)

/-! ## Decoding -/

/-- The action a text names. -/
def readAction (text : List Char) : Option ChangeAction :=
  if text = "UPSERT".toList then some .upsert else none

/-- A number of seconds below `2 ^ 32`. -/
def readTtl (text : List Char) : Option UInt32 :=
  if text.isEmpty = false ∧ text.all Char.isDigit = true ∧ Nat.ofDigitChars 10 text 0 < 2 ^ 32 then
    some (UInt32.ofNat (Nat.ofDigitChars 10 text 0))
  else none

/-- The addresses of a type. -/
def readData (type : List Char) (values : List (List Char)) : Option RecordData :=
  if type = "A".toList then
    (values.mapM fun value => ipv4FromStr (String.ofList value)).map .a
  else if type = "AAAA".toList then
    (values.mapM fun value => ipv6FromStr (String.ofList value)).map .aaaa
  else none

/-- The text of one address. -/
def readRecord (e : Element) : Option (List Char) := do
  match ← e.node? "ResourceRecord".toList with
  | [value] => value.leaf? "Value".toList
  | _ => none

/-- A record set. -/
def readRecordSet (e : Element) : Option ResourceRecordSet := do
  match ← e.node? "ResourceRecordSet".toList with
  | [name, type, ttl, records] =>
    let name ← name.leaf? "Name".toList
    let type ← type.leaf? "Type".toList
    let ttl ← readTtl (← ttl.leaf? "TTL".toList)
    let records ← records.node? "ResourceRecords".toList
    let data ← readData type (← records.mapM readRecord)
    return { name := String.ofList name, ttl, data }
  | _ => none

/-- A change. -/
def readChange (e : Element) : Option Change := do
  match ← e.node? "Change".toList with
  | [action, recordSet] =>
    let action ← readAction (← action.leaf? "Action".toList)
    let recordSet ← readRecordSet recordSet
    return { action, recordSet }
  | _ => none

/-- All changes, in order. -/
def readChanges (e : Element) : Option (List Change) := do
  (← e.node? "Changes".toList).mapM readChange

/-- **Decode a request document**: the comment, if there is one, and the
changes. Anything else in it is refused. -/
def decodeChangeXml (xml : String) : Option (Option String × List Change) := do
  match ← parse xml.toList with
  | [request] =>
    match ← request.node? requestTag.toList with
    | [batch] =>
      match ← batch.node? "ChangeBatch".toList with
      | [changes] => return (none, ← readChanges changes)
      | [comment, changes] =>
        let comment ← comment.leaf? "Comment".toList
        return (some (String.ofList comment), ← readChanges changes)
      | _ => none
    | _ => none
  | _ => none

/-! ## Reading the tree -/

omit [Externals] in
theorem readAction_display (action : ChangeAction) :
    readAction action.display.toList = some action := by
  cases action
  exact if_pos rfl

omit [Externals] in
/-- A written number of seconds reads back. -/
theorem readTtl_toString (ttl : UInt32) : readTtl (toString ttl.toNat).toList = some ttl := by
  have hdigits : (toString ttl.toNat).toList = Nat.toDigits 10 ttl.toNat := String.toList_ofList
  have hread : Nat.ofDigitChars 10 (toString ttl.toNat).toList 0 = ttl.toNat := by
    rw [hdigits, Nat.ofDigitChars_ten_toDigits]
  have hne : (toString ttl.toNat).toList.isEmpty = false := by
    rw [hdigits]
    exact List.isEmpty_eq_false_iff.mpr Nat.toDigits_ne_nil
  have hall : (toString ttl.toNat).toList.all Char.isDigit = true :=
    List.all_eq_true.mpr fun c hc => isDigit_of_mem_toString hc
  unfold readTtl
  rw [hread, if_pos ⟨hne, hall, ttl.toNat_lt⟩, UInt32.ofNat_toNat]

/-- The addresses read back from their texts. -/
theorem readData_values (h : AddressTexts) (d : RecordData) :
    readData d.recordType.display.toList (d.values.map String.toList) = some d := by
  cases d with
  | a addrs =>
    have hread : ((addrs.map ipv4Display).map String.toList).mapM
        (fun value => ipv4FromStr (String.ofList value)) = some addrs := by
      rw [List.map_map]
      exact Text.mapM_map_eq_some (fun a => by simp [h.v4_read]) addrs
    have hvalues : (RecordData.a addrs).values = addrs.map ipv4Display := rfl
    have htype : (RecordData.a addrs).recordType.display.toList = "A".toList := rfl
    rw [readData, if_pos htype, hvalues, hread]
    rfl
  | aaaa addrs =>
    have hread : ((addrs.map ipv6Display).map String.toList).mapM
        (fun value => ipv6FromStr (String.ofList value)) = some addrs := by
      rw [List.map_map]
      exact Text.mapM_map_eq_some (fun a => by simp [h.v6_read]) addrs
    have hvalues : (RecordData.aaaa addrs).values = addrs.map ipv6Display := rfl
    have htype : (RecordData.aaaa addrs).recordType.display.toList = "AAAA".toList := rfl
    have hne : ¬ "AAAA".toList = "A".toList := by decide
    rw [readData, htype, if_neg hne, if_pos rfl, hvalues, hread]
    rfl

omit [Externals] in
theorem blank_spaces (n : ℕ) : blank (spaces n) = true :=
  List.all_eq_true.mpr fun c hc => by
    rw [List.eq_of_mem_replicate hc]
    rfl

omit [Externals] in
theorem blank_indent (n : ℕ) : blank ('\n' :: spaces n) = true := blank_spaces n

omit [Externals] in
/-- One address reads back. -/
theorem readRecord_recordElement {value : String} (h : '&' ∉ value.toList) (tail : List Char) :
    readRecord (recordElement value tail) = some value.toList := by
  have hnode : (recordElement value tail).node? "ResourceRecord".toList =
      some [leaf "Value" value.toList ('\n' :: spaces 12)] := by
    refine Element.node?_mk (blank_indent 21) fun e he => ?_
    obtain rfl := List.mem_singleton.mp he
    exact blank_indent 12
  rw [readRecord, hnode, Option.bind_eq_bind, Option.bind_some]
  dsimp only
  rw [leaf, Element.leaf?_mk, unescape_of_not_mem h]

/-- A record set reads back. -/
theorem readRecordSet_recordSetElement (h : AddressTexts) (rrs : ResourceRecordSet)
    (tail : List Char) : readRecordSet (recordSetElement rrs tail) = some rrs := by
  have hset : (recordSetElement rrs tail).node? "ResourceRecordSet".toList =
      some (recordSetElement rrs tail).children := by
    refine Element.node?_mk (blank_indent 10) fun e he => ?_
    simp only [List.mem_cons, List.not_mem_nil, or_false] at he
    rcases he with rfl | rfl | rfl | rfl
    · exact blank_indent 10
    · exact blank_indent 10
    · exact blank_indent 10
    · exact blank_indent 8
  have hrecords : ∀ tail, (Element.mk "ResourceRecords".toList
      ('\n' :: gap (spaces 12) (spaces 10) rrs.data.values)
      (lines (spaces 12) (spaces 10) recordElement rrs.data.values) tail).node?
        "ResourceRecords".toList =
      some (lines (spaces 12) (spaces 10) recordElement rrs.data.values) := fun tail =>
    Element.node?_mk (blank_gap (blank_spaces 12) (blank_spaces 10) _)
      (blank_lines (fun _ _ => rfl) (blank_spaces 12) (blank_spaces 10))
  have hlines : (lines (spaces 12) (spaces 10) recordElement rrs.data.values).mapM readRecord =
      some (rrs.data.values.map String.toList) :=
    mapM_lines fun value hvalue => readRecord_recordElement (h.plain hvalue).2
  have htype : unescape rrs.data.recordType.display.toList =
      some rrs.data.recordType.display.toList := by
    cases rrs.data.recordType <;> rfl
  have httl : unescape (toString rrs.ttl.toNat).toList = some (toString rrs.ttl.toNat).toList :=
    unescape_of_not_mem fun hmem => absurd (isDigit_of_mem_toString hmem) (by decide)
  rw [readRecordSet, hset]
  simp only [recordSetElement, Element.children, leaf, Element.leaf?_mk, unescape_xmlEscape, htype,
    httl, readTtl_toString, hrecords, hlines, readData_values h, Option.bind_eq_bind,
    Option.bind_some, String.ofList_toList, Option.pure_def]

/-- A change reads back. -/
theorem readChange_changeElement (h : AddressTexts) (change : Change) (tail : List Char) :
    readChange (changeElement change tail) = some change := by
  have hchange : (changeElement change tail).node? "Change".toList =
      some (changeElement change tail).children := by
    refine Element.node?_mk (blank_indent 8) fun e he => ?_
    simp only [List.mem_cons, List.not_mem_nil, or_false] at he
    rcases he with rfl | rfl
    · exact blank_indent 8
    · exact blank_indent 6
  have haction : unescape change.action.display.toList = some change.action.display.toList := by
    cases change.action
    rfl
  rw [readChange, hchange]
  simp only [changeElement, Element.children, leaf, Element.leaf?_mk, haction, readAction_display,
    readRecordSet_recordSetElement h, Option.bind_eq_bind, Option.bind_some, Option.pure_def]

/-- All changes read back, in order. -/
theorem readChanges_changesElement (h : AddressTexts) (changes : List Change) :
    readChanges (changesElement changes) = some changes := by
  have hnode : (changesElement changes).node? "Changes".toList =
      some (lines (spaces 6) (spaces 4) changeElement changes) :=
    Element.node?_mk (blank_gap (blank_spaces 6) (blank_spaces 4) _)
      (blank_lines (fun _ _ => rfl) (blank_spaces 6) (blank_spaces 4))
  have hlines : (lines (spaces 6) (spaces 4) changeElement changes).mapM readChange =
      some (changes.map id) := mapM_lines fun change _ => readChange_changeElement h change
  rw [readChanges, hnode, Option.bind_eq_bind, Option.bind_some, hlines, List.map_id]

/-- **The document says what was decided.** For every comment and every
list of changes, whatever characters their names have, the reference
reader finds in the document the comment and these changes, in order,
each with its action, name, type, seconds and addresses, and it finds
nothing else. -/
theorem decode_buildChangeXml (h : AddressTexts) (comment : Option String)
    (changes : List Change) :
    decodeChangeXml (buildChangeXml comment changes) = some (comment, changes) := by
  have hrequest : (requestElement comment changes).node? requestTag.toList =
      some (requestElement comment changes).children := by
    refine Element.node?_mk (blank_indent 2) fun e he => ?_
    obtain rfl := List.mem_singleton.mp he
    rfl
  have hbatch : ∀ tail, (Element.mk "ChangeBatch".toList ('\n' :: spaces 4)
      (commentElements comment ++ [changesElement changes]) tail).node? "ChangeBatch".toList =
      some (commentElements comment ++ [changesElement changes]) := by
    intro tail
    refine Element.node?_mk (blank_indent 4) fun e he => ?_
    rcases List.mem_append.mp he with he | he
    · obtain ⟨c, -, rfl⟩ := List.mem_map.mp he
      exact blank_indent 4
    · obtain rfl := List.mem_singleton.mp he
      exact blank_indent 2
  rw [decodeChangeXml, parse_buildChangeXml h, Option.bind_eq_bind, Option.bind_some]
  dsimp only
  rw [hrequest, Option.bind_some]
  simp only [requestElement, Element.children, hbatch, Option.bind_some]
  cases comment with
  | none =>
    simp only [commentElements, Option.toList_none, List.map_nil, List.nil_append,
      readChanges_changesElement h, Option.bind_eq_bind, Option.bind_some, Option.pure_def]
  | some c =>
    simp only [commentElements, Option.toList_some, List.map_cons, List.map_nil, List.cons_append,
      List.nil_append, leaf, Element.leaf?_mk, unescape_xmlEscape, readChanges_changesElement h,
      Option.bind_eq_bind, Option.bind_some, Option.pure_def, String.ofList_toList]

end

namespace Sample

/-- The sample texts of addresses are as documented. -/
theorem addressTexts : @AddressTexts externals := by
  let := externals
  refine ⟨ofDotted?_dotted, fun a c hc => ?_, ofColons?_colons, fun a c hc => ?_⟩
  · have hchars : c ∈ (dotted a).toList := hc
    rw [dotted, String.toList_ofList] at hchars
    rcases Lists.mem_intercalate hchars with hdot | ⟨word, hword, hmem⟩
    · exact Or.inr hdot
    · obtain ⟨b, -, rfl⟩ := List.mem_map.mp hword
      exact Or.inl (isDigit_of_mem_toString hmem)
  · have hchars : c ∈ (colons a).toList := hc
    rw [colons, String.toList_ofList] at hchars
    have hdigit : ∀ m : Fin 16, (Char.ofNat (Text.hexDigit m)).isDigit = true ∨
        ('a' ≤ Char.ofNat (Text.hexDigit m) ∧ Char.ofNat (Text.hexDigit m) ≤ 'f') := by decide
    rcases Lists.mem_intercalate hchars with hcolon | ⟨word, hword, hmem⟩
    · exact Or.inr (Or.inr (Or.inl hcolon))
    · obtain ⟨group, -, rfl⟩ := List.mem_map.mp hword
      obtain ⟨b, -, hpair⟩ := List.mem_flatMap.mp hmem
      have hlt := b.toNat_lt
      -- one of the two digits of a byte
      obtain ⟨m, rfl⟩ : ∃ m : Fin 16, c = Char.ofNat (Text.hexDigit m) := by
        simp only [Text.hexPair, List.mem_cons, List.not_mem_nil, or_false] at hpair
        rcases hpair with rfl | rfl
        · exact ⟨⟨b.toNat / 16, by omega⟩, rfl⟩
        · exact ⟨⟨b.toNat % 16, by omega⟩, rfl⟩
      rcases hdigit m with hm | hm
      · exact Or.inl hm
      · exact Or.inr (Or.inl hm)

/-- Changes with markup in their names. -/
def markedChanges : List Change :=
  [⟨.upsert, ⟨"a&amp;<b>.example\n", 60, .a [address, address]⟩⟩,
    ⟨.upsert, ⟨"</Name></ResourceRecordSet></Change><Change><Action>DELETE</Action>", 0, .aaaa []⟩⟩]

end Sample

/-- A comment and names full of markup come back as they were. -/
theorem decode_buildChangeXml_marked :
    letI := Sample.externals
    decodeChangeXml (buildChangeXml (some " </Comment>&lt; \"' ") Sample.markedChanges) =
      some (some " </Comment>&lt; \"' ", Sample.markedChanges) := by
  let := Sample.externals
  exact decode_buildChangeXml Sample.addressTexts _ _

end DynDynser
