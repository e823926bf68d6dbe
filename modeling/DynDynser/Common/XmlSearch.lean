import DynDynser.Common.Xml
import Mathlib.Data.List.TakeWhile
/-!
# Looking for an element by its start tag

A reader of a document takes the name of an element for what stands before
its attributes, and its text with the line ends made one and the entities
undone (`first?`, `Element.content?`). What looks for a start tag without
attributes reads the markup from the front, and stops at the first that is
written so (`marks_tokens`): nothing else is written like a start tag.
Where the first element of the name is bare the two come to the same text
(`tagged?_eq_first?`, `Bare.content?_eq`).
-/

namespace Xml

mutual

/-- An element and all inside it, in the order of their start tags. -/
def Element.all : Element → List Element
  | .mk tag text children tail => .mk tag text children tail :: allOf children

/-- The elements of a row and all inside them. -/
def allOf : List Element → List Element
  | [] => []
  | e :: es => e.all ++ allOf es

end

/-- The first of some elements with that name, whatever its attributes. -/
def first? (name : List Char) (es : List Element) : Option Element :=
  es.find? fun e => nameOf e.tag = name

/-- The first of some elements whose start tag is that and nothing else. -/
def tagged? (tag : List Char) (es : List Element) : Option Element := es.find? fun e => e.tag = tag

/-- A tag that is a name and nothing else. -/
def IsName (tag : List Char) : Prop :=
  opens tag = true ∧ ∀ c ∈ tag, c ≠ '<' ∧ c ≠ '>' ∧ isSpace c = false

instance (tag : List Char) : Decidable (IsName tag) :=
  decidable_of_iff (opens tag = true ∧
      (tag.all fun c => c != '<' && c != '>' && !isSpace c) = true)
    (by simp [IsName, and_assoc])

theorem IsName.ne_close {tag : List Char} (h : IsName tag) (cs : List Char) : '/' :: cs ≠ tag := by
  rintro rfl
  have hopens := h.1
  simp [opens] at hopens

theorem IsName.nameOf_eq {tag : List Char} (h : IsName tag) : nameOf tag = tag :=
  List.takeWhile_eq_self_iff.mpr fun c hc => by simp [(h.2 c hc).2.2]

theorem IsName.not_mem {tag : List Char} (h : IsName tag) : '<' ∉ tag ∧ '>' ∉ tag :=
  ⟨fun hmem => (h.2 _ hmem).1 rfl, fun hmem => (h.2 _ hmem).2.1 rfl⟩

/-- **Markup that marks elements**: where it first has the tag, the first
element of that tag is written, and it has the tag nowhere if none of them
does. -/
inductive Marks (tag : List Char) (es : List Element) (ts : List Token) : Prop where
  | absent : tagged? tag es = none → (∀ t ∈ ts, t.1 ≠ tag) → Marks tag es ts
  | found (e : Element) (before after : List Token) : tagged? tag es = some e →
      ts = before ++ (e.tokens ++ after) → (∀ t ∈ before, t.1 ≠ tag) → Marks tag es ts

theorem Marks.append {tag : List Char} {es es' : List Element} {ts ts' : List Token}
    (h : Marks tag es ts) (h' : Marks tag es' ts') : Marks tag (es ++ es') (ts ++ ts') := by
  cases h with
  | absent hnone hts =>
    have hrest : tagged? tag (es ++ es') = tagged? tag es' := by
      rw [tagged?, List.find?_append, ← tagged?, hnone]
      rfl
    cases h' with
    | absent hnone' hts' =>
      refine .absent (hrest.trans hnone') fun t ht => ?_
      exact (List.mem_append.mp ht).elim (hts t) (hts' t)
    | found e before after hsome heq hbefore =>
      refine .found e (ts ++ before) after (hrest.trans hsome) ?_ fun t ht => ?_
      · rw [heq, List.append_assoc]
      · exact (List.mem_append.mp ht).elim (hts t) (hbefore t)
  | found e before after hsome heq hbefore =>
    refine .found e before (after ++ ts') ?_ ?_ hbefore
    · rw [tagged?, List.find?_append, ← tagged?, hsome]
      rfl
    · rw [heq]
      simp

/-- A row is marked by its markup if each of its elements is. -/
theorem marks_row {tag : List Char} {es : List Element} (h : ∀ e ∈ es, Marks tag e.all e.tokens) :
    Marks tag (allOf es) (tokensOf es) := by
  induction es with
  | nil => exact .absent rfl fun t ht => absurd ht List.not_mem_nil
  | cons e es ih =>
    rw [allOf, tokensOf]
    exact (h e List.mem_cons_self).append (ih fun e' he' => h e' (List.mem_cons_of_mem _ he'))

/-- **An element is marked by its markup.** -/
theorem marks_tokens {tag : List Char} (htag : IsName tag) (e : Element) :
    Marks tag e.all e.tokens := by
  induction e using Element.induction with
  | mk t text children tail ih =>
    by_cases heq : t = tag
    · refine .found (.mk t text children tail) [] [] ?_ ?_ fun t ht => absurd ht List.not_mem_nil
      · rw [Element.all, tagged?, List.find?_cons_of_pos (by simp [Element.tag, heq])]
      · simp
    · have hstart : Marks tag [.mk t text children tail] [(t, text)] :=
        .absent (by simp [tagged?, Element.tag, heq]) fun u hu => by
          rw [List.mem_singleton.mp hu]
          exact heq
      have hend : Marks tag [] [('/' :: nameOf t, tail)] := .absent rfl fun u hu => by
        rw [List.mem_singleton.mp hu]
        exact htag.ne_close _
      have hinside := hstart.append ((marks_row ih).append hend)
      rwa [List.append_nil, List.singleton_append] at hinside

/-! ## Bare elements -/

/-- A text with its line ends made one, as a reader does before all else. -/
def lineEnds : List Char → List Char
  | [] => []
  | '\r' :: '\n' :: cs => '\n' :: lineEnds cs
  | '\r' :: cs => '\n' :: lineEnds cs
  | c :: cs => c :: lineEnds cs

theorem lineEnds_of_not_mem {cs : List Char} (h : '\r' ∉ cs) : lineEnds cs = cs := by
  induction cs with
  | nil => rfl
  | cons c cs ih =>
    have hc : c ≠ '\r' := fun heq => h (heq ▸ List.mem_cons_self)
    rw [lineEnds, ih fun hmem => h (List.mem_cons_of_mem _ hmem)]
    · intro _ heq
      exact absurd heq hc
    · intro heq
      exact absurd heq hc

/-- What an element says that holds text only. -/
def Element.content? (e : Element) : Option (List Char) :=
  if e.children.isEmpty = true then unescape (lineEnds e.text) else none

/-- **A bare element**: no attributes and no blanks in its start tag,
nothing but text inside, and in that neither references nor carriage
returns. -/
structure Bare (name : List Char) (e : Element) : Prop where
  tag : e.tag = name
  children : e.children = []
  text : '&' ∉ e.text ∧ '\r' ∉ e.text

instance (name : List Char) (e : Element) : Decidable (Bare name e) :=
  decidable_of_iff (e.tag = name ∧ e.children.isEmpty = true ∧ '&' ∉ e.text ∧ '\r' ∉ e.text)
    ⟨fun h => ⟨h.1, List.isEmpty_iff.mp h.2.1, h.2.2⟩,
      fun h => ⟨h.tag, List.isEmpty_iff.mpr h.children, h.text⟩⟩

/-- What a bare element says stands there as it is. -/
theorem Bare.content?_eq {name : List Char} {e : Element} (h : Bare name e) :
    e.content? = some e.text := by
  rw [Element.content?, if_pos (List.isEmpty_iff.mpr h.children), lineEnds_of_not_mem h.text.2,
    unescape_of_not_mem h.text.1]

/-- **The start tag finds the element**, where the first one of the name is
bare. -/
theorem tagged?_eq_first? {name : List Char} (hname : IsName name) {es : List Element}
    (h : ∀ e, first? name es = some e → e.tag = name) : tagged? name es = first? name es := by
  induction es with
  | nil => rfl
  | cons e es ih =>
    by_cases he : nameOf e.tag = name
    · have hfirst : first? name (e :: es) = some e :=
        List.find?_cons_of_pos (decide_eq_true he)
      rw [hfirst, tagged?]
      exact List.find?_cons_of_pos (by simpa using h e hfirst)
    · have hfirst : first? name (e :: es) = first? name es :=
        List.find?_cons_of_neg (by simpa using he)
      have hne : ¬ e.tag = name := fun heq => he (by rw [heq, hname.nameOf_eq])
      rw [hfirst, ← ih fun d hd => h d (hfirst.trans hd)]
      exact List.find?_cons_of_neg (by simpa using hne)

end Xml
