import Mathlib.Data.Nat.Digits.Lemmas
/-!
# A reference reader of XML

A text is split at its markup, and the tags are nested into elements. An
element keeps the text before its first child and the text after its end
tag, both as they stand; `unescape` undoes the five predefined entities
in a text. Processing instructions are passed over, and what else is no
start tag or end tag (comments, sections, empty-element tags) is refused.

`parse_write` is the law: a written element reads back as itself.
-/

namespace Xml

/-! ## Texts -/

/-- White space between elements. -/
def isSpace (c : Char) : Bool := c == ' ' || c == '\t' || c == '\n' || c == '\r'

/-- Is the text white space and nothing else? -/
def blank (text : List Char) : Bool := text.all isSpace

/-- A text with its entities undone. An ampersand that begins none of the
five is refused. -/
def unescape : List Char → Option (List Char)
  | [] => some []
  | '&' :: 'a' :: 'm' :: 'p' :: ';' :: cs => (unescape cs).map ('&' :: ·)
  | '&' :: 'l' :: 't' :: ';' :: cs => (unescape cs).map ('<' :: ·)
  | '&' :: 'g' :: 't' :: ';' :: cs => (unescape cs).map ('>' :: ·)
  | '&' :: 'q' :: 'u' :: 'o' :: 't' :: ';' :: cs => (unescape cs).map ('"' :: ·)
  | '&' :: 'a' :: 'p' :: 'o' :: 's' :: ';' :: cs => (unescape cs).map ('\'' :: ·)
  | '&' :: _ => none
  | c :: cs => (unescape cs).map (c :: ·)

theorem unescape_cons {c : Char} (h : c ≠ '&') (cs : List Char) :
    unescape (c :: cs) = (unescape cs).map (c :: ·) := by
  rw [unescape] <;> simp [h]

/-- A text without ampersands stands for itself. -/
theorem unescape_of_not_mem {cs : List Char} (h : '&' ∉ cs) : unescape cs = some cs := by
  induction cs with
  | nil => rfl
  | cons c cs ih =>
    have hc : c ≠ '&' := fun heq => h (heq ▸ List.mem_cons_self)
    rw [unescape_cons hc, ih fun hmem => h (List.mem_cons_of_mem _ hmem)]
    rfl

/-! ## Markup -/

/-- A piece of markup, and the text after it. -/
abbrev Token : Type := List Char × List Char

/-- Markup between its brackets, each followed by its text. -/
def writeTokens (ts : List Token) : List Char := ts.flatMap fun t => '<' :: (t.1 ++ '>' :: t.2)

@[simp] theorem writeTokens_append (ts ts' : List Token) :
    writeTokens (ts ++ ts') = writeTokens ts ++ writeTokens ts' := List.flatMap_append

/-- What follows an opening bracket. -/
def token (piece : List Char) : Option Token :=
  match piece.dropWhile (· ≠ '>') with
  | [] => none
  | _ :: text => some (piece.takeWhile (· ≠ '>'), text)

/-- **Split a text at its markup**: the text in front of it, and the
markup in order. -/
def split (cs : List Char) : Option (List Char × List Token) :=
  match cs.splitOn '<' with
  | [] => none
  | text :: pieces => (pieces.mapM token).map (text, ·)

/-- A token that can be split off: no bracket inside the markup, and no
opening one in the text. -/
structure Token.Wf (t : Token) : Prop where
  markup : '<' ∉ t.1 ∧ '>' ∉ t.1
  text : '<' ∉ t.2

instance (t : Token) : Decidable t.Wf :=
  decidable_of_iff ((('<' ∉ t.1) ∧ '>' ∉ t.1) ∧ '<' ∉ t.2)
    ⟨fun h => ⟨h.1, h.2⟩, fun h => ⟨h.markup, h.text⟩⟩

theorem token_write {t : Token} (h : '>' ∉ t.1) : token (t.1 ++ '>' :: t.2) = some t := by
  have hpos : ∀ c ∈ t.1, decide (c ≠ '>') = true := fun c hc =>
    decide_eq_true fun heq => h (heq ▸ hc)
  have hdrop : (t.1 ++ '>' :: t.2).dropWhile (· ≠ '>') = '>' :: t.2 := by
    rw [List.dropWhile_append_of_pos hpos]
    rfl
  have htake : (t.1 ++ '>' :: t.2).takeWhile (· ≠ '>') = t.1 := by
    rw [List.takeWhile_append_of_pos hpos, List.takeWhile_cons_of_neg (by decide), List.append_nil]
  unfold token
  rw [hdrop, htake]

/-- The pieces between the opening brackets. -/
theorem splitOn_writeTokens {ts : List Token} (h : ∀ t ∈ ts, t.Wf) :
    ∀ text, '<' ∉ text → (text ++ writeTokens ts).splitOn '<' =
      text :: ts.map fun t => t.1 ++ '>' :: t.2 := by
  induction ts with
  | nil =>
    intro text htext
    have hnil : writeTokens [] = [] := rfl
    rw [hnil, List.append_nil, List.splitOn_eq_singleton htext]
    rfl
  | cons t ts ih =>
    intro text htext
    have ht := h t List.mem_cons_self
    have hpiece : '<' ∉ t.1 ++ '>' :: t.2 := by
      simp [ht.markup.1, ht.text]
    have hcons : writeTokens (t :: ts) = '<' :: ((t.1 ++ '>' :: t.2) ++ writeTokens ts) := rfl
    rw [hcons, List.splitOn_append_cons_self_of_not_mem htext,
      ih (fun u hu => h u (List.mem_cons_of_mem _ hu)) _ hpiece, List.map_cons]

/-- **Written markup splits into what was written.** -/
theorem split_writeTokens {ts : List Token} (h : ∀ t ∈ ts, t.Wf) {text : List Char}
    (htext : '<' ∉ text) : split (text ++ writeTokens ts) = some (text, ts) := by
  have hread : (ts.map fun t => t.1 ++ '>' :: t.2).mapM token = some ts := by
    induction ts with
    | nil => rfl
    | cons t ts ih =>
      rw [List.map_cons, List.mapM_cons, token_write (h t List.mem_cons_self).markup.2,
        ih fun u hu => h u (List.mem_cons_of_mem _ hu)]
      rfl
  unfold split
  rw [splitOn_writeTokens h text htext]
  dsimp only
  rw [hread]
  rfl

/-! ## Elements -/

/-- An element: what stands in its start tag, the text before its first
child, its children, and the text after its end tag. -/
inductive Element where
  | mk (tag text : List Char) (children : List Element) (tail : List Char)

namespace Element

def tag : Element → List Char
  | mk tag _ _ _ => tag

def text : Element → List Char
  | mk _ text _ _ => text

def children : Element → List Element
  | mk _ _ children _ => children

def tail : Element → List Char
  | mk _ _ _ tail => tail

/-- Induction over an element through its children. -/
@[elab_as_elim] theorem induction {P : Element → Prop}
    (mk : ∀ tag text children tail, (∀ e ∈ children, P e) → P (mk tag text children tail)) :
    ∀ e, P e
  | .mk tag text children tail => mk tag text children tail fun e _ => induction mk e
termination_by e => sizeOf e
decreasing_by
  have := List.sizeOf_lt_of_mem ‹e ∈ children›
  simp only [Element.mk.sizeOf_spec]
  omega

end Element

/-- The name in a start tag: what comes before its attributes. -/
def nameOf (tag : List Char) : List Char := tag.takeWhile fun c => !isSpace c

/-- Does the markup begin an element? -/
def opens (tag : List Char) : Bool :=
  tag.head?.any (fun c => c != '/' && c != '?' && c != '!') && tag.getLast? != some '/'

mutual

/-- The markup of an element. -/
def Element.tokens : Element → List Token
  | .mk tag text children tail =>
    (tag, text) :: (tokensOf children ++ [('/' :: nameOf tag, tail)])

/-- The markup of a row of elements. -/
def tokensOf : List Element → List Token
  | [] => []
  | e :: es => e.tokens ++ tokensOf es

end

/-- An element as text. -/
def Element.write (e : Element) : List Char := writeTokens e.tokens

/-- A row of elements as text. -/
def writeAll (es : List Element) : List Char := writeTokens (tokensOf es)

@[simp] theorem writeAll_nil : writeAll [] = [] := rfl

@[simp] theorem writeAll_cons (e : Element) (es : List Element) :
    writeAll (e :: es) = e.write ++ writeAll es := by
  rw [writeAll, tokensOf, writeTokens_append]
  rfl

@[simp] theorem writeAll_append (es es' : List Element) :
    writeAll (es ++ es') = writeAll es ++ writeAll es' := by
  induction es with
  | nil => rfl
  | cons e es ih => rw [List.cons_append, writeAll_cons, ih, writeAll_cons, List.append_assoc]

theorem Element.write_mk (tag text : List Char) (children : List Element) (tail : List Char) :
    (Element.mk tag text children tail).write =
      '<' :: (tag ++ '>' :: (text ++ (writeAll children ++
        '<' :: '/' :: (nameOf tag ++ '>' :: tail)))) := by
  rw [Element.write, Element.tokens]
  simp [writeTokens, writeAll]

/-- The tail stands last. -/
theorem Element.write_tail (tag text : List Char) (children : List Element) (tail : List Char) :
    (Element.mk tag text children tail).write =
      (Element.mk tag text children []).write ++ tail := by
  rw [Element.write_mk, Element.write_mk]
  simp

/-- A start tag that can be written: it begins an element and has no
bracket inside. -/
def IsTag (tag : List Char) : Prop := opens tag = true ∧ '<' ∉ tag ∧ '>' ∉ tag

instance (tag : List Char) : Decidable (IsTag tag) :=
  inferInstanceAs (Decidable (opens tag = true ∧ '<' ∉ tag ∧ '>' ∉ tag))

/-- **An element that can be written**: so can its tag, and its texts have
no opening bracket. -/
inductive Element.Wf : Element → Prop where
  | mk {tag text : List Char} {children : List Element} {tail : List Char} :
      IsTag tag → '<' ∉ text → '<' ∉ tail → (∀ e ∈ children, e.Wf) →
      Wf (.mk tag text children tail)

/-! ## One element to a line -/

section

variable {α : Type} (inner outer : List Char) (f : α → List Char → Element)

/-- The white space in front of what follows a line. -/
def gap : List α → List Char
  | [] => outer
  | _ :: _ => inner

/-- A row of elements, one to a line. -/
def lines : List α → List Element
  | [] => []
  | x :: xs => f x ('\n' :: gap inner outer xs) :: lines xs

variable {inner outer f}

theorem mem_lines {xs : List α} {e : Element} (h : e ∈ lines inner outer f xs) :
    ∃ x ∈ xs, ∃ tail, (tail = '\n' :: inner ∨ tail = '\n' :: outer) ∧ e = f x tail := by
  induction xs with
  | nil => cases h
  | cons x xs ih =>
    rcases List.mem_cons.mp h with rfl | h
    · refine ⟨x, List.mem_cons_self, _, ?_, rfl⟩
      cases xs with
      | nil => exact Or.inr rfl
      | cons y ys => exact Or.inl rfl
    · obtain ⟨y, hy, htail⟩ := ih h
      exact ⟨y, List.mem_cons_of_mem _ hy, htail⟩

/-- Lines written one after the other are the row, up to the white space
around them. -/
theorem write_lines {body : α → List Char} (h : ∀ x tail, (f x tail).write = body x ++ tail)
    (xs : List α) :
    xs.flatMap (fun x => inner ++ (body x ++ ['\n'])) ++ outer =
      gap inner outer xs ++ writeAll (lines inner outer f xs) := by
  induction xs with
  | nil => simp [gap, lines]
  | cons x xs ih =>
    rw [List.flatMap_cons, List.append_assoc, ih, lines, writeAll_cons, h]
    simp [gap]

/-- What reads each line reads the row. -/
theorem mapM_lines {β : Type} {read : Element → Option β} {g : α → β} {xs : List α}
    (h : ∀ x ∈ xs, ∀ tail, read (f x tail) = some (g x)) :
    (lines inner outer f xs).mapM read = some (xs.map g) := by
  induction xs with
  | nil => rfl
  | cons x xs ih =>
    rw [lines, List.mapM_cons, h x List.mem_cons_self,
      ih fun y hy => h y (List.mem_cons_of_mem _ hy)]
    rfl

/-- White space before the lines of a row, -/
theorem blank_gap (hinner : blank inner = true) (houter : blank outer = true) (xs : List α) :
    blank ('\n' :: gap inner outer xs) = true := by
  cases xs with
  | nil => exact houter
  | cons x xs => exact hinner

/-- and after each of them. -/
theorem blank_lines (hf : ∀ x tail, (f x tail).tail = tail) (hinner : blank inner = true)
    (houter : blank outer = true) {xs : List α} :
    ∀ e ∈ lines inner outer f xs, blank e.tail = true := by
  intro e he
  obtain ⟨x, -, tail, rfl | rfl, rfl⟩ := mem_lines he
  · rw [hf]
    exact hinner
  · rw [hf]
    exact houter

end

/-! ## Nesting -/

/-- An element whose end tag is still to come, its latest child first. -/
structure Frame where
  tag : List Char
  text : List Char
  children : List Element

/-- Another child. -/
def Frame.add (f : Frame) (e : Element) : Frame := { f with children := e :: f.children }

/-- The element, once its end tag has come. -/
def Frame.close (f : Frame) (tail : List Char) : Element :=
  .mk f.tag f.text f.children.reverse tail

/-- What one piece of markup does to the open elements, the innermost
first. The last frame is the document. -/
def step (stack : List Frame) (t : Token) : Option (List Frame) :=
  if opens t.1 then some (⟨t.1, t.2, []⟩ :: stack)
  else
    match t.1, stack with
    | '/' :: name, f :: g :: stack =>
      if name = nameOf f.tag then some (g.add (f.close t.2) :: stack) else none
    | '?' :: _, stack => if blank t.2 then some stack else none
    | _, _ => none

/-- **Read a document**: its elements, in order. -/
def parse (cs : List Char) : Option (List Element) := do
  let (text, ts) ← split cs
  if blank text then
    match ← ts.foldlM step [⟨[], [], []⟩] with
    | [f] => some f.children.reverse
    | _ => none
  else none

/-- Written elements are added to the innermost open one, in order. -/
theorem foldlM_tokensOf {es : List Element}
    (h : ∀ e ∈ es, ∀ f fs, e.tokens.foldlM step (f :: fs) = some (f.add e :: fs)) :
    ∀ (f : Frame) (fs : List Frame), (tokensOf es).foldlM step (f :: fs) =
      some ({ f with children := es.reverse ++ f.children } :: fs) := by
  induction es with
  | nil =>
    intro f fs
    rfl
  | cons e es ih =>
    intro f fs
    rw [tokensOf, List.foldlM_append, h e List.mem_cons_self, Option.bind_eq_bind,
      Option.bind_some, ih fun e' he' => h e' (List.mem_cons_of_mem _ he')]
    simp [Frame.add]

/-- **A written element nests into itself.** -/
theorem foldlM_tokens (e : Element) : e.Wf → ∀ (f : Frame) (fs : List Frame),
    e.tokens.foldlM step (f :: fs) = some (f.add e :: fs) := by
  induction e using Element.induction with
  | mk tag text children tail ih =>
    intro hwf f fs
    cases hwf with
    | mk htag htext htail hchildren =>
      have hopen : step (f :: fs) (tag, text) = some (⟨tag, text, []⟩ :: f :: fs) :=
        if_pos htag.1
      have hinside := foldlM_tokensOf (fun e he => ih e he (hchildren e he)) ⟨tag, text, []⟩
        (f :: fs)
      have hclose : step (⟨tag, text, children.reverse ++ []⟩ :: f :: fs) ('/' :: nameOf tag, tail) =
          some (f.add (.mk tag text children tail) :: fs) := by
        simp [step, opens, Frame.close]
      rw [Element.tokens, List.foldlM_cons, hopen, Option.bind_eq_bind, Option.bind_some,
        List.foldlM_append, hinside, Option.bind_eq_bind, Option.bind_some, List.foldlM_cons,
        hclose]
      rfl

theorem wf_tokensOf {es : List Element} (h : ∀ e ∈ es, ∀ t ∈ e.tokens, t.Wf) :
    ∀ t ∈ tokensOf es, t.Wf := by
  induction es with
  | nil => simp [tokensOf]
  | cons e es ih =>
    intro t ht
    rw [tokensOf, List.mem_append] at ht
    rcases ht with ht | ht
    · exact h e List.mem_cons_self t ht
    · exact ih (fun e' he' => h e' (List.mem_cons_of_mem _ he')) t ht

/-- The tokens of a writable element can be split off. -/
theorem wf_tokens (e : Element) : e.Wf → ∀ t ∈ e.tokens, t.Wf := by
  induction e using Element.induction with
  | mk tag text children tail ih =>
    intro hwf t ht
    cases hwf with
    | mk htag htext htail hchildren =>
      simp only [Element.tokens, List.mem_cons, List.mem_append, List.not_mem_nil, or_false] at ht
      rcases ht with rfl | ht | rfl
      · exact ⟨htag.2, htext⟩
      · exact wf_tokensOf (fun e he => ih e he (hchildren e he)) t ht
      · -- the name is a part of the tag, which has no bracket
        have hname : ∀ c ∈ nameOf tag, c ∈ tag := fun c hc => (List.takeWhile_sublist _).subset hc
        refine ⟨⟨?_, ?_⟩, htail⟩
        · intro hmem
          rcases List.mem_cons.mp hmem with heq | hmem
          · exact absurd heq (by decide)
          · exact htag.2.1 (hname _ hmem)
        · intro hmem
          rcases List.mem_cons.mp hmem with heq | hmem
          · exact absurd heq (by decide)
          · exact htag.2.2 (hname _ hmem)

/-- **A document reads back**: one element, after a processing instruction
and blank text. -/
theorem parse_write {e : Element} (he : e.Wf) {instruction gap : List Char}
    (hinstruction : Token.Wf ('?' :: instruction, gap)) (hgap : blank gap = true) :
    parse ('<' :: '?' :: (instruction ++ '>' :: (gap ++ e.write))) = some [e] := by
  have hwrite : '<' :: '?' :: (instruction ++ '>' :: (gap ++ e.write)) =
      [] ++ writeTokens (('?' :: instruction, gap) :: e.tokens) := by
    simp [writeTokens, Element.write]
  have hsplit : split ([] ++ writeTokens (('?' :: instruction, gap) :: e.tokens)) =
      some ([], ('?' :: instruction, gap) :: e.tokens) := by
    refine split_writeTokens (fun t ht => ?_) List.not_mem_nil
    rcases List.mem_cons.mp ht with rfl | ht
    · exact hinstruction
    · exact wf_tokens e he t ht
  have hfirst : step [⟨[], [], []⟩] ('?' :: instruction, gap) = some [⟨[], [], []⟩] := by
    simp [step, opens, hgap]
  have hnest : (('?' :: instruction, gap) :: e.tokens).foldlM step [⟨[], [], []⟩] =
      some [(⟨[], [], []⟩ : Frame).add e] := by
    rw [List.foldlM_cons, hfirst, Option.bind_eq_bind, Option.bind_some, foldlM_tokens e he]
  rw [hwrite, parse, hsplit, Option.bind_eq_bind, Option.bind_some]
  dsimp only
  rw [if_pos (by decide), hnest]
  rfl

/-! ## Reading elements -/

/-- The children of an element of that tag which holds elements only. -/
def Element.node? (tag : List Char) (e : Element) : Option (List Element) :=
  if e.tag = tag ∧ blank e.text = true ∧ (e.children.all fun c => blank c.tail) = true then
    some e.children
  else none

/-- The text of an element of that tag which holds text only. -/
def Element.leaf? (tag : List Char) (e : Element) : Option (List Char) :=
  if e.tag = tag ∧ e.children.isEmpty = true then unescape e.text else none

@[simp] theorem Element.node?_mk {tag text tail : List Char} {children : List Element}
    (htext : blank text = true) (hchildren : ∀ c ∈ children, blank c.tail = true) :
    (Element.mk tag text children tail).node? tag = some children :=
  if_pos ⟨rfl, htext, List.all_eq_true.mpr hchildren⟩

@[simp] theorem Element.leaf?_mk (tag text tail : List Char) :
    (Element.mk tag text [] tail).leaf? tag = unescape text := if_pos ⟨rfl, rfl⟩

end Xml
