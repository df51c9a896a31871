import SparqlConformance.Format.Xml
import SparqlConformance.Format.Xml.Tree
import SparqlConformance.Proofs.JoinedPaths
/-!
# XML markup

A scanner for markup that knows nothing of how documents are written: every bracket of a text opens or closes
a piece of markup, and the elements are what is left when each start tag has met its end tag. What is written
for a tree is scanned as the elements of the tree, whatever texts there are in it.
-/
namespace SparqlConformance.Xml

open Text

/-- The pieces between brackets, if the brackets of a text come in pairs. Between the pieces, and so when
`inside` is none, a text may have anything but brackets. -/
def brackets (inside : Option (List Char)) : List Char → Option (List (List Char))
  | [] => if inside.isSome then none else some []
  | c :: r =>
    match inside with
    | none =>
      if c = '<' then brackets (some []) r
      else if c = '>' then none
      else brackets none r
    | some piece =>
      if c = '<' then none
      else if c = '>' then (brackets none r).map (piece :: ·)
      else brackets (some (piece ++ [c])) r

/-- Names of letters. -/
def IsWord (name : String) : Prop := name.toList ≠ [] ∧ name.toList.all Char.isAlpha = true

instance (name : String) : Decidable (IsWord name) :=
  inferInstanceAs (Decidable (name.toList ≠ [] ∧ name.toList.all Char.isAlpha = true))

def word? (s : List Char) : Option String :=
  if IsWord (String.ofList s) then some (String.ofList s) else none

/-- The name in front of a value, between a space and the sign of equality. -/
def attributeName? : List Char → Option String
  | ' ' :: r => (stripEnd ['='] r).bind word?
  | _ => none

/-- The attributes of a tag from the pieces between its quotes. -/
def attributes? : List (List Char) → Option (List (String × String))
  | [[]] => some []
  | label :: value :: pieces => do
    let name ← attributeName? label
    let text ← resolve none value
    let rest ← attributes? pieces
    some ((name, String.ofList text) :: rest)
  | _ => none

/-- A name and the attributes behind it. -/
def tag? (s : List Char) : Option Tag := do
  let name ← word? (s.takeWhile (· != ' '))
  let attributes ← attributes? (splitAt '"' (s.dropWhile (· != ' ')))
  some ⟨name, attributes⟩

inductive Mark
  | instruction (text : List Char)
  | opening (tag : Tag)
  | single (tag : Tag)
  | closing (name : String)
  deriving DecidableEq, Repr

/-- What the piece between two brackets is. -/
def mark? : List Char → Option Mark
  | '?' :: r => (stripEnd ['?'] r).map .instruction
  | '/' :: r => (word? r).map .closing
  | s =>
    match stripEnd ['/'] s with
    | some content => (tag? content).map .single
    | none => (tag? s).map .opening

/-- The markup of a text. -/
def marks? (s : List Char) : Option (List Mark) := (brackets none s).bind (List.mapM mark?)

/-- A tag with all that stands between it and its end tag. -/
inductive Element
  | mk (tag : Tag) (children : List Element)
  deriving Repr

namespace Element

def tag : Element → Tag
  | mk tag _ => tag

def children : Element → List Element
  | mk _ children => children

def name (e : Element) : String := e.tag.name

def attribute? (e : Element) (name : String) : Option String := e.tag.attributes.lookup name

mutual

/-- The elements of a name that stand inside an element, in document order. -/
def inside (name : String) : Element → List Element
  | mk _ children => among name children

/-- The elements of a name among some elements and inside them. -/
def among (name : String) : List Element → List Element
  | [] => []
  | e :: es => (if e.name = name then [e] else []) ++ inside name e ++ among name es

end

end Element

/-- Puts elements together. `opened` are the tags that still have to be closed, the innermost first, each with
the elements that stand in front of it; `done` are the elements since the last tag was opened. -/
def nest (opened : List (Tag × List Element)) (done : List Element) : List Mark → Option (List Element)
  | [] => if opened.isEmpty then some done else none
  | .instruction _ :: _ => none
  | .opening tag :: ms => nest ((tag, done) :: opened) [] ms
  | .single tag :: ms => nest opened (done ++ [.mk tag []]) ms
  | .closing name :: ms =>
    match opened with
    | [] => none
    | (tag, before) :: opened =>
      if tag.name = name then nest opened (before ++ [.mk tag done]) ms else none

/-- The declaration and the root of a document that has nothing else. -/
def document? (s : List Char) : Option (List Char × Element) := do
  match ← marks? s with
  | .instruction declaration :: ms =>
    match ← nest [] [] ms with
    | [root] => some (declaration, root)
    | _ => none
  | _ => none

/-! ## What is written for a tree -/

/-- Tags whose names are words. -/
structure Tag.IsPlain (tag : Tag) : Prop where
  name : IsWord tag.name
  attributes : ∀ a ∈ tag.attributes, IsWord a.1

theorem Tag.isPlain_of_words {tag : Tag} (words : List String)
    (h : tag.name :: tag.attributes.map Prod.fst = words) (all : ∀ word ∈ words, IsWord word) : tag.IsPlain := by
  rw [← h, List.forall_mem_cons, List.forall_mem_map] at all
  exact ⟨all.1, all.2⟩

inductive Tree.IsPlain : Tree → Prop
  | empty {tag : Tag} (named : tag.IsPlain) : (Tree.empty tag).IsPlain
  | text {tag : Tag} (named : tag.IsPlain) (content : String) : (Tree.text tag content).IsPlain
  | nested {tag : Tag} (named : tag.IsPlain) {children : List Tree}
      (plain : ∀ t ∈ children, t.IsPlain) : (Tree.nested tag children).IsPlain

mutual

def Tree.element : Tree → Element
  | .empty tag | .text tag _ => .mk tag []
  | .nested tag children => .mk tag (elements children)

def elements : List Tree → List Element
  | [] => []
  | t :: ts => t.element :: elements ts

end

theorem elements_eq_map (ts : List Tree) : elements ts = ts.map Tree.element := by
  induction ts with
  | nil => rfl
  | cons t ts ih => rw [elements, ih, List.map_cons]

/-- Texts without brackets. -/
def IsUnmarked (s : List Char) : Prop := '<' ∉ s ∧ '>' ∉ s

instance (s : List Char) : Decidable (IsUnmarked s) := inferInstanceAs (Decidable ('<' ∉ s ∧ '>' ∉ s))

theorem isUnmarked_append {s t : List Char} : IsUnmarked (s ++ t) ↔ IsUnmarked s ∧ IsUnmarked t := by
  simp only [IsUnmarked, List.mem_append, not_or]
  exact and_and_and_comm

theorem isUnmarked_cons {c : Char} {s : List Char} :
    IsUnmarked (c :: s) ↔ (c ≠ '<' ∧ c ≠ '>') ∧ IsUnmarked s := by
  simp only [IsUnmarked, List.mem_cons, not_or, ne_comm (a := c)]
  exact and_and_and_comm

theorem brackets_unmarked {s : List Char} (h : IsUnmarked s) (r : List Char) :
    brackets none (s ++ r) = brackets none r := by
  induction s with
  | nil => rfl
  | cons c s ih =>
    obtain ⟨⟨left, right⟩, rest⟩ := isUnmarked_cons.mp h
    rw [List.cons_append, brackets.eq_def]
    simp only [if_neg left, if_neg right, ih rest]

theorem brackets_piece {s : List Char} (h : IsUnmarked s) (r : List Char) :
    brackets none ('<' :: (s ++ '>' :: r)) = (brackets none r).map (s :: ·) := by
  have inside : ∀ front, brackets (some front) (s ++ '>' :: r) =
      (brackets none r).map ((front ++ s) :: ·) := by
    induction s with
    | nil =>
      intro front
      rw [List.nil_append, brackets.eq_def, List.append_nil]
      rfl
    | cons c s ih =>
      intro front
      obtain ⟨⟨left, right⟩, rest⟩ := isUnmarked_cons.mp h
      rw [List.cons_append, brackets.eq_def]
      simp only [if_neg left, if_neg right, ih rest, List.append_assoc, List.singleton_append]
  rw [brackets.eq_def]
  exact inside []

/-- Escaped texts have nothing in them that ends a tag or a value. -/
theorem escaped_harmless (s : String) : IsUnmarked (escaped s) ∧ '"' ∉ escaped s := by
  have step : ∀ c, ('<' ∉ escapeChar c ∧ '>' ∉ escapeChar c) ∧ '"' ∉ escapeChar c := by
    intro c
    unfold escapeChar
    split
    · decide
    · decide
    · decide
    · decide
    · decide
    · simp_all [ne_comm]
  simp only [IsUnmarked, escaped, List.mem_flatMap, not_exists, not_and]
  exact ⟨⟨fun c _ => (step c).1.1, fun c _ => (step c).1.2⟩, fun c _ => (step c).2⟩

theorem resolve_escaped (s : String) : resolve none (escaped s) = some s.toList := by
  have step : ∀ c r, resolve none (escapeChar c ++ r) = (resolve none r).map (c :: ·) := by
    intro c r
    unfold escapeChar
    split
    · rfl
    · rfl
    · rfl
    · rfl
    · rfl
    · rename_i amp _ _
      rw [List.singleton_append, resolve.eq_def]
      simp only [if_neg amp]
  have all : ∀ cs : List Char, resolve none (cs.flatMap escapeChar) = some cs := by
    intro cs
    induction cs with
    | nil => rfl
    | cons c cs ih => rw [List.flatMap_cons, step, ih, Option.map_some]
  exact all s.toList

theorem IsWord.not_mem {name : String} (h : IsWord name) {c : Char} (other : c.isAlpha = false) :
    c ∉ name.toList := by
  intro hc
  rw [List.all_eq_true.mp h.2 c hc] at other
  cases other

theorem word?_eq {name : String} (h : IsWord name) : word? name.toList = some name := by
  rw [word?, String.ofList_toList, if_pos h]

theorem stripEnd_append (s e : List Char) : stripEnd e (s ++ e) = some s := by
  rw [stripEnd, List.reverse_append, stripStart_append, Option.map_some, List.reverse_reverse]

theorem attributeName?_eq {name : String} (h : IsWord name) :
    attributeName? (' ' :: (name.toList ++ ['='])) = some name := by
  rw [attributeName?, stripEnd_append, Option.bind_some, word?_eq h]

theorem attributes?_render {attributes : List (String × String)} (named : ∀ a ∈ attributes, IsWord a.1) :
    attributes? (splitAt '"' (attributes.flatMap renderAttribute)) = some attributes := by
  induction attributes with
  | nil => rfl
  | cons a attributes ih =>
    obtain ⟨here, later⟩ := List.forall_mem_cons.mp named
    have label : '"' ∉ ' ' :: (a.1.toList ++ ['=']) := by
      simp [here.not_mem (c := '"') rfl]
    have pieces : splitAt '"' ((a :: attributes).flatMap renderAttribute) =
        (' ' :: (a.1.toList ++ ['='])) :: escaped a.2 :: splitAt '"' (attributes.flatMap renderAttribute) := by
      have text : (a :: attributes).flatMap renderAttribute = (' ' :: (a.1.toList ++ ['='])) ++
          '"' :: (escaped a.2 ++ '"' :: attributes.flatMap renderAttribute) := by
        simp [renderAttribute]
      rw [text, splitAt_append, splitAt_append, splitAt_of_not_mem label,
        splitAt_of_not_mem (escaped_harmless a.2).2]
      rfl
    rw [pieces, attributes?, attributeName?_eq here, resolve_escaped, ih later]
    simp

theorem tag?_render {tag : Tag} (plain : tag.IsPlain) : tag? tag.render = some tag := by
  have name : ∀ c ∈ tag.name.toList, (c != ' ') = true := by
    intro c hc
    have space : c ≠ ' ' := fun h => plain.name.not_mem (c := ' ') rfl (h ▸ hc)
    exact bne_iff_ne.mpr space
  have behind : (tag.attributes.flatMap renderAttribute).takeWhile (· != ' ') = [] ∧
      (tag.attributes.flatMap renderAttribute).dropWhile (· != ' ') = tag.attributes.flatMap renderAttribute := by
    cases tag.attributes with
    | nil => exact ⟨rfl, rfl⟩
    | cons a as => exact ⟨rfl, rfl⟩
  rw [tag?, Tag.render, List.takeWhile_append_of_pos name, List.dropWhile_append_of_pos name, behind.1,
    behind.2, List.append_nil, word?_eq plain.name, attributes?_render plain.attributes]
  rfl

theorem isUnmarked_of_isWord {name : String} (h : IsWord name) : IsUnmarked name.toList :=
  ⟨h.not_mem rfl, h.not_mem rfl⟩

theorem isUnmarked_render {tag : Tag} (plain : tag.IsPlain) : IsUnmarked tag.render := by
  have each : ∀ a ∈ tag.attributes, IsUnmarked (renderAttribute a) := by
    intro a ha
    have name := isUnmarked_of_isWord (plain.attributes a ha)
    have value := (escaped_harmless a.2).1
    simp only [IsUnmarked] at name value ⊢
    simp [renderAttribute, name, value]
  rw [Tag.render, isUnmarked_append]
  refine ⟨isUnmarked_of_isWord plain.name, ?_⟩
  simp only [IsUnmarked, List.mem_flatMap, not_exists, not_and]
  exact ⟨fun a ha => (each a ha).1, fun a ha => (each a ha).2⟩

theorem stripEnd_eq_none {c : Char} {s : List Char} (h : s.getLast? ≠ some c) : stripEnd [c] s = none := by
  cases hs : stripEnd [c] s with
  | none => rfl
  | some front =>
    obtain ⟨r, hr, -⟩ := Option.map_eq_some_iff.mp hs
    have back := eq_append_of_stripStart hr
    rw [List.reverse_singleton] at back
    rw [List.getLast?_eq_head?_reverse, back] at h
    exact absurd rfl h

/-- A start tag ends with a letter of its name or with a quote. -/
theorem getLast?_render {tag : Tag} (plain : tag.IsPlain) : tag.render.getLast? ≠ some '/' := by
  intro last
  rw [Tag.render] at last
  rcases List.eq_nil_or_concat tag.attributes with none_left | ⟨as, a, has⟩
  · rw [none_left, List.flatMap_nil, List.append_nil] at last
    exact plain.name.not_mem rfl (List.mem_of_getLast? last)
  · have quote : tag.name.toList ++ tag.attributes.flatMap renderAttribute =
        (tag.name.toList ++ (as.flatMap renderAttribute ++ ' ' :: a.1.toList ++ '=' :: '"' :: escaped a.2)) ++
          ['"'] := by
      simp [has, renderAttribute]
    rw [quote, List.getLast?_concat] at last
    cases last

/-- Pieces that start with a letter are start tags. -/
theorem mark?_letter {c : Char} (letter : c.isAlpha = true) (r : List Char) :
    mark? (c :: r) = match stripEnd ['/'] (c :: r) with
      | some content => (tag? content).map .single
      | none => (tag? (c :: r)).map .opening := by
  rw [mark?.eq_def]
  split
  · rename_i heq
    obtain ⟨rfl, -⟩ := List.cons.inj heq
    cases letter
  · rename_i heq
    obtain ⟨rfl, -⟩ := List.cons.inj heq
    cases letter
  · rfl

theorem render_head {tag : Tag} (plain : tag.IsPlain) : ∃ c r, tag.render = c :: r ∧ c.isAlpha = true := by
  obtain ⟨c, r, hname⟩ := List.exists_cons_of_ne_nil plain.name.1
  refine ⟨c, r ++ tag.attributes.flatMap renderAttribute, by rw [Tag.render, hname]; rfl, ?_⟩
  exact List.all_eq_true.mp plain.name.2 c (hname ▸ List.mem_cons_self)

theorem mark?_opening {tag : Tag} (plain : tag.IsPlain) : mark? tag.render = some (.opening tag) := by
  obtain ⟨c, r, htext, letter⟩ := render_head plain
  have goes_on := stripEnd_eq_none (getLast?_render plain)
  have read := tag?_render plain
  rw [htext] at goes_on read ⊢
  rw [mark?_letter letter, goes_on]
  simp only [read, Option.map_some]

theorem mark?_single {tag : Tag} (plain : tag.IsPlain) :
    mark? (tag.render ++ ['/']) = some (.single tag) := by
  obtain ⟨c, r, htext, letter⟩ := render_head plain
  have ends := stripEnd_append tag.render ['/']
  have read := tag?_render plain
  rw [htext] at ends read ⊢
  rw [List.cons_append] at ends ⊢
  rw [mark?_letter letter, ends]
  simp only [read, Option.map_some]

/-- The elements that a text adds to those that are already there. -/
def reads (opened : List (Tag × List Element)) (done : List Element) (s : List Char) :
    Option (List Element) :=
  (marks? s).bind (nest opened done)

variable {opened : List (Tag × List Element)} {done : List Element}

theorem marks?_unmarked {s : List Char} (h : IsUnmarked s) (r : List Char) :
    marks? (s ++ r) = marks? r := by
  rw [marks?, brackets_unmarked h, ← marks?]

theorem marks?_piece {s : List Char} {mark : Mark} (unmarked : IsUnmarked s) (read : mark? s = some mark)
    (r : List Char) : marks? ('<' :: (s ++ '>' :: r)) = (marks? r).map (mark :: ·) := by
  rw [marks?, brackets_piece unmarked, marks?]
  cases brackets none r with
  | none => rfl
  | some pieces =>
    simp only [Option.map_some, Option.bind_some, List.mapM_cons, read]
    cases pieces.mapM mark? <;> rfl

theorem reads_unmarked {s : List Char} (h : IsUnmarked s) (r : List Char) :
    reads opened done (s ++ r) = reads opened done r := by
  rw [reads, marks?_unmarked h, ← reads]

theorem reads_piece {s : List Char} {mark : Mark} (unmarked : IsUnmarked s) (read : mark? s = some mark)
    (r : List Char) : reads opened done ('<' :: (s ++ '>' :: r)) =
      (marks? r).bind fun ms => nest opened done (mark :: ms) := by
  rw [reads, marks?_piece unmarked read, Option.bind_map]
  rfl

theorem reads_opened {tag : Tag} (plain : tag.IsPlain) (r : List Char) :
    reads opened done (Xml.opened tag ++ r) = reads ((tag, done) :: opened) [] r := by
  have text : Xml.opened tag ++ r = '<' :: (tag.render ++ '>' :: r) := by simp [Xml.opened]
  rw [text, reads_piece (isUnmarked_render plain) (mark?_opening plain)]
  rfl

theorem reads_single {tag : Tag} (plain : tag.IsPlain) (r : List Char) :
    reads opened done ('<' :: tag.render ++ (['/', '>'] ++ r)) = reads opened (done ++ [.mk tag []]) r := by
  have text : '<' :: tag.render ++ (['/', '>'] ++ r) = '<' :: (tag.render ++ ['/'] ++ '>' :: r) := by simp
  have unmarked : IsUnmarked (tag.render ++ ['/']) :=
    isUnmarked_append.mpr ⟨isUnmarked_render plain, by decide⟩
  rw [text, reads_piece unmarked (mark?_single plain)]
  rfl

/-- An end tag that meets its start tag. -/
theorem reads_closed {tag : Tag} (plain : tag.IsPlain) (before : List Element) (r : List Char) :
    reads ((tag, before) :: opened) done (closed tag ++ r) = reads opened (before ++ [.mk tag done]) r := by
  have text : closed tag ++ r = '<' :: ('/' :: tag.name.toList ++ '>' :: r) := by simp [closed]
  have unmarked : IsUnmarked ('/' :: tag.name.toList) :=
    isUnmarked_cons.mpr ⟨by decide, isUnmarked_of_isWord plain.name⟩
  have read : mark? ('/' :: tag.name.toList) = some (.closing tag.name) := by
    rw [mark?, word?_eq plain.name, Option.map_some]
  have meets : ∀ ms, nest ((tag, before) :: opened) done (.closing tag.name :: ms) =
      nest opened (before ++ [.mk tag done]) ms := by
    intro ms
    rw [nest, if_pos rfl]
  rw [text, reads_piece unmarked read]
  simp only [meets]
  rfl

theorem isUnmarked_newLine (depth : Nat) : IsUnmarked (newLine depth) := by
  simp [IsUnmarked, newLine, List.mem_replicate]

mutual

/-- A tree is read as its element, and nothing of it is left open. -/
theorem reads_render {t : Tree} (plain : t.IsPlain) (depth : Nat) (opened : List (Tag × List Element))
    (done : List Element) (r : List Char) :
    reads opened done (t.render depth ++ r) = reads opened (done ++ [t.element]) r := by
  cases plain with
  | empty named =>
    rw [Tree.render, Tree.element, List.append_assoc, List.append_assoc, reads_unmarked (isUnmarked_newLine depth)]
    exact reads_single named r
  | text named content =>
    rw [Tree.render, Tree.element, List.append_assoc, List.append_assoc, List.append_assoc,
      reads_unmarked (isUnmarked_newLine depth), reads_opened named,
      reads_unmarked (escaped_harmless content).1, reads_closed named]
  | nested named plain =>
    rw [Tree.render, Tree.element, List.append_assoc, List.append_assoc, List.append_assoc, List.append_assoc,
      reads_unmarked (isUnmarked_newLine depth), reads_opened named, reads_renderAll plain,
      reads_unmarked (isUnmarked_newLine depth), reads_closed named, List.nil_append]

theorem reads_renderAll {ts : List Tree} (plain : ∀ t ∈ ts, t.IsPlain) (depth : Nat)
    (opened : List (Tag × List Element)) (done : List Element) (r : List Char) :
    reads opened done (renderAll depth ts ++ r) = reads opened (done ++ elements ts) r := by
  cases ts with
  | nil => rw [renderAll, elements, List.nil_append, List.append_nil]
  | cons t ts =>
    obtain ⟨here, later⟩ := List.forall_mem_cons.mp plain
    rw [renderAll, elements, List.append_assoc, reads_render here, reads_renderAll later, List.append_assoc,
      List.singleton_append]

end

/-- A document is its declaration and the element of its tree. -/
theorem document?_document {root : Tree} (plain : root.IsPlain) :
    document? (document root).toList =
      some ("xml version=\"1.0\" encoding=\"UTF-8\"".toList, root.element) := by
  let content := "?xml version=\"1.0\" encoding=\"UTF-8\"?".toList
  have text : (document root).toList = '<' :: (content ++ '>' :: (root.render 0 ++ ['\n'])) := by
    rw [document, String.toList_ofList]
    rfl
  have read : mark? content = some (.instruction "xml version=\"1.0\" encoding=\"UTF-8\"".toList) := by decide
  have nested : reads [] [] (root.render 0 ++ ['\n']) = some [root.element] := by
    rw [reads_render plain]
    rfl
  obtain ⟨ms, hms, hnest⟩ := Option.bind_eq_some_iff.mp nested
  rw [document?, text, marks?_piece (by decide) read, hms]
  simp [hnest]

end SparqlConformance.Xml
