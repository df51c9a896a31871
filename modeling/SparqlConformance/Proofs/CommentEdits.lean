import SparqlConformance.Proofs.ClosedComments
/-!
# Comments that change

What a change of a comment does to the outline of a query. Tokens are blanked before comments are, so what
looks like a string in a comment is blanked too, and may take more than the comment with it. Comments that
no token comes in or goes out of do not matter.
-/
namespace SparqlConformance.Query

def outline (text : List Char) : QueryOutline := .ofText (String.ofList text)

/-- What the outline of a query is, once tokens and comments are blanked. -/
def outlineOfBlanked (s : List Char) : QueryOutline where
  form := (findWord formAt? false s).getD .select
  ordered := (findWord (fun s => if ordersAt s then some () else none) false s).isSome

theorem outline_eq (text : List Char) : outline text = outlineOfBlanked (blanked text) := by
  rw [outline, QueryOutline.ofText, String.toList_ofList]
  rfl

/-- No token goes across the start or the end of a comment. -/
structure Apart (pre body post : List Char) : Prop where
  start : leftOver 0 pre ('#' :: (body ++ post)) = 0
  finish : leftOver 0 body post = 0

section comments

theorem blankComments_append_of_oneLine {y : List Char} (z : List Char) (oneLine : '\n' ∉ y) :
    blankComments true (y ++ z) = blankComments true z := by
  induction y with
  | nil => rfl
  | cons c y ih =>
    rw [List.cons_append, blankComments, if_neg (List.ne_of_not_mem_cons oneLine).symm, if_pos rfl,
      ih (List.not_mem_of_not_mem_cons oneLine)]

/-- After a hash, it only matters what comes after the line. -/
theorem blankComments_hash_congr (inside : Bool) (x : List Char) {y y' : List Char}
    (same : blankComments true y = blankComments true y') :
    blankComments inside (x ++ '#' :: y) = blankComments inside (x ++ '#' :: y') := by
  induction x generalizing inside with
  | nil =>
    have notEnd : '#' ≠ '\n' := by decide
    rw [List.nil_append, List.nil_append, blankComments, blankComments, if_neg notEnd, if_neg notEnd,
      if_pos rfl, if_pos rfl, same]
  | cons c x ih =>
    simp only [List.cons_append, blankComments, ih]

variable {pre body body' post : List Char}

theorem blankTokens_of_apart (apart : Apart pre body post) :
    blankTokens 0 (pre ++ '#' :: (body ++ post)) =
      blankPart 0 pre ('#' :: (body ++ post)) ++
        '#' :: (blankPart 0 body post ++ blankTokens 0 post) := by
  have hash : blankTokens 0 ('#' :: (body ++ post)) = '#' :: blankTokens 0 (body ++ post) := rfl
  rw [blankTokens_append, apart.start, hash, blankTokens_append, apart.finish]

theorem outline_eq_of_apart (oneLine : '\n' ∉ body) (oneLine' : '\n' ∉ body')
    (apart : Apart pre body post) (apart' : Apart pre body' post) :
    outline (pre ++ '#' :: (body ++ post)) = outline (pre ++ '#' :: (body' ++ post)) := by
  rw [outline_eq, outline_eq]
  congr 1
  rw [blanked, blanked, blankTokens_of_apart apart, blankTokens_of_apart apart',
    blankPart_eq_of_leftOver apart.start apart'.start]
  apply blankComments_hash_congr
  rw [blankComments_append_of_oneLine, blankComments_append_of_oneLine]
  · exact fun kept => oneLine' (mem_of_mem_blankPart (by decide) kept)
  · exact fun kept => oneLine (mem_of_mem_blankPart (by decide) kept)

end comments

/-! ### The scan of the grammar -/

namespace Grammar

/-- The characters of IRIs. -/
def isIriChar (c : Char) : Bool := 0x20 < c.toNat && !"<>\"{}|^`\\".toList.contains c

/-- What may stand after a backslash in a string. -/
def isEscaped (c : Char) : Bool := "tbnrf\\\"'".toList.contains c

def iriLength? : List Char → Option Nat
  | [] => none
  | c :: r => if c = '>' then some 1 else if isIriChar c then (iriLength? r).map (· + 1) else none

def shortLength? (quote : Char) : List Char → Option Nat
  | [] => none
  | c :: r =>
    if c = quote then some 1
    else if c = '\n' ∨ c = '\r' then none
    else if c = '\\' then
      match r with
      | [] => none
      | d :: r => if isEscaped d then (shortLength? quote r).map (· + 2) else none
    else (shortLength? quote r).map (· + 1)

/-- A long string ends with the first three quotes in a row. -/
def longLength? (quote : Char) : List Char → Option Nat
  | [] => none
  | c :: r =>
    if c = quote ∧ r.take 2 = [quote, quote] then some 3
    else if c = '\\' then
      match r with
      | [] => none
      | d :: r => if isEscaped d then (longLength? quote r).map (· + 2) else none
    else (longLength? quote r).map (· + 1)

def stringLength? (quote : Char) (s : List Char) : Option Nat :=
  let long := if s.take 2 = [quote, quote] then (longLength? quote (s.drop 2)).map (· + 3) else none
  long.or ((shortLength? quote s).map (· + 1))

/-- The length of the IRI or string at the start of a text. -/
def tokenLength? : List Char → Option Nat
  | '<' :: r => (iriLength? r).map (· + 1)
  | '"' :: r => stringLength? '"' r
  | '\'' :: r => stringLength? '\'' r
  | _ => none

end Grammar

/-- The characters that end a comment. -/
def endsLine (c : Char) : Bool := c == '\n' || c == '\r'

/-- Where a reader is that reads tokens and comments at once: in a comment, or in the query, with some
characters left of the last token. -/
inductive Place
  | query (skip : Nat)
  | comment
  deriving DecidableEq, Repr

/-- Where the reader is after one more character. -/
def placeNext (place : Place) (c : Char) (r : List Char) : Place :=
  match place with
  | .comment => if endsLine c then .query 0 else .comment
  | .query k =>
    if k = 0 ∧ c = '#' then .comment else .query (skipNext Grammar.tokenLength? k (c :: r))

/-- Where the reader is after a text; what comes after the text is told along. -/
def placeAfter (place : Place) : List Char → List Char → Place
  | [], _ => place
  | c :: u, v => placeAfter (placeNext place c (u ++ v)) u v

/-- A hash between two tokens of a query, and what follows it on its line, is a comment. -/
structure IsComment (pre body post : List Char) : Prop where
  found : placeAfter (.query 0) pre ('#' :: (body ++ post)) = .query 0
  oneLine : body.any endsLine = false
  ended : post = [] ∨ ∃ c r, post = c :: r ∧ endsLine c = true

/-- The rest of a line. -/
def line (s : List Char) : List Char := s.takeWhile (!endsLine ·)

def afterLine (s : List Char) : List Char := s.dropWhile (!endsLine ·)

/-- At a hash outside of tokens, no token goes beyond the end of the comment; at another character, the
token is that of the grammar. -/
def alikeAt (place : Place) (c : Char) (r : List Char) : Bool :=
  match place with
  | .query 0 =>
    if c = '#' then leftOver 0 (line r) (afterLine r) == 0
    else tokenLength? (c :: r) == Grammar.tokenLength? (c :: r)
  | _ => true

/-- Whether the tokens of a query outside of comments are those of the grammar, and no token goes beyond
the end of a comment. -/
def readAlike (place : Place) : List Char → Bool
  | [] => true
  | c :: r => alikeAt place c r && readAlike (placeNext place c r) r

section alignment

/-- In a comment, the reader that does not know about it is done with its last token at the end of the
line; outside of comments both readers have the same characters left. -/
def Aligned (skip : Nat) (s : List Char) : Place → Prop
  | .comment => leftOver skip (line s) (afterLine s) = 0
  | .query k => skip = k

theorem skipNext_of_endsLine {c : Char} (r : List Char) (lineEnd : endsLine c = true) :
    skipNext tokenLength? 0 (c :: r) = 0 := by
  rw [endsLine, Bool.or_eq_true, beq_iff_eq, beq_iff_eq] at lineEnd
  rcases lineEnd with rfl | rfl
  · rfl
  · rfl

theorem Aligned.next {p : Place} {k : Nat} {c : Char} {r : List Char} (aligned : Aligned k (c :: r) p)
    (alike : alikeAt p c r = true) :
    Aligned (skipNext tokenLength? k (c :: r)) r (placeNext p c r) := by
  match p with
  | .comment =>
    rw [placeNext]
    rw [Aligned, line, afterLine, List.takeWhile_cons, List.dropWhile_cons] at aligned
    cases lineEnd : endsLine c with
    | true =>
      simp only [lineEnd, Bool.not_true, Bool.false_eq_true, if_false] at aligned
      have done : k = 0 := aligned
      rw [if_pos rfl, done]
      exact skipNext_of_endsLine r lineEnd
    | false =>
      simp only [lineEnd, Bool.not_false, if_true] at aligned
      rw [leftOver, List.takeWhile_append_dropWhile] at aligned
      exact aligned
  | .query (j + 1) =>
    have same : k = j + 1 := aligned
    rw [same]
    rfl
  | .query 0 =>
    have same : k = 0 := aligned
    subst same
    rw [alikeAt] at alike
    rw [placeNext]
    by_cases hash : c = '#'
    · subst hash
      rw [if_pos rfl] at alike
      exact eq_of_beq alike
    · rw [if_neg hash] at alike
      rw [if_neg fun h => hash h.2, skipNext, eq_of_beq alike]
      rfl

theorem Aligned.after {p : Place} {k : Nat} {u v : List Char} (aligned : Aligned k (u ++ v) p)
    (alike : readAlike p (u ++ v) = true) :
    Aligned (leftOver k u v) v (placeAfter p u v) ∧ readAlike (placeAfter p u v) v = true := by
  induction u generalizing p k with
  | nil => exact ⟨aligned, alike⟩
  | cons c u ih =>
    rw [List.cons_append] at aligned alike
    rw [readAlike, Bool.and_eq_true] at alike
    exact ih (aligned.next alike.1) alike.2

/-- In a query that is read like the grammar says, no token goes across the ends of comments. -/
theorem IsComment.apart {pre body post : List Char} (comment : IsComment pre body post)
    (alike : readAlike (.query 0) (pre ++ '#' :: (body ++ post)) = true) : Apart pre body post := by
  have start : Aligned 0 (pre ++ '#' :: (body ++ post)) (.query 0) := rfl
  obtain ⟨aligned, alike⟩ := start.after alike
  rw [comment.found] at aligned alike
  rw [readAlike, Bool.and_eq_true] at alike
  have finish : leftOver 0 (line (body ++ post)) (afterLine (body ++ post)) = 0 := eq_of_beq alike.1
  have inLine : ∀ c ∈ body, (!endsLine c) = true := by
    intro c hc
    rw [Bool.not_eq_true', ← Bool.not_eq_true]
    exact List.any_eq_false.mp comment.oneLine c hc
  have nextLine : line post = [] ∧ afterLine post = post := by
    rcases comment.ended with rfl | ⟨c, r, rfl, lineEnd⟩
    · exact ⟨rfl, rfl⟩
    · simp [line, afterLine, lineEnd]
  rw [line, afterLine, List.takeWhile_append_of_pos inLine, List.dropWhile_append_of_pos inLine] at finish
  rw [line, afterLine] at nextLine
  rw [nextLine.1, nextLine.2, List.append_nil] at finish
  exact ⟨aligned, finish⟩

end alignment

/-! ### Comments that matter -/

/-- The line end after a comment is lost in a token that goes beyond it. -/
theorem not_mem_blankTokens_of_open {u : List Char} (oneLine : '\n' ∉ u)
    (openEnd : leftOver 0 u ('\n' :: closing) ≠ 0) :
    '\n' ∉ blankTokens 0 (u ++ '\n' :: closing) := by
  obtain ⟨k, left⟩ := Nat.exists_eq_succ_of_ne_zero openEnd
  have notSpace : '\n' ≠ ' ' := by decide
  have notClosing : '\n' ∉ closing := by decide
  rw [blankTokens_append, left, blankTokens, List.mem_append]
  rintro (kept | kept)
  · exact oneLine (mem_of_mem_blankPart notSpace kept)
  · exact notClosing (mem_of_mem_blankTokens notSpace kept)

theorem form_of_open {u : List Char} (oneLine : '\n' ∉ u)
    (openEnd : leftOver 0 u ('\n' :: closing) ≠ 0) :
    (outline ('#' :: (u ++ '\n' :: closing))).form = .select := by
  have gone : blanked ('#' :: (u ++ '\n' :: closing)) = [' '] := by
    have whole := blankComments_append_of_oneLine [] (not_mem_blankTokens_of_open oneLine openEnd)
    rw [List.append_nil] at whole
    exact congrArg (' ' :: ·) whole
  rw [outline_eq, gone]
  decide

theorem form_of_closing : (outline ('#' :: '\n' :: closing)).form = .ask := by
  rw [outline_eq]
  decide +kernel

theorem closedOnLine_iff_outline {u : List Char} (oneLine : '\n' ∉ u) :
    ClosedOnLine u ↔
      ∀ v, outline ('#' :: (u ++ '\n' :: v)) = outline ('#' :: '\n' :: v) := by
  constructor
  · intro closed v
    have apart : Apart [] u ('\n' :: v) := ⟨rfl, closed v⟩
    have apart' : Apart [] [] ('\n' :: v) := ⟨rfl, rfl⟩
    simpa only [List.nil_append] using outline_eq_of_apart oneLine List.not_mem_nil apart apart'
  · intro same
    rw [closedOnLine_iff]
    by_contra openEnd
    have form := form_of_open oneLine openEnd
    rw [same closing, form_of_closing] at form
    cases form

/-- The change of a comment does not change the outline of a query, as long as no token goes across the
start or the end of the comment, before and after the change. In queries that are read like the grammar says
this holds of every comment. That a token never goes beyond the end is just what is needed for a comment to
count as an empty one in front of any text, and it never does if the comment has no three quotes in a row
and no backslash at its end. -/
theorem outline_of_changed_comment (pre body post : List Char) (oneLine : '\n' ∉ body) :
    (Apart pre body post → ∀ body', '\n' ∉ body' → Apart pre body' post →
      outline (pre ++ '#' :: (body ++ post)) = outline (pre ++ '#' :: (body' ++ post))) ∧
    (IsComment pre body post → readAlike (.query 0) (pre ++ '#' :: (body ++ post)) = true →
      Apart pre body post) ∧
    (ClosedOnLine body ↔
      ∀ rest, outline ('#' :: (body ++ '\n' :: rest)) = outline ('#' :: '\n' :: rest)) ∧
    (IsCalm body → ClosedOnLine body) :=
  ⟨fun apart _ oneLine' apart' => outline_eq_of_apart oneLine oneLine' apart apart',
    fun comment alike => comment.apart alike, closedOnLine_iff_outline oneLine,
    fun calm => calm.closedOnLine⟩

theorem outline_of_changed_comment_query :
    let pre := "ASK \x7b ?s <e:#> '''#'s''' \x7d ".toList
    let body := " it's\"".toList
    let body' := " <> \"order\" ' ORDER BY ?s".toList
    let post := "\n# don't\n".toList
    outline (pre ++ '#' :: (body ++ post)) = outline (pre ++ '#' :: (body' ++ post)) ∧
      outline ('#' :: (body' ++ '\n' :: pre)) = outline ('#' :: '\n' :: pre) := by
  simp -zeta only [String.reduceToList]
  intro pre body body' post
  have oneLine : '\n' ∉ body := by decide
  have oneLine' : '\n' ∉ body' := by decide
  have isCalm : IsCalm body' := by
    refine ⟨?_, by decide⟩
    rintro q (rfl | rfl)
    · decide
    · decide
  obtain ⟨same, alike, -, -⟩ := outline_of_changed_comment pre body post oneLine
  obtain ⟨-, alike', closed', calm'⟩ := outline_of_changed_comment pre body' post oneLine'
  have apart : Apart pre body post :=
    alike ⟨by decide, by decide, .inr ⟨_, _, rfl, rfl⟩⟩ (by decide)
  have apart' : Apart pre body' post :=
    alike' ⟨by decide, by decide, .inr ⟨_, _, rfl, rfl⟩⟩ (by decide)
  exact ⟨same apart body' oneLine' apart', closed'.mp (calm' isCalm) pre⟩

/-- A query is lost between two comments with three quotes, and a comment after a long string with two
quotes in a row decides whether there is an order. -/
theorem outline_changes_with_comment :
    (let post := "\nASK \x7b \x7d\n# \"\"\"\n".toList
    IsComment [] " x".toList post ∧ IsComment [] " \"\"\"".toList post ∧
    outline ('#' :: (" x".toList ++ post)) = ⟨.ask, false⟩ ∧
    outline ('#' :: (" \"\"\"".toList ++ post)) = ⟨.select, false⟩) ∧
    let pre := "SELECT * \x7b ?s ?p \"\"\"\n\"\"y\"\"\" \x7d ".toList
    IsComment pre " x ORDER BY ?s".toList [] ∧ IsComment pre " \" ORDER BY ?s".toList [] ∧
    outline (pre ++ '#' :: " x ORDER BY ?s".toList) = ⟨.select, false⟩ ∧
    outline (pre ++ '#' :: " \" ORDER BY ?s".toList) = ⟨.select, true⟩ := by
  simp only [outline_eq, String.reduceToList]
  refine ⟨⟨⟨rfl, by decide, .inr ⟨_, _, rfl, rfl⟩⟩, ⟨rfl, by decide, .inr ⟨_, _, rfl, rfl⟩⟩, ?_, ?_⟩,
    ⟨by decide, by decide, .inl rfl⟩, ⟨by decide, by decide, .inl rfl⟩, ?_, ?_⟩
  all_goals decide +kernel

end SparqlConformance.Query
