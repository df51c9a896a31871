import SparqlConformance.Answers.Solution
import SparqlConformance.Rdf.Iri
import SparqlConformance.Rdf.Names
import SparqlConformance.Rdf.Relabeling
import SparqlConformance.Text.Lines
/-!
# Solution sequences

Solutions over variables and their canonical text. Each variable is declared once, and every variable that a
row binds is declared; both are part of the type. In the canonical text rows are sorted unless their
order matters, and blank nodes are numbered once the rows are in place.
-/
namespace SparqlConformance

/-- How much of the terms a result format preserves: CSV keeps lexical forms only. -/
inductive Fidelity
  | full
  | csv
  deriving DecidableEq, Repr, Inhabited

/-- Adds a variable at the end unless it is there already. -/
def declare (vars : List String) (name : String) : List String :=
  if name ∈ vars then vars else vars ++ [name]

theorem nodup_declare {vars : List String} (h : vars.Nodup) (name : String) :
    (declare vars name).Nodup := by
  unfold declare
  split
  · exact h
  · rename_i hn
    refine List.nodup_append.mpr ⟨h, by simp, ?_⟩
    intro a ha b hb
    simp only [List.mem_singleton] at hb
    exact fun hab => hn (hb ▸ hab ▸ ha)

theorem mem_declare {vars : List String} {name v : String} :
    v ∈ declare vars name ↔ v ∈ vars ∨ v = name := by
  unfold declare
  split
  · rename_i h
    exact ⟨Or.inl, fun hv => hv.elim id fun hv => hv ▸ h⟩
  · simp

def declareAll (vars names : List String) : List String := names.foldl declare vars

theorem nodup_declareAll {vars : List String} (h : vars.Nodup) (names : List String) :
    (declareAll vars names).Nodup := by
  induction names generalizing vars with
  | nil => exact h
  | cons n names ih => exact ih (nodup_declare h n)

theorem mem_declareAll {vars names : List String} {v : String} :
    v ∈ declareAll vars names ↔ v ∈ vars ∨ v ∈ names := by
  induction names generalizing vars with
  | nil => simp [declareAll]
  | cons n names ih =>
    simp only [declareAll, List.foldl_cons] at ih ⊢
    rw [ih, mem_declare, List.mem_cons, or_assoc]

/-- The term a CSV value stands for; an empty value stands for none. -/
def csvTerm? (value : String) : Option Term :=
  let s := value.toList
  if s.isEmpty then none
  else
    let blank := match s with
      | '_' :: ':' :: label => if isBlankLabel label then some (String.ofList label) else none
      | _ => none
    match blank with
    | some label => some (.blank label)
    | none => if Iri.isAbsolute s then some (.iri value) else some (.plain value)

structure Solutions where
  vars : List String
  rows : List Solution
  ordered : Bool
  fidelity : Fidelity
  nodup : vars.Nodup
  declared : ∀ row ∈ rows, ∀ v ∈ row.names, v ∈ vars
  deriving DecidableEq

namespace Solutions

/-- No solution yet, over the given variables. -/
def ofVariables (names : List String) : Solutions where
  vars := declareAll [] names
  rows := []
  ordered := false
  fidelity := .full
  nodup := nodup_declareAll List.nodup_nil names
  declared := by simp

def empty : Solutions := ofVariables []

instance : Inhabited Solutions := ⟨empty⟩

/-- Adds a solution at the end and declares its variables. -/
def push (b : Solutions) (row : Solution) : Solutions where
  vars := declareAll b.vars row.names
  rows := b.rows ++ [row]
  ordered := b.ordered
  fidelity := b.fidelity
  nodup := nodup_declareAll b.nodup _
  declared := by
    intro r hr v hv
    rw [mem_declareAll]
    rcases List.mem_append.mp hr with hr | hr
    · exact Or.inl (b.declared r hr v hv)
    · rw [List.mem_singleton] at hr
      exact Or.inr (hr ▸ hv)

def pushAll (b : Solutions) (rows : List Solution) : Solutions := rows.foldl push b

def withOrder (b : Solutions) (ordered : Bool) : Solutions := { b with ordered }

def withFidelity (b : Solutions) (fidelity : Fidelity) : Solutions := { b with fidelity }

def size (b : Solutions) : Nat := b.rows.length

def isEmpty (b : Solutions) : Bool := b.rows.isEmpty

/-- What a term becomes on its way through CSV. -/
def throughCsv : Term → Option Term
  | .literal l => csvTerm? l.value
  | t => some t

/-- The bindings as they would be after a trip through CSV. -/
def toCsv (b : Solutions) : Solutions where
  vars := b.vars
  rows := b.rows.map (Solution.filterMap throughCsv)
  ordered := b.ordered
  fidelity := .csv
  nodup := b.nodup
  declared := by
    intro r hr v hv
    obtain ⟨row, hrow, rfl⟩ := List.mem_map.mp hr
    exact b.declared row hrow v ((Solution.names_filterMap_sublist throughCsv row).subset hv)

end Solutions

/-- The binding of a variable, and the labels met so far. -/
def renderBinding (mark : Char) (seen : Seen) (row : Solution) (column : String) : List Char × Seen :=
  match row.get? column with
  | none => (column.toList ++ "=UNDEF".toList, seen)
  | some t =>
    let (s, seen) := renderNumbered mark seen t
    (column.toList ++ '=' :: s, seen)

def renderBindings (mark : Char) (row : Solution) : Seen → List String → List (List Char) × Seen
  | seen, [] => ([], seen)
  | seen, c :: cs =>
    let (binding, seen) := renderBinding mark seen row c
    let (bindings, seen) := renderBindings mark row seen cs
    (binding :: bindings, seen)

def renderRow (mark : Char) (columns : List String) (seen : Seen) (row : Solution) : String × Seen :=
  let (bindings, seen) := renderBindings mark row seen columns
  (String.ofList ('[' :: (Text.join [',', ' '] bindings ++ [']'])), seen)

def renderRows (mark : Char) (columns : List String) : Seen → List Solution → List String
  | _, [] => []
  | seen, row :: rows =>
    let (line, seen) := renderRow mark columns seen row
    line :: renderRows mark columns seen rows

/-- What a row is sorted by: its text with blank nodes numbered within the row. -/
def sortKey (columns : List String) (row : Solution) : String := (renderRow '*' columns [] row).1

def header (columns : List String) : String :=
  columns.foldl (fun s c => s ++ " ?" ++ c) "columns:"

/-- Rows in the order of their keys; rows with the same key keep their places. -/
def sortRows (columns : List String) (rows : List Solution) : List Solution :=
  ((rows.map fun r => (sortKey columns r, r)).mergeSort fun a b => decide (a.1 ≤ b.1)).map Prod.snd

namespace Solutions

def render (b : Solutions) (columns : List String) (ordered : Bool) : List String :=
  let rows := if ordered then b.rows else sortRows columns b.rows
  header columns :: renderRows 'b' columns [] rows

/-- The canonical text: the columns, then a line for each row. -/
def canonicalLines (b : Solutions) (columns : List String) : List String :=
  b.render columns b.ordered

end Solutions

/-- The variables of the expected side, then those that only the actual side has. -/
def columnOrder (expected actual : Solutions) : List String :=
  declareAll expected.vars actual.vars

/-- Canonical texts of both sides with the same columns and order. The expected side goes through CSV
when the actual side came from CSV. -/
def canonicalPair (expected actual : Solutions) : List String × List String :=
  let columns := columnOrder expected actual
  let ordered := expected.ordered || actual.ordered
  let expected :=
    if actual.fidelity = .csv ∧ expected.fidelity ≠ .csv then expected.toCsv else expected
  (expected.render columns ordered, actual.render columns ordered)

end SparqlConformance
