import SparqlConformance.Data.Members
import SparqlConformance.Rdf.Term
/-!
# One solution

Terms under the names of variables. The bindings are kept in the order of the names, so two solutions
are equal exactly when they bind the same variables to the same terms.
-/
namespace SparqlConformance

abbrev Binding := String × Term

structure Solution where
  bindings : List Binding
  increasing : Increasing bindings
  deriving DecidableEq

namespace Solution

def empty : Solution := ⟨[], List.Pairwise.nil⟩

instance : Inhabited Solution := ⟨empty⟩

/-- Binds a variable; a binding it had before is replaced. -/
def insert (row : Solution) (name : String) (value : Term) : Solution :=
  ⟨Members.insert name value row.bindings, Members.increasing_insert name value row.increasing⟩

/-- The row of a list of pairs, where later pairs win. -/
def ofPairs (pairs : List Binding) : Solution := pairs.foldl (fun row (n, v) => row.insert n v) empty

def names (row : Solution) : List String := row.bindings.map Prod.fst

def get? (row : Solution) (name : String) : Option Term := row.bindings.lookup name

/-- Changes the values and drops the variables for which there is none. -/
def filterMap (f : Term → Option Term) (row : Solution) : Solution :=
  ⟨row.bindings.filterMap fun (n, v) => (f v).map fun w => (n, w), by
    refine List.Pairwise.filterMap _ ?_ row.increasing
    intro a a' hlt b hb b' hb'
    simp only [Option.map_eq_some_iff] at hb hb'
    obtain ⟨_, _, rfl⟩ := hb
    obtain ⟨_, _, rfl⟩ := hb'
    exact hlt⟩

theorem names_filterMap_sublist (f : Term → Option Term) (row : Solution) :
    (row.filterMap f).names.Sublist row.names := by
  suffices h : ∀ bindings : List Binding,
      ((bindings.filterMap fun (n, v) => (f v).map fun w => (n, w)).map Prod.fst).Sublist
        (bindings.map Prod.fst) from h row.bindings
  intro bindings
  induction bindings with
  | nil => simp
  | cons c rest ih =>
    cases hc : f c.2 with
    | none => simpa [List.filterMap_cons, hc] using ih.cons c.1
    | some w => simpa [List.filterMap_cons, hc] using ih.cons_cons c.1

end Solution

end SparqlConformance
