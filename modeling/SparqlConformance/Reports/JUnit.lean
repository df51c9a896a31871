import SparqlConformance.Format.Xml.Tree
import SparqlConformance.Number.Fixed
import SparqlConformance.Runs.Report
/-!
# JUnit reports

A run as an XML document: an element for each suite, and in it an element for each test. Tests that
failed or passed against expectation hold a failure.
-/
namespace SparqlConformance.JUnit

open Xml

def countAttributes (c : Counts) : List (String × String) :=
  [("tests", toString c.total), ("failures", toString c.failures), ("skipped", toString c.skipped)]

/-- The element that tells more about an outcome, if it has one. -/
def noteName? : Outcome → Option String
  | .failed | .uxpassed => some "failure"
  | .skipped => some "skipped"
  | .passed | .xfailed => none

def message (r : TestRecord) : String := if r.detail.isEmpty then r.outcome.name else r.detail

def note (r : TestRecord) (name : String) : Tree :=
  let tag : Tag := ⟨name, [("message", message r)]⟩
  if r.output.isEmpty then .empty tag else .text tag r.output

def testCase (suite : String) (r : TestRecord) : Tree :=
  let tag : Tag := ⟨"testcase",
    [("name", r.name), ("classname", suite), ("id", r.test), ("time", secondsText r.elapsed 3)]⟩
  match noteName? r.outcome with
  | none => .empty tag
  | some name => .nested tag [note r name]

def testSuite (s : SuiteReport) : Tree :=
  .nested
    ⟨"testsuite", ("name", s.name) :: countAttributes s.counts ++ [("time", secondsText s.elapsed 3)]⟩
    (s.records.map (testCase s.name))

def root (r : RunReport) : Tree :=
  .nested ⟨"testsuites", ("name", "sparqlcheck") :: countAttributes r.totals⟩ (r.suites.map testSuite)

end JUnit

def RunReport.junit (r : RunReport) : String := Xml.document (JUnit.root r)

end SparqlConformance
