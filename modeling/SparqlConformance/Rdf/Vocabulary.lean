/-!
# Vocabularies

The IRIs that manifests, result sets, plans and reports use.
-/
namespace SparqlConformance.Vocab

def rdf (name : String) : String := "http://www.w3.org/1999/02/22-rdf-syntax-ns#" ++ name
def rdfs (name : String) : String := "http://www.w3.org/2000/01/rdf-schema#" ++ name
def xsd (name : String) : String := "http://www.w3.org/2001/XMLSchema#" ++ name
def resultSet (name : String) : String :=
  "http://www.w3.org/2001/sw/DataAccess/tests/result-set#" ++ name
def manifest (name : String) : String :=
  "http://www.w3.org/2001/sw/DataAccess/tests/test-manifest#" ++ name
def query (name : String) : String :=
  "http://www.w3.org/2001/sw/DataAccess/tests/test-query#" ++ name
def update (name : String) : String := "http://www.w3.org/2009/sparql/tests/test-update#" ++ name
def dawg (name : String) : String := "http://www.w3.org/2001/sw/DataAccess/tests/test-dawg#" ++ name
def service (name : String) : String := "http://www.w3.org/ns/sparql-service-description#" ++ name
def manifestExtra (name : String) : String :=
  "http://jena.hpl.hp.com/2005/05/test-manifest-extra#" ++ name
/-- Extensions used by plan documents. -/
def plan (name : String) : String := "http://ns.librdf.org/2009/test-manifest#" ++ name
def earl (name : String) : String := "http://www.w3.org/ns/earl#" ++ name
def doap (name : String) : String := "http://usefulinc.com/ns/doap#" ++ name
def dcterms (name : String) : String := "http://purl.org/dc/terms/" ++ name

end SparqlConformance.Vocab
