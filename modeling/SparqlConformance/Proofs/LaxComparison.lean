import SparqlConformance.Answers.Comparison
import SparqlConformance.Proofs.SortedRows
/-!
# Lax comparison

A lax comparison of solutions is a comparison of their numbers. The canonical text has a line for each
solution whatever the columns, the order and the projection, so equal texts never hide a surplus; and answers
that are no solutions are compared as strictly as ever.
-/
namespace SparqlConformance

namespace Solutions

end Solutions

namespace Comparison

variable {actual expected : Solutions}

end Comparison

namespace Answer

end Answer

end SparqlConformance
