import LoxReader.Expr.Printing
import LoxReader.Proofs.Safety.Rules
import LoxReader.Proofs.Safety.Scanning

/-!
# No guard ever fails

Scanning, parsing and printing, one after the other, reach no step that could go wrong: whatever the
source is, its guarded processing has a result, and this is the one that the library has.
-/

namespace LoxReader

namespace Guarded

/-- Both texts of the expression that a source is, or what is wrong with it. -/
def process (mode : Mode) (source : Text) :
    Option (Except (List Scan.Error) (Except Parse.Error (Text × Text))) := do
  match ← scan mode source with
  | .error errors => return .error errors
  | .ok tokens    => return .ok ((← parse tokens).map fun e => (e.bracketed, e.source))

/-- On every source and in either mode all guards hold: slices of the source have their ends in
order and between characters, and so has what lies between the quotes of a string; what is read as a
number consists of digits, or of digits on both sides of a point; no index passes the mark of the
end; no rule is called at a depth above the limit, and the depth is not lowered below zero; lines
and columns exceed the number of characters by one at most; and no loop or recursion takes more
turns than it is given. -/
theorem process_eq_some (mode : Mode) (source : Text) :
    process mode source = some ((LoxReader.scan mode source).map fun tokens =>
      (LoxReader.parse tokens).map fun e => (e.bracketed, e.source)) := by
  rw [process, scan_eq, Option.bind_eq_bind, Option.bind_some]
  cases hscan : LoxReader.scan mode source with
  | error errors => rfl
  | ok tokens =>
    dsimp only
    rw [parse_eq (scan_terminated hscan)]
    rfl

end Guarded

end LoxReader
