import LoxReader.Expr.Parse
import LoxReader.Expr.Printing
import LoxReader.Token.Scan

/-!
# From a source to its expression

A source is cut into tokens and these are read as one expression. The faults of the first step
hide those of the second.
-/

namespace LoxReader

def Expr.ofSource (mode : Mode) (source : Text) : Except (List Diagnostic) Expr :=
  match scan mode source with
  | .error errors => .error (errors.map Scan.Error.diagnostic)
  | .ok tokens =>
    match parse tokens with
    | .error error => .error [error.diagnostic]
    | .ok e => .ok e

end LoxReader
