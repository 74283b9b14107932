import LoxReader.Command.Options
import LoxReader.Expr.OfSource
import LoxReader.Token.Listing

/-!
# What the command answers

From the options and the bytes of the input to the text that is printed. A fault leaves nothing
to print.
-/

namespace LoxReader

namespace Command

/-- Why a file cannot be used. -/
inductive FileError where
  | notFound
  | invalidEncoding
  deriving DecidableEq, Repr

def FileError.message : FileError → String
  | notFound => "No such file or directory (os error 2)"
  | invalidEncoding => "stream did not contain valid UTF-8"

inductive Failure where
  | unreadable (error : FileError)
  | faulty (diagnostics : List Diagnostic)
  deriving DecidableEq, Repr

/-- The text that is printed for a source: its listing, or its expression on a line. -/
def Options.print (o : Options) (source : Text) : Except (List Diagnostic) Text :=
  match o.output with
  | .tokens =>
    match scan o.mode source with
    | .error errors => .error (errors.map Scan.Error.diagnostic)
    | .ok tokens => .ok tokens.listing
  | .source => (Expr.ofSource o.mode source).map (·.source ++ ['\n'])
  | .bracketed => (Expr.ofSource o.mode source).map (·.bracketed ++ ['\n'])

/-- The text of an input, if there is one and it is in UTF-8. -/
def sourceOf (input? : Option ByteArray) : Except FileError Text :=
  match input? with
  | none => .error .notFound
  | some bytes =>
    match String.fromUTF8? bytes with
    | none => .error .invalidEncoding
    | some s => .ok s.toList

/-- What is printed for an input, which may be missing. -/
def Options.answer (o : Options) (input? : Option ByteArray) : Except Failure Text :=
  match sourceOf input? with
  | .error error => .error (.unreadable error)
  | .ok source => (o.print source).mapError .faulty

end Command

end LoxReader
