import LoxReader.Diagnostic
import LoxReader.Token.Segment

/-!
# The tokens of a source

Of the segments of a source some are its tokens and some are faults. A source has tokens if it
has no faults; in lenient mode a character that starts nothing is passed over like a blank.
-/

namespace LoxReader

inductive Mode where
  | strict
  | lenient
  deriving DecidableEq, Repr

namespace Scan

inductive Fault where
  | unexpectedCharacter (c : Char)
  | unterminatedString
  deriving DecidableEq, Repr

/-- A fault and the position of the first character it concerns. -/
structure Error where
  fault : Fault
  position : Position
  deriving DecidableEq, Repr

def Fault.message : Fault → Text
  | unexpectedCharacter c => "Unexpected character '".toList ++ c :: "'.".toList
  | unterminatedString => "Unterminated string.".toList

namespace Error

def text (e : Error) : Text :=
  "[line ".toList ++ Text.ofNat e.position.line ++ "] Error: ".toList ++ e.fault.message

def report (es : List Error) : Text := List.intercalate ['\n'] (es.map text)

def diagnostic (e : Error) : Diagnostic := ⟨e.position.line, .wholeLine, e.fault.message⟩

end Error

end Scan

namespace Segment

/-- The token that a segment is. -/
def token? (s : Segment) : Option Token :=
  match s.shape with
  | .token content => some ⟨content, s.text, s.position⟩
  | _ => none

/-- The error that a segment is. -/
def error? (mode : Mode) (s : Segment) : Option Scan.Error :=
  match s.shape, mode with
  | .stray c, .strict => some ⟨.unexpectedCharacter c, s.position⟩
  | .unclosed, _ => some ⟨.unterminatedString, s.position⟩
  | _, _ => none

end Segment

/-- The tokens of a source, or all of its errors, in the order of the source. -/
def scan (mode : Mode) (source : Text) : Except (List Scan.Error) Tokens :=
  let parts := segments .start source
  match parts.filterMap (Segment.error? mode) with
  | [] => .ok ⟨parts.filterMap Segment.token?, ⟨.eof, [], Position.start.after source⟩⟩
  | errors => .error errors

end LoxReader
