import LoxReader.Text

/-!
# Diagnostics

A diagnostic is what a user is told about a fault: its line, where on the line it lies, and a
message. A report has one diagnostic after the other.
-/

namespace LoxReader

inductive Location where
  | wholeLine
  | atEnd
  | atLexeme (lexeme : Text)
  deriving DecidableEq, Repr

structure Diagnostic where
  line : Nat
  location : Location
  message : Text
  deriving DecidableEq, Repr

def Location.text : Location → Text
  | wholeLine => []
  | atEnd => " at end".toList
  | atLexeme lexeme => " at '".toList ++ lexeme ++ "'".toList

def Diagnostic.text (d : Diagnostic) : Text :=
  "[line ".toList ++ Text.ofNat d.line ++ "] Error".toList ++ d.location.text ++ ": ".toList
    ++ d.message

/-- Diagnostics one below the other. -/
def Diagnostic.report (ds : List Diagnostic) : Text := List.intercalate ['\n'] (ds.map text)

end LoxReader
