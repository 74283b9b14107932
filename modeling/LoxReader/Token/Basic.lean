import LoxReader.Number.Shortest
import LoxReader.Position
import LoxReader.Token.Kind

/-!
# Tokens

A token is a piece of a source: what it says, its text there, and where it starts. The tokens of
a source are closed by one that stands for its end.
-/

namespace LoxReader

/-- The kind of a token, with the value of a string or a number. -/
inductive Content where
  | symbol (s : Symbol)
  | identifier
  | string (value : Text)
  | number (value : Binary64)
  | keyword (k : Keyword)
  | eof
  deriving DecidableEq, Repr

structure Token where
  content : Content
  lexeme : Text
  position : Position
  deriving DecidableEq, Repr

/-- The tokens of a source in order, and the one that marks its end. -/
structure Tokens where
  body : List Token
  eof : Token
  deriving DecidableEq, Repr

/-- A value written down in a source. -/
inductive Literal where
  | number (value : Binary64)
  | string (value : Text)
  | boolean (value : Bool)
  | nil
  deriving DecidableEq, Repr

namespace Content

def kind : Content → Kind
  | symbol s => .symbol s
  | identifier => .identifier
  | string _ => .string
  | number _ => .number
  | keyword k => .keyword k
  | eof => .eof

/-- Equality of kind and value, numbers being compared by value. -/
def equals : Content → Content → Bool
  | number x, number y => x.equals y
  | c, d => c = d

/-- The value that a literal stands for. -/
def literal? : Content → Option Literal
  | number x => some (.number x)
  | string t => some (.string t)
  | keyword .true => some (.boolean true)
  | keyword .false => some (.boolean false)
  | keyword .nil => some .nil
  | _ => none

end Content

namespace Token

def kind (t : Token) : Kind := t.content.kind

def isEof (t : Token) : Bool := t.content = .eof

/-- Equality of all that a token holds, numbers being compared by value. -/
def equals (t u : Token) : Bool :=
  t.content.equals u.content && t.lexeme = u.lexeme && t.position = u.position

end Token

namespace Tokens

def toList (ts : Tokens) : List Token := ts.body ++ [ts.eof]

end Tokens

/-- The text of a value: a string without its quotes, a number by its shortest digits. -/
def Literal.text : Literal → Text
  | number x => x.text
  | string t => t
  | boolean b => if b then "true".toList else "false".toList
  | nil => "nil".toList

end LoxReader
