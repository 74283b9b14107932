import LoxReader.Text

/-!
# Kinds of tokens

The vocabulary of the language: its symbols, its keywords, and the kinds that a token can have.
-/

namespace LoxReader

inductive Symbol where
  | leftParen | rightParen | leftBrace | rightBrace
  | comma | dot | minus | plus | semicolon | slash | star
  | bang | bangEqual | equal | equalEqual | greater | greaterEqual | less | lessEqual
  deriving DecidableEq, Repr

inductive Keyword where
  | and | «class» | else | false | fun | for | if | nil | or
  | print | return | super | this | true | var | while
  deriving DecidableEq, Repr

/-- What a token is, apart from its place and from the value it may carry. -/
inductive Kind where
  | symbol (s : Symbol)
  | identifier
  | string
  | number
  | keyword (k : Keyword)
  | eof
  deriving DecidableEq, Repr

/-! ### Symbols -/

namespace Symbol

def all : List Symbol :=
  [leftParen, rightParen, leftBrace, rightBrace, comma, dot, minus, plus, semicolon, slash, star,
   bang, bangEqual, equal, equalEqual, greater, greaterEqual, less, lessEqual]

/-- The symbol that one character is. -/
def ofChar? : Char → Option Symbol
  | '(' => some leftParen
  | ')' => some rightParen
  | '\x7b' => some leftBrace
  | '\x7d' => some rightBrace
  | ',' => some comma
  | '.' => some dot
  | '-' => some minus
  | '+' => some plus
  | ';' => some semicolon
  | '/' => some slash
  | '*' => some star
  | '!' => some bang
  | '=' => some equal
  | '>' => some greater
  | '<' => some less
  | _ => none

/-- The symbol that a following equals sign makes of this one. -/
def withEqual? : Symbol → Option Symbol
  | bang => some bangEqual
  | equal => some equalEqual
  | greater => some greaterEqual
  | less => some lessEqual
  | _ => none

def name : Symbol → String
  | leftParen => "LeftParen"
  | rightParen => "RightParen"
  | leftBrace => "LeftBrace"
  | rightBrace => "RightBrace"
  | comma => "Comma"
  | dot => "Dot"
  | minus => "Minus"
  | plus => "Plus"
  | semicolon => "Semicolon"
  | slash => "Slash"
  | star => "Star"
  | bang => "Bang"
  | bangEqual => "BangEqual"
  | equal => "Equal"
  | equalEqual => "EqualEqual"
  | greater => "Greater"
  | greaterEqual => "GreaterEqual"
  | less => "Less"
  | lessEqual => "LessEqual"

end Symbol

/-! ### Keywords -/

namespace Keyword

def all : List Keyword :=
  [and, .class, .else, false, .fun, .for, .if, nil, or,
   print, .return, super, this, true, var, .while]

/-- How a keyword is written in a source. -/
def spelling : Keyword → String
  | .and => "and"
  | .class => "class"
  | .else => "else"
  | .false => "false"
  | .fun => "fun"
  | .for => "for"
  | .if => "if"
  | .nil => "nil"
  | .or => "or"
  | .print => "print"
  | .return => "return"
  | .super => "super"
  | .this => "this"
  | .true => "true"
  | .var => "var"
  | .while => "while"

/-- The keyword with this spelling. -/
def ofText? (t : Text) : Option Keyword := all.find? (·.spelling.toList = t)

def name : Keyword → String
  | .and => "And"
  | .class => "Class"
  | .else => "Else"
  | .false => "False"
  | .fun => "Fun"
  | .for => "For"
  | .if => "If"
  | .nil => "Nil"
  | .or => "Or"
  | .print => "Print"
  | .return => "Return"
  | .super => "Super"
  | .this => "This"
  | .true => "True"
  | .var => "Var"
  | .while => "While"

end Keyword

/-! ### Kinds -/

namespace Kind

def all : List Kind :=
  Symbol.all.map symbol ++ [identifier, string, number] ++ Keyword.all.map keyword ++ [eof]

/-- The name of a kind in a listing of tokens. -/
def name : Kind → String
  | symbol s => s.name
  | identifier => "Identifier"
  | string => "Str"
  | number => "Number"
  | keyword k => k.name
  | eof => "Eof"

end Kind

end LoxReader
