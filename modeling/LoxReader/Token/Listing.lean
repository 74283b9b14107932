import LoxReader.Text.Quoted
import LoxReader.Token.Basic

/-!
# Listings of tokens

A listing has one line for each token: its place, its kind, and its quoted text, in columns that
give way to longer entries.
-/

namespace LoxReader

/-- One line of a listing: `line:column kind "lexeme"`. -/
def Token.listingLine (t : Token) : Text :=
  List.leftpad 4 ' ' (Text.ofNat t.position.line)
    ++ ':' :: List.rightpad 4 ' ' (Text.ofNat t.position.column)
    ++ ' ' :: List.rightpad 13 ' ' t.kind.name.toList
    ++ ' ' :: t.lexeme.quoted ++ ['\n']

def Tokens.listing (ts : Tokens) : Text := ts.toList.flatMap Token.listingLine

end LoxReader
