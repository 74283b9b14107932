import LoxReader.Number.Rounding

/-!
# The shortest decimal of a number

Among the decimals that read back as a given number, the one with the fewest digits is written,
and of two such the nearer one. It is found on grids that grow finer by one digit at a time: if
any point of a grid reads back, one of the two points around the exact value does, since the
values that read back form an interval around it.
-/

namespace LoxReader

namespace Decimal

/-- The last decimal up to `d` on the grid that drops the given number of digits. -/
def floorTo (d : Decimal) (dropped : Nat) : Decimal :=
  ⟨d.units / Nat.pow 10 dropped * Nat.pow 10 dropped, d.places⟩

/-- The first decimal beyond `d` on that grid. -/
def aboveTo (d : Decimal) (dropped : Nat) : Decimal :=
  ⟨(d.units / Nat.pow 10 dropped + 1) * Nat.pow 10 dropped, d.places⟩

end Decimal

namespace Binary64

/-- Does the magnitude of `x` read back from `d`? -/
def readsBack (x : Binary64) (d : Decimal) : Bool := (ofDecimal d).code = x.code

/-- The neighbour of the exact value on a grid that reads back; of two, the nearer one, and the
upper one half way between them. -/
def neighbour? (x : Binary64) (dropped : Nat) : Option Decimal :=
  let exact := x.expansion
  let below := exact.floorTo dropped
  let above := exact.aboveTo dropped
  match x.readsBack below, x.readsBack above with
  | true, true =>
    if 2 * exact.units < below.units + above.units then some below else some above
  | true, false => some below
  | false, true => some above
  | false, false => none

/-- The first neighbour that reads back, dropping ever fewer digits; with none dropped it is the
exact value. -/
def shortestFrom (x : Binary64) : Nat → Decimal
  | 0 => x.expansion
  | dropped + 1 => (x.neighbour? (dropped + 1)).getD (x.shortestFrom dropped)

/-- The shortest decimal that reads back as the magnitude of a finite number. -/
def shortest (x : Binary64) : Decimal :=
  x.shortestFrom ((Nat.toDigits 10 x.expansion.units).length - 1)

/-- The text of a number: the shortest decimal in positional notation, with a sign if it has one. -/
def text (x : Binary64) : Text :=
  if x.isNaN then "NaN".toList
  else
    let magnitude := if x.isFinite then x.shortest.text else "inf".toList
    if x.negative then '-' :: magnitude else magnitude

end Binary64

end LoxReader
