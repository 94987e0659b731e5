import PascalCompiler.Text.Numeral

/-!
# Sizes

Sizes are written in the largest unit that keeps them at least one, with one
decimal below ten.

## Main definitions

* `Size.render`: a number of bytes in the unit that suits it
-/

namespace PascalCompiler.Size

/-- The units, each a thousand times the one before. -/
def units : List String :=
  ["B", "kB", "MB", "GB", "TB", "PB", "EB"]

/-- A power of a thousand. -/
def thousands : Nat → Nat
  | 0 => 1
  | e + 1 => 1000 * thousands e

/-- The power of a thousand that suits a number: the largest that does not
exceed it, among those for which there is a unit. -/
def exponent (n : Nat) : Nat :=
  (List.range (units.length - 1)).foldl (fun e k => if thousands (k + 1) ≤ n then k + 1 else e) 0

/-- A quotient by ten rounded to an integer, with a half going to the even
neighbour. -/
def roundTenth (tenths : Nat) : Nat :=
  let whole := tenths / 10
  let rest := tenths % 10
  if rest < 5 then whole
  else if 5 < rest then whole + 1
  else if whole % 2 = 0 then whole
  else whole + 1

/-- A number of bytes in the unit that suits it. -/
def render (n : Nat) : String :=
  if n < 10 then Numeral.decimal n ++ " B"
  else
    let e := exponent n
    let unit := (units[e]?).getD ""
    let tenths := (n * 10 + thousands e / 2) / thousands e
    if tenths < 100 then
      Numeral.decimal ((tenths / 10 : Nat) : Int) ++ "." ++
        Numeral.decimal ((tenths % 10 : Nat) : Int) ++ " " ++ unit
    else Numeral.decimal (roundTenth tenths) ++ " " ++ unit

end PascalCompiler.Size
