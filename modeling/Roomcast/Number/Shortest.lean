import Roomcast.Number.Binary64
import Roomcast.Text.Digits

/-!
# The shortest decimal

A magnitude is written with the fewest decimal digits that read back to it: the multiple of the
largest power of ten that lies among the reals that round to the magnitude, and of several such
multiples the nearest. All comparisons are between naturals, in quarters of a unit.
-/

namespace Roomcast.Number

/-- A decimal `digits * 10 ^ exponent`. -/
structure Decimal where
  digits : Nat
  exponent : Int
deriving DecidableEq

namespace Magnitude

/-- The quarters of a unit in `10 ^ p`, as a quotient. -/
def powerQuarters (p : Int) : Nat × Nat :=
  if 0 ≤ p then (Nat.pow 10 p.toNat * (4 * unitsPerOne), 1)
  else (4 * unitsPerOne, Nat.pow 10 p.natAbs)

/-- The reals from `low` to `high`, in quarters of a unit, round to this magnitude. Below a
power of two the next magnitude is nearer than above it. -/
def interval (x : Magnitude) : Nat × Nat :=
  let below := if x.significand = Nat.pow 2 52 ∧ 0 < x.shift then 1 else 2
  ((4 * x.significand - below) * Nat.pow 2 x.shift,
    (4 * x.significand + 2) * Nat.pow 2 x.shift)

/-- Whether `c * 10 ^ p` rounds to this magnitude. The ends of the interval do if the significand
is even. -/
def readsBack (x : Magnitude) (p : Int) (c : Nat) : Bool :=
  let (num, den) := powerQuarters p
  let (low, high) := x.interval
  let point := c * num
  if x.significand % 2 = 0 then low * den ≤ point && point ≤ high * den
  else low * den < point && point < high * den

/-- The multiple of `10 ^ p` nearest to this magnitude among those that round to it. -/
def onGrid? (x : Magnitude) (p : Int) : Option Decimal :=
  let (num, den) := powerQuarters p
  let value := 4 * x.units * den
  let low := value / num
  let nearest := roundDiv value num
  let hits := [nearest, low, low + 1].filter fun c => c ≠ 0 && x.readsBack p c
  hits.head?.map fun c => ⟨c, p⟩

/-- The shortest decimal that reads back. The first grid tried is coarser than the magnitude, and
none finer than the last is needed. -/
def shortest (x : Magnitude) : Decimal :=
  let top := (Text.digits (x.units / unitsPerOne)).length
  ((List.range 400).findSome? fun (k : Nat) => x.onGrid? ((top : Int) - k)).getD ⟨0, 0⟩

end Magnitude

end Roomcast.Number
