import Roomcast.Json.Tree
import Roomcast.Number.Shortest

/-!
# Numbers

The numbers that an opaque value may hold. One that is written as an integer and fits 64 bits,
signed or unsigned, stays an integer; every other number becomes a double, and minus zero is a
double too.
-/

namespace Roomcast.Json

def IsWord (n : Int) : Prop := -Nat.pow 2 63 ≤ n ∧ n < Nat.pow 2 64

instance (n : Int) : Decidable (IsWord n) := inferInstanceAs (Decidable (_ ∧ _))

inductive Number where
  | int (n : Int) (isWord : IsWord n)
  | double (x : Number.Binary64)
deriving DecidableEq

namespace Numeral

/-- Adds digits to a significand for as long as it fits 64 bits; returns it with the digits that
are left. -/
def absorb (significand : Nat) : List Nat → Nat × List Nat
  | [] => (significand, [])
  | d :: ds =>
    if 10 * significand + d < Nat.pow 2 64 then absorb (10 * significand + d) ds
    else (significand, d :: ds)

/-- The magnitude that a number denotes. Only leading digits that fit 64 bits count; those left out
before the point still count as powers of ten, and the last step is one multiplication or division
by such a power. -/
def magnitude? (n : Numeral) : Option Number.Magnitude :=
  let (significand, whole) := absorb 0 n.whole
  let (significand, fraction) := absorb significand n.fraction
  let power : Int := whole.length - (n.fraction.length - fraction.length : Nat)
  (Number.Magnitude.ofNat? significand).bind (·.scale? (power + n.exponent.getD 0))

/-- The integer that a number denotes, if it is written as one and fits 64 bits. Minus zero is no
integer. -/
def int? (n : Numeral) : Option Int :=
  let size := Text.ofDigits 10 0 n.whole
  if n.isInteger ∧ ¬(n.negative ∧ size = 0) then
    let value : Int := if n.negative then -size else size
    if IsWord value then some value else none
  else none

/-- The value of a number, unless it is too large for a double. -/
def number? (n : Numeral) : Option Number :=
  match n.int? with
  | some value => if h : IsWord value then some (.int value h) else none
  | none => n.magnitude?.map fun m => .double ⟨n.negative, m⟩

end Numeral

/-- Lays out a decimal. With its leading digit at a power of ten from -5 to 15 it is written in
full, with at least one digit after the point; otherwise as one digit, the others after a point,
and the power. -/
def layOut (negative : Bool) (d : Number.Decimal) : Numeral :=
  let digits := Text.digits d.digits
  let leading : Int := d.exponent + digits.length - 1
  if 0 ≤ d.exponent ∧ leading < 16 then
    ⟨negative, digits ++ List.replicate d.exponent.toNat 0, [0], none⟩
  else if 0 ≤ leading ∧ leading < 16 then
    ⟨negative, digits.take (leading.toNat + 1), digits.drop (leading.toNat + 1), none⟩
  else if -5 ≤ leading ∧ leading < 0 then
    ⟨negative, [0], List.replicate (leading.natAbs - 1) 0 ++ digits, none⟩
  else ⟨negative, digits.take 1, digits.drop 1, some leading⟩

def Number.toTree : Number → Tree
  | .int n _ => .ofInt n
  | .double x =>
    if x.magnitude.significand = 0 then .number ⟨x.negative, [0], [0], none⟩
    else .number (layOut x.negative x.magnitude.shortest)

end Roomcast.Json
