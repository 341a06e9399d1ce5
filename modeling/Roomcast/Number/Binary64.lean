/-!
# Binary floating point

The finite magnitudes of 64-bit binary floating point, held exactly. A magnitude is a whole number
of units of `2 ^ (-1074)`, the smallest positive one. Arithmetic is that of the naturals followed
by one rounding to the nearest magnitude, where a tie goes to the even significand.
-/

namespace Roomcast.Number

/-- The quotient rounded to the nearest natural; a half goes to the even neighbour. -/
def roundDiv (num den : Nat) : Nat :=
  let low := num / den
  let rest := num % den
  if 2 * rest < den ∨ (2 * rest = den ∧ low % 2 = 0) then low else low + 1

/-- A significand and a shift are the chosen pair of a finite magnitude: the significand uses all
its 53 bits unless the magnitude is too small for that. -/
def IsCanonical (significand shift : Nat) : Prop :=
  significand < Nat.pow 2 53 ∧ shift ≤ 2045 ∧ (shift = 0 ∨ Nat.pow 2 52 ≤ significand)

instance (significand shift : Nat) : Decidable (IsCanonical significand shift) :=
  inferInstanceAs (Decidable (_ ∧ _ ∧ _))

/-- A finite magnitude, equal to `significand * 2 ^ shift` units. -/
structure Magnitude where
  /-- The leading bits. -/
  significand : Nat
  /-- How many bits follow them in the count of units. -/
  shift : Nat
  /-- The pair is the chosen one. -/
  canonical : IsCanonical significand shift
deriving DecidableEq

/-- A finite double. -/
structure Binary64 where
  negative : Bool
  magnitude : Magnitude
deriving DecidableEq

namespace Magnitude

def unitsPerOne : Nat := Nat.pow 2 1074

def units (x : Magnitude) : Nat := x.significand * Nat.pow 2 x.shift

def zero : Magnitude := ⟨0, 0, by decide⟩

instance : Inhabited Magnitude := ⟨zero⟩

/-- The magnitude with the given parts, unless it is too large. -/
def ofParts? (significand shift : Nat) : Option Magnitude :=
  if h : IsCanonical significand shift then some ⟨significand, shift, h⟩ else none

/-- The magnitude nearest to a quotient of units, unless it is too large. -/
def ofUnits? (num den : Nat) : Option Magnitude :=
  let shift := (num / den).log2 - 52
  let significand := roundDiv num (den * Nat.pow 2 shift)
  if significand = Nat.pow 2 53 then ofParts? (Nat.pow 2 52) (shift + 1)
  else ofParts? significand shift

def ofNat? (n : Nat) : Option Magnitude := ofUnits? (n * unitsPerOne) 1

def mul? (x y : Magnitude) : Option Magnitude := ofUnits? (x.units * y.units) unitsPerOne

def div? (x y : Magnitude) : Option Magnitude := ofUnits? (x.units * unitsPerOne) y.units

/-- The largest exponent for which a power of ten is finite. -/
def maxPower : Nat := 308

/-- A magnitude times a power of ten. The power is rounded before it multiplies or divides, and
one beyond the range is applied in steps. -/
def scale? (x : Magnitude) (exponent : Int) : Option Magnitude :=
  if exponent.natAbs ≤ maxPower then
    (ofNat? (Nat.pow 10 exponent.natAbs)).bind fun power =>
      if 0 ≤ exponent then x.mul? power else x.div? power
  else if x.significand = 0 then some x
  else if 0 ≤ exponent then none
  else
    ((ofNat? (Nat.pow 10 maxPower)).bind x.div?).bind fun y => y.scale? (exponent + maxPower)
termination_by exponent.natAbs
decreasing_by
  simp only [maxPower] at *
  omega

end Magnitude

end Roomcast.Number
