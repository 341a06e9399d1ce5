/-!
# Digits

Characters as digits in base ten and sixteen, and numbers written with them. Decimal text comes in
two forms: as long as the number needs (`decimal`), and of a fixed width with leading zeros
(`fixed`). `ofDigits` reads both back.
-/

namespace Roomcast.Text

def decimalValue? (c : Char) : Option Nat :=
  if '0' ≤ c ∧ c ≤ '9' then some (c.toNat - '0'.toNat) else none

/-- The value of a hexadecimal digit, in either letter case. -/
def hexValue? (c : Char) : Option Nat :=
  if '0' ≤ c ∧ c ≤ '9' then some (c.toNat - '0'.toNat)
  else if 'a' ≤ c ∧ c ≤ 'f' then some (c.toNat - 'a'.toNat + 10)
  else if 'A' ≤ c ∧ c ≤ 'F' then some (c.toNat - 'A'.toNat + 10)
  else none

/-- Whether a character is an ASCII decimal digit. -/
def isDecimal (c : Char) : Bool := (decimalValue? c).isSome

/-- The digit that stands for `n % 16`, in lower case. -/
def hexDigit (n : Nat) : Char :=
  match n % 16 with
  | 0 => '0' | 1 => '1' | 2 => '2' | 3 => '3' | 4 => '4' | 5 => '5' | 6 => '6' | 7 => '7'
  | 8 => '8' | 9 => '9' | 10 => 'a' | 11 => 'b' | 12 => 'c' | 13 => 'd' | 14 => 'e' | _ => 'f'

/-- The digit that stands for `n % 10`. -/
def decimalDigit (n : Nat) : Char :=
  hexDigit (n % 10)

/-- The number that a run of digits in base `base` denotes, given the value of what precedes it. -/
def ofDigits (base : Nat) (start : Nat) (ds : List Nat) : Nat :=
  ds.foldl (fun n d => base * n + d) start

/-- The decimal digits of a number, with no leading zero. -/
def digits (n : Nat) : List Nat :=
  if n < 10 then [n] else digits (n / 10) ++ [n % 10]

/-- A number in decimal, with no leading zero. -/
def decimal (n : Nat) : List Char := (digits n).map decimalDigit

/-- The last `width` decimal digits of a number, with leading zeros. -/
def fixed : Nat → Nat → List Char
  | 0, _ => []
  | width + 1, n => fixed width (n / 10) ++ [decimalDigit n]

/-- The last `width` hexadecimal digits of a number, with leading zeros. -/
def fixedHex : Nat → Nat → List Char
  | 0, _ => []
  | width + 1, n => fixedHex width (n / 16) ++ [hexDigit n]

theorem hexValue?_hexDigit (n : Nat) : hexValue? (hexDigit n) = some (n % 16) := by
  have h : n % 16 < 16 := Nat.mod_lt _ (by decide)
  unfold hexDigit
  generalize n % 16 = m at h
  match m, h with
  | 0, _ | 1, _ | 2, _ | 3, _ | 4, _ | 5, _ | 6, _ | 7, _ => rfl
  | 8, _ | 9, _ | 10, _ | 11, _ | 12, _ | 13, _ | 14, _ | 15, _ => rfl
  | k + 16, h => omega

theorem decimalValue?_decimalDigit (n : Nat) :
    decimalValue? (decimalDigit n) = some (n % 10) := by
  have h : n % 10 < 10 := Nat.mod_lt _ (by decide)
  unfold decimalDigit hexDigit
  generalize n % 10 = m at h
  match m, h with
  | 0, _ | 1, _ | 2, _ | 3, _ | 4, _ | 5, _ | 6, _ | 7, _ | 8, _ | 9, _ => rfl
  | k + 10, h => omega

end Roomcast.Text
