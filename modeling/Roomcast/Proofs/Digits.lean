import Mathlib.Tactic
import Roomcast.Text.Digits

/-!
# Written digits

A number that is written in decimal, or in a fixed number of decimal or hexadecimal digits, is read
back from its digits. Each writer appends the last digit to the digits of the quotient, and
`ofDigits` undoes just this step.
-/

namespace Roomcast.Text

theorem ofDigits_append (base start : Nat) (ds : List Nat) (d : Nat) :
    ofDigits base start (ds ++ [d]) = base * ofDigits base start ds + d := by
  simp [ofDigits]

theorem digits_ne_nil (n : Nat) : digits n ≠ [] := by
  rw [digits]
  split <;> simp

theorem digits_lt {n d : Nat} (among : d ∈ digits n) : d < 10 := by
  induction n using digits.induct with
  | case1 n small =>
      rw [digits, if_pos small, List.mem_singleton] at among
      omega
  | case2 n large ih =>
      rw [digits, if_neg large, List.mem_append, List.mem_singleton] at among
      obtain before | rfl := among
      · exact ih before
      · exact Nat.mod_lt _ (by decide)

/-- A number is what its digits denote. -/
theorem ofDigits_digits (n : Nat) : ofDigits 10 0 (digits n) = n := by
  induction n using digits.induct with
  | case1 n small =>
      rw [digits, if_pos small]
      simp [ofDigits]
  | case2 n large ih =>
      rw [digits, if_neg large, ofDigits_append, ih]
      omega

/-- Only zero is written with a zero in front. -/
theorem digits_eq_zero_cons {n : Nat} {ds : List Nat} (zero : digits n = 0 :: ds) : ds = [] := by
  induction n using digits.induct generalizing ds with
  | case1 n small =>
      rw [digits, if_pos small] at zero
      exact (List.cons.inj zero).2.symm
  | case2 n large ih =>
      rw [digits, if_neg large] at zero
      cases front : digits (n / 10) with
      | nil => exact absurd front (digits_ne_nil _)
      | cons d rest =>
          rw [front, List.cons_append] at zero
          obtain ⟨rfl, _⟩ := List.cons.inj zero
          obtain rfl := ih front
          -- The quotient would be zero, but it has not one digit less than the number.
          have quotient := ofDigits_digits (n / 10)
          rw [front] at quotient
          simp [ofDigits] at quotient
          omega

@[simp] theorem isDecimal_decimalDigit (n : Nat) : isDecimal (decimalDigit n) = true := by
  rw [isDecimal, decimalValue?_decimalDigit]
  rfl

theorem isDecimal_iff {c : Char} : isDecimal c = true ↔ '0' ≤ c ∧ c ≤ '9' := by
  rw [isDecimal, decimalValue?]
  split <;> simp_all

/-- A digit is written for the number that is read from it. -/
theorem decimalDigit_of_decimalValue? {c : Char} {d : Nat} (read : decimalValue? c = some d) :
    decimalDigit d = c ∧ d < 10 := by
  rw [decimalValue?, Option.ite_none_right_eq_some] at read
  obtain ⟨⟨low, high⟩, same⟩ := read
  have low : 48 ≤ c.toNat := low
  have high : c.toNat ≤ 57 := high
  obtain rfl : c.toNat - 48 = d := Option.some.inj same
  rw [← Char.ofNat_toNat c]
  interval_cases c.toNat <;> exact ⟨rfl, by decide⟩

/-- A run of digits is written for the numbers that are read from it. -/
theorem map_decimalDigit {cs : List Char} (digits : ∀ c ∈ cs, isDecimal c = true) :
    (cs.filterMap decimalValue?).map decimalDigit = cs ∧
      ∀ d ∈ cs.filterMap decimalValue?, d < 10 := by
  induction cs with
  | nil => exact ⟨rfl, List.forall_mem_nil _⟩
  | cons c cs ih =>
      obtain ⟨d, read⟩ := Option.isSome_iff_exists.1 (digits c List.mem_cons_self)
      obtain ⟨written, small⟩ := decimalDigit_of_decimalValue? read
      obtain ⟨rest, each⟩ := ih fun c' among => digits c' (List.mem_cons_of_mem _ among)
      rw [List.filterMap_cons, read]
      exact ⟨by rw [List.map_cons, written, rest], List.forall_mem_cons.2 ⟨small, each⟩⟩

theorem filterMap_decimalDigit {ds : List Nat} (small : ∀ d ∈ ds, d < 10) :
    (ds.map decimalDigit).filterMap decimalValue? = ds := by
  induction ds with
  | nil => rfl
  | cons d ds ih =>
      rw [List.map_cons, List.filterMap_cons, decimalValue?_decimalDigit,
        Nat.mod_eq_of_lt (small d List.mem_cons_self),
        ih fun d among => small d (List.mem_cons_of_mem _ among)]

/-- A text of which the first character that is no digit comes behind a run of digits. -/
theorem takeWhile_isDecimal {cs rest : List Char} (digits : ∀ c ∈ cs, isDecimal c = true)
    (ends : ∀ c ∈ rest.head?, isDecimal c = false) :
    (cs ++ rest).takeWhile isDecimal = cs ∧ (cs ++ rest).dropWhile isDecimal = rest := by
  rw [List.takeWhile_append_of_pos digits, List.dropWhile_append_of_pos digits]
  cases rest with
  | nil => simp
  | cons c rest => simp [ends c rfl]

theorem length_fixed (width n : Nat) : (fixed width n).length = width := by
  induction width generalizing n with
  | zero => rfl
  | succ width ih => rw [fixed, List.length_append, ih, List.length_singleton]

theorem isDecimal_of_mem_fixed {width n : Nat} {c : Char} (among : c ∈ fixed width n) :
    isDecimal c = true := by
  induction width generalizing n with
  | zero => cases among
  | succ width ih =>
      rw [fixed, List.mem_append, List.mem_singleton] at among
      obtain before | rfl := among
      · exact ih before
      · exact isDecimal_decimalDigit n

theorem ofDigits_fixed (width n : Nat) :
    ofDigits 10 0 ((fixed width n).filterMap decimalValue?) = n % 10 ^ width := by
  induction width generalizing n with
  | zero => simp [fixed, ofDigits, Nat.mod_one]
  | succ width ih =>
      have last : List.filterMap decimalValue? [decimalDigit n] = [n % 10] := by
        rw [List.filterMap_cons, decimalValue?_decimalDigit, List.filterMap_nil]
      rw [fixed, List.filterMap_append, last, ofDigits_append, ih, Nat.pow_succ', Nat.mod_mul]
      omega

theorem length_fixedHex (width n : Nat) : (fixedHex width n).length = width := by
  induction width generalizing n with
  | zero => rfl
  | succ width ih => rw [fixedHex, List.length_append, ih, List.length_singleton]

theorem hexValue?_of_mem_fixedHex {width n : Nat} {c : Char} (among : c ∈ fixedHex width n) :
    (hexValue? c).isSome = true := by
  induction width generalizing n with
  | zero => cases among
  | succ width ih =>
      rw [fixedHex, List.mem_append, List.mem_singleton] at among
      obtain before | rfl := among
      · exact ih before
      · rw [hexValue?_hexDigit]
        rfl

/-- Hexadecimal digits of a fixed number are read back. -/
theorem mapM_fixedHex (width n : Nat) :
    ∃ ds, (fixedHex width n).mapM hexValue? = some ds ∧ ofDigits 16 0 ds = n % 16 ^ width := by
  induction width generalizing n with
  | zero => exact ⟨[], rfl, by simp [ofDigits, Nat.mod_one]⟩
  | succ width ih =>
      obtain ⟨ds, read, value⟩ := ih (n / 16)
      refine ⟨ds ++ [n % 16], ?_, ?_⟩
      · rw [fixedHex, List.mapM_append, read]
        simp [hexValue?_hexDigit]
      · rw [ofDigits_append, value, Nat.pow_succ', Nat.mod_mul]
        omega

end Roomcast.Text
