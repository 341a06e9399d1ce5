import Roomcast.Json.Lexer
import Roomcast.Proofs.Digits

/-!
# Spellings

A token may be written in many ways. A character of a string stands for itself, or is written with
a backslash and a letter or with four hexadecimal digits; a number may have its power of ten with
either letter, with a sign or without, and with zeros in front. Tokens are laid out one behind the
other, and white space may stand before and behind each of them.

What the service itself writes is one of these spellings.
-/

namespace Roomcast.Json

namespace Piece

/-- The letters behind a backslash, each with the character that it stands for. -/
def letters : List (Char × Char) :=
  [('"', '"'), ('\\', '\\'), ('/', '/'), ('b', '\x08'), ('f', '\x0c'), ('n', '\n'), ('r', '\r'),
    ('t', '\t')]

/-- The ways to write a piece of a string. -/
inductive Spelled : Piece → List Char → Prop
  /-- A character stands for itself. -/
  | plain {c : Char} (quote : c ≠ '"') (backslash : c ≠ '\\') (visible : ¬ c.toNat < 0x20) :
      Spelled (.char c) [c]
  /-- A letter stands for a character. -/
  | letter {l c : Char} (among : (l, c) ∈ letters) : Spelled (.char c) ['\\', l]
  /-- Four digits stand for a unit of 16 bits. -/
  | unit {digits : List Char} {ds : List Nat} (four : digits.length = 4)
      (read : digits.mapM Text.hexValue? = some ds) :
      Spelled (Lexer.pieceOfUnit (Text.ofDigits 16 0 ds)) ('\\' :: 'u' :: digits)

/-- The ways to write the pieces of a string, without its quotes. -/
def Spell (s : List Piece) (cs : List Char) : Prop :=
  ∃ ws, List.Forall₂ Spelled s ws ∧ ws.flatten = cs

theorem Spell.nil : Spell [] [] := ⟨[], .nil, rfl⟩

theorem Spell.cons {p : Piece} {s : List Piece} {w cs : List Char} (first : p.Spelled w)
    (rest : Spell s cs) : Spell (p :: s) (w ++ cs) := by
  obtain ⟨ws, each, rfl⟩ := rest
  exact ⟨w :: ws, .cons first each, rfl⟩

theorem Spell.snoc {p : Piece} {s : List Piece} {w cs : List Char} (before : Spell s cs)
    (last : p.Spelled w) : Spell (s ++ [p]) (cs ++ w) := by
  obtain ⟨ws, each, rfl⟩ := before
  refine ⟨ws ++ [w], List.rel_append each (.cons last .nil), ?_⟩
  rw [List.flatten_append, List.flatten_singleton]

end Piece

namespace Numeral

inductive SpelledFraction : List Nat → List Char → Prop
  | none : SpelledFraction [] []
  | point {ds : List Nat} (some' : ds ≠ []) (small : ∀ d ∈ ds, d < 10) :
      SpelledFraction ds ('.' :: ds.map Text.decimalDigit)

inductive SpelledPower : Option Int → List Char → Prop
  | none : SpelledPower none []
  | positive {e : Char} {sign : List Char} {ds : List Nat} (letter : e = 'e' ∨ e = 'E')
      (optional : sign = [] ∨ sign = ['+']) (some' : ds ≠ []) (small : ∀ d ∈ ds, d < 10) :
      SpelledPower (some (Text.ofDigits 10 0 ds)) (e :: (sign ++ ds.map Text.decimalDigit))
  | negative {e : Char} {ds : List Nat} (letter : e = 'e' ∨ e = 'E') (some' : ds ≠ [])
      (small : ∀ d ∈ ds, d < 10) :
      SpelledPower (some (-(Text.ofDigits 10 0 ds : Nat))) (e :: '-' :: ds.map Text.decimalDigit)

/-- Digits before a point, of which the first is zero only if it is alone. -/
structure IsWhole (ds : List Nat) : Prop where
  ne_nil : ds ≠ []
  small : ∀ d ∈ ds, d < 10
  lone_zero : ∀ rest, ds = 0 :: rest → rest = []

/-- The ways to write a number. -/
inductive Spelled : Numeral → List Char → Prop
  | parts {n : Numeral} {point power : List Char} (whole : IsWhole n.whole)
      (fraction : SpelledFraction n.fraction point) (exponent : SpelledPower n.exponent power) :
      Spelled n ((if n.negative then ['-'] else []) ++
        (n.whole.map Text.decimalDigit ++ (point ++ power)))

end Numeral

namespace Token

def Spelled : Token → List Char → Prop
  | .number n, w => n.Spelled w
  | .string s, w => ∃ cs, Piece.Spell s cs ∧ w = '"' :: cs ++ ['"']
  | t, w => w = t.render

/-- Whether a token is a number or a literal name. -/
def isWord : Token → Bool
  | .null | .bool _ | .number _ => true
  | _ => false

/-- Two tokens that do not run together when they touch. -/
def Apart (t u : Token) : Prop := t.isWord = false ∨ u.isWord = false

end Token

/-- Tokens are laid out one behind the other, with white space wherever one likes. -/
inductive Laid : List Token → List Char → Prop
  | start : Laid [] []
  | space {ts : List Token} {s : List Char} {c : Char} (before : Laid ts s)
      (blank : isSpace c = true) : Laid ts (s ++ [c])
  | token {ts : List Token} {s w : List Char} {t : Token} (before : Laid ts s)
      (spelled : t.Spelled w) : Laid (ts ++ [t]) (s ++ w)

/-- A piece of a string that is read as one piece: a character, or half of a surrogate pair. -/
def Piece.IsWritten : Piece → Prop
  | .char _ => True
  | .half unit => isHighHalf unit = true ∨ isLowHalf unit = true

/-- A number with digits, of which the first is zero only if it is alone. -/
structure Numeral.IsWritten (n : Numeral) : Prop where
  whole_ne_nil : n.whole ≠ []
  whole_lt : ∀ d ∈ n.whole, d < 10
  lone_zero : ∀ ds, n.whole = 0 :: ds → ds = []
  fraction_lt : ∀ d ∈ n.fraction, d < 10

/-- A token whose number and string can be written. -/
def Token.IsWritten : Token → Prop
  | .number n => n.IsWritten
  | .string s => ∀ p ∈ s, p.IsWritten
  | _ => True

theorem Piece.mem_letters_of_shortEscape? {c l : Char} (short : shortEscape? c = some l) :
    (l, c) ∈ letters := by
  rw [shortEscape?] at short
  split_ifs at short <;> subst_vars <;> cases short <;> decide

/-- A unit of 16 bits may be written with four digits. -/
theorem Piece.spelled_unit {unit : Nat} (small : unit < 65536) :
    (Lexer.pieceOfUnit unit).Spelled ('\\' :: 'u' :: Text.fixedHex 4 unit) := by
  obtain ⟨ds, read, value⟩ := Text.mapM_fixedHex 4 unit
  rw [Nat.mod_eq_of_lt (show unit < 16 ^ 4 from small)] at value
  have spelled := Spelled.unit (Text.length_fixedHex 4 unit) read
  rwa [value] at spelled

theorem Piece.spelled_render {p : Piece} (h : p.IsWritten) : p.Spelled p.render := by
  cases p with
  | char c =>
      rw [render, renderChar]
      cases short : shortEscape? c with
      | some l => exact .letter (mem_letters_of_shortEscape? short)
      | none =>
          dsimp only
          split
          case isTrue control =>
            have whole : Lexer.pieceOfUnit c.toNat = .char c := by
              have half : (isHighHalf c.toNat || isLowHalf c.toNat) = false := by
                simp only [isHighHalf, isLowHalf, Bool.or_eq_false_iff, Bool.and_eq_false_iff,
                  decide_eq_false_iff_not]
                omega
              rw [Lexer.pieceOfUnit, half, if_neg Bool.false_ne_true, Char.ofNat_toNat]
            have small : c.toNat < 65536 := by omega
            have spelled := spelled_unit small
            rwa [whole] at spelled
          case isFalse visible =>
            refine .plain ?_ ?_ visible
            · rintro rfl
              exact absurd short (by decide)
            · rintro rfl
              exact absurd short (by decide)
  | half unit =>
      have half : (isHighHalf unit || isLowHalf unit) = true := by
        rw [Bool.or_eq_true]
        exact h
      have small : unit < 65536 := by
        simp only [isHighHalf, isLowHalf, Bool.or_eq_true, Bool.and_eq_true,
          decide_eq_true_eq] at half
        omega
      have spelled := spelled_unit small
      rwa [Lexer.pieceOfUnit, half, if_pos rfl] at spelled

theorem Piece.spell_render {s : List Piece} (h : ∀ p ∈ s, p.IsWritten) :
    Spell s (s.map render).flatten := by
  induction s with
  | nil => exact .nil
  | cons p s ih =>
      exact .cons (spelled_render (h p List.mem_cons_self))
        (ih fun q among => h q (List.mem_cons_of_mem _ among))

namespace Numeral

variable {n : Numeral}

def renderFraction (n : Numeral) : List Char :=
  if n.fraction.isEmpty then [] else '.' :: n.fraction.map Text.decimalDigit

def renderPower (n : Numeral) : List Char :=
  match n.exponent with
  | none => []
  | some e => 'e' :: (if e < 0 then '-' else '+') :: Text.decimal e.natAbs

theorem render_eq (n : Numeral) :
    n.render = (if n.negative then ['-'] else []) ++
      (n.whole.map Text.decimalDigit ++ (n.renderFraction ++ n.renderPower)) := by
  rw [render, renderFraction, renderPower]
  cases n.exponent <;> simp only [List.append_assoc]

theorem spelledFraction_render (h : n.IsWritten) :
    SpelledFraction n.fraction n.renderFraction := by
  have small := h.fraction_lt
  rw [renderFraction]
  cases fraction : n.fraction with
  | nil => exact .none
  | cons d ds =>
      rw [fraction] at small
      exact .point (List.cons_ne_nil d ds) small

theorem spelledPower_render (n : Numeral) : SpelledPower n.exponent n.renderPower := by
  rw [renderPower]
  cases n.exponent with
  | none => exact .none
  | some e =>
      have digits : ∀ d ∈ Text.digits e.natAbs, d < 10 := fun d => Text.digits_lt
      have value := Text.ofDigits_digits e.natAbs
      dsimp only
      split
      case isTrue below =>
        have spelled := SpelledPower.negative (.inl rfl) (Text.digits_ne_nil e.natAbs) digits
        rwa [value, ← Int.eq_neg_natAbs_of_nonpos below.le] at spelled
      case isFalse above =>
        have spelled :=
          SpelledPower.positive (.inl rfl) (.inr rfl) (Text.digits_ne_nil e.natAbs) digits
        rwa [value, Int.natAbs_of_nonneg (not_lt.1 above)] at spelled

theorem spelled_render (h : n.IsWritten) : n.Spelled n.render := by
  rw [render_eq]
  exact .parts ⟨h.whole_ne_nil, h.whole_lt, h.lone_zero⟩ (spelledFraction_render h)
    (spelledPower_render n)

end Numeral

theorem Token.spelled_render {t : Token} (h : t.IsWritten) : t.Spelled t.render := by
  cases t with
  | number n => exact Numeral.spelled_render h
  | string s => exact ⟨_, Piece.spell_render h, rfl⟩
  | _ => exact rfl

theorem Laid.append {ts us : List Token} {s : List Char} (before : Laid ts s)
    (written : ∀ u ∈ us, u.IsWritten) : Laid (ts ++ us) (s ++ (us.map Token.render).flatten) := by
  induction us generalizing ts s with
  | nil => simpa using before
  | cons u us ih =>
      have first := before.token (Token.spelled_render (written u List.mem_cons_self))
      have rest := ih first fun v among => written v (List.mem_cons_of_mem _ among)
      simpa using rest

end Roomcast.Json
