import Roomcast.Proofs.Spelling

/-!
# From spellings to tokens

The lexer reads a text as tokens just if the text is laid out from them, provided that no two words
touch: a number or a literal name ends only where something else begins. Strings may hold any
characters, and halves of surrogate pairs besides.
-/

namespace Roomcast.Json

theorem takeDigits_append {ds : List Nat} {rest : List Char} (small : ∀ d ∈ ds, d < 10)
    (ends : ∀ c ∈ rest.head?, Text.isDecimal c = false) :
    takeDigits (ds.map Text.decimalDigit ++ rest) = (ds, rest) := by
  have digits : ∀ c ∈ ds.map Text.decimalDigit, Text.isDecimal c = true := by
    intro c among
    obtain ⟨d, _, rfl⟩ := List.mem_map.1 among
    exact Text.isDecimal_decimalDigit d
  obtain ⟨taken, left⟩ := Text.takeWhile_isDecimal digits ends
  rw [takeDigits, taken, left, Text.filterMap_decimalDigit small]

theorem takeDigits_map {ds : List Nat} (small : ∀ d ∈ ds, d < 10) :
    takeDigits (ds.map Text.decimalDigit) = (ds, []) := by
  have taken : takeDigits (ds.map Text.decimalDigit ++ []) = (ds, []) :=
    takeDigits_append small (by simp)
  rwa [List.append_nil] at taken

theorem takeDigits_eq {s rest : List Char} {ds : List Nat} (taken : takeDigits s = (ds, rest)) :
    s = ds.map Text.decimalDigit ++ rest ∧ ∀ d ∈ ds, d < 10 := by
  obtain ⟨rfl, rfl⟩ := Prod.mk.inj taken
  have digits : ∀ c ∈ s.takeWhile Text.isDecimal, Text.isDecimal c = true :=
    List.all_eq_true.1 List.all_takeWhile
  obtain ⟨written, small⟩ := Text.map_decimalDigit digits
  exact ⟨by rw [written, List.takeWhile_append_dropWhile], small⟩

namespace Numeral

variable {n : Numeral} {ds : List Nat} {s w rest : List Char} {e : Option Int}

theorem whole?_append (h : IsWhole ds) (ends : ∀ c ∈ rest.head?, Text.isDecimal c = false) :
    whole? (ds.map Text.decimalDigit ++ rest) = some (ds, rest) := by
  rw [whole?, takeDigits_append h.small ends]
  cases whole : ds with
  | nil => exact absurd whole h.ne_nil
  | cons d ds =>
      cases ds with
      | nil => cases d <;> rfl
      | cons d' ds =>
          cases d with
          | zero => exact absurd (h.lone_zero _ whole) (by simp)
          | succ d => rfl

theorem whole?_eq_some (read : whole? s = some (ds, rest)) :
    s = ds.map Text.decimalDigit ++ rest ∧ IsWhole ds := by
  rw [whole?] at read
  split at read
  case h_1 | h_2 => cases read
  case h_3 nonempty zeros taken =>
    obtain ⟨rfl, rfl⟩ := Prod.mk.inj (Option.some.inj read)
    obtain ⟨whole, small⟩ := takeDigits_eq taken
    refine ⟨whole, nonempty, small, ?_⟩
    rintro (_ | ⟨d, rest⟩) same
    · rfl
    · exact (zeros d rest same).elim

theorem fraction?_append (h : SpelledFraction ds w)
    (ends : ∀ c ∈ rest.head?, Text.isDecimal c = false ∧ c ≠ '.') :
    fraction? (w ++ rest) = some (ds, rest) := by
  cases h with
  | none =>
      -- Nothing is read, since what follows does not begin with a point.
      rw [List.nil_append, fraction?]
      rintro rest' rfl
      exact (ends '.' rfl).2 rfl
  | point nonempty small =>
      rw [List.cons_append, fraction?, takeDigits_append small fun c first => (ends c first).1]
      cases ds with
      | nil => exact absurd rfl nonempty
      | cons d ds => rfl

theorem fraction?_eq_some (read : fraction? s = some (ds, rest)) :
    ∃ w, s = w ++ rest ∧ SpelledFraction ds w := by
  rw [fraction?.eq_def] at read
  split at read
  case h_1 s =>
    split at read
    case h_1 => cases read
    case h_2 nonempty taken =>
      obtain ⟨rfl, rfl⟩ := Prod.mk.inj (Option.some.inj read)
      obtain ⟨rfl, small⟩ := takeDigits_eq taken
      exact ⟨_, (List.cons_append ..).symm, .point nonempty small⟩
  case h_2 =>
    obtain ⟨rfl, rfl⟩ := Prod.mk.inj (Option.some.inj read)
    exact ⟨[], rfl, .none⟩

theorem power?_map (nonempty : ds ≠ []) (small : ∀ d ∈ ds, d < 10) :
    power? (ds.map Text.decimalDigit) = some (Text.ofDigits 10 0 ds) := by
  rw [power?, takeDigits_map small]
  cases ds with
  | nil => exact absurd rfl nonempty
  | cons d ds => rfl

theorem power?_eq_some {k : Nat} (read : power? s = some k) : ∃ ds, ds ≠ [] ∧ (∀ d ∈ ds, d < 10) ∧
    s = ds.map Text.decimalDigit ∧ k = Text.ofDigits 10 0 ds := by
  rw [power?] at read
  split at read
  case h_1 | h_3 => cases read
  case h_2 ds nonempty taken =>
    obtain rfl := Option.some.inj read
    obtain ⟨whole, small⟩ := takeDigits_eq taken
    exact ⟨ds, nonempty, small, by rw [whole, List.append_nil], rfl⟩

theorem exponent?_spelled (h : SpelledPower e w) : exponent? w = some e := by
  cases h with
  | none => rfl
  | @positive l sign ds letter optional nonempty small =>
      have power := power?_map nonempty small
      rw [exponent?.eq_def]
      dsimp only
      rw [if_pos letter]
      obtain rfl | rfl := optional
      · have digits : ∀ c ∈ ds.map Text.decimalDigit, Text.isDecimal c = true := by
          intro c among
          obtain ⟨d, _, rfl⟩ := List.mem_map.1 among
          exact Text.isDecimal_decimalDigit d
        rw [List.nil_append]
        -- The first character is a digit and no sign.
        split
        case h_1 same | h_2 same =>
          rw [same] at digits
          exact absurd (digits _ List.mem_cons_self) (by decide)
        case h_3 =>
          rw [power]
          rfl
      · show (power? (ds.map Text.decimalDigit) >>= fun n => pure (n : Int)).map _ = _
        rw [power]
        rfl
  | negative letter nonempty small =>
      rw [exponent?.eq_def]
      dsimp only
      rw [if_pos letter]
      show (power? (List.map Text.decimalDigit _) >>= fun n => pure (n : Int)).map _ = _
      rw [power?_map nonempty small]
      rfl

theorem exponent?_eq_some (read : exponent? s = some e) : SpelledPower e s := by
  rw [exponent?.eq_def] at read
  split at read
  case h_1 =>
    obtain rfl := Option.some.inj read
    exact .none
  case h_2 c rest =>
    rw [Option.ite_none_right_eq_some] at read
    obtain ⟨letter, read⟩ := read
    split at read
    all_goals
      obtain ⟨_, lifted, rfl⟩ := Option.map_eq_some_iff.1 read
      obtain ⟨k, digits, same⟩ := Option.bind_eq_some_iff.1 lifted
      obtain rfl := Option.some.inj same
      obtain ⟨ds, nonempty, small, rfl, rfl⟩ := power?_eq_some digits
    · exact .negative letter nonempty small
    · exact .positive letter (.inr rfl) nonempty small
    · exact .positive letter (.inl rfl) nonempty small

/-- No digit stands at the beginning of a power, nor does a point. -/
theorem SpelledPower.head (h : SpelledPower e w) :
    ∀ c ∈ w.head?, Text.isDecimal c = false ∧ c ≠ '.' := by
  have letters : ∀ l : Char, l = 'e' ∨ l = 'E' → Text.isDecimal l = false ∧ l ≠ '.' := by
    rintro l (rfl | rfl) <;> decide
  cases h with
  | none => simp
  | positive letter | negative letter =>
      rintro c ⟨⟩
      exact letters _ letter

theorem head_fraction_power (fraction : SpelledFraction ds s) (power : SpelledPower e w) :
    ∀ c ∈ (s ++ w).head?, Text.isDecimal c = false := by
  cases fraction with
  | none => exact fun c first => (power.head c first).1
  | point =>
      rintro c ⟨⟩
      decide

/-- A text is read as a number if it is one of its spellings. -/
theorem ofWord?_eq_some : ofWord? w = some n ↔ n.Spelled w := by
  constructor
  · intro read
    rw [ofWord?.eq_def] at read
    split at read
    rename_i negative s₀ sign
    have signed : w = (if negative then ['-'] else []) ++ s₀ := by
      split at sign <;> cases sign <;> rfl
    simp only [Option.bind_eq_bind, Option.bind_eq_some_iff, Prod.exists] at read
    obtain ⟨whole, s₁, readWhole, fraction, s₂, readFraction, exponent, readPower, same⟩ := read
    obtain rfl := Option.some.inj same
    obtain ⟨rfl, isWhole⟩ := whole?_eq_some readWhole
    obtain ⟨point, rfl, spelledFraction⟩ := fraction?_eq_some readFraction
    rw [signed]
    exact .parts isWhole spelledFraction (exponent?_eq_some readPower)
  · rintro ⟨whole, fraction, exponent⟩
    rename_i point power
    have readWhole := whole?_append whole (head_fraction_power fraction exponent)
    have readFraction := fraction?_append fraction exponent.head
    have readPower := exponent?_spelled exponent
    cases negative : n.negative with
    | true =>
        simp only [if_pos, List.singleton_append, ofWord?, readWhole, readFraction, readPower,
          Option.bind_eq_bind, Option.bind_some, Option.pure_def, ← negative]
    | false =>
        rw [if_neg Bool.false_ne_true, List.nil_append, ofWord?]
        · simp only [readWhole, readFraction, readPower, Option.bind_eq_bind, Option.bind_some,
            Option.pure_def, ← negative]
        · -- The first character is a digit and no sign.
          intro rest same
          cases digits : n.whole with
          | nil => exact absurd digits whole.ne_nil
          | cons d ds =>
              have digit := Text.isDecimal_decimalDigit d
              rw [digits, List.map_cons, List.cons_append] at same
              rw [(List.cons.inj same).1] at digit
              exact absurd digit (by decide)

end Numeral

theorem isWordChar_decimalDigit (d : Nat) : isWordChar (Text.decimalDigit d) = true := by
  simp [isWordChar]

theorem isWordChar_of_mem_digits {ds : List Nat} {c : Char}
    (among : c ∈ ds.map Text.decimalDigit) : isWordChar c = true := by
  obtain ⟨d, _, rfl⟩ := List.mem_map.1 among
  exact isWordChar_decimalDigit d

theorem Numeral.SpelledPower.isWordChar_of_mem {e : Option Int} {w : List Char} {c : Char}
    (h : SpelledPower e w) (among : c ∈ w) : isWordChar c = true := by
  have letters : ∀ l : Char, l = 'e' ∨ l = 'E' → isWordChar l = true := by
    rintro l (rfl | rfl) <;> decide
  cases h with
  | none => cases among
  | positive letter optional =>
      rw [List.mem_cons, List.mem_append] at among
      obtain rfl | sign | digits := among
      · exact letters _ letter
      · obtain rfl | rfl := optional
        · cases sign
        · obtain rfl := List.mem_singleton.1 sign
          decide
      · exact isWordChar_of_mem_digits digits
  | negative letter =>
      rw [List.mem_cons, List.mem_cons] at among
      obtain rfl | rfl | digits := among
      · exact letters _ letter
      · decide
      · exact isWordChar_of_mem_digits digits

theorem Numeral.Spelled.isWordChar_of_mem {n : Numeral} {w : List Char} {c : Char}
    (h : n.Spelled w) (among : c ∈ w) : isWordChar c = true := by
  obtain ⟨whole, fraction, exponent⟩ := h
  clear whole
  generalize n.fraction = ds at fraction
  simp only [List.mem_append] at among
  obtain sign | whole | point | power := among
  · split at sign
    · obtain rfl := List.mem_singleton.1 sign
      decide
    · cases sign
  · exact isWordChar_of_mem_digits whole
  · cases fraction with
    | none => cases point
    | point =>
        obtain rfl | digits := List.mem_cons.1 point
        · decide
        · exact isWordChar_of_mem_digits digits
  · exact exponent.isWordChar_of_mem power

theorem isSpace_of_isWordChar {c : Char} (word : isWordChar c = true) : isSpace c = false := by
  by_contra space
  rw [Bool.not_eq_false, isSpace] at space
  simp only [Bool.or_eq_true, beq_iff_eq] at space
  obtain ((rfl | rfl) | rfl) | rfl := space <;> exact absurd word (by decide)

namespace Token

variable {t : Token} {w : List Char}

/-- A text is read as a word if it is one of its spellings. -/
theorem ofWord?_eq_some : ofWord? w = some t ↔ t.isWord = true ∧ t.Spelled w := by
  constructor
  · intro read
    rw [ofWord?] at read
    split_ifs at read with null true' false'
    · cases read
      exact ⟨rfl, null⟩
    · cases read
      exact ⟨rfl, true'⟩
    · cases read
      exact ⟨rfl, false'⟩
    · obtain ⟨n, number, rfl⟩ := Option.map_eq_some_iff.1 read
      exact ⟨rfl, Numeral.ofWord?_eq_some.1 number⟩
  · rintro ⟨word, spelled⟩
    cases t with
    | null =>
        obtain rfl : w = _ := spelled
        decide
    | bool b =>
        obtain rfl : w = _ := spelled
        cases b <;> decide
    | number n =>
        have read := Numeral.ofWord?_eq_some.2 spelled
        -- A text that is read as a number is no literal name.
        have other : ∀ name : List Char, Numeral.ofWord? name = none → w ≠ name := by
          rintro name unread rfl
          rw [read] at unread
          cases unread
        rw [ofWord?, if_neg (other _ (by decide)), if_neg (other _ (by decide)),
          if_neg (other _ (by decide)), read, Option.map_some]
    | _ => cases word

theorem Spelled.isWordChar_of_mem (h : t.Spelled w) (word : t.isWord = true) {c : Char}
    (among : c ∈ w) : isWordChar c = true := by
  cases t with
  | null =>
      obtain rfl : w = _ := h
      have all : (render .null).all isWordChar = true := by decide
      exact List.all_eq_true.1 all c among
  | bool b =>
      obtain rfl : w = _ := h
      have all : (render (.bool b)).all isWordChar = true := by cases b <;> decide
      exact List.all_eq_true.1 all c among
  | number n => exact Numeral.Spelled.isWordChar_of_mem h among
  | _ => cases word

theorem Spelled.ne_nil_of_isWord (h : t.Spelled w) (word : t.isWord = true) : w ≠ [] := by
  rintro rfl
  have read := ofWord?_eq_some.2 ⟨word, h⟩
  rw [show ofWord? [] = none by decide] at read
  cases read

end Token

namespace Lexer

variable {l : Lexer} {ts : List Token} {t : Token}

def read? (l : Lexer) (cs : List Char) : Option Lexer := cs.foldlM step? l

theorem read?_append (l : Lexer) (cs ds : List Char) :
    l.read? (cs ++ ds) = (l.read? cs).bind (·.read? ds) := List.foldlM_append

theorem read?_cons (l : Lexer) (c : Char) (cs : List Char) :
    l.read? (c :: cs) = (l.step? c).bind (·.read? cs) := List.foldlM_cons

theorem step?_word (ts : List Token) (cs : List Char) (c : Char) :
    (⟨ts, .word cs⟩ : Lexer).step? c =
      if isWordChar c then some ⟨ts, .word (c :: cs)⟩
      else (Token.ofWord? cs.reverse).bind fun t => begin? (t :: ts) c := rfl

/-- The lexer has read some tokens, latest first. The latest one may be a word that is not known to
be complete. -/
inductive Has : Lexer → List Token → Prop
  | between (ts : List Token) : Has ⟨ts, .between⟩ ts
  | word {ts : List Token} {t : Token} {cs : List Char} (read : Token.ofWord? cs.reverse = some t) :
      Has ⟨ts, .word cs⟩ (t :: ts)

/-- At the end of a text the tokens are what has been read. -/
theorem Has.finish (h : l.Has ts) : l.finish? = some ts.reverse := by
  cases h with
  | between => rfl
  | word read => simp only [finish?, read, Option.map_some]

/-- A character that belongs to no word begins the next token. -/
theorem Has.step (h : l.Has ts) {c : Char} (other : isWordChar c = false) :
    l.step? c = begin? ts c := by
  cases h with
  | between => rfl
  | word read => rw [step?_word, other, if_neg Bool.false_ne_true, read, Option.bind_some]

theorem read?_inWord {cs ds : List Char} (word : ∀ c ∈ ds, isWordChar c = true) :
    (⟨ts, .word cs⟩ : Lexer).read? ds = some ⟨ts, .word (ds.reverse ++ cs)⟩ := by
  induction ds generalizing cs with
  | nil => rfl
  | cons d ds ih =>
      rw [read?_cons, step?_word, if_pos (word d List.mem_cons_self), Option.bind_some,
        ih fun c among => word c (List.mem_cons_of_mem _ among)]
      simp

theorem read?_word {w : List Char} (h : t.Spelled w) (word : t.isWord = true) :
    ∃ l, (⟨ts, .between⟩ : Lexer).read? w = some l ∧ l.Has (t :: ts) := by
  have chars : ∀ c ∈ w, isWordChar c = true := fun c => h.isWordChar_of_mem word
  have read := Token.ofWord?_eq_some.2 ⟨word, h⟩
  cases w with
  | nil => exact absurd rfl (h.ne_nil_of_isWord word)
  | cons c cs =>
      have first := chars c List.mem_cons_self
      refine ⟨⟨ts, .word (cs.reverse ++ [c])⟩, ?_, .word ?_⟩
      · rw [read?_cons, step?, begin?, isSpace_of_isWordChar first, if_neg Bool.false_ne_true,
          if_pos first, Option.bind_some,
          read?_inWord fun c among => chars c (List.mem_cons_of_mem _ among)]
      · simpa using read

variable {ps : List Piece}

/-- A unit of 16 bits is read from its four digits. -/
theorem read?_unit {digits : List Char} {ds : List Nat} (four : digits.length = 4)
    (read : digits.mapM Text.hexValue? = some ds) :
    (⟨ts, .string ps (.unit 0 0)⟩ : Lexer).read? digits =
      some ⟨ts, .string (pieceOfUnit (Text.ofDigits 16 0 ds) :: ps) .plain⟩ := by
  obtain ⟨a, b, c, d, rfl⟩ := List.length_eq_four.1 four
  simp only [List.mapM_cons, List.mapM_nil, Option.bind_eq_bind, Option.bind_eq_some_iff,
    Option.pure_def, Option.some.injEq] at read
  obtain ⟨a', first, _, ⟨b', second, _, ⟨c', third, _, ⟨d', fourth, _, rfl, rfl⟩, rfl⟩, rfl⟩,
    rfl⟩ := read
  simp only [read?_cons, step?, string?, first, second, third, fourth, Option.map_some,
    Option.bind_some, Nat.reduceAdd, Nat.reduceEqDiff, if_false, if_true, OfNat.zero_ne_ofNat]
  rfl

theorem unescape?_eq_some {l c : Char} : unescape? l = some c ↔ (l, c) ∈ Piece.letters := by
  constructor
  · intro read
    rw [unescape?] at read
    split_ifs at read with itself
    · obtain rfl := Option.some.inj read
      obtain rfl | rfl | rfl := itself <;> decide
    all_goals
      subst_vars
      cases read
      decide
  · intro among
    simp only [Piece.letters, List.mem_cons, Prod.mk.injEq, List.not_mem_nil, or_false] at among
    obtain h | h | h | h | h | h | h | h := among <;> obtain ⟨rfl, rfl⟩ := h <;> decide

theorem read?_piece {p : Piece} {w : List Char} (h : p.Spelled w) :
    (⟨ts, .string ps .plain⟩ : Lexer).read? w = some ⟨ts, .string (p :: ps) .plain⟩ := by
  cases h with
  | plain quote backslash visible =>
      rename_i c
      have step : (⟨ts, .string ps .plain⟩ : Lexer).step? c =
          some ⟨ts, .string (.char c :: ps) .plain⟩ := by
        simp only [step?, string?, if_neg quote, if_neg backslash, if_neg visible]
      rw [read?_cons, step]
      rfl
  | @letter l c among =>
      have other : l ≠ 'u' := by
        rintro rfl
        exact absurd among (by simp [Piece.letters])
      have unescaped : (⟨ts, .string ps .slash⟩ : Lexer).step? l =
          some ⟨ts, .string (.char c :: ps) .plain⟩ := by
        simp only [step?, string?, if_neg other, unescape?_eq_some.2 among, Option.map_some]
      show (⟨ts, .string ps .slash⟩ : Lexer).read? [l] = _
      rw [read?_cons, unescaped]
      rfl
  | unit four read => exact read?_unit four read

theorem read?_pieces {s : List Piece} {cs : List Char} (h : Piece.Spell s cs) :
    (⟨ts, .string ps .plain⟩ : Lexer).read? cs = some ⟨ts, .string (s.reverse ++ ps) .plain⟩ := by
  obtain ⟨ws, each, rfl⟩ := h
  induction each generalizing ps with
  | nil => rfl
  | cons first rest ih =>
      rw [List.flatten_cons, read?_append, read?_piece first, Option.bind_some, ih]
      simp

/-- A token that is no word is read wherever a token may begin. -/
theorem begin?_token {w : List Char} (ts : List Token) (h : t.Spelled w)
    (other : t.isWord = false) : ∃ c cs, w = c :: cs ∧ isWordChar c = false ∧
      (begin? ts c).bind (·.read? cs) = some ⟨t :: ts, .between⟩ := by
  cases t with
  | string s =>
      obtain ⟨cs, spelled, rfl⟩ := h
      refine ⟨'"', _, rfl, by decide, ?_⟩
      show (⟨ts, .string [] .plain⟩ : Lexer).read? (cs ++ ['"']) = _
      rw [read?_append, read?_pieces spelled, Option.bind_some, List.append_nil]
      show some (⟨.string s.reverse.reverse :: ts, .between⟩ : Lexer) = _
      rw [List.reverse_reverse]
  | openArray | closeArray | openObject | closeObject | comma | colon =>
      obtain rfl : w = _ := h
      exact ⟨_, [], rfl, by decide, rfl⟩
  | null | bool | number => cases other

/-- A token is read behind tokens with which it does not run together. -/
theorem Has.token {w : List Char} (h : l.Has ts) (spelled : t.Spelled w)
    (apart : ∀ u ∈ ts.head?, Token.Apart u t) :
    ∃ l', l.read? w = some l' ∧ l'.Has (t :: ts) := by
  cases word : t.isWord with
  | false =>
      obtain ⟨c, cs, rfl, other, reads⟩ := begin?_token ts spelled word
      exact ⟨_, by rw [read?_cons, h.step other, reads], .between _⟩
  | true =>
      cases h with
      | between => exact read?_word spelled word
      | @word ts u cs read =>
          -- Two words do not touch.
          have never := apart u rfl
          have first := (Token.ofWord?_eq_some.1 read).1
          simp [Token.Apart, word, first] at never

/-- White space is passed over. -/
theorem Has.space {c : Char} (h : l.Has ts) (blank : isSpace c = true) :
    ∃ l', l.step? c = some l' ∧ l'.Has ts := by
  have other : isWordChar c = false := by
    by_contra word
    rw [isSpace_of_isWordChar (Bool.eq_true_of_not_eq_false word)] at blank
    cases blank
  refine ⟨⟨ts, .between⟩, ?_, .between ts⟩
  rw [h.step other, begin?, if_pos blank]

/-- A text is read as the tokens that it is laid out from. -/
theorem has_of_laid {s : List Char} (laid : Laid ts s) (apart : ts.IsChain Token.Apart) :
    ∃ l, start.read? s = some l ∧ l.Has ts.reverse := by
  induction laid with
  | start => exact ⟨start, rfl, .between []⟩
  | space before blank ih =>
      obtain ⟨l, read, has⟩ := ih apart
      obtain ⟨l', step, has'⟩ := has.space blank
      refine ⟨l', ?_, has'⟩
      rw [read?_append, read, Option.bind_some, read?_cons, step]
      rfl
  | @token ts s w t before spelled ih =>
      obtain ⟨chain, _, touching⟩ := List.isChain_append.1 apart
      obtain ⟨l, read, has⟩ := ih chain
      obtain ⟨l', reads, has'⟩ := has.token spelled fun u last =>
        touching u (by rwa [List.head?_reverse] at last) t rfl
      refine ⟨l', ?_, by rwa [List.reverse_append]⟩
      rw [read?_append, read, Option.bind_some, reads]

/-- What stands in a string behind its last complete piece. -/
inductive Begun : Escape → List Char → Prop
  | plain : Begun .plain []
  | slash : Begun .slash ['\\']
  | unit {digits : List Char} {ds : List Nat} (few : digits.length < 4)
      (read : digits.mapM Text.hexValue? = some ds) :
      Begun (.unit digits.length (Text.ofDigits 16 0 ds)) ('\\' :: 'u' :: digits)

/-- The lexer has come to the end of a text. -/
inductive Past : Lexer → List Char → Prop
  | between {ts : List Token} {s : List Char} (laid : Laid ts.reverse s) : Past ⟨ts, .between⟩ s
  | word {ts : List Token} {s cs : List Char} (laid : Laid ts.reverse s) :
      Past ⟨ts, .word cs⟩ (s ++ cs.reverse)
  | string {ts : List Token} {ps : List Piece} {e : Escape} {s cs tail : List Char}
      (laid : Laid ts.reverse s) (spelled : Piece.Spell ps.reverse cs) (begun : Begun e tail) :
      Past ⟨ts, .string ps e⟩ (s ++ '"' :: (cs ++ tail))

theorem spelled_of_punctuation? {c : Char} (read : punctuation? c = some t) : t.Spelled [c] := by
  rw [punctuation?] at read
  split_ifs at read <;> subst_vars <;> cases read <;> exact rfl

theorem Past.begin {s : List Char} {c : Char} (laid : Laid ts.reverse s)
    (began : begin? ts c = some l) : Past l (s ++ [c]) := by
  rw [begin?] at began
  split_ifs at began with blank word quote
  · obtain rfl := Option.some.inj began
    exact .between (laid.space blank)
  · obtain rfl := Option.some.inj began
    exact .word laid
  · obtain rfl := Option.some.inj began
    obtain rfl := quote
    show Past _ (s ++ '"' :: ([] ++ []))
    exact .string laid .nil .plain
  · obtain ⟨t, read, rfl⟩ := Option.map_eq_some_iff.1 began
    refine .between ?_
    rw [List.reverse_cons]
    exact laid.token (spelled_of_punctuation? read)

/-- A piece of a string is complete. -/
theorem Past.piece {p : Piece} {s cs w : List Char} (laid : Laid ts.reverse s)
    (spelled : Piece.Spell ps.reverse cs) (own : p.Spelled w) :
    Past ⟨ts, .string (p :: ps) .plain⟩ (s ++ '"' :: (cs ++ w)) := by
  have more : Piece.Spell (p :: ps).reverse (cs ++ w) := by
    rw [List.reverse_cons]
    exact spelled.snoc own
  have whole := Past.string laid more .plain
  rwa [List.append_nil] at whole

theorem Past.string? {s cs tail : List Char} {e : Escape} {c : Char}
    (laid : Laid ts.reverse s) (spelled : Piece.Spell ps.reverse cs) (begun : Begun e tail)
    (stepped : string? ts ps e c = some l) : Past l (s ++ '"' :: (cs ++ tail) ++ [c]) := by
  rw [List.append_assoc, List.cons_append, List.append_assoc]
  cases begun with
  | plain =>
      rw [string?.eq_1] at stepped
      split_ifs at stepped with quote backslash control
      · obtain rfl := Option.some.inj stepped
        obtain rfl := quote
        refine .between ?_
        rw [List.reverse_cons]
        exact laid.token ⟨cs, spelled, rfl⟩
      · obtain rfl := Option.some.inj stepped
        obtain rfl := backslash
        exact .string laid spelled .slash
      · obtain rfl := Option.some.inj stepped
        exact Past.piece laid spelled (.plain quote backslash control)
  | slash =>
      rw [string?.eq_2] at stepped
      split_ifs at stepped with unit
      · obtain rfl := Option.some.inj stepped
        obtain rfl := unit
        have few : ([] : List Char).length < 4 := by decide
        exact .string laid spelled (.unit few rfl)
      · obtain ⟨d, read, rfl⟩ := Option.map_eq_some_iff.1 stepped
        exact Past.piece laid spelled (.letter (unescape?_eq_some.1 read))
  | @unit digits ds few read =>
      rw [string?.eq_3] at stepped
      obtain ⟨d, digit, same⟩ := Option.map_eq_some_iff.1 stepped
      have more : (digits ++ [c]).mapM Text.hexValue? = some (ds ++ [d]) := by
        rw [List.mapM_append, read, List.mapM_cons, digit]
        rfl
      have length : (digits ++ [c]).length = digits.length + 1 := List.length_append
      rw [← Text.ofDigits_append] at same
      split_ifs at same with last
      · have four : (digits ++ [c]).length = 4 := by omega
        rw [← same]
        exact Past.piece laid spelled (.unit four more)
      · have few' : (digits ++ [c]).length < 4 := by omega
        rw [← same, ← length]
        exact .string laid spelled (.unit few' more)

theorem Past.step {s : List Char} {c : Char} {l' : Lexer} (h : l.Past s)
    (stepped : l.step? c = some l') : l'.Past (s ++ [c]) := by
  cases h with
  | between laid => exact .begin laid stepped
  | @word ts s cs laid =>
      rw [step?_word] at stepped
      split_ifs at stepped with word
      · obtain rfl := Option.some.inj stepped
        rw [List.append_assoc, ← List.reverse_cons]
        exact .word laid
      · obtain ⟨t, read, began⟩ := Option.bind_eq_some_iff.1 stepped
        refine .begin ?_ began
        rw [List.reverse_cons]
        exact laid.token (Token.ofWord?_eq_some.1 read).2
  | string laid spelled begun => exact .string? laid spelled begun stepped

theorem Past.read {s cs : List Char} {l' : Lexer} (h : l.Past s) (read : l.read? cs = some l') :
    l'.Past (s ++ cs) := by
  induction cs generalizing l s with
  | nil =>
      obtain rfl := Option.some.inj read
      rwa [List.append_nil]
  | cons c cs ih =>
      rw [read?_cons] at read
      obtain ⟨l₁, stepped, read⟩ := Option.bind_eq_some_iff.1 read
      rw [List.append_cons]
      exact ih (h.step stepped) read

theorem Past.finish {s : List Char} (h : l.Past s) (finished : l.finish? = some ts) :
    Laid ts s := by
  cases h with
  | between laid =>
      obtain rfl := Option.some.inj finished
      exact laid
  | word laid =>
      obtain ⟨t, read, rfl⟩ := Option.map_eq_some_iff.1 finished
      rw [List.reverse_cons]
      exact laid.token (Token.ofWord?_eq_some.1 read).2
  | string => cases finished

end Lexer

/-- A text is laid out from the tokens into which it is divided. -/
theorem laid_of_lex? {s : List Char} {ts : List Token} (read : lex? s = some ts) : Laid ts s := by
  obtain ⟨l, read, finished⟩ := Option.bind_eq_some_iff.1 read
  have start : Lexer.start.Past [] := .between Laid.start
  exact (start.read read).finish finished

/-- A text is divided into the tokens that it is laid out from, if no two words touch. -/
theorem lex?_of_laid {ts : List Token} {s : List Char} (laid : Laid ts s)
    (apart : ts.IsChain Token.Apart) : lex? s = some ts := by
  obtain ⟨l, read, has⟩ := Lexer.has_of_laid laid apart
  show (Lexer.read? Lexer.start s).bind Lexer.finish? = _
  rw [read, Option.bind_some, has.finish, List.reverse_reverse]

end Roomcast.Json
