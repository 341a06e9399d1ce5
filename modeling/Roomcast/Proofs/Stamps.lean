import Roomcast.Calendar.Parser
import Roomcast.Proofs.Digits
import Roomcast.Uuid

/-!
# Identifiers and instants

An identifier is read back from its written form, and so is an instant, leap seconds and years of
any length included. The reader of an instant is generous, but what is written leaves it no choice:
each part ends where the mark of the next one stands.
-/

namespace Roomcast

namespace Uuid

theorem length_hyphenate (ks : List Nat) (s : List Char) :
    (hyphenate ks s).length = s.length + (ks.length - 1) := by
  induction ks generalizing s with
  | nil => rfl
  | cons k ks ih =>
      cases ks with
      | nil => rfl
      | cons k' ks =>
          rw [hyphenate, List.length_append, List.length_cons, ih, List.length_take,
            List.length_drop]
          · simp only [List.length_cons]
            omega
          · exact List.cons_ne_nil _ _

theorem mem_hyphenate {ks : List Nat} {s : List Char} {c : Char} (among : c ∈ hyphenate ks s) :
    c = '-' ∨ c ∈ s := by
  induction ks generalizing s with
  | nil => exact .inr among
  | cons k ks ih =>
      cases ks with
      | nil => exact .inr among
      | cons k' ks =>
          rw [hyphenate, List.mem_append, List.mem_cons] at among
          · obtain before | hyphen | behind := among
            · exact .inr (List.mem_of_mem_take before)
            · exact .inl hyphen
            · exact (ih behind).imp_right List.mem_of_mem_drop
          · exact List.cons_ne_nil _ _

theorem dehyphenate?_hyphenate {ks : List Nat} {s : List Char} (whole : s.length = ks.sum) :
    dehyphenate? ks (hyphenate ks s) = some s := by
  induction ks generalizing s with
  | nil =>
      obtain rfl := List.length_eq_zero_iff.1 whole
      rfl
  | cons k ks ih =>
      cases ks with
      | nil =>
          rw [List.sum_cons, List.sum_nil, Nat.add_zero] at whole
          rw [hyphenate, dehyphenate?, if_pos whole]
      | cons k' ks =>
          rw [List.sum_cons] at whole
          have first : (s.take k).length = k := List.length_take_of_le (by omega)
          have rest : (s.drop k).length = (k' :: ks).sum := by
            rw [List.length_drop]
            omega
          rw [hyphenate, dehyphenate?]
          · rw [List.drop_append_of_le_length first.ge, List.drop_of_length_le first.le,
              List.take_append_of_le_length first.ge, List.take_of_length_le first.le]
            show (dehyphenate? (k' :: ks) _).map _ = _
            rw [ih rest, Option.map_some, List.take_append_drop]
          · exact List.cons_ne_nil _ _
          · exact List.cons_ne_nil _ _

theorem ofHex?_fixedHex (u : Uuid) : ofHex? (Text.fixedHex 32 u.toNat) = some u := by
  obtain ⟨ds, read, value⟩ := Text.mapM_fixedHex 32 u.toNat
  have small : u.toNat < 16 ^ 32 := u.isLt
  have same : ofNat u.toNat = u := by
    obtain ⟨n, isLt⟩ := u
    simp only [ofNat, Nat.mod_eq_of_lt isLt]
  rw [ofHex?, if_pos (Text.length_fixedHex 32 u.toNat), read, Option.map_some, value,
    Nat.mod_eq_of_lt small, same]

/-- No identifier begins with a brace. -/
theorem brace_not_mem_render (u : Uuid) : '{' ∉ u.render := by
  intro among
  obtain hyphen | digit := mem_hyphenate among
  · exact absurd hyphen (by decide)
  · have hex := Text.hexValue?_of_mem_fixedHex digit
    exact absurd hex (by decide)

/-- An identifier is read back from its written form. -/
theorem parse?_render (u : Uuid) : parse? u.render = some u := by
  have length : u.render.length = 36 := by
    rw [render, length_hyphenate, Text.length_fixedHex]
    rfl
  have hyphenated : ofHyphenated? u.render = some u := by
    rw [ofHyphenated?, render, dehyphenate?_hyphenate (by rw [Text.length_fixedHex]; rfl),
      Option.bind_some, ofHex?_fixedHex]
  rw [parse?]
  · rw [if_neg (by omega), if_pos length, hyphenated]
  · intro rest braced
    exact u.brace_not_mem_render (braced ▸ List.mem_cons_self)

end Uuid

namespace Timestamp

open Text (isDecimal)

/-- The text that is left when a part has been read that ends with a digit. -/
def EndsDigits (rest : List Char) : Prop := ∀ c ∈ rest.head?, isDecimal c = false

theorem number?_append {cs rest : List Char} {width : Nat} (nonempty : cs ≠ [])
    (digits : ∀ c ∈ cs, isDecimal c = true) (fits : cs.length ≤ width) (ends : EndsDigits rest) :
    number? width (cs ++ rest) =
      some (Text.ofDigits 10 0 (cs.filterMap Text.decimalValue?), rest) := by
  obtain ⟨taken, _⟩ := Text.takeWhile_isDecimal digits ends
  rw [number?, taken, List.take_of_length_le fits]
  simp [nonempty]

theorem fixed_ne_nil {k : Nat} (wide : 0 < k) (n : Nat) : Text.fixed k n ≠ [] := by
  intro empty
  have length := Text.length_fixed k n
  rw [empty, List.length_nil] at length
  omega

/-- A number of a fixed width is read back. -/
theorem number?_fixed {width k n : Nat} {rest : List Char} (wide : 0 < k) (fits : k ≤ width)
    (small : n < 10 ^ k) (ends : EndsDigits rest) :
    number? width (Text.fixed k n ++ rest) = some (n, rest) := by
  rw [number?_append (fixed_ne_nil wide n) (fun _ => Text.isDecimal_of_mem_fixed)
    (by rw [Text.length_fixed]; exact fits) ends, Text.ofDigits_fixed, Nat.mod_eq_of_lt small]

theorem trimStart_cons {c : Char} {s : List Char} (dark : Text.isBlank c = false) :
    Text.trimStart (c :: s) = c :: s := by
  rw [Text.trimStart, List.dropWhile_cons_of_neg (by simp [dark])]

theorem isBlank_of_isDecimal {c : Char} (digit : isDecimal c = true) : Text.isBlank c = false := by
  obtain ⟨low, high⟩ := Text.isDecimal_iff.1 digit
  have low : 48 ≤ c.toNat := low
  have high : c.toNat ≤ 57 := high
  simp only [Text.isBlank, Text.blankRanges, List.any_cons, List.any_nil, Bool.or_false,
    Bool.or_eq_false_iff, Bool.and_eq_false_iff, decide_eq_false_iff_not]
  omega

theorem fixed_eq_cons {k : Nat} (wide : 0 < k) (n : Nat) :
    ∃ c cs, Text.fixed k n = c :: cs ∧ isDecimal c = true := by
  cases written : Text.fixed k n with
  | nil => exact absurd written (fixed_ne_nil wide n)
  | cons c cs =>
      exact ⟨c, cs, rfl, Text.isDecimal_of_mem_fixed (written ▸ List.mem_cons_self)⟩

theorem trimStart_fixed {k : Nat} (wide : 0 < k) (n : Nat) (rest : List Char) :
    Text.trimStart (Text.fixed k n ++ rest) = Text.fixed k n ++ rest := by
  obtain ⟨c, cs, written, digit⟩ := fixed_eq_cons wide n
  rw [written, List.cons_append, trimStart_cons (isBlank_of_isDecimal digit)]

theorem part?_fixed (mark : Char) {n : Nat} {rest : List Char}
    (dark : Text.isBlank mark = false) (small : n < 100) (ends : EndsDigits rest) :
    part? mark (mark :: (Text.fixed 2 n ++ rest)) = some (n, rest) := by
  rw [part?, trimStart_cons dark, char?, if_pos rfl, Option.bind_some,
    trimStart_fixed (by decide), number?_fixed (by decide) (Nat.le_refl _) small ends]

/-- A year behind a sign may have any number of digits. -/
theorem year?_signed {cs rest : List Char} (nonempty : cs ≠ [])
    (digits : ∀ c ∈ cs, isDecimal c = true) (ends : EndsDigits rest) :
    year? ('-' :: (cs ++ rest)) =
        some (-(Text.ofDigits 10 0 (cs.filterMap Text.decimalValue?) : Int), rest) ∧
      year? ('+' :: (cs ++ rest)) =
        some ((Text.ofDigits 10 0 (cs.filterMap Text.decimalValue?) : Int), rest) := by
  have fits : cs.length ≤ (cs ++ rest).length := by simp
  have read := number?_append nonempty digits fits ends
  constructor
  · rw [year?, trimStart_cons (by decide)]
    simp only [read, Option.map_some]
  · rw [year?, trimStart_cons (by decide)]
    simp only [read, Option.map_some]

theorem year?_renderYear {year : Int} {rest : List Char} (ends : EndsDigits rest) :
    year? (renderYear year ++ rest) = some (year, rest) := by
  have decimal : ∀ c ∈ Text.decimal year.natAbs, isDecimal c = true := by
    intro c among
    obtain ⟨d, _, rfl⟩ := List.mem_map.1 among
    exact Text.isDecimal_decimalDigit d
  rw [renderYear]
  by_cases plain : 0 ≤ year ∧ year ≤ 9999
  · -- Four digits and no sign.
    have small : year.toNat < 10 ^ 4 := by omega
    have read := number?_fixed (by decide) (Nat.le_refl 4) small ends
    obtain ⟨c, cs, written, digit⟩ := fixed_eq_cons (k := 4) (by decide) year.toNat
    rw [if_pos plain, year?, trimStart_fixed (by decide)]
    split
    case h_3 => simp only [read, Option.map_some, Int.toNat_of_nonneg plain.1]
    -- No sign is a digit.
    all_goals
      rename_i same
      rw [written, List.cons_append] at same
      rw [(List.cons.inj same).1] at digit
      exact absurd digit (by decide)
  · rw [if_neg plain]
    -- The digits behind the sign.
    obtain ⟨cs, written, nonempty, digits, value⟩ : ∃ cs,
        (if year.natAbs < 10000 then Text.fixed 4 year.natAbs else Text.decimal year.natAbs) = cs ∧
          cs ≠ [] ∧ (∀ c ∈ cs, isDecimal c = true) ∧
          Text.ofDigits 10 0 (cs.filterMap Text.decimalValue?) = year.natAbs := by
      split_ifs with few
      · have few : year.natAbs < 10 ^ 4 := few
        exact ⟨_, rfl, fixed_ne_nil (by decide) _, fun _ => Text.isDecimal_of_mem_fixed,
          by rw [Text.ofDigits_fixed, Nat.mod_eq_of_lt few]⟩
      · refine ⟨_, rfl, ?_, decimal, ?_⟩
        · rw [Text.decimal, ne_eq, List.map_eq_nil_iff]
          exact Text.digits_ne_nil _
        · rw [Text.decimal, Text.filterMap_decimalDigit fun d => Text.digits_lt,
            Text.ofDigits_digits]
    obtain ⟨minus, plus⟩ := year?_signed nonempty digits ends
    rw [written, List.cons_append]
    by_cases negative : year < 0
    · rw [if_pos negative, minus, value, ← Int.eq_neg_natAbs_of_nonpos negative.le]
    · rw [if_neg negative, plus, value, Int.natAbs_of_nonneg (not_lt.1 negative)]

theorem daysInMonth_le (year : Int) (month : Nat) : daysInMonth year month ≤ 31 := by
  unfold daysInMonth
  split
  · split <;> omega
  all_goals omega

theorem date?_render (d : Date) {rest : List Char} (ends : EndsDigits rest) :
    date? (renderYear d.year ++ ('-' :: (Text.fixed 2 d.month ++
      ('-' :: (Text.fixed 2 d.day ++ rest))))) = some (d, rest) := by
  obtain ⟨year, month, day, isDate⟩ := d
  have ⟨_, ⟨_, month_le⟩, _, day_le⟩ := isDate
  have days := daysInMonth_le year month
  have hyphen : ∀ cs : List Char, EndsDigits ('-' :: cs) := by
    rintro cs c first
    obtain rfl := Option.some.inj first
    decide
  have monthRead := part?_fixed '-' (by decide) (by omega : month < 100)
    (hyphen (Text.fixed 2 day ++ rest))
  have dayRead := part?_fixed '-' (by decide) (by omega : day < 100) ends
  simp only [date?, year?_renderYear (hyphen _), monthRead, dayRead, Option.bind_eq_bind,
    Option.bind_some, Date.ofYmd?, dif_pos isDate, Option.pure_def]

theorem fraction?_fixed {k m : Nat} {rest : List Char} (wide : 0 < k) (fits : k ≤ 9)
    (small : m < 10 ^ k) (ends : EndsDigits rest) :
    fraction? ('.' :: (Text.fixed k m ++ rest)) = some (m * 10 ^ (9 - k), rest) := by
  have length : (Text.fixed k m ++ rest).length - rest.length = k := by
    rw [List.length_append, Text.length_fixed]
    omega
  have left : rest.dropWhile isDecimal = rest := by
    cases rest with
    | nil => rfl
    | cons c rest => rw [List.dropWhile_cons_of_neg (by simp [ends c rfl])]
  simp only [fraction?, number?_fixed wide fits small ends, Option.bind_eq_bind, Option.bind_some,
    Option.pure_def, length, left, Nat.pow_eq]

theorem fraction?_renderFraction {nano : Nat} {rest : List Char} (small : nano < 1000000000)
    (ends : EndsDigits rest) (pointless : rest.head? ≠ some '.') :
    fraction? (renderFraction nano ++ rest) = some (nano, rest) := by
  rw [renderFraction]
  split_ifs with none milli micro
  · rw [List.nil_append, fraction?, none]
    rintro rest' rfl
    exact pointless rfl
  · rw [List.cons_append, fraction?_fixed (by decide) (by decide) (by omega) ends]
    congr 2
    omega
  · rw [List.cons_append, fraction?_fixed (by decide) (by decide) (by omega) ends]
    congr 2
    omega
  · rw [List.cons_append, fraction?_fixed (by decide) (by decide) (by omega) ends]
    congr 2
    omega

theorem time?_render (t : TimeOfDay) {rest : List Char} (ends : EndsDigits rest)
    (pointless : rest.head? ≠ some '.') :
    time? (Text.fixed 2 t.hour ++ (':' :: (Text.fixed 2 t.minute ++
      (':' :: (Text.fixed 2 t.second ++ (renderFraction t.nano ++ rest)))))) = some (t, rest) := by
  obtain ⟨hour, minute, second, nano, isTime⟩ := t
  have ⟨hours, minutes, seconds, nanos⟩ := isTime
  have colon : ∀ cs : List Char, EndsDigits (':' :: cs) := by
    rintro cs c first
    obtain rfl := Option.some.inj first
    decide
  have point : EndsDigits (renderFraction nano ++ rest) := by
    rw [renderFraction]
    split_ifs
    · exact ends
    all_goals
      rintro c first
      obtain rfl := Option.some.inj first
      decide
  have minuteRead := part?_fixed ':' (by decide) (by omega : minute < 100)
    (colon (Text.fixed 2 second ++ (renderFraction nano ++ rest)))
  have secondRead := part?_fixed ':' (by decide) (by omega : second < 100) point
  simp only [time?, trimStart_fixed (by decide : 0 < 2),
    number?_fixed (by decide) (Nat.le_refl 2) (by omega : hour < 10 ^ 2) (colon _), minuteRead,
    secondRead, fraction?_renderFraction nanos ends pointless, Option.bind_eq_bind,
    Option.bind_some, TimeOfDay.ofHms?, dif_pos isTime, Option.pure_def]

/-- In universal time an instant is at its own time of day. -/
theorem ofZone?_zero (t : Timestamp) : ofZone? t.date t.time 0 = some t := by
  obtain ⟨date, ⟨hour, minute, second, nano, isTime⟩⟩ := t
  have ⟨hours, minutes, _⟩ := isTime
  have late : ¬ (hour * 60 + minute - 0 : Int) < 0 := by omega
  have early : (hour * 60 + minute - 0 : Int) < 1440 := by omega
  have ofDay : ((hour * 60 + minute - 0 : Int) % 1440).toNat = hour * 60 + minute := by omega
  have hourOf : (hour * 60 + minute) / 60 = hour := by omega
  have minuteOf : (hour * 60 + minute) % 60 = minute := by omega
  simp only [ofZone?, if_neg late, if_pos early, Option.bind_eq_bind, Option.bind_some, ofDay,
    hourOf, minuteOf, TimeOfDay.ofHms?, dif_pos isTime, Option.pure_def]

/-- An instant is read back from its written form. -/
theorem parse?_render (t : Timestamp) : parse? t.render = some t := by
  have written : t.render = renderYear t.date.year ++ ('-' :: (Text.fixed 2 t.date.month ++
      ('-' :: (Text.fixed 2 t.date.day ++ ('T' :: (Text.fixed 2 t.time.hour ++
      (':' :: (Text.fixed 2 t.time.minute ++ (':' :: (Text.fixed 2 t.time.second ++
      (renderFraction t.time.nano ++ ['Z']))))))))))) := by
    simp only [render, List.append_assoc, List.cons_append]
  have divides : EndsDigits ('T' :: (Text.fixed 2 t.time.hour ++
      (':' :: (Text.fixed 2 t.time.minute ++ (':' :: (Text.fixed 2 t.time.second ++
      (renderFraction t.time.nano ++ ['Z']))))))) := by
    rintro c first
    obtain rfl := Option.some.inj first
    decide
  have zone : EndsDigits ['Z'] := by
    rintro c first
    obtain rfl := Option.some.inj first
    decide
  have trimmed : Text.trimStart ['Z'] = ['Z'] := trimStart_cons (by decide)
  have spent : Text.trimStart [] = [] := rfl
  rw [written, parse?, date?_render t.date divides]
  simp only [Option.bind_eq_bind, Option.bind_some, divider?, true_or, if_true,
    time?_render t.time zone (by decide), trimmed, zone?, spent, List.isEmpty_nil]
  exact ofZone?_zero t

end Timestamp

end Roomcast
