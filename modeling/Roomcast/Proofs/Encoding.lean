import Mathlib.Tactic.SplitIfs
import Roomcast.Text.Utf8

/-!
# Bytes of texts

UTF-8 gives every code point one form of one to four bytes. What a reader takes is a sequence of
such forms, and so it takes the bytes of a text and nothing else. It may be given them in chunks
that end in the midst of a character.
-/

namespace Roomcast.Text.Utf8

variable {chars : List Char} {bytes form rest : List UInt8} {r : Utf8} {n : Nat}

theorem toList_loop (bytes : ByteArray) (i : Nat) (read : List UInt8) :
    ByteArray.toList.loop bytes i read = read.reverse ++ bytes.data.toList.drop i := by
  have size : bytes.data.toList.length = bytes.size := Array.length_toList
  induction left : bytes.size - i generalizing i read with
  | zero =>
      rw [ByteArray.toList.loop, if_neg (by omega), List.drop_of_length_le (by omega),
        List.append_nil]
  | succ left ih =>
      have inside : i < bytes.data.toList.length := by omega
      have byte : bytes.get! i = bytes.data.toList[i] := getElem!_pos bytes.data i (by omega)
      rw [ByteArray.toList.loop, if_pos (by omega), ih (i + 1) _ (by omega), List.reverse_cons,
        List.append_assoc, List.singleton_append, byte, List.getElem_cons_drop]

theorem encode_eq (s : String) : encode s = s.toList.flatMap String.utf8EncodeChar := by
  rw [encode, String.toUTF8_eq_toByteArray, ← String.utf8Encode_toList, List.utf8Encode,
    ByteArray.toList, toList_loop, List.toList_data_toByteArray]
  rfl

theorem encode_append (s t : String) : encode (s ++ t) = encode s ++ encode t := by
  simp only [encode_eq, String.toList_append, List.flatMap_append]

theorem read?_append (r : Utf8) (first second : List UInt8) :
    r.read? (first ++ second) = (r.read? first).bind (·.read? second) :=
  List.foldlM_append

theorem read?_cons (r : Utf8) (b : UInt8) (bytes : List UInt8) :
    r.read? (b :: bytes) = (r.push? b).bind (·.read? bytes) := rfl

def between (chars : List Char) : Utf8 := ⟨chars, 0, 0, 0x80, 0xBF⟩

/-- The bytes that stand for a code point. -/
inductive Form : List UInt8 → Nat → Prop where
  | one {a : UInt8} (lead : a.toNat < 0x80) : Form [a] a.toNat
  | two {a b : UInt8} (lead : 0xC2 ≤ a.toNat ∧ a.toNat < 0xE0)
      (second : 0x80 ≤ b.toNat ∧ b.toNat ≤ 0xBF) :
      Form [a, b] ((a.toNat - 0xC0) * 64 + (b.toNat - 0x80))
  | three {a b c : UInt8} (lead : 0xE0 ≤ a.toNat ∧ a.toNat < 0xF0)
      (second : (if a.toNat = 0xE0 then 0xA0 else 0x80) ≤ b.toNat ∧
        b.toNat ≤ if a.toNat = 0xED then 0x9F else 0xBF)
      (third : 0x80 ≤ c.toNat ∧ c.toNat ≤ 0xBF) :
      Form [a, b, c] (((a.toNat - 0xE0) * 64 + (b.toNat - 0x80)) * 64 + (c.toNat - 0x80))
  | four {a b c d : UInt8} (lead : 0xF0 ≤ a.toNat ∧ a.toNat < 0xF5)
      (second : (if a.toNat = 0xF0 then 0x90 else 0x80) ≤ b.toNat ∧
        b.toNat ≤ if a.toNat = 0xF4 then 0x8F else 0xBF)
      (third : 0x80 ≤ c.toNat ∧ c.toNat ≤ 0xBF) (fourth : 0x80 ≤ d.toNat ∧ d.toNat ≤ 0xBF) :
      Form [a, b, c, d] ((((a.toNat - 0xF0) * 64 + (b.toNat - 0x80)) * 64 + (c.toNat - 0x80)) * 64 +
        (d.toNat - 0x80))

theorem push?_between (b : UInt8) : (between chars).push? b = (between chars).lead? b.toNat := rfl

theorem push?_next {bits missing low high : Nat} {b : UInt8}
    (inside : low ≤ b.toNat ∧ b.toNat ≤ high) : push? ⟨chars, bits, missing + 2, low, high⟩ b =
      some ⟨chars, bits * 64 + (b.toNat - 0x80), missing + 1, 0x80, 0xBF⟩ :=
  if_pos inside

theorem push?_last {bits low high : Nat} {b : UInt8} (inside : low ≤ b.toNat ∧ b.toNat ≤ high) :
    push? ⟨chars, bits, 1, low, high⟩ b =
      some (between (Char.ofNat (bits * 64 + (b.toNat - 0x80)) :: chars)) :=
  if_pos inside

theorem lead?_one {a : Nat} (lead : a < 0x80) :
    (between chars).lead? a = some (between (Char.ofNat a :: chars)) :=
  if_pos lead

theorem lead?_two {a : Nat} (lead : 0xC2 ≤ a ∧ a < 0xE0) :
    (between chars).lead? a = some ⟨chars, a - 0xC0, 1, 0x80, 0xBF⟩ := by
  rw [lead?, if_neg (by omega), if_pos lead]
  rfl

theorem lead?_three {a : Nat} (lead : 0xE0 ≤ a ∧ a < 0xF0) :
    (between chars).lead? a = some ⟨chars, a - 0xE0, 2, if a = 0xE0 then 0xA0 else 0x80,
      if a = 0xED then 0x9F else 0xBF⟩ := by
  rw [lead?, if_neg (by omega), if_neg (by omega), if_pos lead]
  rfl

theorem lead?_four {a : Nat} (lead : 0xF0 ≤ a ∧ a < 0xF5) :
    (between chars).lead? a = some ⟨chars, a - 0xF0, 3, if a = 0xF0 then 0x90 else 0x80,
      if a = 0xF4 then 0x8F else 0xBF⟩ := by
  rw [lead?, if_neg (by omega), if_neg (by omega), if_neg (by omega), if_pos lead]
  rfl

theorem Form.read? (form_n : Form form n) :
    (between chars).read? form = some (between (Char.ofNat n :: chars)) := by
  cases form_n with
  | one lead => simp [Utf8.read?, push?_between, lead?_one lead]
  | two lead second => simp [Utf8.read?, push?_between, lead?_two lead, push?_last second]
  | three lead second third =>
      simp [Utf8.read?, push?_between, lead?_three lead, push?_next second, push?_last third]
  | four lead second third fourth =>
      simp [Utf8.read?, push?_between, lead?_four lead, push?_next second, push?_next third,
        push?_last fourth]

theorem Form.congr {m : Nat} (form_m : Form form m) (same : n = m) : Form form n := same ▸ form_m

/-- What the second byte may be is at most narrower than what the others may be. -/
theorem next_of_second {p q : Prop} [Decidable p] [Decidable q] {low high b : Nat}
    (second : (if p then low else 0x80) ≤ b ∧ b ≤ if q then high else 0xBF)
    (above : 0x80 ≤ low) (below : high ≤ 0xBF) : 0x80 ≤ b ∧ b ≤ 0xBF := by
  split_ifs at second <;> omega

/-- The bytes of a character stand for its code point. -/
theorem Form.of_char (c : Char) : Form (String.utf8EncodeChar c) c.toNat := by
  have valid : c.val.toNat < 0xD800 ∨ 0xDFFF < c.val.toNat ∧ c.val.toNat < 0x110000 := c.valid
  have byte : ∀ {m k : Nat}, m < 256 → m = k → (UInt8.ofNat m).toNat = k :=
    fun small same => (UInt8.toNat_ofNat_of_lt' small).trans same
  have next : ∀ {m : Nat}, (UInt8.ofNat (m % 64 + 128)).toNat = m % 64 + 128 :=
    fun {m} => byte (by omega) rfl
  rw [String.utf8EncodeChar, ← Char.toNat_val]
  generalize c.val.toNat = n at valid
  split
  · have a : (UInt8.ofNat n).toNat = n := byte (by omega) rfl
    exact (one (by omega)).congr a.symm
  split
  · have a : (UInt8.ofNat (n / 64 % 32 + 192)).toNat = n / 64 + 192 := byte (by omega) (by omega)
    have b := @next n
    exact (two (by omega) (by omega)).congr (by omega)
  split
  · have a : (UInt8.ofNat (n / 4096 % 16 + 224)).toNat = n / 4096 + 224 :=
      byte (by omega) (by omega)
    have b := @next (n / 64)
    have c := @next n
    exact (three (by omega) (by split_ifs <;> omega) (by omega)).congr (by omega)
  · have a : (UInt8.ofNat (n / 262144 % 8 + 240)).toNat = n / 262144 + 240 :=
      byte (by omega) (by omega)
    have b := @next (n / 4096)
    have c := @next (n / 64)
    have d := @next n
    exact (four (by omega) (by split_ifs <;> omega) (by omega) (by omega)).congr (by omega)

theorem Form.isValidChar (form_n : Form form n) : n.isValidChar := by
  unfold Nat.isValidChar
  cases form_n with
  | one | two => omega
  | three _ second | four _ second => split_ifs at second <;> omega

/-- What stands for a code point is the bytes of its character. -/
theorem Form.utf8EncodeChar (form_n : Form form n) :
    String.utf8EncodeChar (Char.ofNat n) = form := by
  have code : (Char.ofNat n).val.toNat = n := by
    rw [Char.ofNat, dif_pos form_n.isValidChar]
    rfl
  have byte : ∀ {m : Nat} {b : UInt8}, m = b.toNat → UInt8.ofNat m = b := fun same => by
    rw [same, UInt8.ofNat_toNat]
  rw [String.utf8EncodeChar, code]
  cases form_n with
  | one lead => rw [if_pos (by omega), byte rfl]
  | @two a b lead second =>
      rw [if_neg (by omega), if_pos (by omega), byte (b := a) (by omega), byte (b := b) (by omega)]
  | @three a b c lead second third =>
      -- The least second byte is what rules out a shorter form.
      have least : 0x20 ≤ (a.toNat - 0xE0) * 64 + (b.toNat - 0x80) := by
        split_ifs at second <;> omega
      have next := next_of_second second (by decide) (by decide)
      rw [if_neg (by omega), if_neg (by omega), if_pos (by omega), byte (b := a) (by omega),
        byte (b := b) (by omega), byte (b := c) (by omega)]
  | @four a b c d lead second third fourth =>
      have least : 0x10 ≤ (a.toNat - 0xF0) * 64 + (b.toNat - 0x80) := by
        split_ifs at second <;> omega
      have next := next_of_second second (by decide) (by decide)
      rw [if_neg (by omega), if_neg (by omega), if_neg (by omega), byte (b := a) (by omega),
        byte (b := b) (by omega), byte (b := c) (by omega), byte (b := d) (by omega)]

theorem read?_encode (cs : List Char) :
    (between chars).read? (cs.flatMap String.utf8EncodeChar) =
      some (between (cs.reverse ++ chars)) := by
  induction cs generalizing chars with
  | nil => rfl
  | cons c cs ih =>
      rw [List.flatMap_cons, read?_append, (Form.of_char c).read?, Char.ofNat_toNat,
        Option.bind_some, ih, List.reverse_cons, List.append_assoc, List.singleton_append]

theorem push?_eq_some {bits missing low high : Nat} {b : UInt8}
    (pushed : push? ⟨chars, bits, missing + 1, low, high⟩ b = some r) :
    low ≤ b.toNat ∧ b.toNat ≤ high := by
  rw [push?] at pushed
  dsimp only at pushed
  split at pushed
  · assumption
  · cases pushed

/-- A reader that wants another byte gets one that it accepts, if it has what it wants in the
end. -/
theorem read?_missing {bits missing low high : Nat}
    (read : Utf8.read? ⟨chars, bits, missing + 1, low, high⟩ bytes = some r)
    (whole : r.missing = 0) :
    ∃ b rest, bytes = b :: rest ∧ low ≤ b.toNat ∧ b.toNat ≤ high := by
  cases bytes with
  | nil =>
      obtain rfl := Option.some.inj read
      cases whole
  | cons b rest =>
      obtain ⟨_, pushed, -⟩ := Option.bind_eq_some_iff.1 read
      exact ⟨b, rest, rfl, push?_eq_some pushed⟩

theorem read?_next {bits missing low high : Nat}
    (read : Utf8.read? ⟨chars, bits, missing + 2, low, high⟩ bytes = some r)
    (whole : r.missing = 0) :
    ∃ b rest, bytes = b :: rest ∧ (low ≤ b.toNat ∧ b.toNat ≤ high) ∧
      Utf8.read? ⟨chars, bits * 64 + (b.toNat - 0x80), missing + 1, 0x80, 0xBF⟩ rest = some r := by
  obtain ⟨b, rest, rfl, inside⟩ := read?_missing read whole
  rw [read?_cons, push?_next inside, Option.bind_some] at read
  exact ⟨b, rest, rfl, inside, read⟩

/-- What is read begins with the form of a character. -/
theorem exists_form (read : (between chars).read? bytes = some r) (whole : r.missing = 0) :
    bytes = [] ∨ ∃ form n rest, Form form n ∧ bytes = form ++ rest := by
  cases bytes with
  | nil => exact .inl rfl
  | cons a rest =>
      right
      rw [read?_cons] at read
      obtain ⟨r₁, pushed, read⟩ := Option.bind_eq_some_iff.1 read
      change lead? _ _ = _ at pushed
      by_cases one : a.toNat < 0x80
      · exact ⟨[a], _, rest, .one one, rfl⟩
      by_cases two : 0xC2 ≤ a.toNat ∧ a.toNat < 0xE0
      · rw [lead?_two two] at pushed
        obtain rfl := Option.some.inj pushed
        obtain ⟨b, rest, rfl, second⟩ := read?_missing read whole
        exact ⟨[a, b], _, rest, .two two second, rfl⟩
      by_cases three : 0xE0 ≤ a.toNat ∧ a.toNat < 0xF0
      · rw [lead?_three three] at pushed
        obtain rfl := Option.some.inj pushed
        obtain ⟨b, rest, rfl, second, read⟩ := read?_next read whole
        obtain ⟨c, rest, rfl, third⟩ := read?_missing read whole
        exact ⟨[a, b, c], _, rest, .three three second third, rfl⟩
      by_cases four : 0xF0 ≤ a.toNat ∧ a.toNat < 0xF5
      · rw [lead?_four four] at pushed
        obtain rfl := Option.some.inj pushed
        obtain ⟨b, rest, rfl, second, read⟩ := read?_next read whole
        obtain ⟨c, rest, rfl, third, read⟩ := read?_next read whole
        obtain ⟨d, rest, rfl, fourth⟩ := read?_missing read whole
        exact ⟨[a, b, c, d], _, rest, .four four second third fourth, rfl⟩
      · rw [lead?, if_neg one, if_neg two, if_neg three, if_neg four] at pushed
        cases pushed

theorem Form.length_pos (form_n : Form form n) : 0 < form.length := by
  cases form_n <;> simp

/-- What has been read are the bytes of the characters that are complete. -/
theorem eq_of_read? (read : (between chars).read? bytes = some r) (whole : r.missing = 0) :
    ∃ cs : List Char, bytes = cs.flatMap String.utf8EncodeChar ∧
      r = between (cs.reverse ++ chars) := by
  induction size : bytes.length using Nat.strongRecOn generalizing bytes chars with
  | ind k ih =>
      obtain rfl | ⟨form, n, rest, form_n, rfl⟩ := exists_form read whole
      · exact ⟨[], rfl, (Option.some.inj read).symm⟩
      · rw [read?_append, form_n.read?, Option.bind_some] at read
        have shorter : rest.length < k := by
          have := form_n.length_pos
          rw [List.length_append] at size
          omega
        obtain ⟨cs, rfl, rfl⟩ := ih _ shorter read rfl
        exact ⟨Char.ofNat n :: cs, by rw [List.flatMap_cons, form_n.utf8EncodeChar], by simp⟩

/-- The reader takes the bytes of texts, and nothing else. -/
theorem decode?_eq_some_iff {s : String} : decode? bytes = some s ↔ bytes = encode s := by
  rw [encode_eq]
  constructor
  · intro decoded
    obtain ⟨r, read, text⟩ := Option.bind_eq_some_iff.1 decoded
    obtain ⟨whole, same⟩ := Option.ite_none_right_eq_some.1 text
    obtain ⟨cs, rfl, rfl⟩ := eq_of_read? read whole
    obtain rfl := Option.some.inj same
    rw [between, List.append_nil, List.reverse_reverse, String.toList_ofList]
  · rintro rfl
    rw [decode?, show start = between [] from rfl, read?_encode]
    simp [text?, between]

/-- A byte of ASCII is a whole form. -/
theorem Form.eq_of_ascii {b : UInt8} (form_n : Form form n) (among : b ∈ form)
    (ascii : b.toNat < 0x80) : form = [b] ∧ n = b.toNat := by
  have apart : ∀ {a : UInt8}, 0x80 ≤ a.toNat → b ≠ a := by
    rintro a beyond rfl
    omega
  cases form_n with
  | one =>
      obtain rfl := List.mem_singleton.1 among
      exact ⟨rfl, rfl⟩
  | two lead second =>
      simp [apart (Nat.le_trans (by decide) lead.1), apart second.1] at among
  | @three _ b _ lead second third =>
      have second := next_of_second second (by decide) (by decide)
      simp [apart (Nat.le_trans (by decide) lead.1), apart second.1, apart third.1] at among
  | @four _ b _ _ lead second third fourth =>
      have second := next_of_second second (by decide) (by decide)
      simp [apart (Nat.le_trans (by decide) lead.1), apart second.1, apart third.1,
        apart fourth.1] at among

/-- An ASCII byte of a text is one of its characters. -/
theorem exists_of_mem_encode {s : String} {b : UInt8} (among : b ∈ encode s)
    (ascii : b.toNat < 0x80) : ∃ c ∈ s.toList, c.toNat = b.toNat := by
  rw [encode_eq] at among
  obtain ⟨c, here, among⟩ := List.mem_flatMap.1 among
  exact ⟨c, here, ((Form.of_char c).eq_of_ascii among ascii).2⟩

end Roomcast.Text.Utf8
