import Mathlib.Tactic
import Roomcast.WebSocket.Written

/-!
# Frames that are written

Reading gives back the frame that is written, whatever its mask. What is read from some bytes is
also read when more bytes follow, which only come after the rest. So a reader need not know where
the bytes of a frame end before it has read them.
-/

namespace Roomcast.WebSocket

variable {n width : Nat} {mask bytes rest more : List UInt8}

theorem toNat_ofNat (small : n < 256) : (UInt8.ofNat n).toNat = n :=
  UInt8.toNat_ofNat_of_lt' small

theorem number_append (bytes : List UInt8) (b : UInt8) :
    number (bytes ++ [b]) = 256 * number bytes + b.toNat := by
  rw [number, List.foldl_append]
  rfl

theorem length_bigEndian (width n : Nat) : (bigEndian width n).length = width := by
  induction width generalizing n with
  | zero => rfl
  | succ width ih => rw [bigEndian, List.length_append, ih, List.length_singleton]

theorem number_bigEndian (small : n < 256 ^ width) : number (bigEndian width n) = n := by
  induction width generalizing n with
  | zero => exact (Nat.lt_one_iff.1 small).symm
  | succ width ih =>
      have upper : n / 256 < 256 ^ width := Nat.div_lt_of_lt_mul (by rwa [Nat.pow_succ'] at small)
      rw [bigEndian, number_append, ih upper, UInt8.toNat_ofNat']
      exact Nat.div_add_mod n 256

theorem split?_eq_some {first : List UInt8} :
    split? n bytes = some (first, rest) ↔ bytes = first ++ rest ∧ first.length = n := by
  rw [split?]
  constructor
  · intro h
    split at h
    case isTrue enough =>
      obtain ⟨rfl, rfl⟩ := Prod.mk.inj (Option.some.inj h)
      exact ⟨(List.take_append_drop n bytes).symm, List.length_take_of_le enough⟩
    case isFalse => cases h
  · rintro ⟨rfl, rfl⟩
    rw [if_pos (by simp), List.take_left, List.drop_left]

theorem split?_append (bytes rest : List UInt8) :
    split? bytes.length (bytes ++ rest) = some (bytes, rest) :=
  split?_eq_some.2 ⟨rfl, rfl⟩

theorem split?_more {first : List UInt8} (h : split? n bytes = some (first, rest))
    (more : List UInt8) : split? n (bytes ++ more) = some (first, rest ++ more) := by
  obtain ⟨rfl, wide⟩ := split?_eq_some.1 h
  exact split?_eq_some.2 ⟨List.append_assoc _ _ _, wide⟩

theorem length_applyMask (mask payload : List UInt8) :
    (applyMask mask payload).length = payload.length := List.length_mapIdx

theorem applyMask_applyMask (mask payload : List UInt8) :
    applyMask mask (applyMask mask payload) = payload := by
  refine List.ext_getElem (by simp [length_applyMask]) fun i _ _ => ?_
  simp only [applyMask, List.getElem_mapIdx]
  rw [UInt8.xor_assoc, UInt8.xor_self, UInt8.xor_zero]

/-- A header as it is read, with what tells the length and with a mask. -/
theorem Header.take?_cons (first : UInt8) {second : UInt8} (masked : 128 ≤ second.toNat)
    {long : List UInt8} (wide : long.length =
      if second.toNat % 128 = 126 then 2 else if second.toNat % 128 = 127 then 8 else 0)
    (four : mask.length = 4) :
    Header.take? (first :: second :: (long ++ (mask ++ rest))) = some (
      { final := 128 ≤ first.toNat
        reserved := first.toNat / 16 % 8
        code := first.toNat % 16
        mask := some mask
        length :=
          if second.toNat % 128 < 126 then second.toNat % 128 else number long }, rest) := by
  have ofMask : split? 4 (mask ++ rest) = some (mask, rest) := four ▸ split?_append mask rest
  simp only [take?, Option.bind_eq_bind, ← wide, split?_append, Option.bind_some, masked,
    if_true, ofMask]
  rfl

theorem Header.take?_written (first : UInt8) (small : n < 256 ^ 8) (four : mask.length = 4) :
    Header.take? (first :: (writtenLength n ++ (mask ++ rest))) =
      some ({ final := 128 ≤ first.toNat, reserved := first.toNat / 16 % 8,
              code := first.toNat % 16, mask := some mask, length := n }, rest) := by
  rw [writtenLength]
  split
  · have second : (UInt8.ofNat (128 + n)).toNat = 128 + n := toNat_ofNat (by omega)
    have short : (128 + n) % 128 = n := by omega
    have none : ([] : List UInt8).length = if (UInt8.ofNat (128 + n)).toNat % 128 = 126 then 2
        else if (UInt8.ofNat (128 + n)).toNat % 128 = 127 then 8 else 0 := by
      rw [second, short, if_neg (by omega), if_neg (by omega), List.length_nil]
    rw [List.singleton_append, ← List.nil_append (mask ++ rest),
      Header.take?_cons first (by omega) none four, second, short, if_pos (by omega)]
  split
  · rw [List.cons_append, Header.take?_cons first (by decide) (length_bigEndian 2 n) four,
      if_neg (by decide), number_bigEndian (by omega)]
  · rw [List.cons_append, Header.take?_cons first (by decide) (length_bigEndian 8 n) four,
      if_neg (by decide), number_bigEndian small]

/-- The header of a frame, with the mask that its payload is written with. -/
def Packet.header (p : Packet) (mask : List UInt8) : Header :=
  ⟨p.final, 0, p.kind.code, some mask, p.payload.length⟩

/-- What obeys the rules for frames. -/
structure Packet.Fits (p : Packet) : Prop where
  short : p.payload.length ≤ maxPayload
  whole : p.kind.isControl = true → p.final = true
  control : p.kind.isControl = true → p.payload.length ≤ maxControl

variable {p : Packet}

theorem Packet.take?_header (fits : p.Fits) (four : mask.length = 4) :
    Header.take? (p.bytes mask ++ rest) =
      some (p.header mask, applyMask mask p.payload ++ rest) := by
  have written : p.bytes mask ++ rest =
      UInt8.ofNat ((if p.final then 128 else 0) + p.kind.code) ::
        (writtenLength p.payload.length ++ (mask ++ (applyMask mask p.payload ++ rest))) := by
    simp [bytes]
  have small : p.payload.length < 256 ^ 8 := Nat.lt_of_le_of_lt fits.short (by decide)
  have code : p.kind.code < 16 := by cases p.kind <;> decide
  rw [written, Header.take?_written _ small four, header]
  -- The first byte holds the code below the mark of the last part.
  cases p.final with
  | true =>
      rw [if_pos rfl, toNat_ofNat (by omega), decide_eq_true (by omega),
        show (128 + p.kind.code) / 16 % 8 = 0 by omega,
        show (128 + p.kind.code) % 16 = p.kind.code by omega]
  | false =>
      rw [if_neg Bool.false_ne_true, toNat_ofNat (by omega), decide_eq_false (by omega),
        show (0 + p.kind.code) / 16 % 8 = 0 by omega,
        show (0 + p.kind.code) % 16 = p.kind.code by omega]

theorem Packet.Fits.packet (fits : p.Fits) (mask : List UInt8) :
    (p.header mask).packet p.kind (applyMask mask p.payload) = .ok p := by
  have whole : (p.kind.isControl && !p.final) = false := by
    cases control : p.kind.isControl with
    | false => rfl
    | true => rw [fits.whole control]; rfl
  have short : (p.kind.isControl && decide (maxControl < p.payload.length)) = false := by
    cases control : p.kind.isControl with
    | false => rfl
    | true => exact decide_eq_false (Nat.not_lt.2 (fits.control control))
  rw [Header.packet, header, if_neg fun other => other rfl, length_applyMask]
  simp only [whole, short, applyMask_applyMask]
  rfl

/-- Reading gives back the frame that is written, whatever its mask and whatever follows it. -/
theorem Packet.take?_bytes (fits : p.Fits) (four : mask.length = 4) :
    Packet.take? (p.bytes mask ++ rest) = some (.ok (p, rest)) := by
  have inside : split? p.payload.length (applyMask mask p.payload ++ rest) =
      some (applyMask mask p.payload, rest) := by
    rw [← length_applyMask mask p.payload, split?_append]
  have known : Kind.ofCode? (p.header mask).code = some p.kind := Kind.ofCode?_code p.kind
  have short : ¬ maxPayload < (p.header mask).length := Nat.not_lt.2 fits.short
  rw [take?, Packet.take?_header fits four, Option.bind_some]
  dsimp only
  rw [known]
  dsimp only
  rw [if_neg short, show (p.header mask).length = p.payload.length from rfl, inside,
    Option.map_some]
  dsimp only
  rw [fits.packet mask]
  rfl

theorem Header.take?_more {h : Header} (taken : Header.take? bytes = some (h, rest)) (more) :
    Header.take? (bytes ++ more) = some (h, rest ++ more) := by
  match bytes with
  | [] => cases taken
  | [_] => cases taken
  | first :: second :: after =>
      simp only [take?, List.cons_append, Option.bind_eq_bind, Option.bind_eq_some_iff,
        Prod.exists] at taken ⊢
      obtain ⟨long, later, wide, mask, last, four, same⟩ := taken
      obtain ⟨rfl, rfl⟩ := Prod.mk.inj (Option.some.inj same)
      exact ⟨long, _, split?_more wide more, mask, _, split?_more four more, rfl⟩

/-- What more bytes do to what has been read from some: they come after the rest. -/
theorem Packet.take?_more {result : Except Breach (Packet × List UInt8)}
    (taken : Packet.take? bytes = some result) (more : List UInt8) :
    Packet.take? (bytes ++ more) = some (result.map fun (p, rest) => (p, rest ++ more)) := by
  rw [take?] at taken ⊢
  obtain ⟨⟨h, rest⟩, header, taken⟩ := Option.bind_eq_some_iff.1 taken
  rw [Header.take?_more header more, Option.bind_some]
  dsimp only at taken ⊢
  split at taken
  · obtain rfl := Option.some.inj taken
    rfl
  · split at taken
    · obtain rfl := Option.some.inj taken
      rw [if_pos ‹_›]
      rfl
    · obtain ⟨⟨payload, last⟩, inside, same⟩ := Option.map_eq_some_iff.1 taken
      rw [if_neg ‹_›, split?_more inside more, Option.map_some, ← same]
      dsimp only
      cases h.packet _ payload <;> rfl

end Roomcast.WebSocket
