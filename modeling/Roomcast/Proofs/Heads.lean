import Roomcast.Http.Written
import Roomcast.Proofs.Encoding

/-!
# Heads that are written

Reading gives back the request that a client writes, whatever stands behind its head. The names of
headers are read in lower case, and their values without the space before them. What a method, a
target and the names and values of headers may not contain are the characters that end them.
-/

namespace Roomcast.Http.Head

open Text (Utf8)

theorem asciiText_encode {s : String} (ascii : ∀ b ∈ Utf8.encode s, b.toNat < 0x80) :
    asciiText (Utf8.encode s) = s := by
  have each : ∀ cs : List Char, (∀ b ∈ cs.flatMap String.utf8EncodeChar, b.toNat < 0x80) →
      (cs.flatMap String.utf8EncodeChar).map charOf = cs := by
    intro cs ascii
    induction cs with
    | nil => rfl
    | cons c cs ih =>
        rw [List.flatMap_cons] at ascii ⊢
        obtain ⟨b, here⟩ := List.exists_mem_of_ne_nil _ (String.utf8EncodeChar_ne_nil (c := c))
        obtain ⟨single, code⟩ := (Utf8.Form.of_char c).eq_of_ascii here
          (ascii b (List.mem_append_left _ here))
        rw [single, List.singleton_append, List.map_cons,
          ih fun b among => ascii b (List.mem_append_right _ among), charOf, ← code,
          Char.ofNat_toNat]
  rw [Utf8.encode_eq] at ascii ⊢
  rw [asciiText, each _ ascii, String.ofList_toList]

theorem lt_of_isTokenByte {b : UInt8} (token : isTokenByte b = true) : b.toNat < 0x80 := by
  have all : ∀ n < 256, isTokenByte (UInt8.ofNat n) = true → n < 0x80 := by decide +kernel
  exact all b.toNat b.toNat_lt (by rwa [UInt8.ofNat_toNat])

theorem lines_append {line : List UInt8} (single : 0x0A ∉ line) (rest : List UInt8) :
    lines (line ++ Utf8.encode lineEnd ++ rest) = line :: lines rest := by
  have ends : Utf8.encode lineEnd = [0x0D, 0x0A] := by rw [Utf8.encode_eq]; decide
  have single' : 0x0A ∉ line ++ [0x0D] := by simp [single]
  have same : line ++ [0x0D, 0x0A] ++ rest = (line ++ [0x0D]) ++ 0x0A :: rest := by simp
  rw [lines, ends, same, Text.splitAt_append single', List.map_cons, withoutReturn,
    List.getLast?_concat, if_pos rfl, List.dropLast_concat]
  rfl

theorem isToken_iff {bytes : List UInt8} :
    isToken bytes = true ↔ bytes ≠ [] ∧ ∀ b ∈ bytes, isTokenByte b = true := by
  simp [isToken]

theorem not_mem_of_isToken {bytes : List UInt8} (token : isToken bytes = true) {b : UInt8}
    (other : isTokenByte b = false) : b ∉ bytes := fun among => by
  rw [(isToken_iff.1 token).2 b among] at other
  cases other

theorem asciiText_of_isToken {s : String} (token : isToken (Utf8.encode s) = true) :
    asciiText (Utf8.encode s) = s :=
  asciiText_encode fun b among => lt_of_isTokenByte ((isToken_iff.1 token).2 b among)

theorem not_mem_of_isVisible {target : String} (visible : target.toList.all isVisible = true)
    {b : UInt8} (small : b.toNat ≤ 0x20) : b ∉ Utf8.encode target := fun among => by
  obtain ⟨c, here, same⟩ := Utf8.exists_of_mem_encode among (by omega)
  have seen := List.all_eq_true.1 visible c here
  simp [isVisible] at seen
  omega

/-- What a client writes into the first line is read. -/
theorem firstLine?_written {method target : String} (token : isToken (Utf8.encode method) = true)
    (visible : target.toList.all isVisible = true) (nonempty : Utf8.encode target ≠ []) :
    firstLine? (Utf8.encode (method ++ " " ++ target ++ " HTTP/1.1")) =
      some (method, Utf8.encode target, .oneOne) := by
  have space : Utf8.encode " " = [0x20] := by rw [Utf8.encode_eq]; decide
  have last : Utf8.encode " HTTP/1.1" = 0x20 :: Utf8.encode "HTTP/1.1" := by
    rw [Utf8.encode_eq, Utf8.encode_eq]
    decide
  have version : version? (Utf8.encode "HTTP/1.1") = some .oneOne := by
    rw [version?, asciiText_encode (by rw [Utf8.encode_eq]; decide +kernel)]
    rfl
  have single : 0x20 ∉ Utf8.encode "HTTP/1.1" := by
    rw [Utf8.encode_eq]
    decide
  have pieces : Text.splitAt 0x20 (Utf8.encode (method ++ " " ++ target ++ " HTTP/1.1")) =
      [Utf8.encode method, Utf8.encode target, Utf8.encode "HTTP/1.1"] := by
    simp only [Utf8.encode_append, space, last, List.append_assoc, List.cons_append,
      List.nil_append]
    rw [Text.splitAt_append (not_mem_of_isToken token (by decide +kernel)),
      Text.splitAt_append (not_mem_of_isVisible visible (by decide)),
      Text.splitAt_of_not_mem single]
  rw [firstLine?, pieces]
  simp [token, nonempty, version, asciiText_of_isToken token]

def readHeader (h : String × String) : Header := ⟨h.1.toLower, Utf8.encode h.2⟩

/-- What a client writes into the line of a header is read. -/
theorem header?_written {name value : String} (token : isToken (Utf8.encode name) = true)
    (allowed : (Utf8.encode value).all isValueByte = true)
    (bare : withoutGaps (Utf8.encode value) = Utf8.encode value) :
    header? (Utf8.encode (name ++ ": " ++ value)) = some (readHeader (name, value)) := by
  have colon : Utf8.encode ": " = [0x3A, 0x20] := by rw [Utf8.encode_eq]; decide
  have pieces : Text.cutAt 0x3A (Utf8.encode (name ++ ": " ++ value)) =
      (Utf8.encode name, some (0x20 :: Utf8.encode value)) := by
    simp only [Utf8.encode_append, colon, List.append_assoc, List.cons_append, List.nil_append]
    exact Text.cutAt_append (not_mem_of_isToken token (by decide +kernel)) _
  have gap : withoutGaps (0x20 :: Utf8.encode value) = Utf8.encode value := bare
  rw [header?, pieces]
  simp [token, allowed, gap, isValueByte, asciiText_of_isToken token, readHeader]

def headerLine (h : String × String) : List UInt8 := Utf8.encode (h.1 ++ ": " ++ h.2)

theorem encode_join (lines : List String) :
    Utf8.encode (String.join lines) = lines.flatMap Utf8.encode := by
  have each : ∀ s : String, Utf8.encode (lines.foldl (· ++ ·) s) =
      Utf8.encode s ++ lines.flatMap Utf8.encode := by
    induction lines with
    | nil => exact fun s => (List.append_nil _).symm
    | cons line lines ih =>
        intro s
        rw [List.foldl_cons, ih, Utf8.encode_append, List.flatMap_cons, List.append_assoc]
  have empty : Utf8.encode "" = [] := by rw [Utf8.encode_eq]; rfl
  rw [String.join, each, empty, List.nil_append]

theorem headers_written {hs : List (String × String)} {room : Nat} (few : hs.length ≤ room)
    (each : ∀ h ∈ hs, header? (headerLine h) = some (readHeader h)) :
    headers room (hs.map headerLine) = .ok (hs.map readHeader) := by
  induction hs generalizing room with
  | nil => simp [headers]
  | cons h hs ih =>
      obtain ⟨first, each⟩ := List.forall_mem_cons.1 each
      cases room with
      | zero => cases few
      | succ room =>
          rw [List.map_cons]
          unfold headers
          rw [first]
          dsimp only
          rw [ih (Nat.le_of_succ_le_succ few) each]
          rfl

theorem lines_headers {hs : List (String × String)} (single : ∀ h ∈ hs, 0x0A ∉ headerLine h)
    (rest : List UInt8) :
    lines ((hs.flatMap fun h => headerLine h ++ Utf8.encode lineEnd) ++ rest) =
      hs.map headerLine ++ lines rest := by
  induction hs with
  | nil => rfl
  | cons h hs ih =>
      obtain ⟨one, single⟩ := List.forall_mem_cons.1 single
      rw [List.flatMap_cons, List.append_assoc, lines_append one, ih single, List.map_cons,
        List.cons_append]

/-- The lines of a head that is written. -/
theorem lines_bytes {method target : String} {hs : List (String × String)}
    (first : 0x0A ∉ Utf8.encode (method ++ " " ++ target ++ " HTTP/1.1"))
    (others : ∀ h ∈ hs, 0x0A ∉ headerLine h) (rest : List UInt8) :
    lines (bytes method target hs ++ rest) =
      Utf8.encode (method ++ " " ++ target ++ " HTTP/1.1") ::
        (hs.map headerLine ++ [] :: lines rest) := by
  have written : bytes method target hs ++ rest =
      Utf8.encode (method ++ " " ++ target ++ " HTTP/1.1") ++ Utf8.encode lineEnd ++
        ((hs.flatMap fun h => headerLine h ++ Utf8.encode lineEnd) ++
          ([] ++ Utf8.encode lineEnd ++ rest)) := by
    rw [bytes, Utf8.encode_append _ lineEnd, Utf8.encode_append _ (String.join _),
      Utf8.encode_append _ lineEnd, encode_join, List.flatMap_map]
    simp only [headerLine, Utf8.encode_append _ lineEnd, List.append_assoc, List.nil_append]
  rw [written, lines_append first, lines_headers others, lines_append (by simp)]

/-- A request as a client may write it, with what its target is read as. -/
structure Fits (method target : String) (reached : Target) (hs : List (String × String)) :
    Prop where
  token : isToken (Utf8.encode method) = true
  reached : Target.parse? target.toList = some reached
  short : (Utf8.encode target).length ≤ maxTarget
  few : hs.length ≤ maxHeaders
  names : ∀ h ∈ hs, isToken (Utf8.encode h.1) = true ∧ h.1.length ≤ maxName
  values : ∀ h ∈ hs, (Utf8.encode h.2).all isValueByte = true ∧
    withoutGaps (Utf8.encode h.2) = Utf8.encode h.2
  body : checkBody .oneOne (hs.map readHeader) = .ok ()

namespace Fits

variable {method target : String} {reached : Target} {hs : List (String × String)}

theorem visible (fits : Fits method target reached hs) :
    target.toList ≠ [] ∧ target.toList.all isVisible = true := by
  have read := fits.reached
  rw [Target.parse?] at read
  split at read
  · cases read
  · simp_all

theorem encode_target (fits : Fits method target reached hs) : Utf8.encode target ≠ [] := by
  rw [Utf8.encode_eq]
  intro empty
  obtain ⟨c, here⟩ := List.exists_mem_of_ne_nil _ fits.visible.1
  exact String.utf8EncodeChar_ne_nil (List.flatMap_eq_nil_iff.1 empty c here)

theorem firstLine? (fits : Fits method target reached hs) :
    firstLine? (Utf8.encode (method ++ " " ++ target ++ " HTTP/1.1")) =
      some (method, Utf8.encode target, .oneOne) :=
  firstLine?_written fits.token fits.visible.2 fits.encode_target

theorem header? (fits : Fits method target reached hs) {h : String × String} (among : h ∈ hs) :
    header? (headerLine h) = some (readHeader h) :=
  header?_written (fits.names h among).1 (fits.values h among).1 (fits.values h among).2

theorem single_first (fits : Fits method target reached hs) :
    0x0A ∉ Utf8.encode (method ++ " " ++ target ++ " HTTP/1.1") := by
  simp only [Utf8.encode_append, List.mem_append, not_or]
  refine ⟨⟨⟨not_mem_of_isToken fits.token (by decide +kernel), ?_⟩,
    not_mem_of_isVisible fits.visible.2 (by decide)⟩, ?_⟩ <;> (rw [Utf8.encode_eq]; decide)

theorem single (fits : Fits method target reached hs) {h : String × String} (among : h ∈ hs) :
    0x0A ∉ headerLine h := by
  simp only [headerLine, Utf8.encode_append, List.mem_append, not_or]
  refine ⟨⟨not_mem_of_isToken (fits.names h among).1 (by decide +kernel), ?_⟩, fun inside => ?_⟩
  · rw [Utf8.encode_eq]
    decide
  · cases List.all_eq_true.1 (fits.values h among).1 _ inside

/-- A line that is read as something is not empty. -/
theorem begins (fits : Fits method target reached hs) :
    (Utf8.encode (method ++ " " ++ target ++ " HTTP/1.1")).isEmpty = false := by
  rw [List.isEmpty_eq_false_iff]
  intro empty
  have first := fits.firstLine?
  rw [empty] at first
  cases first

theorem goesOn (fits : Fits method target reached hs) {h : String × String} (among : h ∈ hs) :
    (!(headerLine h).isEmpty) = true := by
  rw [Bool.not_eq_true', List.isEmpty_eq_false_iff]
  intro empty
  have found := fits.header? among
  rw [empty] at found
  cases found

/-- The lines of a head end before the empty one. -/
theorem takeWhile_lines (fits : Fits method target reached hs) (others : List (List UInt8)) :
    (hs.map headerLine ++ [] :: others).takeWhile (!·.isEmpty) = hs.map headerLine := by
  refine (List.takeWhile_append_of_pos ?_).trans (List.append_nil _)
  intro line among
  obtain ⟨h, here, rfl⟩ := List.mem_map.1 among
  exact fits.goesOn here

theorem shortNames (fits : Fits method target reached hs) :
    (hs.map readHeader).any (fun h => maxName < h.name.length) = false := by
  simp only [List.any_map, List.any_eq_false, Function.comp, decide_eq_true_eq, Nat.not_lt]
  intro h among
  have lower : h.1.toLower.length = h.1.length := String.length_map
  rw [readHeader, lower]
  exact (fits.names h among).2

end Fits

/-- What a client writes is read, and what stands behind it is left alone. -/
theorem parse_bytes {method target : String} {reached : Target} {hs : List (String × String)}
    (fits : Fits method target reached hs) (rest : List UInt8) :
    parse (bytes method target hs ++ rest) =
      .ok ⟨method, reached, .oneOne, hs.map readHeader⟩ := by
  rw [parse, lines_bytes fits.single_first (fun _ among => fits.single among),
    List.dropWhile_cons_of_neg (by simp [fits.begins])]
  dsimp only
  rw [fits.firstLine?]
  dsimp only
  rw [Utf8.decode?_eq_some_iff.2 rfl]
  dsimp only
  rw [if_neg (by simp [fits.visible.2]), fits.takeWhile_lines,
    headers_written fits.few fun _ among => fits.header? among]
  simp only [bind, Except.bind, pure, Except.pure, if_neg (Nat.not_lt.2 fits.short),
    fits.shortNames, fits.reached, fits.body]
  rfl

example : Fits "GET" "/health" ⟨"/health".toList, none⟩ [("Host", "room")] where
  token := by rw [Utf8.encode_eq]; decide +kernel
  reached := by decide +kernel
  short := by rw [Utf8.encode_eq]; decide +kernel
  few := by decide
  names := by simp only [Utf8.encode_eq]; decide +kernel
  values := by simp only [Utf8.encode_eq]; decide +kernel
  body := by
    have lower : "Host".toLower = "host" := by decide +kernel
    simp only [checkBody, readHeader, List.map_cons, List.map_nil, lower]
    rfl

end Roomcast.Http.Head
