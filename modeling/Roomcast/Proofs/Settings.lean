import Roomcast.Config
import Roomcast.Proofs.Digits

/-!
# What the variables say

A variable that holds a number holds decimal digits, and one plus sign before them if it likes; the
number is positive and fits 64 bits. The variable of the log format holds one of two names, whose
letters may be of either case. Whatever else a variable holds is wrong.

The variables are looked at in a fixed order. If none is wrong, each setting is what its own
variable says, or its default, and no other variable has a part in it. Otherwise the first wrong
variable is named, together with what it holds.
-/

namespace Roomcast

theorem toNat_toLower (c : Char) : c.toLower.toNat =
    if 'A'.toNat ≤ c.toNat ∧ c.toNat ≤ 'Z'.toNat then c.toNat + 32 else c.toNat := by
  have capital : (c.val ≥ 'A'.val ∧ c.val ≤ 'Z'.val) ↔
      'A'.toNat ≤ c.toNat ∧ c.toNat ≤ 'Z'.toNat := Iff.rfl
  unfold Char.toLower
  split <;> rename_i within
  · rw [if_pos (capital.1 within)]
    have small : c.toNat ≤ 90 := within.2
    show (c.val + ('a'.val - 'A'.val)).toNat = c.toNat + 32
    rw [UInt32.toNat_add]
    show (c.toNat + 32) % 4294967296 = c.toNat + 32
    omega
  · rw [if_neg (mt capital.2 within)]

theorem toNat_toUpper {c : Char} (lower : 'a'.toNat ≤ c.toNat ∧ c.toNat ≤ 'z'.toNat) :
    c.toUpper.toNat = c.toNat - 32 := by
  have within : 'a'.val ≤ c.val ∧ c.val ≤ 'z'.val := lower
  have large : 97 ≤ c.toNat := lower.1
  have upper : c.toUpper = ⟨c.val + ('A'.val - 'a'.val), _⟩ := dif_pos within
  rw [upper]
  show (c.val + ('A'.val - 'a'.val)).toNat = c.toNat - 32
  rw [UInt32.toNat_add]
  show (c.toNat + 4294967264) % 4294967296 = c.toNat - 32
  have small : c.toNat < 4294967296 := c.val.toNat_lt
  omega

/-- A character becomes a small letter if it is that letter or its capital. -/
theorem toLower_eq_iff {c d : Char} (lower : 'a'.toNat ≤ d.toNat ∧ d.toNat ≤ 'z'.toNat) :
    c.toLower = d ↔ c = d ∨ c = d.toUpper := by
  have large : 97 ≤ d.toNat := lower.1
  have small : d.toNat ≤ 122 := lower.2
  rw [← Char.toNat_inj, ← Char.toNat_inj, ← Char.toNat_inj, toNat_toLower, toNat_toUpper lower]
  show (if 65 ≤ c.toNat ∧ c.toNat ≤ 90 then _ else _) = _ ↔ _
  split <;> omega

namespace LogFormat

/-- A text is the name of a format, with each of its letters in either case. -/
def IsNamed (format : LogFormat) (s : String) : Prop :=
  s.toList.Forall₂ (fun c d => c = d ∨ c = d.toUpper) format.name.toList

theorem isNamed_iff {format : LogFormat} {s : String} :
    format.IsNamed s ↔ s.toList.map Char.toLower = format.name.toList := by
  have small : ∀ d ∈ format.name.toList, 'a'.toNat ≤ d.toNat ∧ d.toNat ≤ 'z'.toNat := by
    cases format <;> simp [name]
  rw [IsNamed, ← List.forall₂_eq_eq_eq, List.forall₂_map_left_iff]
  generalize format.name.toList = name at small
  generalize s.toList = text
  induction name generalizing text with
  | nil => cases text <;> simp
  | cons d name ih =>
      cases text with
      | nil => simp
      | cons c text =>
          rw [List.forall₂_cons, List.forall₂_cons]
          exact and_congr (toLower_eq_iff (small d List.mem_cons_self)).symm
            (ih (fun d among => small d (List.mem_cons_of_mem _ among)) text)

theorem ofName?_eq_some {format : LogFormat} {s : String} :
    ofName? s = some format ↔ format.IsNamed s := by
  rw [isNamed_iff, ofName?]
  split_ifs with console json
  · cases format <;> simp [name, console]
  · cases format <;> simp [name, json]
  · cases format <;> simpa [name]

end LogFormat

namespace Config

/-- A text denotes a number: it consists of decimal digits, of which each counts for ten times the
one behind it, and of a plus sign before them or of none. -/
def Denotes (s : String) (n : Nat) : Prop :=
  ∃ sign digits : List Char, s.toList = sign ++ digits ∧ (sign = [] ∨ sign = ['+']) ∧
    digits ≠ [] ∧ (∀ c ∈ digits, '0' ≤ c ∧ c ≤ '9') ∧
    n = Nat.ofDigits 10 (digits.reverse.map fun c => c.toNat - '0'.toNat)

/-- A text denotes a number that a setting can be. -/
def Holds (s : String) (n : Nat) : Prop := Denotes s n ∧ 1 ≤ n ∧ n ≤ 2 ^ 64 - 1

theorem ofDigits_eq (ds : List Nat) : Text.ofDigits 10 0 ds = Nat.ofDigits 10 ds.reverse := by
  induction ds using List.reverseRecOn with
  | nil => rfl
  | append_singleton ds d ih =>
      rw [Text.ofDigits_append, ih, List.reverse_append, List.reverse_singleton,
        List.singleton_append, Nat.ofDigits_cons]
      exact Nat.add_comm _ _

theorem mapM_decimalValue? {digits : List Char} {ds : List Nat} :
    digits.mapM Text.decimalValue? = some ds ↔
      (∀ c ∈ digits, '0' ≤ c ∧ c ≤ '9') ∧ ds = digits.map fun c => c.toNat - '0'.toNat := by
  induction digits generalizing ds with
  | nil => simp [eq_comm]
  | cons c digits ih =>
      rw [List.mapM_cons, List.forall_mem_cons, List.map_cons, Text.decimalValue?]
      by_cases digit : '0' ≤ c ∧ c ≤ '9'
      · cases rest : digits.mapM Text.decimalValue? with
        | none =>
            have never : ¬ ∀ c ∈ digits, '0' ≤ c ∧ c ≤ '9' := by
              intro all
              simp [ih.2 ⟨all, rfl⟩] at rest
            simp [digit, never]
        | some rest' =>
            obtain ⟨all, rfl⟩ := ih.1 rest
            have whole : (∀ c ∈ digits, '0' ≤ c ∧ c ≤ '9') ↔ True := iff_true_intro all
            simp [digit, whole, eq_comm]
      · simp [digit]

/-- Digits without a sign are read as the number that they denote, if a setting can be that. -/
theorem digits_eq_some {digits : List Char} {n : Nat} :
    (if digits.isEmpty then none
      else (digits.mapM Text.decimalValue?).bind fun ds =>
        let n := Text.ofDigits 10 0 ds
        if 0 < n ∧ n < Nat.pow 2 64 then some n else none) = some n ↔
      digits ≠ [] ∧ (∀ c ∈ digits, '0' ≤ c ∧ c ≤ '9') ∧
        n = Nat.ofDigits 10 (digits.reverse.map fun c => c.toNat - '0'.toNat) ∧
        1 ≤ n ∧ n ≤ 2 ^ 64 - 1 := by
  have range : ∀ m : Nat, (0 < m ∧ m < Nat.pow 2 64) ↔ 1 ≤ m ∧ m ≤ 2 ^ 64 - 1 := by
    intro m
    show (0 < m ∧ m < 18446744073709551616) ↔ 1 ≤ m ∧ m ≤ 18446744073709551615
    omega
  rw [Option.ite_none_left_eq_some, List.isEmpty_iff, Option.bind_eq_some_iff]
  refine and_congr_right fun _ => ?_
  constructor
  · rintro ⟨ds, read, within⟩
    obtain ⟨all, rfl⟩ := mapM_decimalValue?.1 read
    rw [Option.ite_none_right_eq_some, Option.some.injEq, ofDigits_eq, ← List.map_reverse] at within
    obtain ⟨fits, rfl⟩ := within
    exact ⟨all, rfl, (range _).1 fits⟩
  · rintro ⟨all, rfl, fits⟩
    refine ⟨_, mapM_decimalValue?.2 ⟨all, rfl⟩, ?_⟩
    rw [Option.ite_none_right_eq_some, ofDigits_eq, ← List.map_reverse]
    exact ⟨(range _).2 fits, rfl⟩

/-- What is read is what the text denotes. -/
theorem positive?_eq_some {s : String} {n : Nat} : positive? s = some n ↔ Holds s n := by
  constructor
  · intro read
    unfold positive? at read
    split at read
    case h_1 rest signed =>
      obtain ⟨some', all, value, range⟩ := digits_eq_some.1 read
      exact ⟨⟨['+'], rest, signed, .inr rfl, some', all, value⟩, range⟩
    case h_2 =>
      obtain ⟨some', all, value, range⟩ := digits_eq_some.1 read
      exact ⟨⟨[], s.toList, rfl, .inl rfl, some', all, value⟩, range⟩
  · rintro ⟨⟨sign, digits, whole, optional, some', all, value⟩, range⟩
    have read := digits_eq_some.2 ⟨some', all, value, range⟩
    unfold positive?
    obtain rfl | rfl := optional
    · rw [whole, List.nil_append]
      split
      · -- A plus sign is no digit.
        exact absurd (all '+' List.mem_cons_self) (by decide)
      · exact read
    · rw [whole]
      exact read

example : positive? "+007" = some 7 := by decide

theorem Holds.unique {s : String} {m n : Nat} (h : Holds s m) (h' : Holds s n) : m = n :=
  Option.some.inj ((positive?_eq_some.2 h).symm.trans (positive?_eq_some.2 h'))

section Lookup

variable {α : Type} {parse : String → Option α} {means : String → α → Prop}
  {wrong : String → ConfigError} {default : α} {held : Option String}

/-- The value of a variable, given what it holds. -/
def lookUp (parse : String → Option α) (wrong : String → ConfigError) (default : α)
    (held : Option String) : Except ConfigError α :=
  match held with
  | none => .ok default
  | some text =>
    match parse text with
    | some a => .ok a
    | none => .error (wrong text)

/-- What a variable says: what its text means, or else the default. -/
def Says (means : String → α → Prop) (default : α) (held : Option String) (a : α) : Prop :=
  match held with
  | none => a = default
  | some text => means text a

/-- A variable is set, and what it holds means nothing. -/
def Garbles (means : String → α → Prop) (held : Option String) : Prop :=
  ∃ text, held = some text ∧ ¬ ∃ a, means text a

/-- Either a variable has a value, which is what it says, or what it holds means nothing. -/
theorem lookUp_cases (reads : ∀ {text a}, parse text = some a ↔ means text a)
    (wrong : String → ConfigError) (default : α) (held : Option String) :
    (∃ a, lookUp parse wrong default held = .ok a ∧ Says means default held a ∧
        ¬ Garbles means held) ∨
      ∃ text, lookUp parse wrong default held = .error (wrong text) ∧ held = some text ∧
        Garbles means held := by
  cases held with
  | none => exact .inl ⟨default, rfl, rfl, by rintro ⟨_, held, _⟩; cases held⟩
  | some text =>
      cases read : parse text with
      | some a =>
          refine .inl ⟨a, by simp only [lookUp, read], reads.1 read, ?_⟩
          rintro ⟨_, held, garbled⟩
          cases held
          exact garbled ⟨a, reads.1 read⟩
      | none =>
          refine .inr ⟨text, by simp only [lookUp, read], rfl, text, rfl, ?_⟩
          rintro ⟨a, means⟩
          rw [reads.2 means] at read
          cases read

theorem Says.unique {a b : α} (told : Says means default held a)
    (again : Says means default held b)
    (alone : ∀ text a b, means text a → means text b → a = b) : a = b := by
  cases held with
  | none => exact told.trans again.symm
  | some text => exact alone text a b told again

end Lookup

/-- A text means a log format if it is the name of the format. -/
def MeansFormat (s : String) (format : LogFormat) : Prop := format.IsNamed s

/-- What a variable holds is of no use. -/
def Wrong (vars : Variables) (name : String) : Prop :=
  if name = "LOG_FORMAT" then Garbles MeansFormat (vars name) else Garbles Holds (vars name)

def complaint (name text : String) : String :=
  "Invalid configuration value: " ++ name ++
    (if name = "LOG_FORMAT" then " must be 'console' or 'json', got '"
      else " must be a positive integer, got '") ++ text ++ "'"

/-- An error is about a wrong variable, and quotes what it holds. -/
def Blames (vars : Variables) (name : String) (e : ConfigError) : Prop :=
  ∃ text, vars name = some text ∧ Wrong vars name ∧ e.message = complaint name text

theorem positive_eq_lookUp (vars : Variables) (name : String) (default : Nat) :
    positive vars name default = lookUp positive? (.notPositive name) default (vars name) := by
  unfold positive lookUp
  cases vars name with
  | none => rfl
  | some text => cases read : positive? text <;> simp [read]

theorem logFormatOf_eq_lookUp (vars : Variables) : logFormatOf vars =
    lookUp LogFormat.ofName? .notLogFormat .console (vars "LOG_FORMAT") := by
  unfold logFormatOf lookUp
  cases vars "LOG_FORMAT" with
  | none => rfl
  | some text => cases read : LogFormat.ofName? text <;> simp [read]

theorem positive_cases (vars : Variables) (name : String) (default : Nat)
    (other : name ≠ "LOG_FORMAT") :
    (∃ n, positive vars name default = .ok n ∧ Says Holds default (vars name) n ∧
        ¬ Wrong vars name) ∨
      ∃ e, positive vars name default = .error e ∧ Blames vars name e := by
  have told : ∀ text, (ConfigError.notPositive name text).message = complaint name text := by
    intro text
    unfold ConfigError.message complaint
    rw [if_neg other]
    rfl
  rw [positive_eq_lookUp]
  unfold Blames Wrong
  rw [if_neg other]
  obtain read | ⟨text, fails, held, garbled⟩ :=
    lookUp_cases positive?_eq_some (.notPositive name) default (vars name)
  · exact .inl read
  · exact .inr ⟨_, fails, text, held, garbled, told text⟩

theorem format_cases (vars : Variables) :
    (∃ format, logFormatOf vars = .ok format ∧
        Says MeansFormat .console (vars "LOG_FORMAT") format ∧ ¬ Wrong vars "LOG_FORMAT") ∨
      ∃ e, logFormatOf vars = .error e ∧ Blames vars "LOG_FORMAT" e := by
  have told : ∀ text, (ConfigError.notLogFormat text).message = complaint "LOG_FORMAT" text := by
    intro text
    unfold ConfigError.message complaint
    have front : "Invalid configuration value: " ++ "LOG_FORMAT" ++
        " must be 'console' or 'json', got '" =
          "Invalid configuration value: LOG_FORMAT must be 'console' or 'json', got '" := by
      decide
    rw [if_pos rfl, front]
    rfl
  rw [logFormatOf_eq_lookUp]
  unfold Blames Wrong
  rw [if_pos rfl]
  obtain read | ⟨text, fails, held, garbled⟩ :=
    lookUp_cases LogFormat.ofName?_eq_some .notLogFormat .console (vars "LOG_FORMAT")
  · exact .inl read
  · exact .inr ⟨_, fails, text, held, garbled, told text⟩

/-- A setting that is a number. -/
structure Quantity where
  name : String
  default : Nat
  value : Config → Nat

/-- The settings that are numbers, in the order in which their variables are looked at. -/
def quantities : List Quantity :=
  [⟨"EVENT_BUFFER_CAPACITY", 30, windowCapacity⟩, ⟨"EVENT_GC_PERIOD_SECONDS", 60, collectionPeriod⟩,
    ⟨"PEER_PING_INTERVAL_SECONDS", 60, pingInterval⟩,
    ⟨"PEER_PING_TIMEOUT_SECONDS", 20, pingTimeout⟩,
    ⟨"SHUTDOWN_TIMEOUT_SECONDS", 60, shutdownTimeout⟩]

/-- The variables that can be wrong, in the order in which they are looked at. -/
def order : List String := quantities.map (·.name) ++ ["LOG_FORMAT"]

/-- Each setting is what its variable says. -/
structure Follows (vars : Variables) (c : Config) : Prop where
  quantities : ∀ q ∈ quantities, Says Holds q.default (vars q.name) (q.value c)
  logFormat : Says MeansFormat .console (vars "LOG_FORMAT") c.logFormat
  listenAddress : c.listenAddress = (vars "LISTEN_WEB_ADDRESS").getD "0.0.0.0:8080"

/-- Either no variable is wrong and the settings follow them, or the first that is wrong is
named. -/
theorem ofVariables_cases (vars : Variables) :
    (∃ c, ofVariables vars = .ok c ∧ Follows vars c ∧ ∀ name ∈ order, ¬ Wrong vars name) ∨
      ∃ e before name behind, ofVariables vars = .error e ∧ order = before ++ name :: behind ∧
        (∀ earlier ∈ before, ¬ Wrong vars earlier) ∧ Blames vars name e := by
  unfold ofVariables
  obtain ⟨capacity, read₁, told₁, fine₁⟩ | ⟨e, read, blames⟩ :=
    positive_cases vars "EVENT_BUFFER_CAPACITY" 30 (by decide)
  case inr => exact .inr ⟨e, [], _, _, by rw [read]; rfl, rfl, by simp, blames⟩
  obtain ⟨period, read₂, told₂, fine₂⟩ | ⟨e, read, blames⟩ :=
    positive_cases vars "EVENT_GC_PERIOD_SECONDS" 60 (by decide)
  case inr =>
    exact .inr ⟨e, ["EVENT_BUFFER_CAPACITY"], _, _, by rw [read₁, read]; rfl, rfl,
      by simp [fine₁], blames⟩
  obtain ⟨interval, read₃, told₃, fine₃⟩ | ⟨e, read, blames⟩ :=
    positive_cases vars "PEER_PING_INTERVAL_SECONDS" 60 (by decide)
  case inr =>
    exact .inr ⟨e, ["EVENT_BUFFER_CAPACITY", "EVENT_GC_PERIOD_SECONDS"], _, _,
      by rw [read₁, read₂, read]; rfl, rfl, by simp [fine₁, fine₂], blames⟩
  obtain ⟨timeout, read₄, told₄, fine₄⟩ | ⟨e, read, blames⟩ :=
    positive_cases vars "PEER_PING_TIMEOUT_SECONDS" 20 (by decide)
  case inr =>
    exact .inr ⟨e, ["EVENT_BUFFER_CAPACITY", "EVENT_GC_PERIOD_SECONDS",
      "PEER_PING_INTERVAL_SECONDS"], _, _, by rw [read₁, read₂, read₃, read]; rfl, rfl,
      by simp [fine₁, fine₂, fine₃], blames⟩
  obtain ⟨shutdown, read₅, told₅, fine₅⟩ | ⟨e, read, blames⟩ :=
    positive_cases vars "SHUTDOWN_TIMEOUT_SECONDS" 60 (by decide)
  case inr =>
    exact .inr ⟨e, ["EVENT_BUFFER_CAPACITY", "EVENT_GC_PERIOD_SECONDS",
      "PEER_PING_INTERVAL_SECONDS", "PEER_PING_TIMEOUT_SECONDS"], _, _,
      by rw [read₁, read₂, read₃, read₄, read]; rfl, rfl, by simp [fine₁, fine₂, fine₃, fine₄],
      blames⟩
  obtain ⟨format, read₆, told₆, fine₆⟩ | ⟨e, read, blames⟩ := format_cases vars
  case inr =>
    exact .inr ⟨e, quantities.map (·.name), _, _,
      by rw [read₁, read₂, read₃, read₄, read₅, read]; rfl, rfl,
      by simp [quantities, fine₁, fine₂, fine₃, fine₄, fine₅], blames⟩
  refine .inl ⟨_, by rw [read₁, read₂, read₃, read₄, read₅, read₆]; rfl, ⟨?_, told₆, rfl⟩, ?_⟩
  · simp [quantities, told₁, told₂, told₃, told₄, told₅]
  · simp [order, quantities, fine₁, fine₂, fine₃, fine₄, fine₅, fine₆]

theorem MeansFormat.unique {s : String} {format format' : LogFormat} (h : MeansFormat s format)
    (h' : MeansFormat s format') : format = format' :=
  Option.some.inj ((LogFormat.ofName?_eq_some.2 h).symm.trans (LogFormat.ofName?_eq_some.2 h'))

/-- Settings agree wherever the variables do that they follow. -/
structure Agree (vars vars' : Variables) (c c' : Config) : Prop where
  quantities : ∀ q ∈ quantities, vars q.name = vars' q.name → q.value c = q.value c'
  logFormat : vars "LOG_FORMAT" = vars' "LOG_FORMAT" → c.logFormat = c'.logFormat
  listenAddress : vars "LISTEN_WEB_ADDRESS" = vars' "LISTEN_WEB_ADDRESS" →
    c.listenAddress = c'.listenAddress

theorem Follows.agree {vars vars' : Variables} {c c' : Config} (follows : Follows vars c)
    (follows' : Follows vars' c') : Agree vars vars' c c' where
  quantities q among same := by
    have told := follows.quantities q among
    rw [same] at told
    exact told.unique (follows'.quantities q among) fun _ _ _ => Holds.unique
  logFormat same := by
    have told := follows.logFormat
    rw [same] at told
    exact told.unique follows'.logFormat fun _ _ _ => MeansFormat.unique
  listenAddress same := by rw [follows.listenAddress, follows'.listenAddress, same]

/-- Variables are read exactly. -/
structure IsExact (vars : Variables) : Prop where
  /-- There are settings if no variable is wrong, and only then. -/
  succeeds : (∃ c, ofVariables vars = .ok c) ↔ ∀ name ∈ order, ¬ Wrong vars name
  /-- Each setting is what its variable says. -/
  follows : ∀ c, ofVariables vars = .ok c → Follows vars c
  /-- No other variable has a part in a setting. -/
  apart : ∀ c vars' c', ofVariables vars = .ok c → ofVariables vars' = .ok c' →
    Agree vars vars' c c'
  /-- If there are no settings, the first wrong variable is named, and what it holds is quoted. -/
  fails : ∀ e, ofVariables vars = .error e → ∃ before name behind,
    order = before ++ name :: behind ∧ (∀ earlier ∈ before, ¬ Wrong vars earlier) ∧
      Blames vars name e

theorem follows_of_read {vars : Variables} {c : Config} (read : ofVariables vars = .ok c) :
    Follows vars c := by
  obtain ⟨c', read', follows, _⟩ | ⟨e, _, _, _, fails, _⟩ := ofVariables_cases vars
  · rw [read] at read'
    cases read'
    exact follows
  · rw [read] at fails
    cases fails

/-- The variables give the settings that they say, or else the first wrong one is named. -/
theorem ofVariables_exact (vars : Variables) : IsExact vars where
  succeeds := by
    obtain ⟨c, read, _, fine⟩ | ⟨e, before, name, behind, fails, split, _, _, _, wrong, _⟩ :=
      ofVariables_cases vars
    · exact ⟨fun _ => fine, fun _ => ⟨c, read⟩⟩
    · have among : name ∈ order := by
        rw [split]
        exact List.mem_append_right _ List.mem_cons_self
      rw [fails]
      refine ⟨?_, fun fine => absurd wrong (fine name among)⟩
      rintro ⟨_, never⟩
      cases never
  follows _ read := follows_of_read read
  apart _ _ _ read read' := (follows_of_read read).agree (follows_of_read read')
  fails e fails := by
    obtain ⟨c, read, _⟩ | ⟨e', before, name, behind, fails', rest⟩ := ofVariables_cases vars
    · rw [read] at fails
      cases fails
    · rw [fails] at fails'
      cases fails'
      exact ⟨before, name, behind, rest⟩

end Config

end Roomcast
