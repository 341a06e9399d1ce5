import Roomcast.Json.Record
import Roomcast.Proofs.Values

/-!
# Records that are read back

What a decoder reads from a written form (`Reads`) and how deep the written form of what it has read
may be (`Bounded`), for each way to make a decoder: strings, integers, names, lists, records. A
record is written by its slots, the declared fields with their values or without; the decoder finds
in each slot what has been written there.
-/

namespace Roomcast.Json

/-- A declared field of a record, with its value if it is there. -/
abbrev Slot := String × Option Tree

namespace Tree

def present (slots : List Slot) : List (String × Tree) :=
  slots.filterMap fun s => s.2.map fun t => (s.1, t)

def ofSlots (slots : List Slot) : Tree := .ofFields (present slots)

variable {slots : List Slot}

theorem mem_present {f : String × Tree} :
    f ∈ present slots ↔ ∃ s ∈ slots, s.1 = f.1 ∧ s.2 = some f.2 := by
  rw [present, List.mem_filterMap]
  constructor
  · rintro ⟨s, among, same⟩
    obtain ⟨t, value, rfl⟩ := Option.map_eq_some_iff.1 same
    exact ⟨s, among, rfl, value⟩
  · rintro ⟨s, among, name, value⟩
    exact ⟨s, among, by rw [value, Option.map_some, name]⟩

theorem isWritten_ofFields {fields : List (String × Tree)} (h : ∀ f ∈ fields, f.2.IsWritten) :
    (ofFields fields).IsWritten := by
  refine isWritten_object fun f among => ?_
  obtain ⟨f, own, rfl⟩ := List.mem_map.1 among
  exact ⟨isWritten_piecesOfText _, h f own⟩

theorem depth_ofFields_le {fields : List (String × Tree)} {n : Nat} :
    (ofFields fields).depth ≤ n ↔ ∃ m, n = m + 1 ∧ ∀ f ∈ fields, f.2.depth ≤ m := by
  rw [ofFields, depth_object_le]
  simp only [List.forall_mem_map]

theorem isWritten_ofSlots (h : ∀ s ∈ slots, ∀ t ∈ s.2, t.IsWritten) :
    (ofSlots slots).IsWritten := by
  refine isWritten_ofFields fun f among => ?_
  obtain ⟨s, own, _, value⟩ := mem_present.1 among
  exact h s own f.2 value

theorem depth_ofSlots_le {n : Nat} :
    (ofSlots slots).depth ≤ n ↔ ∃ m, n = m + 1 ∧ ∀ s ∈ slots, ∀ t ∈ s.2, t.depth ≤ m := by
  rw [ofSlots, depth_ofFields_le]
  refine exists_congr fun m => and_congr_right fun _ => ⟨fun h s own t value => ?_,
    fun h f among => ?_⟩
  · exact h (s.1, t) (mem_present.2 ⟨s, own, rfl, value⟩)
  · obtain ⟨s, own, _, value⟩ := mem_present.1 among
    exact h s own f.2 value

end Tree

namespace Decoder

open Roomcast.Json.Tree (ofFields ofSlots present)

variable {α β : Type} {d : Decoder α} {t : Tree} {x : α} {depth : Nat}

theorem named?_ofFields (fields : List (String × Tree)) :
    named? (fields.map fun f => (Piece.ofText f.1.toList, f.2)) = some fields := by
  refine mapM_map fun f _ => ?_
  rw [decodeText?_ofText, Option.map_some]

/-- A declared field is found where it has been written. -/
theorem field?_present {slots : List Slot} (declared : (slots.map Prod.fst).Nodup) {s : Slot}
    (among : s ∈ slots) : field? (present slots) s.1 = some s.2 := by
  have found : (present slots).filter (·.1 = s.1) = (s.2.map fun t => (s.1, t)).toList := by
    induction slots with
    | nil => cases among
    | cons s' rest ih =>
        rw [List.map_cons, List.nodup_cons] at declared
        have split : present (s' :: rest) =
            (s'.2.map fun t => (s'.1, t)).toList ++ present rest := by
          cases value : s'.2 <;> simp [present, value]
        rw [split, List.filter_append]
        obtain rfl | later := List.mem_cons.1 among
        · have others : (present rest).filter (·.1 = s.1) = [] := by
            rw [List.filter_eq_nil_iff]
            intro f own same
            obtain ⟨s'', own, name, _⟩ := Tree.mem_present.1 own
            exact declared.1 (List.mem_map.2 ⟨s'', own, name.trans (of_decide_eq_true same)⟩)
          rw [others, List.append_nil]
          cases s.2 <;> simp
        · have other : s'.1 ≠ s.1 := fun same =>
            declared.1 (List.mem_map.2 ⟨s, later, same.symm⟩)
          rw [ih declared.2 later]
          cases s'.2 <;> simp [other]
  rw [field?, found]
  cases s.2 <;> rfl

/-- The slots of a record are read back. -/
theorem record?_ofSlots {slots : List Slot} (declared : (slots.map Prod.fst).Nodup) (depth : Nat) :
    record? (slots.map Prod.fst) (depth + 1) (ofSlots slots) =
      some (depth, slots.map Prod.snd) := by
  rw [ofSlots, ofFields, record?, named?_ofFields, Option.bind_some,
    mapM_map_map fun s among => field?_present declared among, Option.map_some]

/-- A record costs one level of nesting. -/
theorem eq_succ_of_record? {names : List String} {m : Nat} {values : List (Option Tree)}
    (read : record? names depth t = some (m, values)) : depth = m + 1 := by
  unfold record? at read
  split at read
  · obtain ⟨fields, _, read⟩ := Option.bind_eq_some_iff.1 read
    obtain ⟨vs, _, same⟩ := Option.map_eq_some_iff.1 read
    rw [(Prod.mk.inj same).1]
  · split_ifs at read
    rw [(Prod.mk.inj (Option.some.inj read)).1]
  · cases read

/-- A tree can be written, and a decoder reads a value from it wherever it may nest as deep as the
tree does. -/
structure Reads (d : Decoder α) (t : Tree) (x : α) : Prop where
  isWritten : t.IsWritten
  read : ∀ {depth}, t.depth ≤ depth → d depth t = some x

theorem Reads.map {f : α → β} (h : Reads d t x) :
    Reads (fun depth t => (d depth t).map f) t (f x) :=
  ⟨h.isWritten, fun fits => by rw [h.read fits, Option.map_some]⟩

theorem reads_text (s : String) : Reads text (.ofText s) s :=
  ⟨Tree.isWritten_ofText s, fun _ => decodeText?_ofText s⟩

theorem reads_integer {low high n : Int} (isWord : IsWord n) (inRange : low ≤ n ∧ n ≤ high) :
    Reads (integer low high) (.ofInt n) n := by
  refine ⟨Tree.isWritten_ofInt n, fun _ => ?_⟩
  rw [Tree.ofInt, integer, int?_digits isWord, Option.bind_some, if_pos inRange]

theorem reads_name {choices : List (String × α)} {s : String} (named : choices.lookup s = some x) :
    Reads (name choices) (.ofText s) x := by
  refine ⟨Tree.isWritten_ofText s, fun _ => ?_⟩
  rw [Tree.ofText, name, decodeText?_ofText, Option.bind_some, named]

theorem reads_value {v : Value} (ordered : v.IsOrdered) (integral : v.IsIntegral) :
    Reads value v.toTree v :=
  ⟨Value.isWritten_toTree integral, Value.value?_toTree ordered integral⟩

theorem reads_list {write : α → Tree} (xs : List α) (each : ∀ x ∈ xs, Reads d (write x) x) :
    Reads (list d) (.array (xs.map write)) xs := by
  refine ⟨Tree.isWritten_array fun t among => ?_, fun {depth} fits => ?_⟩
  · obtain ⟨x, own, rfl⟩ := List.mem_map.1 among
    exact (each x own).isWritten
  · obtain ⟨depth, rfl, inner⟩ := Tree.depth_array_le.1 fits
    rw [list]
    exact mapM_map fun x own => (each x own).read (inner _ (List.mem_map_of_mem own))

theorem reads_tagged {choices : List (String × Decoder α)} {s : String}
    (named : choices.lookup s = some d) (h : Reads d t x) :
    Reads (tagged choices) (.ofFields [(s, t)]) x := by
  refine ⟨Tree.isWritten_ofFields fun f among => ?_, fun {depth} fits => ?_⟩
  · obtain rfl := List.mem_singleton.1 among
    exact h.isWritten
  · obtain ⟨depth, rfl, inner⟩ := Tree.depth_ofFields_le.1 fits
    rw [ofFields, List.map_singleton, tagged, decodeText?_ofText, Option.bind_some, named,
      Option.bind_some, h.read (inner _ List.mem_cons_self)]

/-- What a slot holds can be written, and a value is read from it wherever the decoder may nest as
deep as the tree in it does. -/
structure Fills (read : Nat → Option Tree → Option α) (v : Option Tree) (x : α) : Prop where
  isWritten : ∀ t ∈ v, t.IsWritten
  read : ∀ {depth}, (∀ t ∈ v, t.depth ≤ depth) → read depth v = some x

theorem Reads.required (h : Reads d t x) : Fills (required d) (some t) x where
  isWritten := by
    rintro _ ⟨⟩
    exact h.isWritten
  read fits := h.read (fits t rfl)

theorem Reads.defaulted (h : Reads d t x) (default : α) :
    Fills (defaulted default d) (some t) x where
  isWritten := h.required.isWritten
  read fits := h.read (fits t rfl)

theorem fills_optional {write : α → Tree} {v : Option α} (h : ∀ x ∈ v, Reads d (write x) x)
    (there : ∀ x, write x ≠ .null) : Fills (optional d) (v.map write) v := by
  cases v with
  | none => exact ⟨fun _ none => (Option.not_mem_none _ none).elim, fun _ => rfl⟩
  | some x =>
      have h := h x rfl
      refine ⟨h.required.isWritten, fun fits => ?_⟩
      show nullable d _ (write x) = _
      rw [nullable]
      · rw [h.read (fits _ rfl), Option.map_some]
      · exact there x

/-- A record is read if its slots are. -/
theorem reads_ofSlots (slots : List Slot) (declared : (slots.map Prod.fst).Nodup)
    (written : ∀ s ∈ slots, ∀ t ∈ s.2, t.IsWritten)
    (read : ∀ depth, (∀ s ∈ slots, ∀ t ∈ s.2, t.depth ≤ depth) →
      record? (slots.map Prod.fst) (depth + 1) (ofSlots slots) =
          some (depth, slots.map Prod.snd) →
        d (depth + 1) (ofSlots slots) = some x) :
    Reads d (ofSlots slots) x := by
  refine ⟨Tree.isWritten_ofSlots written, fun {depth} fits => ?_⟩
  obtain ⟨depth, rfl, inner⟩ := Tree.depth_ofSlots_le.1 fits
  exact read depth inner (record?_ofSlots declared depth)

/-- What a decoder reads nests, when it is written, no deeper than the decoder was allowed to go, or
than some least number. -/
def Bounded (d : Decoder α) (write : α → Tree) (least : Nat) : Prop :=
  ∀ {depth : Nat} {t : Tree} {x : α}, d depth t = some x → (write x).depth ≤ max depth least

theorem bounded_value : Bounded value Value.toTree 0 := fun read =>
  (Tree.value?_ordered read).2.trans (Nat.le_max_left _ _)

theorem bounded_list {write : α → Tree} {least : Nat} (h : Bounded d write least) :
    Bounded (list d) (fun xs => .array (xs.map write)) (least + 1) := by
  intro depth t xs read
  unfold list at read
  split at read
  · rename_i depth items
    refine Tree.depth_array_le.2 ⟨max depth least, by omega, fun t among => ?_⟩
    obtain ⟨x, own, rfl⟩ := List.mem_map.1 among
    obtain ⟨t, _, readOne⟩ := mem_mapM read own
    exact h readOne
  · cases read

/-- A tagged value costs one level of nesting. -/
theorem exists_of_tagged {choices : List (String × Decoder α)}
    (read : tagged choices depth t = some x) :
    ∃ m c t', depth = m + 1 ∧ c ∈ choices ∧ c.2 m t' = some x := by
  unfold tagged at read
  split at read
  · rename_i m s t'
    obtain ⟨s, _, readBody⟩ := Option.bind_eq_some_iff.1 read
    obtain ⟨d, named, readBody⟩ := Option.bind_eq_some_iff.1 readBody
    obtain ⟨before, behind, split, _⟩ := List.lookup_eq_some_iff.1 named
    exact ⟨m, (s, d), t', rfl, by simp [split], readBody⟩
  · cases read

theorem Bounded.required {write : α → Tree} {least : Nat} (h : Bounded d write least)
    {v : Option Tree} (read : required d depth v = some x) : (write x).depth ≤ max depth least := by
  obtain ⟨t, _, read⟩ := Option.bind_eq_some_iff.1 read
  exact h read

theorem Bounded.optional {write : α → Tree} {least : Nat} (h : Bounded d write least)
    {v : Option Tree} {y : Option α} (read : optional d depth v = some y) :
    ∀ t ∈ y.map write, t.depth ≤ max depth least := by
  intro t there
  obtain ⟨x, rfl, rfl⟩ := Option.map_eq_some_iff.1 there
  unfold Decoder.optional at read
  split at read
  · cases read
  · unfold nullable at read
    split at read
    · cases read
    · obtain ⟨x', readOne, same⟩ := Option.map_eq_some_iff.1 read
      obtain rfl := Option.some.inj same
      exact h readOne

end Decoder

end Roomcast.Json
