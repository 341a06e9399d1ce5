import Roomcast.Json.Value
import Roomcast.Proofs.Parsing

/-!
# Opaque values

A value whose objects have their names in order is read back from its written form, wherever the
reader may open as many arrays and objects as stand inside one another there. The numbers have to be
integers: a double is written in few digits and may come back as an integer.

Conversely, what is read has its names in order, and written again it nests no deeper than the
reader was allowed to go.
-/

namespace Roomcast.Json

section Lists

variable {α β γ : Type} {f : α → Option β}

theorem mapM_map_map {g : γ → α} {h : γ → β} {xs : List γ} (each : ∀ x ∈ xs, f (g x) = some (h x)) :
    (xs.map g).mapM f = some (xs.map h) := by
  induction xs with
  | nil => rfl
  | cons x xs ih =>
      rw [List.map_cons, List.mapM_cons, each x List.mem_cons_self,
        ih fun y among => each y (List.mem_cons_of_mem _ among)]
      rfl

/-- A list is read back if each of its items is. -/
theorem mapM_map {g : β → α} {xs : List β} (each : ∀ x ∈ xs, f (g x) = some x) :
    (xs.map g).mapM f = some xs := by
  rw [mapM_map_map (h := id) each, List.map_id]

/-- Each item of what is read has been read from an item. -/
theorem mem_mapM {xs : List α} {ys : List β} (read : xs.mapM f = some ys) {y : β} (among : y ∈ ys) :
    ∃ x ∈ xs, f x = some y := by
  induction xs generalizing ys with
  | nil =>
      obtain rfl := Option.some.inj read
      cases among
  | cons x xs ih =>
      rw [List.mapM_cons] at read
      obtain ⟨first, readFirst, read⟩ := Option.bind_eq_some_iff.1 read
      obtain ⟨rest, readRest, same⟩ := Option.bind_eq_some_iff.1 read
      obtain rfl := Option.some.inj same
      obtain rfl | among := List.mem_cons.1 among
      · exact ⟨x, List.mem_cons_self, readFirst⟩
      · obtain ⟨x', among', read'⟩ := ih readRest among
        exact ⟨x', List.mem_cons_of_mem _ among', read'⟩

end Lists

@[simp] theorem decodeText?_ofText (s : String) :
    decodeText? (Piece.ofText s.toList) = some s := by
  have decoded : ∀ cs : List Char, Piece.decode? (Piece.ofText cs) = some cs := by
    intro cs
    induction cs with
    | nil => rfl
    | cons c cs ih =>
        show (Piece.decode? (Piece.ofText cs)).map (c :: ·) = _
        rw [ih, Option.map_some]
  rw [decodeText?, decoded, Option.map_some, String.ofList_toList]

/-- An integer that fits 64 bits is read back. -/
theorem int?_digits {n : Int} (isWord : IsWord n) :
    (⟨n < 0, Text.digits n.natAbs, [], none⟩ : Numeral).int? = some n := by
  have size := Text.ofDigits_digits n.natAbs
  have nonzero : ¬ (decide (n < 0) = true ∧ n.natAbs = 0) := by
    rw [decide_eq_true_iff]
    omega
  have value : (if decide (n < 0) = true then -(n.natAbs : Int) else (n.natAbs : Int)) = n := by
    by_cases negative : n < 0
    · rw [if_pos (decide_eq_true negative)]
      omega
    · rw [if_neg (by simpa using negative)]
      omega
  simp only [Numeral.int?, size]
  rw [if_pos ⟨rfl, nonzero⟩, value, if_pos isWord]

theorem isWritten_digits (negative : Bool) (n : Nat) :
    (⟨negative, Text.digits n, [], none⟩ : Numeral).IsWritten where
  whole_ne_nil := Text.digits_ne_nil n
  whole_lt _ := Text.digits_lt
  lone_zero _ := Text.digits_eq_zero_cons
  fraction_lt _ among := by cases among

namespace Tree

/-- What holds of a tree if it holds of the trees in it, holds of all trees. -/
@[elab_as_elim]
theorem induction {motive : Tree → Prop} (t : Tree) (null : motive .null)
    (bool : ∀ b, motive (.bool b)) (number : ∀ n, motive (.number n))
    (string : ∀ s, motive (.string s))
    (array : ∀ items, (∀ t ∈ items, motive t) → motive (.array items))
    (object : ∀ fields : Fields, (∀ f ∈ fields, motive f.2) → motive (.object fields)) :
    motive t :=
  Tree.rec (motive_1 := motive) (motive_2 := fun items => ∀ t ∈ items, motive t)
    (motive_3 := fun fields => ∀ f ∈ fields, motive f.2) (motive_4 := fun f => motive f.2)
    null bool number string array object
    (List.forall_mem_nil _) (fun _ _ first rest => List.forall_mem_cons.2 ⟨first, rest⟩)
    (List.forall_mem_nil _) (fun _ _ first rest => List.forall_mem_cons.2 ⟨first, rest⟩)
    (fun _ _ value => value) t

mutual

/-- How many arrays and objects stand inside one another, at most. -/
def depth : Tree → Nat
  | .array items => itemsDepth items + 1
  | .object fields => fieldsDepth fields + 1
  | _ => 0

/-- How many arrays and objects stand inside one another in some items. -/
def itemsDepth : List Tree → Nat
  | [] => 0
  | t :: rest => max t.depth (itemsDepth rest)

/-- How many arrays and objects stand inside one another in some fields. -/
def fieldsDepth : Fields → Nat
  | [] => 0
  | (_, t) :: rest => max t.depth (fieldsDepth rest)

end

theorem itemsDepth_le {items : List Tree} {n : Nat} :
    itemsDepth items ≤ n ↔ ∀ t ∈ items, t.depth ≤ n := by
  induction items with
  | nil => simp [itemsDepth]
  | cons t rest ih => simp [itemsDepth, ih]

theorem fieldsDepth_le {fields : Fields} {n : Nat} :
    fieldsDepth fields ≤ n ↔ ∀ f ∈ fields, f.2.depth ≤ n := by
  induction fields with
  | nil => simp [fieldsDepth]
  | cons f rest ih => simp [fieldsDepth, ih]

theorem depth_array_le {items : List Tree} {n : Nat} :
    (array items).depth ≤ n ↔ ∃ m, n = m + 1 ∧ ∀ t ∈ items, t.depth ≤ m := by
  rw [depth]
  cases n with
  | zero => simp
  | succ n => simp [itemsDepth_le]

theorem depth_object_le {fields : Fields} {n : Nat} :
    (object fields).depth ≤ n ↔ ∃ m, n = m + 1 ∧ ∀ f ∈ fields, f.2.depth ≤ m := by
  rw [depth]
  cases n with
  | zero => simp
  | succ n => simp [fieldsDepth_le]

@[simp] theorem depth_ofText (s : String) : (ofText s).depth = 0 := by simp [ofText, depth]

@[simp] theorem depth_ofNat (n : Nat) : (ofNat n).depth = 0 := by simp [ofNat, depth]

@[simp] theorem depth_ofInt (n : Int) : (ofInt n).depth = 0 := by simp [ofInt, depth]

theorem isWritten_null : IsWritten null := by
  intro u among
  rw [tokens, List.mem_singleton] at among
  subst among
  trivial

theorem isWritten_bool (b : Bool) : IsWritten (bool b) := by
  intro u among
  rw [tokens, List.mem_singleton] at among
  subst among
  trivial

theorem isWritten_number {n : Numeral} (h : n.IsWritten) : IsWritten (number n) := by
  intro u among
  rw [tokens, List.mem_singleton] at among
  subst among
  exact h

theorem isWritten_piecesOfText (cs : List Char) : ∀ p ∈ Piece.ofText cs, p.IsWritten := by
  intro p among
  obtain ⟨c, _, rfl⟩ := List.mem_map.1 among
  trivial

theorem isWritten_string (cs : List Char) : IsWritten (string (Piece.ofText cs)) := by
  intro u among
  rw [tokens, List.mem_singleton] at among
  subst among
  exact isWritten_piecesOfText cs

theorem isWritten_ofText (s : String) : (ofText s).IsWritten := isWritten_string s.toList

theorem isWritten_ofInt (n : Int) : (ofInt n).IsWritten := isWritten_number (isWritten_digits _ _)

theorem itemValues?_eq_mapM (depth : Nat) (items : List Tree) :
    itemValues? depth items = items.mapM (value? depth) := by
  induction items with
  | nil => rfl
  | cons t rest ih =>
      rw [itemValues?, List.mapM_cons, ih]
      simp [Option.map_eq_bind]

def fieldValue? (depth : Nat) (f : List Piece × Tree) : Option (String × Value) :=
  (decodeText? f.1).bind fun name => (value? depth f.2).map (name, ·)

theorem fieldValues?_eq_mapM (depth : Nat) (fields : Fields) :
    fieldValues? depth fields = fields.mapM (fieldValue? depth) := by
  induction fields with
  | nil => rfl
  | cons f rest ih =>
      obtain ⟨name, t⟩ := f
      rw [fieldValues?, List.mapM_cons, ih, fieldValue?]
      cases decodeText? name <;> cases value? depth t <;> simp [Option.map_eq_bind]

end Tree

section Sorting

variable {α : Type}

theorem lt_of_not_lt {s t : String} (notBefore : ¬ s < t) (other : s ≠ t) : t < s := by
  by_contra notBehind
  exact other (String.le_antisymm (String.not_lt.1 notBehind) (String.not_lt.1 notBefore))

/-- The names of some fields are in order, without repetitions. -/
def Sorted (fields : List (String × α)) : Prop := fields.Pairwise fun f g => f.1 < g.1

instance (fields : List (String × α)) : Decidable (Sorted fields) :=
  inferInstanceAs (Decidable (List.Pairwise _ _))

theorem mem_putField {name : String} {v : α} {fields : List (String × α)} {f : String × α}
    (among : f ∈ putField name v fields) : f = (name, v) ∨ f ∈ fields := by
  induction fields with
  | nil => exact .inl (List.mem_singleton.1 among)
  | cons g rest ih =>
      obtain ⟨other, old⟩ := g
      rw [putField] at among
      split_ifs at among
      · exact List.mem_cons.1 among
      · obtain new | old := List.mem_cons.1 among
        · exact .inl new
        · exact .inr (List.mem_cons_of_mem _ old)
      · obtain first | later := List.mem_cons.1 among
        · exact .inr (first ▸ List.mem_cons_self)
        · exact (ih later).imp_right (List.mem_cons_of_mem _)

theorem sorted_putField (name : String) (v : α) {fields : List (String × α)}
    (sorted : Sorted fields) : Sorted (putField name v fields) := by
  induction fields with
  | nil => exact List.pairwise_singleton _ _
  | cons g rest ih =>
      obtain ⟨other, old⟩ := g
      have ⟨first, later⟩ := List.pairwise_cons.1 sorted
      rw [putField]
      split_ifs with before same
      · exact List.pairwise_cons.2 ⟨List.forall_mem_cons.2
          ⟨before, fun f among => String.lt_trans before (first f among)⟩, sorted⟩
      · subst same
        exact List.pairwise_cons.2 ⟨first, later⟩
      · refine List.pairwise_cons.2 ⟨fun f among => ?_, ih later⟩
        obtain rfl | among := mem_putField among
        · exact lt_of_not_lt before same
        · exact first f among

/-- A name that comes last is put last. -/
theorem putField_last {name : String} (v : α) {fields : List (String × α)}
    (last : ∀ f ∈ fields, f.1 < name) : putField name v fields = fields ++ [(name, v)] := by
  induction fields with
  | nil => rfl
  | cons g rest ih =>
      obtain ⟨other, old⟩ := g
      have before : other < name := last _ List.mem_cons_self
      have different : name ≠ other := fun same => String.lt_irrefl name (same ▸ before)
      rw [putField, if_neg (String.lt_asymm before), if_neg different, List.cons_append,
        ih fun f among => last f (List.mem_cons_of_mem _ among)]

theorem sorted_sortFields (fields : List (String × α)) : Sorted (sortFields fields) := by
  have step : ∀ done : List (String × α), Sorted done →
      Sorted (fields.foldl (fun done f => putField f.1 f.2 done) done) := by
    induction fields with
    | nil => exact fun _ sorted => sorted
    | cons f fields ih => exact fun done sorted => ih _ (sorted_putField f.1 f.2 sorted)
  exact step [] List.Pairwise.nil

theorem mem_sortFields {fields : List (String × α)} {f : String × α}
    (among : f ∈ sortFields fields) : f ∈ fields := by
  have step : ∀ done : List (String × α),
      f ∈ fields.foldl (fun done f => putField f.1 f.2 done) done → f ∈ done ∨ f ∈ fields := by
    clear among
    induction fields with
    | nil => exact fun _ among => .inl among
    | cons g fields ih =>
        intro done among
        obtain before | later := ih _ among
        · obtain rfl | before := mem_putField before
          · exact .inr List.mem_cons_self
          · exact .inl before
        · exact .inr (List.mem_cons_of_mem _ later)
  exact (step [] among).resolve_left List.not_mem_nil

/-- Fields in order stay as they are. -/
theorem sortFields_sorted {fields : List (String × α)} (sorted : Sorted fields) :
    sortFields fields = fields := by
  have step : ∀ done : List (String × α), Sorted (done ++ fields) →
      fields.foldl (fun done f => putField f.1 f.2 done) done = done ++ fields := by
    clear sorted
    induction fields with
    | nil => exact fun done _ => (List.append_nil done).symm
    | cons f fields ih =>
        intro done sorted
        have last : ∀ g ∈ done, g.1 < f.1 := fun g among =>
          (List.pairwise_append.1 sorted).2.2 g among f List.mem_cons_self
        rw [List.foldl_cons, putField_last f.2 last, ih _ (by simpa using sorted)]
        simp
  exact step [] sorted

end Sorting

namespace Value

/-- What holds of a value if it holds of the values in it, holds of all values. -/
@[elab_as_elim]
theorem induction {motive : Value → Prop} (v : Value) (null : motive .null)
    (bool : ∀ b, motive (.bool b)) (number : ∀ n, motive (.number n))
    (string : ∀ s, motive (.string s))
    (array : ∀ items, (∀ v ∈ items, motive v) → motive (.array items))
    (object : ∀ fields : List (String × Value), (∀ f ∈ fields, motive f.2) →
      motive (.object fields)) : motive v :=
  Value.rec (motive_1 := motive) (motive_2 := fun items => ∀ v ∈ items, motive v)
    (motive_3 := fun fields => ∀ f ∈ fields, motive f.2) (motive_4 := fun f => motive f.2)
    null bool number string array object
    (List.forall_mem_nil _) (fun _ _ first rest => List.forall_mem_cons.2 ⟨first, rest⟩)
    (List.forall_mem_nil _) (fun _ _ first rest => List.forall_mem_cons.2 ⟨first, rest⟩)
    (fun _ _ value => value) v

/-- A property holds of a value and of all values in it. -/
inductive All (p : Value → Prop) : Value → Prop
  | null : p .null → All p .null
  | bool (b : Bool) : p (.bool b) → All p (.bool b)
  | number (n : Number) : p (.number n) → All p (.number n)
  | string (s : String) : p (.string s) → All p (.string s)
  | array (items : List Value) : p (.array items) → (∀ v ∈ items, All p v) → All p (.array items)
  | object (fields : List (String × Value)) : p (.object fields) → (∀ f ∈ fields, All p f.2) →
      All p (.object fields)

section All

variable {p : Value → Prop}

@[simp] theorem all_null : All p .null ↔ p .null :=
  ⟨fun | .null h => h, .null⟩

@[simp] theorem all_bool {b : Bool} : All p (.bool b) ↔ p (.bool b) :=
  ⟨fun | .bool _ h => h, .bool b⟩

@[simp] theorem all_number {n : Number} : All p (.number n) ↔ p (.number n) :=
  ⟨fun | .number _ h => h, .number n⟩

@[simp] theorem all_string {s : String} : All p (.string s) ↔ p (.string s) :=
  ⟨fun | .string _ h => h, .string s⟩

@[simp] theorem all_array {items : List Value} :
    All p (.array items) ↔ p (.array items) ∧ ∀ v ∈ items, All p v :=
  ⟨fun | .array _ h inside => ⟨h, inside⟩, fun h => .array items h.1 h.2⟩

@[simp] theorem all_object {fields : List (String × Value)} :
    All p (.object fields) ↔ p (.object fields) ∧ ∀ f ∈ fields, All p f.2 :=
  ⟨fun | .object _ h inside => ⟨h, inside⟩, fun h => .object fields h.1 h.2⟩

end All

/-- The objects in a value have their names in order, without repetitions. -/
def IsOrdered : Value → Prop := All fun
  | .object fields => Sorted fields
  | _ => True

def IsIntegral : Value → Prop := All fun
  | .number (.double _) => False
  | _ => True

theorem toTree_array (items : List Value) :
    (array items).toTree = .array (items.map toTree) := by
  have each : itemTrees items = items.map toTree := by
    induction items with
    | nil => rfl
    | cons v rest ih => rw [itemTrees, List.map_cons, ih]
  rw [toTree, each]

def fieldTree (f : String × Value) : List Piece × Tree := (Piece.ofText f.1.toList, f.2.toTree)

theorem toTree_object (fields : List (String × Value)) :
    (object fields).toTree = .object (fields.map fieldTree) := by
  have each : fieldTrees fields = fields.map fieldTree := by
    induction fields with
    | nil => rfl
    | cons f rest ih => rw [fieldTrees, List.map_cons, ih, fieldTree]
  rw [toTree, each]

theorem depth_object_toTree_le {fields : List (String × Value)} {n : Nat} :
    (object fields).toTree.depth ≤ n ↔ ∃ m, n = m + 1 ∧ ∀ f ∈ fields, f.2.toTree.depth ≤ m := by
  rw [toTree_object, Tree.depth_object_le]
  simp only [List.forall_mem_map, fieldTree]

theorem depth_array_toTree_le {items : List Value} {n : Nat} :
    (array items).toTree.depth ≤ n ↔ ∃ m, n = m + 1 ∧ ∀ v ∈ items, v.toTree.depth ≤ m := by
  rw [toTree_array, Tree.depth_array_le]
  simp only [List.forall_mem_map]

/-- The written form of a value has no number or string that cannot be written. -/
theorem isWritten_toTree {v : Value} (integral : v.IsIntegral) : v.toTree.IsWritten := by
  induction v using Value.induction with
  | null => exact Tree.isWritten_null
  | bool b => exact Tree.isWritten_bool b
  | number n =>
      cases n with
      | int n isWord => exact Tree.isWritten_ofInt n
      | double x => exact (all_number.1 integral).elim
  | string s => exact Tree.isWritten_ofText s
  | array items ih =>
      have inside := (all_array.1 integral).2
      rw [toTree_array]
      refine Tree.isWritten_array fun t among => ?_
      obtain ⟨v, own, rfl⟩ := List.mem_map.1 among
      exact ih v own (inside v own)
  | object fields ih =>
      have inside := (all_object.1 integral).2
      rw [toTree_object]
      refine Tree.isWritten_object fun f among => ?_
      obtain ⟨f, own, rfl⟩ := List.mem_map.1 among
      exact ⟨Tree.isWritten_piecesOfText _, ih f own (inside f own)⟩

/-- A value is read back from its written form. -/
theorem value?_toTree {v : Value} (ordered : v.IsOrdered) (integral : v.IsIntegral) {depth : Nat}
    (fits : v.toTree.depth ≤ depth) : v.toTree.value? depth = some v := by
  induction v using Value.induction generalizing depth with
  | null => rfl
  | bool b => rfl
  | number n =>
      cases n with
      | int n isWord =>
          show (Numeral.number? ⟨n < 0, Text.digits n.natAbs, [], none⟩).map _ = _
          rw [Numeral.number?, int?_digits isWord]
          simp only [dif_pos isWord, Option.map_some]
      | double x => exact (all_number.1 integral).elim
  | string s =>
      rw [toTree, Tree.ofText, Tree.value?, decodeText?_ofText, Option.map_some]
  | array items ih =>
      obtain ⟨depth, rfl, inner⟩ := depth_array_toTree_le.1 fits
      have ordered := (all_array.1 ordered).2
      have integral := (all_array.1 integral).2
      have items := mapM_map fun v among =>
        ih v among (ordered v among) (integral v among) (inner v among)
      rw [toTree_array, Tree.value?, Tree.itemValues?_eq_mapM, items, Option.map_some]
  | object fields ih =>
      obtain ⟨depth, rfl, inner⟩ := depth_object_toTree_le.1 fits
      obtain ⟨sorted, ordered⟩ := all_object.1 ordered
      have integral := (all_object.1 integral).2
      have each : ∀ f ∈ fields, Tree.fieldValue? depth (fieldTree f) = some f := by
        intro f among
        rw [Tree.fieldValue?, fieldTree, decodeText?_ofText, Option.bind_some,
          ih f among (ordered f among) (integral f among) (inner f among), Option.map_some]
      rw [toTree_object, Tree.value?, Tree.fieldValues?_eq_mapM, mapM_map each,
        Option.map_some, sortFields_sorted sorted]

end Value

namespace Tree

/-- What is read has its names in order, and written again it nests no deeper than the reader was
allowed to go. -/
theorem value?_ordered {t : Tree} {depth : Nat} {v : Value} (read : t.value? depth = some v) :
    v.IsOrdered ∧ v.toTree.depth ≤ depth := by
  induction t using Tree.induction generalizing depth v with
  | null =>
      obtain rfl := Option.some.inj read
      exact ⟨.null trivial, Nat.zero_le _⟩
  | bool b =>
      obtain rfl := Option.some.inj read
      exact ⟨.bool b trivial, Nat.zero_le _⟩
  | number n =>
      obtain ⟨n, _, rfl⟩ := Option.map_eq_some_iff.1 read
      refine ⟨.number n trivial, ?_⟩
      cases n with
      | int n isWord => exact Nat.zero_le _
      | double x =>
          rw [Value.toTree, Number.toTree]
          split <;> exact Nat.zero_le _
  | string s =>
      obtain ⟨s, _, rfl⟩ := Option.map_eq_some_iff.1 read
      exact ⟨.string s trivial, Nat.zero_le _⟩
  | array items ih =>
      cases depth with
      | zero => cases read
      | succ depth =>
          rw [value?, itemValues?_eq_mapM] at read
          obtain ⟨vs, readAll, rfl⟩ := Option.map_eq_some_iff.1 read
          have each : ∀ v ∈ vs, v.IsOrdered ∧ v.toTree.depth ≤ depth := by
            intro v among
            obtain ⟨t, inside, readOne⟩ := mem_mapM readAll among
            exact ih t inside readOne
          exact ⟨.array vs trivial fun v among => (each v among).1,
            Value.depth_array_toTree_le.2 ⟨depth, rfl, fun v among => (each v among).2⟩⟩
  | object fields ih =>
      cases depth with
      | zero => cases read
      | succ depth =>
          rw [value?, fieldValues?_eq_mapM] at read
          obtain ⟨fs, readAll, rfl⟩ := Option.map_eq_some_iff.1 read
          have each : ∀ f ∈ sortFields fs, f.2.IsOrdered ∧ f.2.toTree.depth ≤ depth := by
            intro f among
            obtain ⟨g, inside, readField⟩ := mem_mapM readAll (mem_sortFields among)
            obtain ⟨name, _, readBody⟩ := Option.bind_eq_some_iff.1 readField
            obtain ⟨v, readOne, rfl⟩ := Option.map_eq_some_iff.1 readBody
            exact ih g inside readOne
          exact ⟨.object _ (sorted_sortFields fs) fun f among => (each f among).1,
            Value.depth_object_toTree_le.2 ⟨depth, rfl, fun f among => (each f among).2⟩⟩

end Tree

end Roomcast.Json
