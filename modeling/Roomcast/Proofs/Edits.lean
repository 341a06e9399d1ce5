import Mathlib.Tactic
import Roomcast.Json.Record

/-!
# Edits

A `Schema` says where in a tree the records are that a decoder looks for. An `Edit` rewrites one of
these records without a change to what it says: its fields change places, a field is added that
nobody has declared, or a field that may be absent is added with the value null. A `Spoil` gives
one of these records a declared field for the second time, or a choice for the second time.

A decoder is `Tolerant` if edits keep what it reads and if it reads nothing from a tree that has
been spoiled. Ways to make decoders keep this property: a record is tolerant if its fields are.
-/

namespace Roomcast.Json

/-- Where the records are in what is decoded. -/
inductive Schema where
  /-- There are none. -/
  | leaf
  /-- They are in the items of a list. -/
  | list (item : Schema)
  /-- They are in the only field of an object. -/
  | choice (part : String → Schema)
  /-- A record, of whose declared fields some may be null. -/
  | record (names nullable : List String) (part : String → Schema)

/-- Whether a string is a way to write a name. -/
def Means (s : List Piece) (name : String) : Prop := decodeText? s = some name

/-- A rewriting of one record. -/
inductive Edit : Schema → Tree → Tree → Prop
  /-- The fields change places. -/
  | reorder {names nullable : List String} {part : String → Schema}
      {fields fields' : Fields} (order : fields.Perm fields') :
      Edit (.record names nullable part) (.object fields) (.object fields')
  /-- A field is added that nobody has declared. -/
  | unknown {names nullable : List String} {part : String → Schema}
      {before behind : Fields} {name : String} {s : List Piece} {t : Tree} (named : Means s name)
      (unknown : name ∉ names) :
      Edit (.record names nullable part) (.object (before ++ behind))
        (.object (before ++ (s, t) :: behind))
  /-- A field that is absent is added with the value null. -/
  | null {names nullable : List String} {part : String → Schema}
      {before behind : Fields} {name : String} {s : List Piece} (named : Means s name)
      (optional : name ∈ nullable) (absent : ∀ f ∈ before ++ behind, ¬ Means f.1 name) :
      Edit (.record names nullable part) (.object (before ++ behind))
        (.object (before ++ (s, .null) :: behind))
  | field {names nullable : List String} {part : String → Schema}
      {before behind : Fields} {name : String} {s : List Piece} {t t' : Tree}
      (named : Means s name) (known : name ∈ names) (edit : Edit (part name) t t') :
      Edit (.record names nullable part) (.object (before ++ (s, t) :: behind))
        (.object (before ++ (s, t') :: behind))
  | item {item : Schema} {before behind : List Tree} {t t' : Tree} (edit : Edit item t t') :
      Edit (.list item) (.array (before ++ t :: behind)) (.array (before ++ t' :: behind))
  | chosen {part : String → Schema} {name : String} {s : List Piece} {t t' : Tree}
      (named : Means s name) (edit : Edit (part name) t t') :
      Edit (.choice part) (.object [(s, t)]) (.object [(s, t')])

/-- What makes one record unreadable. -/
inductive Spoil : Schema → Tree → Tree → Prop
  /-- A declared field is given for the second time. -/
  | again {names nullable : List String} {part : String → Schema}
      {before behind : Fields} {name : String} {s : List Piece} {t : Tree} (named : Means s name)
      (known : name ∈ names) (there : ∃ f ∈ before ++ behind, Means f.1 name) :
      Spoil (.record names nullable part) (.object (before ++ behind))
        (.object (before ++ (s, t) :: behind))
  /-- A second field is added beside the chosen one. -/
  | second {part : String → Schema} {f g : List Piece × Tree} {fields : Fields}
      (two : fields.Perm [f, g]) :
      Spoil (.choice part) (.object [f]) (.object fields)
  | field {names nullable : List String} {part : String → Schema}
      {before behind : Fields} {name : String} {s : List Piece} {t t' : Tree}
      (named : Means s name) (known : name ∈ names) (spoil : Spoil (part name) t t') :
      Spoil (.record names nullable part) (.object (before ++ (s, t) :: behind))
        (.object (before ++ (s, t') :: behind))
  | item {item : Schema} {before behind : List Tree} {t t' : Tree} (spoil : Spoil item t t') :
      Spoil (.list item) (.array (before ++ t :: behind)) (.array (before ++ t' :: behind))
  | chosen {part : String → Schema} {name : String} {s : List Piece} {t t' : Tree}
      (named : Means s name) (spoil : Spoil (part name) t t') :
      Spoil (.choice part) (.object [(s, t)]) (.object [(s, t')])

theorem Edit.ne_null {s : Schema} {t t' : Tree} (edit : Edit s t t') : t ≠ .null ∧ t' ≠ .null := by
  cases edit <;> exact ⟨nofun, nofun⟩

theorem Spoil.ne_null {s : Schema} {t t' : Tree} (spoil : Spoil s t t') :
    t ≠ .null ∧ t' ≠ .null := by
  cases spoil <;> exact ⟨nofun, nofun⟩

variable {names nullable : List String} {part : String → Schema} {name : String}

section Fields

variable {s : List Piece} {t : Tree} {fields fields' before behind : Fields}

instance : Decidable (Means s name) := inferInstanceAs (Decidable (_ = _))

theorem Means.unique {other : String} (h : Means s name) (h' : Means s other) : name = other :=
  Option.some.inj (h.symm.trans h')

/-- The values that fields give to a name. -/
def valuesOf (name : String) (fields : Fields) : List Tree :=
  fields.filterMap fun f => if Means f.1 name then some f.2 else none

theorem valuesOf_insert (named : Means s name) :
    valuesOf name (before ++ (s, t) :: behind) =
      valuesOf name before ++ t :: valuesOf name behind := by
  simp [valuesOf, named]

theorem valuesOf_insert_other (other : ¬ Means s name) :
    valuesOf name (before ++ (s, t) :: behind) = valuesOf name (before ++ behind) := by
  simp [valuesOf, other]

theorem valuesOf_append : valuesOf name (before ++ behind) =
    valuesOf name before ++ valuesOf name behind := List.filterMap_append

theorem valuesOf_eq_nil (absent : ∀ f ∈ fields, ¬ Means f.1 name) : valuesOf name fields = [] := by
  rw [valuesOf, List.filterMap_eq_nil_iff]
  exact fun f among => if_neg (absent f among)

theorem valuesOf_ne_nil (there : ∃ f ∈ fields, Means f.1 name) : valuesOf name fields ≠ [] := by
  obtain ⟨f, among, named⟩ := there
  have value : f.2 ∈ valuesOf name fields :=
    List.mem_filterMap.2 ⟨f, among, by rw [if_pos named]⟩
  exact List.ne_nil_of_mem value

/-- Where at most one value is given, the order of the fields does not matter. -/
theorem valuesOf_reorder {v : Option Tree} (order : fields.Perm fields')
    (values : valuesOf name fields = v.toList) : valuesOf name fields' = v.toList := by
  have same : (valuesOf name fields).Perm (valuesOf name fields') := order.filterMap _
  rw [values] at same
  cases v with
  | none => exact List.nil_perm.1 same
  | some t => exact (List.singleton_perm.1 same).symm

/-- If a name has one value, no other field gives it a value. -/
theorem eq_of_valuesOf_insert {v : Option Tree}
    (values : valuesOf name before ++ t :: valuesOf name behind = v.toList) :
    v = some t ∧ valuesOf name before = [] ∧ valuesOf name behind = [] := by
  cases v with
  | none => simp at values
  | some u =>
      rw [Option.toList_some, List.append_eq_singleton_iff] at values
      obtain ⟨before', same⟩ | ⟨_, none⟩ := values
      · obtain ⟨rfl, behind'⟩ := List.cons.inj same
        exact ⟨rfl, before', behind'⟩
      · cases none

end Fields

namespace Decoder

section Lists

variable {α β : Type} {f : α → Option β} {xs : List α} {ys : List β}

theorem mapM_eq_some : xs.mapM f = some ys ↔ List.Forall₂ (fun x y => f x = some y) xs ys := by
  induction xs generalizing ys with
  | nil =>
      rw [List.mapM_nil, List.forall₂_nil_left_iff]
      exact ⟨fun same => (Option.some.inj same).symm, fun same => by rw [same]; rfl⟩
  | cons x xs ih =>
      rw [List.mapM_cons, List.forall₂_cons_left_iff]
      constructor
      · intro read
        obtain ⟨y, first, read⟩ := Option.bind_eq_some_iff.1 read
        obtain ⟨rest, later, same⟩ := Option.bind_eq_some_iff.1 read
        exact ⟨y, rest, first, ih.1 later, (Option.some.inj same).symm⟩
      · rintro ⟨y, rest, first, later, rfl⟩
        rw [first, ih.2 later]
        rfl

theorem exists_forall₂ {R : α → β → Prop} :
    (∃ ys, List.Forall₂ R xs ys) ↔ ∀ x ∈ xs, ∃ y, R x y := by
  induction xs with
  | nil => simp
  | cons x xs ih =>
      rw [List.forall_mem_cons, ← ih]
      constructor
      · rintro ⟨_, _ | ⟨first, rest⟩⟩
        exact ⟨⟨_, first⟩, _, rest⟩
      · rintro ⟨⟨y, first⟩, ys, rest⟩
        exact ⟨y :: ys, .cons first rest⟩

end Lists

/-- The names of fields are read if all of them are texts. -/
theorem named?_eq_some {fields : Fields} {named : List (String × Tree)} :
    named? fields = some named ↔
      List.Forall₂ (fun f g => Means f.1 g.1 ∧ f.2 = g.2) fields named := by
  have one : ∀ (f : List Piece × Tree) (g : String × Tree),
      (decodeText? f.1).map (·, f.2) = some g ↔ Means f.1 g.1 ∧ f.2 = g.2 := by
    rintro f ⟨name, t⟩
    simp [Means]
  rw [named?, mapM_eq_some]
  simp only [one]

theorem values_of_named {fields : Fields} {named : List (String × Tree)}
    (each : List.Forall₂ (fun f g => Means f.1 g.1 ∧ f.2 = g.2) fields named) :
    (named.filter (·.1 = name)).map Prod.snd = valuesOf name fields := by
  induction each with
  | nil => rfl
  | @cons f g fields named own rest ih =>
      obtain ⟨own, same⟩ := own
      have iff : Means f.1 name ↔ g.1 = name := ⟨own.unique, fun same => same ▸ own⟩
      by_cases here : g.1 = name
      · simp [valuesOf, here, iff.2 here, same, ih]
      · simp [valuesOf, here, mt iff.1 here, ih]

theorem field?_eq_some {named : List (String × Tree)} {v : Option Tree} :
    field? named name = some v ↔ (named.filter (·.1 = name)).map Prod.snd = v.toList := by
  rw [field?]
  split
  case h_1 none => cases v <;> simp [none]
  case h_2 f one => cases v <;> simp [one]
  case h_3 none one =>
    have more : ∀ v : Option Tree, (named.filter (·.1 = name)).map Prod.snd ≠ v.toList := by
      intro v same
      cases v with
      | none => exact none (List.map_eq_nil_iff.1 same)
      | some t =>
          obtain ⟨f, found, _⟩ := List.map_eq_singleton_iff.1 same
          exact one f found
    exact ⟨nofun, fun same => absurd same (more v)⟩

/-- A record is read if all names are texts and each declared name has one value at most. -/
theorem record?_object {depth m : Nat} {fields : Fields} {vs : List (Option Tree)} :
    record? names depth (.object fields) = some (m, vs) ↔
      depth = m + 1 ∧ (∀ f ∈ fields, ∃ name, Means f.1 name) ∧
        List.Forall₂ (fun name v => valuesOf name fields = v.toList) names vs := by
  have values : ∀ {named : List (String × Tree)}, named? fields = some named →
      (names.mapM (field? named) = some vs ↔
        List.Forall₂ (fun name v => valuesOf name fields = v.toList) names vs) := by
    intro named read
    have each := named?_eq_some.1 read
    simp only [mapM_eq_some, field?_eq_some, values_of_named each]
  have texts : (∃ named, named? fields = some named) ↔ ∀ f ∈ fields, ∃ name, Means f.1 name := by
    simp only [named?_eq_some, exists_forall₂]
    exact forall₂_congr fun f _ =>
      ⟨fun ⟨g, own, _⟩ => ⟨g.1, own⟩, fun ⟨name, own⟩ => ⟨(name, f.2), own, rfl⟩⟩
  cases depth with
  | zero => simp [record?]
  | succ depth =>
      rw [record?, Option.bind_eq_some_iff, ← texts]
      constructor
      · rintro ⟨named, read, found⟩
        obtain ⟨vs', found, same⟩ := Option.map_eq_some_iff.1 found
        cases same
        exact ⟨rfl, ⟨named, read⟩, (values read).1 found⟩
      · rintro ⟨same, ⟨named, read⟩, found⟩
        obtain rfl := Nat.succ.inj same
        exact ⟨named, read, by rw [(values read).2 found, Option.map_some]⟩

/-- What an edit does to the value of a declared field. -/
inductive Change (nullable : List String) (part : String → Schema) (name : String) :
    Option Tree → Option Tree → Prop
  | same (v : Option Tree) : Change nullable part name v v
  | null (optional : name ∈ nullable) : Change nullable part name none (some .null)
  | edit {t t' : Tree} (edit : Edit (part name) t t') :
      Change nullable part name (some t) (some t')

/-- What an edit does to the values of the declared fields. -/
inductive Changes (nullable : List String) (part : String → Schema) :
    List String → List (Option Tree) → List (Option Tree) → Prop
  | nil : Changes nullable part [] [] []
  | cons {name : String} {names : List String} {v v' : Option Tree} {vs vs' : List (Option Tree)}
      (first : Change nullable part name v v') (rest : Changes nullable part names vs vs') :
      Changes nullable part (name :: names) (v :: vs) (v' :: vs')

/-- The value of a declared field is spoiled, and those before it are as they were. -/
inductive Ruins (part : String → Schema) :
    List String → List (Option Tree) → List (Option Tree) → Prop
  | here {name : String} {names : List String} {t t' : Tree} {vs vs' : List (Option Tree)}
      (spoil : Spoil (part name) t t') : Ruins part (name :: names) (some t :: vs) (some t' :: vs')
  | there {name : String} {names : List String} {v : Option Tree} {vs vs' : List (Option Tree)}
      (rest : Ruins part names vs vs') : Ruins part (name :: names) (v :: vs) (v :: vs')

section Record

variable {depth m : Nat} {fields fields' : Fields} {t t' : Tree} {vs : List (Option Tree)}

theorem texts_insert {before behind : Fields} {f : List Piece × Tree}
    (texts : ∀ g ∈ before ++ behind, ∃ name, Means g.1 name) (own : ∃ name, Means f.1 name) :
    ∀ g ∈ before ++ f :: behind, ∃ name, Means g.1 name := by
  rw [List.forall_mem_append] at texts ⊢
  exact ⟨texts.1, List.forall_mem_cons.2 ⟨own, texts.2⟩⟩

theorem texts_of_insert {before behind : Fields} {f : List Piece × Tree}
    (texts : ∀ g ∈ before ++ f :: behind, ∃ name, Means g.1 name) :
    ∀ g ∈ before ++ behind, ∃ name, Means g.1 name := by
  rw [List.forall_mem_append] at texts ⊢
  exact ⟨texts.1, (List.forall_mem_cons.1 texts.2).2⟩

/-- The fields of an edited object still have texts as names, and each declared name has the value
that it had, or an edited one. -/
theorem edited_values (edit : Edit (.record names nullable part) (.object fields) (.object fields'))
    (texts : ∀ f ∈ fields, ∃ name, Means f.1 name) :
    (∀ f ∈ fields', ∃ name, Means f.1 name) ∧
      ∀ name ∈ names, ∀ v : Option Tree, valuesOf name fields = v.toList →
        ∃ v' : Option Tree, valuesOf name fields' = v'.toList ∧ Change nullable part name v v' := by
  cases edit with
  | reorder order =>
      refine ⟨fun f among => texts f (order.mem_iff.2 among), fun name _ v values => ?_⟩
      exact ⟨v, valuesOf_reorder order values, .same v⟩
  | unknown named unknown =>
      refine ⟨texts_insert texts ⟨_, named⟩, fun name known v values => ⟨v, ?_, .same v⟩⟩
      have other : ¬ Means _ name := fun own => unknown (named.unique own ▸ known)
      rw [valuesOf_insert_other other, values]
  | @null _ _ _ before behind own s named optional absent =>
      refine ⟨texts_insert texts ⟨_, named⟩, fun name _ v values => ?_⟩
      by_cases same : own = name
      · subst same
        have none := valuesOf_eq_nil absent
        obtain rfl := Option.toList_eq_nil_iff.1 (values.symm.trans none)
        rw [valuesOf_append, List.append_eq_nil_iff] at none
        refine ⟨some .null, ?_, .null optional⟩
        rw [valuesOf_insert named, none.1, none.2]
        rfl
      · have other : ¬ Means s name := fun means => same (named.unique means)
        exact ⟨v, by rw [valuesOf_insert_other other, values], .same v⟩
  | @field _ _ _ before behind own s t t' named known edit =>
      refine ⟨texts_insert (texts_of_insert texts) ⟨_, named⟩, fun name _ v values => ?_⟩
      by_cases same : own = name
      · subst same
        rw [valuesOf_insert named] at values
        obtain ⟨rfl, before', behind'⟩ := eq_of_valuesOf_insert values
        refine ⟨some t', ?_, .edit edit⟩
        rw [valuesOf_insert named, before', behind']
        rfl
      · have other : ¬ Means s name := fun means => same (named.unique means)
        rw [valuesOf_insert_other other] at values
        exact ⟨v, by rw [valuesOf_insert_other other, values], .same v⟩

theorem record?_edited (edit : Edit (.record names nullable part) t t')
    (read : record? names depth t = some (m, vs)) :
    ∃ vs', record? names depth t' = some (m, vs') ∧ Changes nullable part names vs vs' := by
  obtain ⟨fields, fields', rfl, rfl⟩ :
      ∃ fields fields', t = .object fields ∧ t' = .object fields' := by
    cases edit <;> exact ⟨_, _, rfl, rfl⟩
  obtain ⟨rfl, texts, values⟩ := record?_object.1 read
  obtain ⟨texts', changed⟩ := edited_values edit texts
  have found : ∃ vs', List.Forall₂ (fun name v => valuesOf name fields' = v.toList) names vs' ∧
      Changes nullable part names vs vs' := by
    clear read edit
    induction values with
    | nil => exact ⟨[], .nil, .nil⟩
    | cons own rest ih =>
        obtain ⟨v', own', first⟩ := changed _ List.mem_cons_self _ own
        obtain ⟨vs', rest', later⟩ :=
            ih fun name among => changed name (List.mem_cons_of_mem _ among)
        exact ⟨v' :: vs', .cons own' rest', .cons first later⟩
  obtain ⟨vs', values', changes⟩ := found
  exact ⟨vs', record?_object.2 ⟨rfl, texts', values'⟩, changes⟩

theorem toList_injective {v w : Option Tree} (same : v.toList = w.toList) : v = w := by
  cases v <;> cases w <;> simp_all

/-- If one declared name has a spoiled value and all others have the values they had, the values are
ruined. -/
theorem ruins_of_values {own : String} {vs' : List (Option Tree)}
    {given given' : String → List Tree} (known : own ∈ names) (spoil : Spoil (part own) t t')
    (values : List.Forall₂ (fun name v => given name = v.toList) names vs)
    (values' : List.Forall₂ (fun name v => given' name = v.toList) names vs')
    (here : ∀ v : Option Tree, given own = v.toList → v = some t)
    (here' : ∀ v : Option Tree, given' own = v.toList → v = some t')
    (others : ∀ name, own ≠ name → given name = given' name) : Ruins part names vs vs' := by
  induction values generalizing vs' with
  | nil => cases known
  | @cons name v names vs value values ih =>
      cases values' with
      | cons value' values' =>
          by_cases same : own = name
          · subst same
            rw [here _ value, here' _ value']
            exact .here spoil
          · rw [others name same] at value
            obtain rfl := toList_injective (value.symm.trans value')
            refine .there (ih ?_ values')
            exact (List.mem_cons.1 known).resolve_left same

theorem record?_spoiled {m' : Nat} {vs' : List (Option Tree)}
    (spoil : Spoil (.record names nullable part) t t')
    (read : record? names depth t = some (m, vs))
    (read' : record? names depth t' = some (m', vs')) :
    m' = m ∧ Ruins part names vs vs' := by
  cases spoil with
  | @again _ _ _ before behind own s t named known there =>
      -- The declared name has two values, so the record is not read.
      obtain ⟨_, _, values⟩ := record?_object.1 read'
      obtain ⟨v, two⟩ := exists_forall₂.1 ⟨_, values⟩ own known
      rw [valuesOf_insert named] at two
      obtain ⟨_, before', behind'⟩ := eq_of_valuesOf_insert two
      have none : valuesOf own (before ++ behind) = [] := by
        rw [valuesOf_append, before', behind']
        rfl
      exact absurd none (valuesOf_ne_nil there)
  | @field _ _ _ before behind own s t t' named known spoil =>
      obtain ⟨rfl, _, values⟩ := record?_object.1 read
      obtain ⟨same, _, values'⟩ := record?_object.1 read'
      refine ⟨(Nat.succ.inj same).symm, ?_⟩
      refine ruins_of_values known spoil values values' ?_ ?_ ?_
      · intro v value
        rw [valuesOf_insert named] at value
        exact (eq_of_valuesOf_insert value).1
      · intro v value
        rw [valuesOf_insert named] at value
        exact (eq_of_valuesOf_insert value).1
      · intro name other
        have other : ¬ Means s name := fun means => other (named.unique means)
        rw [valuesOf_insert_other other, valuesOf_insert_other other]

end Record

/-- Edits keep what a decoder reads, and from a spoiled tree it reads nothing. -/
structure Tolerant {α : Type} (s : Schema) (d : Decoder α) : Prop where
  keeps : ∀ {depth t t' x}, Edit s t t' → d depth t = some x → d depth t' = some x
  refuses : ∀ {depth t t' x}, Spoil s t t' → d depth t = some x → d depth t' = none

/-- The same for the value of a declared field. -/
structure CellTolerant {α : Type} (nullable : List String) (part : String → Schema) (name : String)
    (read : Nat → Option Tree → Option α) : Prop where
  keeps : ∀ {depth v v' x}, Change nullable part name v v' → read depth v = some x →
    read depth v' = some x
  refuses : ∀ {depth t t' x}, Spoil (part name) t t' → read depth (some t) = some x →
    read depth (some t') = none

/-- The same for the values of all declared fields. -/
structure RowTolerant {α : Type} (nullable : List String) (part : String → Schema)
    (names : List String) (read : Nat → List (Option Tree) → Option α) : Prop where
  keeps : ∀ {depth vs vs' x}, Changes nullable part names vs vs' → read depth vs = some x →
    read depth vs' = some x
  refuses : ∀ {depth vs vs' x}, Ruins part names vs vs' → read depth vs = some x →
    read depth vs' = none

section Tolerant

variable {α β : Type} {s : Schema} {d : Decoder α}

theorem Tolerant.leaf : Tolerant .leaf d := ⟨nofun, nofun⟩

theorem Tolerant.required (h : Tolerant (part name) d) (needed : name ∉ nullable) :
    CellTolerant nullable part name (required d) where
  keeps change read := by
    cases change with
    | same => exact read
    | null optional => exact absurd optional needed
    | edit edit => exact h.keeps edit read
  refuses spoil read := h.refuses spoil read

theorem Tolerant.defaulted (h : Tolerant (part name) d) (needed : name ∉ nullable) (default : α) :
    CellTolerant nullable part name (defaulted default d) where
  keeps change read := by
    cases change with
    | same => exact read
    | null optional => exact absurd optional needed
    | edit edit => exact h.keeps edit read
  refuses spoil read := h.refuses spoil read

theorem nullable_of_ne_null {depth : Nat} {t : Tree} (there : t ≠ .null) :
    Decoder.nullable d depth t = (d depth t).map some := by
  cases t <;> first | rfl | exact absurd rfl there

theorem Tolerant.optional (h : Tolerant (part name) d) :
    CellTolerant nullable part name (optional d) where
  keeps {depth v v' x} change read := by
    cases change with
    | same => exact read
    | null => exact read
    | @edit t t' edit =>
        have whole : Decoder.nullable d depth t = some x := read
        rw [nullable_of_ne_null edit.ne_null.1, Option.map_eq_some_iff] at whole
        obtain ⟨x, own, rfl⟩ := whole
        show Decoder.nullable d depth t' = some (some x)
        rw [nullable_of_ne_null edit.ne_null.2, h.keeps edit own, Option.map_some]
  refuses {depth t t' x} spoil read := by
    have whole : Decoder.nullable d depth t = some x := read
    rw [nullable_of_ne_null spoil.ne_null.1, Option.map_eq_some_iff] at whole
    obtain ⟨x, own, rfl⟩ := whole
    show Decoder.nullable d depth t' = none
    rw [nullable_of_ne_null spoil.ne_null.2, h.refuses spoil own, Option.map_none]

def done (x : α) : Nat → List (Option Tree) → Option α
  | _, [] => some x
  | _, _ :: _ => none

/-- Reads the value of the next declared field of a record, and then the others. -/
def cell (read : Nat → Option Tree → Option β) (rest : β → Nat → List (Option Tree) → Option α) :
    Nat → List (Option Tree) → Option α
  | _, [] => none
  | depth, v :: vs => (read depth v).bind fun y => rest y depth vs

theorem RowTolerant.done (x : α) : RowTolerant nullable part [] (done x) where
  keeps changes read := by
    cases changes
    exact read
  refuses := nofun

theorem RowTolerant.cell {read : Nat → Option Tree → Option β}
    {rest : β → Nat → List (Option Tree) → Option α} (first : CellTolerant nullable part name read)
    (others : ∀ y, RowTolerant nullable part names (rest y)) :
    RowTolerant nullable part (name :: names) (cell read rest) where
  keeps changes read := by
    cases changes with
    | cons change changes =>
        obtain ⟨y, own, read⟩ := Option.bind_eq_some_iff.1 read
        exact Option.bind_eq_some_iff.2 ⟨y, first.keeps change own, (others y).keeps changes read⟩
  refuses ruins read := by
    cases ruins with
    | here spoil =>
        obtain ⟨y, own, _⟩ := Option.bind_eq_some_iff.1 read
        rw [Decoder.cell, first.refuses spoil own, Option.bind_none]
    | there ruins =>
        obtain ⟨y, own, read⟩ := Option.bind_eq_some_iff.1 read
        rw [Decoder.cell, own, Option.bind_some, (others y).refuses ruins read]

/-- A record is tolerant if the values of its fields are read by tolerant decoders. -/
theorem Tolerant.record {row : Nat → List (Option Tree) → Option α}
    (reads : ∀ depth t, d depth t = (record? names depth t).bind fun r => row r.1 r.2)
    (tolerant : RowTolerant nullable part names row) :
    Tolerant (.record names nullable part) d where
  keeps edit read := by
    rw [reads] at read ⊢
    obtain ⟨⟨m, vs⟩, record, read⟩ := Option.bind_eq_some_iff.1 read
    obtain ⟨vs', record', changes⟩ := record?_edited edit record
    rw [record', Option.bind_some]
    exact tolerant.keeps changes read
  refuses {depth t t' x} spoil read := by
    rw [reads] at read ⊢
    obtain ⟨⟨m, vs⟩, record, read⟩ := Option.bind_eq_some_iff.1 read
    cases record' : record? names depth t' with
    | none => rfl
    | some r =>
        obtain ⟨m', vs'⟩ := r
        obtain ⟨rfl, ruins⟩ := record?_spoiled spoil record record'
        exact tolerant.refuses ruins read

theorem list_eq_some {depth : Nat} {t : Tree} {xs : List α} : list d depth t = some xs ↔
    ∃ m items, depth = m + 1 ∧ t = .array items ∧ items.mapM (d m) = some xs := by
  rw [Decoder.list.eq_def]
  split
  case h_1 m items =>
    refine ⟨fun read => ⟨m, items, rfl, rfl, read⟩, ?_⟩
    rintro ⟨_, _, ⟨⟩, ⟨⟩, read⟩
    exact read
  case h_2 other =>
    refine ⟨nofun, ?_⟩
    rintro ⟨m, items, rfl, rfl, _⟩
    exact (other m items rfl rfl).elim

theorem mapM_insert {f : Tree → Option α} {before behind : List Tree} {t : Tree} {xs : List α} :
    (before ++ t :: behind).mapM f = some xs ↔ ∃ as x bs, before.mapM f = some as ∧ f t = some x ∧
      behind.mapM f = some bs ∧ xs = as ++ x :: bs := by
  rw [List.mapM_append, List.mapM_cons]
  simp only [Option.bind_eq_bind, Option.bind_eq_some_iff, Option.pure_def, Option.some.injEq]
  constructor
  · rintro ⟨as, first, _, ⟨x, own, bs, last, rfl⟩, rfl⟩
    exact ⟨as, x, bs, first, own, last, rfl⟩
  · rintro ⟨as, x, bs, first, own, last, rfl⟩
    exact ⟨as, first, _, ⟨x, own, bs, last, rfl⟩, rfl⟩

theorem Tolerant.list (h : Tolerant s d) : Tolerant (.list s) (list d) where
  keeps {depth t t' xs} edit read := by
    obtain ⟨m, items, rfl, rfl, each⟩ := list_eq_some.1 read
    cases edit with
    | item edit =>
        obtain ⟨as, x, bs, first, own, last, rfl⟩ := mapM_insert.1 each
        exact list_eq_some.2 ⟨m, _, rfl, rfl,
          mapM_insert.2 ⟨as, x, bs, first, h.keeps edit own, last, rfl⟩⟩
  refuses {depth t t' xs} spoil read := by
    obtain ⟨m, items, rfl, rfl, each⟩ := list_eq_some.1 read
    cases spoil with
    | item spoil =>
        obtain ⟨_, x, _, _, own, _⟩ := mapM_insert.1 each
        refine Option.eq_none_iff_forall_ne_some.2 fun ys read' => ?_
        obtain ⟨_, _, ⟨⟩, ⟨⟩, each'⟩ := list_eq_some.1 read'
        obtain ⟨_, y, _, _, own', _⟩ := mapM_insert.1 each'
        rw [h.refuses spoil own] at own'
        cases own'

theorem tagged_eq_some {choices : List (String × Decoder α)} {depth : Nat} {t : Tree} {x : α} :
    tagged choices depth t = some x ↔ ∃ m s t' name d, depth = m + 1 ∧ t = .object [(s, t')] ∧
      Means s name ∧ choices.lookup name = some d ∧ d m t' = some x := by
  rw [Decoder.tagged.eq_def]
  split
  case h_1 m s t' =>
    simp only [Option.bind_eq_some_iff]
    constructor
    · rintro ⟨name, named, d, chosen, read⟩
      exact ⟨m, s, t', name, d, rfl, rfl, named, chosen, read⟩
    · rintro ⟨_, _, _, name, d, ⟨⟩, ⟨⟩, named, chosen, read⟩
      exact ⟨name, named, d, chosen, read⟩
  case h_2 other =>
    refine ⟨nofun, ?_⟩
    rintro ⟨m, s, t', name, d, rfl, rfl, _⟩
    exact (other m s t' rfl rfl).elim

theorem Tolerant.tagged {choices : List (String × Decoder α)}
    (h : ∀ c ∈ choices, Tolerant (part c.1) c.2) : Tolerant (.choice part) (tagged choices) where
  keeps {depth t t' x} edit read := by
    obtain ⟨m, s, u, name, d, rfl, rfl, named, chosen, own⟩ := tagged_eq_some.1 read
    obtain ⟨before, behind, rfl, _⟩ := List.lookup_eq_some_iff.1 chosen
    have tolerant : Tolerant (part name) d :=
      h (name, d) (List.mem_append_right _ List.mem_cons_self)
    cases edit with
    | chosen named' edit =>
        obtain rfl := named.unique named'
        exact tagged_eq_some.2 ⟨m, s, _, name, d, rfl, rfl, named, chosen, tolerant.keeps edit own⟩
  refuses {depth t t' x} spoil read := by
    obtain ⟨m, s, u, name, d, rfl, rfl, named, chosen, own⟩ := tagged_eq_some.1 read
    obtain ⟨before, behind, rfl, _⟩ := List.lookup_eq_some_iff.1 chosen
    have tolerant : Tolerant (part name) d :=
      h (name, d) (List.mem_append_right _ List.mem_cons_self)
    refine Option.eq_none_iff_forall_ne_some.2 fun y read' => ?_
    obtain ⟨_, s', u', name', d', ⟨⟩, object, named', chosen', own'⟩ := tagged_eq_some.1 read'
    cases spoil with
    | second two =>
        -- Only an object with one field is read.
        obtain rfl := Tree.object.inj object
        exact absurd two.length_eq (by simp)
    | chosen means spoil =>
        cases object
        obtain rfl := named.unique means
        obtain rfl := named.unique named'
        rw [chosen] at chosen'
        cases chosen'
        rw [tolerant.refuses spoil own] at own'
        cases own'

end Tolerant

end Decoder

end Roomcast.Json
