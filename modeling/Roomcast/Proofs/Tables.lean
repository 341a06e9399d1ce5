import Mathlib.Tactic

/-!
# Tables

Rows of a table are found by number in an array, or by key in a list of pairs. These lemmas say
which rows there are after one of them was changed, added or taken out.
-/

namespace Roomcast

section Rows

variable {β : Type} {xs : Array β} {i j : Nat} {x y : β}

theorem lt_size_of_getElem? (found : xs[i]? = some x) : i < xs.size :=
  (Array.getElem?_eq_some_iff.1 found).1

/-- A row beyond the end of a table is not there. -/
theorem getElem?_ne_some {n : Nat} (beyond : n ≤ i) (size : xs.size = n) : xs[i]? ≠ some x := by
  intro found
  have inside := lt_size_of_getElem? found
  omega

/-- A row of a table in which one row was changed is another row, or the changed one. -/
theorem getElem?_modify_some {f : β → β} :
    (xs.modify i f)[j]? = some y ↔
      (i ≠ j ∧ xs[j]? = some y) ∨ (i = j ∧ ∃ x, xs[j]? = some x ∧ f x = y) := by
  rw [Array.getElem?_modify]
  by_cases here : i = j
  · simp [here]
  · simp [here]

/-- What a row is and what its change makes of it, it is after the change. -/
theorem getElem?_modify_keeps {f : β → β} {P : β → Prop} (found : xs[j]? = some x) (stays : P x)
    (changes : i = j → P (f x)) : ∃ y, (xs.modify i f)[j]? = some y ∧ P y := by
  rw [Array.getElem?_modify]
  by_cases here : i = j
  · exact ⟨f x, by simp [here, found], changes here⟩
  · exact ⟨x, by simp [here, found], stays⟩

/-- The row that is changed is the one that was there. -/
theorem getElem?_modify_one {f : β → β} {P : Nat → β → β → Prop} (found : xs[j]? = some y)
    (here : xs[i]? = some x) (stays : P j y y) (changes : P i x (f x)) :
    ∃ z, (xs.modify i f)[j]? = some z ∧ P j y z := by
  refine getElem?_modify_keeps found stays fun same => ?_
  subst same
  obtain rfl : y = x := Option.some.inj (found.symm.trans here)
  exact changes

/-- If every row of a table becomes a row of another table, a row of that was there before, or is
new. -/
theorem getElem?_back {ys : Array β} {P : β → β → Prop}
    (forth : ∀ x, xs[i]? = some x → ∃ y, ys[i]? = some y ∧ P x y) (found : ys[i]? = some y) :
    (∃ x, xs[i]? = some x ∧ P x y) ∨ xs.size ≤ i := by
  by_cases old : i < xs.size
  · have was := Array.getElem?_eq_getElem old
    obtain ⟨y', found', became⟩ := forth _ was
    obtain rfl : y = y' := Option.some.inj (found.symm.trans found')
    exact .inl ⟨_, was, became⟩
  · exact .inr (Nat.not_lt.1 old)

/-- A row of a table that got one more row is an old row, or the new one. -/
theorem getElem?_push_some :
    (xs.push x)[j]? = some y ↔ xs[j]? = some y ∨ (j = xs.size ∧ x = y) := by
  rw [Array.getElem?_push]
  by_cases new : j = xs.size
  · simp [new]
  · simp [new]

/-- Only the row that is there matters when a row is changed. -/
theorem modify_congr {f g : β → β} (same : ∀ x, xs[i]? = some x → f x = g x) :
    xs.modify i f = xs.modify i g := by
  refine Array.ext_getElem? fun j => ?_
  rw [Array.getElem?_modify, Array.getElem?_modify]
  by_cases here : i = j
  · subst here
    cases found : xs[i]? with
    | none => rfl
    | some x => simp [same x found]
  · simp [here]

/-- What the change of a row leaves alone is the same in every row. -/
theorem getElem?_modify_map {γ : Type} {p : β → γ} {f : β → β}
    (same : ∀ x, xs[i]? = some x → p (f x) = p x) (j : Nat) :
    ((xs.modify i f)[j]?).map p = (xs[j]?).map p := by
  rw [Array.getElem?_modify]
  by_cases here : i = j
  · subst here
    cases found : xs[i]? with
    | none => simp
    | some x => simp [same x found]
  · simp [here]

theorem modify_modify (f g : β → β) :
    (xs.modify i f).modify i g = xs.modify i fun x => g (f x) := by
  refine Array.ext_getElem? fun j => ?_
  simp only [Array.getElem?_modify]
  by_cases here : i = j
  · cases xs[j]? <;> simp [here]
  · simp [here]

/-- A table in which one row was changed that was there. -/
theorem getElem?_modify_of (f : β → β) (here : xs[i]? = some x) (j : Nat) :
    (xs.modify i f)[j]? = if i = j then some (f x) else xs[j]? := by
  rw [Array.getElem?_modify]
  split_ifs with same
  · rw [← same, here]
    rfl
  · rfl

/-- A table that differs from another in row `i`, which was `x` and is `y`. -/
structure Replaced (xs xs' : Array β) (i : Nat) (x y : β) : Prop where
  was : xs[i]? = some x
  now : ∀ j, xs'[j]? = if i = j then some y else xs[j]?

theorem Replaced.modify (f : β → β) (here : xs[i]? = some x) :
    Replaced xs (xs.modify i f) i x (f x) :=
  ⟨here, getElem?_modify_of f here⟩

theorem Replaced.here {xs' : Array β} (h : Replaced xs xs' i x y) : xs'[i]? = some y := by
  rw [h.now, if_pos rfl]

/-- A row after the replacement is an old one, or the new one. -/
theorem Replaced.back {xs' : Array β} {z : β} (h : Replaced xs xs' i x y)
    (found : xs'[j]? = some z) : (i ≠ j ∧ xs[j]? = some z) ∨ (i = j ∧ z = y) := by
  rw [h.now] at found
  split_ifs at found with same
  · exact .inr ⟨same, (Option.some.inj found).symm⟩
  · exact .inl ⟨same, found⟩

/-- A row before the replacement is still there, or it is the one that was replaced. -/
theorem Replaced.forth {xs' : Array β} {z : β} (h : Replaced xs xs' i x y)
    (found : xs[j]? = some z) : (i ≠ j ∧ xs'[j]? = some z) ∨ (i = j ∧ z = x) := by
  by_cases same : i = j
  · subst same
    exact .inr ⟨rfl, Option.some.inj (found.symm.trans h.was)⟩
  · refine .inl ⟨same, ?_⟩
    rw [h.now, if_neg same]
    exact found

/-- What a change of one row leaves alone stays the same in the whole table. -/
theorem map_modify_of_same {γ : Type} {f : β → β} {g : β → γ} (same : ∀ x, g (f x) = g x) :
    (xs.modify i f).map g = xs.map g := by
  refine Array.ext_getElem? fun j => ?_
  rw [Array.getElem?_map, Array.getElem?_map, getElem?_modify_map fun x _ => same x]

theorem modify_eq_self {f : β → β} (same : ∀ x, xs[i]? = some x → f x = x) :
    xs.modify i f = xs := by
  refine (modify_congr (g := id) same).trans (Array.ext_getElem? fun j => ?_)
  rw [Array.getElem?_modify]
  by_cases here : i = j
  · simp [here]
  · simp [here]

/-- Changing one row changes a count of rows by what that row contributes. -/
theorem countP_modify (p : β → Bool) (f : β → β)
    (found : xs[i]? = some x) :
    (xs.modify i f).countP p + (if p x then 1 else 0) =
      xs.countP p + (if p (f x) then 1 else 0) := by
  obtain ⟨inside, rfl⟩ := Array.getElem?_eq_some_iff.1 found
  have asSet : xs.modify i f = xs.set i (f xs[i]) := by
    refine Array.ext_getElem? fun j => ?_
    rw [Array.getElem?_modify, Array.getElem?_set]
    by_cases h : i = j
    · subst h
      simp [inside]
    · simp [h]
  have counted : (if p xs[i] then 1 else 0) ≤ xs.countP p := by
    split_ifs with hp
    · exact Array.countP_pos_iff.2 ⟨_, Array.getElem_mem inside, hp⟩
    · exact Nat.zero_le _
  rw [asSet, Array.countP_set]
  omega

/-- What the rows of a table weigh together. -/
def total (f : β → Nat) (xs : Array β) : Nat := (xs.toList.map f).sum

theorem total_append (f : β → Nat) (xs ys : Array β) :
    total f (xs ++ ys) = total f xs + total f ys := by
  simp [total]

theorem total_push (f : β → Nat) : total f (xs.push x) = total f xs + f x := by
  simp [total]

theorem total_le {f f' : β → Nat} (less : ∀ x, f' x ≤ f x) (xs : Array β) :
    total f' xs ≤ total f xs :=
  List.sum_le_sum fun x _ => less x

theorem total_le_add {f f' : β → Nat} {k : Nat} (less : ∀ x, f' x ≤ f x + k) (xs : Array β) :
    total f' xs ≤ total f xs + k * xs.size := by
  have bound := total_le less xs
  have same : total (fun x => f x + k) xs = total f xs + k * xs.size := by
    simp [total, List.sum_map_add, Nat.mul_comm]
  rwa [same] at bound

/-- If no row weighs more than before, changing one row changes the total by no more than what that
row weighs. -/
theorem total_modify {f f' : β → Nat} (less : ∀ x, f' x ≤ f x) (g : β → β)
    (found : xs[i]? = some x) : total f' (xs.modify i g) + f x ≤ total f xs + f' (g x) := by
  obtain ⟨l⟩ := xs
  rw [List.getElem?_toArray] at found
  simp only [total, List.modify_toArray]
  induction l generalizing i with
  | nil => cases found
  | cons y ys ih =>
      cases i with
      | zero =>
          obtain rfl := Option.some.inj found
          have rest : (ys.map f').sum ≤ (ys.map f).sum := List.sum_le_sum fun x _ => less x
          simp only [List.modify_zero_cons, List.map_cons, List.sum_cons]
          omega
      | succ i =>
          have rest := ih found
          have first := less y
          simp only [List.modify_succ_cons, List.map_cons, List.sum_cons]
          omega

end Rows

/-- Taking a key out of a table leaves the others alone. -/
theorem lookup_filter_ne {β γ : Type} [DecidableEq β] (table : List (β × γ)) (key k : β) :
    (table.filter (·.1 ≠ key)).lookup k = if k = key then none else table.lookup k := by
  induction table with
  | nil => simp
  | cons row rest ih =>
      by_cases taken : row.1 = key
      · rw [List.filter_cons_of_neg (by simp [taken]), ih, List.lookup_cons, taken]
        by_cases asked : k = key
        · simp [asked]
        · simp [asked, beq_false_of_ne asked]
      · rw [List.filter_cons_of_pos (by simp [taken]), List.lookup_cons, List.lookup_cons, ih]
        by_cases asked : k = key
        · simp [asked, beq_false_of_ne (Ne.symm taken)]
        · simp [asked]

/-- In a table in which each key stands once, every row is found by its key. -/
theorem lookup_of_mem {β γ : Type} [DecidableEq β] {table : List (β × γ)}
    (single : (table.map (·.1)).Nodup) {key : β} {value : γ} (there : (key, value) ∈ table) :
    table.lookup key = some value := by
  induction table with
  | nil => cases there
  | cons row rest ih =>
      obtain ⟨fresh, single⟩ := List.nodup_cons.1 single
      rw [List.lookup_cons]
      obtain rfl | there := List.mem_cons.1 there
      · simp
      · have other : key ≠ row.1 := by
          rintro rfl
          exact fresh (List.mem_map.2 ⟨_, there, rfl⟩)
        rw [show (key == row.1) = false from beq_false_of_ne other]
        exact ih single there

end Roomcast
