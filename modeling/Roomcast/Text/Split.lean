/-!
# Splitting

Lists cut at separators. A list without a separator is one piece.
-/

namespace Roomcast.Text

variable {α : Type} [DecidableEq α] {separator : α} {xs : List α}

/-- The pieces between the separators. There is one more than there are separators. -/
def splitAt (separator : α) : List α → List (List α)
  | [] => [[]]
  | x :: xs =>
    if x = separator then [] :: splitAt separator xs
    else
      match splitAt separator xs with
      | [] => [[x]]
      | piece :: pieces => (x :: piece) :: pieces

/-- What stands before the first separator, and what stands after it, if there is one. -/
def cutAt (separator : α) : List α → List α × Option (List α)
  | [] => ([], none)
  | x :: xs =>
    if x = separator then ([], some xs)
    else
      let (before, after) := cutAt separator xs
      (x :: before, after)

theorem splitAt_of_not_mem (apart : separator ∉ xs) : splitAt separator xs = [xs] := by
  induction xs with
  | nil => rfl
  | cons x xs ih =>
      have other := List.ne_of_not_mem_cons apart
      have apart := List.not_mem_of_not_mem_cons apart
      rw [splitAt, if_neg (Ne.symm other), ih apart]

theorem splitAt_append (apart : separator ∉ xs) (rest : List α) :
    splitAt separator (xs ++ separator :: rest) = xs :: splitAt separator rest := by
  induction xs with
  | nil => rw [List.nil_append, splitAt, if_pos rfl]
  | cons x xs ih =>
      have other := List.ne_of_not_mem_cons apart
      have apart := List.not_mem_of_not_mem_cons apart
      rw [List.cons_append, splitAt, if_neg (Ne.symm other), ih apart]

theorem cutAt_append (apart : separator ∉ xs) (rest : List α) :
    cutAt separator (xs ++ separator :: rest) = (xs, some rest) := by
  induction xs with
  | nil => rw [List.nil_append, cutAt, if_pos rfl]
  | cons x xs ih =>
      have other := List.ne_of_not_mem_cons apart
      have apart := List.not_mem_of_not_mem_cons apart
      rw [List.cons_append, cutAt, if_neg (Ne.symm other), ih apart]

end Roomcast.Text
