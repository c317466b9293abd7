import Mathlib.Data.List.Basic

/-!
# Filtering a slice in its own array

The idiom `kept := xs[:0]; for _, x := range xs { ... kept = append(kept, y) }`: what is kept is
written to the front of the array that is being read. It never overtakes the reading, so the loop
keeps what a loop with an array of its own would keep.
-/

namespace PgProxy
set_option autoImplicit false

variable {α : Type}

/-- `left` elements are still to be read, the next of them at `i`, and `k` have been kept. -/
def filterInPlace (f : α → Option α) : Nat → Nat → Nat → List α → List α
  | 0, _, k, array => array.take k
  | left + 1, i, k, array =>
    match array[i]?.bind f with
    | none => filterInPlace f left (i + 1) k array
    | some y => filterInPlace f left (i + 1) (k + 1) (array.set k y)

theorem take_set_succ {xs : List α} {k : Nat} (h : k < xs.length) (y : α) :
    (xs.set k y).take (k + 1) = xs.take k ++ [y] := by
  rw [List.take_add_one, List.getElem?_set_self h, List.take_set_of_le (Nat.le_refl k)]
  rfl

theorem filterInPlace_from (f : α → Option α) {left i k : Nat} {array : List α} (hk : k ≤ i)
    (hleft : i + left = array.length) :
    filterInPlace f left i k array = array.take k ++ (array.drop i).filterMap f := by
  induction left generalizing i k array with
  | zero =>
    have hend : array.drop i = [] := List.drop_eq_nil_of_le (by omega)
    simp [filterInPlace, hend]
  | succ left ih =>
    have hi : i < array.length := by omega
    rw [filterInPlace, List.getElem?_eq_getElem hi, Option.bind_some,
      List.drop_eq_getElem_cons hi, List.filterMap_cons]
    cases hread : f array[i] with
    | none => exact ih (by omega) (by omega)
    | some y =>
      -- the element is written at or before the place it was read from
      dsimp only
      rw [ih (by omega) (by rw [List.length_set]; omega), take_set_succ (by omega),
        List.drop_set_of_lt (by omega), List.append_assoc]
      rfl

theorem filterInPlace_eq_filterMap (f : α → Option α) (xs : List α) :
    filterInPlace f xs.length 0 0 xs = xs.filterMap f :=
  filterInPlace_from f (Nat.le_refl 0) (Nat.zero_add _)

end PgProxy
