import Mathlib.Data.List.Basic

/- A stretch of a list, by where it starts and how long it is. -/
set_option autoImplicit false

namespace Library

variable {Item : Type}

def slice (items : List Item) (start count : Nat) : List Item := (items.drop start).take count

@[simp] theorem slice_zero (items : List Item) (start : Nat) : slice items start 0 = [] := List.take_zero

theorem slice_length (items : List Item) (start count : Nat) (inside : start + count ≤ items.length) :
    (slice items start count).length = count := by
  rw [slice, List.length_take, List.length_drop]
  omega

theorem slice_grown (items more : List Item) (start count : Nat) (inside : start + count ≤ items.length) :
    slice (items ++ more) start count = slice items start count := by
  rw [slice, slice, List.drop_append_of_le_length (by omega), List.take_append_of_le_length (by rw [List.length_drop]; omega)]

theorem slice_append (items : List Item) (start first second : Nat) :
    slice items start first ++ slice items (start + first) second = slice items start (first + second) := by
  rw [slice, slice, slice, List.take_add, List.drop_drop]

-- A stretch of a stretch.
theorem slice_slice (items : List Item) (start count inner some_ : Nat) (inside : inner + some_ ≤ count) :
    slice (slice items start count) inner some_ = slice items (start + inner) some_ := by
  rw [slice, slice, slice, List.drop_take, List.take_take, List.drop_drop]
  congr 1
  omega

theorem slice_take (items : List Item) (start count front : Nat) (inside : front ≤ count) :
    (slice items start count).take front = slice items start front :=
  slice_slice items start count 0 front (by omega)

theorem slice_behind (items : List Item) (start count : Nat) : slice items start count ++ items.drop (start + count) = items.drop start := by
  rw [slice, ← List.drop_drop]
  exact List.take_append_drop _ _

theorem slice_drop (items : List Item) (start count front : Nat) :
    (slice items start count).drop front = slice items (start + front) (count - front) := by
  rw [slice, slice, List.drop_take, List.drop_drop]

-- The end of what has been added.
theorem slice_end (items more : List Item) (front : Nat) :
    slice (items ++ more) (items.length + front) (more.length - front) = more.drop front := by
  rw [slice, List.drop_append, List.drop_eq_nil_of_le (by omega), List.nil_append, Nat.add_sub_cancel_left]
  exact List.take_of_length_le (Nat.le_of_eq List.length_drop)

end Library
