import Mathlib.Data.List.Basic
import Vacps.Library.Slices

/- A list written into at a place of it or behind its end, the way bytes of a file are. -/
set_option autoImplicit false

namespace Library

variable {Item : Type} (blank : Item)

-- The first so many items, made up with blanks.
def padded (items : List Item) (count : Nat) : List Item := items.take count ++ List.replicate (count - items.length) blank

def overwrite (items : List Item) (at_ : Nat) (fresh : List Item) : List Item :=
  if fresh = [] then items else padded blank items at_ ++ fresh ++ items.drop (at_ + fresh.length)

@[simp] theorem padded_length (items : List Item) (count : Nat) : (padded blank items count).length = count := by
  rw [padded, List.length_append, List.length_take, List.length_replicate]
  omega

theorem padded_within (items : List Item) (count : Nat) (inside : count ≤ items.length) : padded blank items count = items.take count := by
  rw [padded, Nat.sub_eq_zero_of_le inside, List.replicate_zero, List.append_nil]

@[simp] theorem overwrite_nil (items : List Item) (at_ : Nat) : overwrite blank items at_ [] = items := if_pos rfl

theorem overwrite_length (items : List Item) (at_ : Nat) (fresh : List Item) (some_ : fresh ≠ []) :
    (overwrite blank items at_ fresh).length = max items.length (at_ + fresh.length) := by
  rw [overwrite, if_neg some_]
  simp only [List.length_append, padded_length, List.length_drop]
  omega

-- Two stretches written one behind the other are one.
theorem overwrite_behind (items : List Item) (at_ : Nat) (first second : List Item) :
    overwrite blank (overwrite blank items at_ first) (at_ + first.length) second = overwrite blank items at_ (first ++ second) := by
  by_cases none_ : first = []
  · subst none_
    rw [overwrite_nil, List.length_nil, Nat.add_zero, List.nil_append]
  · by_cases last : second = []
    · subst last
      rw [overwrite_nil, List.append_nil]
    · have front : (padded blank items at_ ++ first).length = at_ + first.length := by rw [List.length_append, padded_length]
      have long : at_ + first.length ≤ (overwrite blank items at_ first).length := by
        rw [overwrite_length blank items at_ first none_]
        omega
      rw [overwrite, if_neg last, padded_within blank _ _ long, overwrite, if_neg none_, overwrite, if_neg (by simp [none_]),
        ← front, List.take_left, List.drop_append, front, List.drop_eq_nil_of_le (by rw [front]; omega), List.nil_append, List.drop_drop,
        List.length_append]
      have reach : at_ + first.length + (at_ + first.length + second.length - (at_ + first.length)) =
          at_ + (first.length + second.length) := by omega
      rw [reach]
      simp only [List.append_assoc]

-- What was written is there.
theorem slice_overwrite (items : List Item) (at_ : Nat) (fresh : List Item) :
    slice (overwrite blank items at_ fresh) at_ fresh.length = fresh := by
  by_cases none_ : fresh = []
  · subst none_
    exact slice_zero _ _
  · have front : (padded blank items at_).length = at_ := padded_length blank items at_
    rw [overwrite, if_neg none_, slice, List.append_assoc, List.drop_left' front, List.take_left]

-- And nothing else has changed.
theorem overwrite_elsewhere (items : List Item) (at_ : Nat) (fresh : List Item) (i : Nat)
    (outside : i < at_ ∨ at_ + fresh.length ≤ i) (inside : i < items.length) :
    (overwrite blank items at_ fresh)[i]? = items[i]? := by
  by_cases none_ : fresh = []
  · subst none_
    rw [overwrite_nil]
  · rw [overwrite, if_neg none_, List.append_assoc]
    rcases outside with before | behind
    · rw [List.getElem?_append_left (by rw [padded_length]; exact before), padded,
        List.getElem?_append_left (by rw [List.length_take]; omega), List.getElem?_take, if_pos before]
    · rw [List.getElem?_append_right (by rw [padded_length]; omega), padded_length, List.getElem?_append_right (by omega),
        List.getElem?_drop]
      congr 1
      omega

end Library
