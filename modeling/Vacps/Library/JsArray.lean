import Mathlib.Data.List.Basic

/- Arrays of ECMAScript as lists: indices are integers, an access outside the array is none. -/
set_option autoImplicit false

namespace Library.JsArray

variable {α : Type}

def relativeIndex (length : Nat) (index : Int) : Nat :=
  if index < 0 then (length + index).toNat else min index.toNat length

-- The array after Array#splice.
def splice (items : List α) (start deleteCount : Int) (inserted : List α) : List α :=
  let first := relativeIndex items.length start
  items.take first ++ inserted ++ items.drop (first + min deleteCount.toNat (items.length - first))

def fill (items : List α) (value : α) (start stop : Int) : List α :=
  items.mapIdx fun i item =>
    if relativeIndex items.length start ≤ i ∧ i < relativeIndex items.length stop then value else item

def at? (items : List α) (index : Int) : Option α := if 0 ≤ index then items[index.toNat]? else none

def setAt (items : List α) (index : Int) (value : α) : Option (List α) :=
  if 0 ≤ index ∧ index < items.length then some (items.set index.toNat value) else none

-- Assigning a length above the array's own would leave holes.
def setLength (items : List α) (length : Int) : Option (List α) :=
  if 0 ≤ length ∧ length ≤ items.length then some (items.take length.toNat) else none

-- new Array(length).fill(value)
def newArray (length : Int) (value : α) : Option (List α) :=
  if 0 ≤ length then some (List.replicate length.toNat value) else none

theorem splice_length (items inserted : List α) (start deleteCount : Int) (low : 0 ≤ start) (positive : 0 ≤ deleteCount)
    (high : start + deleteCount ≤ items.length) :
    ((splice items start deleteCount inserted).length : Int) = items.length - deleteCount + inserted.length := by
  have first : relativeIndex items.length start = start.toNat := by
    rw [relativeIndex, if_neg (by omega)]
    omega
  simp only [splice, first, List.length_append, List.length_take, List.length_drop]
  omega

theorem mem_splice (items inserted : List α) (start deleteCount : Int) (item : α)
    (member : item ∈ splice items start deleteCount inserted) : item ∈ items ∨ item ∈ inserted := by
  simp only [splice, List.mem_append] at member
  rcases member with (before | new) | after
  · exact Or.inl (List.mem_of_mem_take before)
  · exact Or.inr new
  · exact Or.inl (List.mem_of_mem_drop after)

@[simp] theorem fill_length (items : List α) (value : α) (start stop : Int) :
    (fill items value start stop).length = items.length := List.length_mapIdx

theorem at_inside (items : List α) (index : Int) (low : 0 ≤ index) (high : index < items.length) :
    ∃ item, at? items index = some item ∧ item ∈ items := by
  have bound : index.toNat < items.length := by omega
  exact ⟨items[index.toNat], by rw [at?, if_pos low, List.getElem?_eq_getElem bound], List.getElem_mem bound⟩

theorem set_inside (items : List α) (index : Int) (value : α) (low : 0 ≤ index) (high : index < items.length) :
    setAt items index value = some (items.set index.toNat value) := if_pos ⟨low, high⟩

theorem new_array (length : Int) (value : α) (positive : 0 ≤ length) :
    newArray length value = some (List.replicate length.toNat value) := if_pos positive

theorem relative_inside (length : Nat) (index : Int) (low : 0 ≤ index) (high : index ≤ length) :
    relativeIndex length index = index.toNat := by
  rw [relativeIndex, if_neg (by omega)]
  omega

theorem splice_pieces (items inserted : List α) (start deleteCount : Int) (low : 0 ≤ start) (positive : 0 ≤ deleteCount)
    (high : start + deleteCount ≤ items.length) :
    splice items start deleteCount inserted = items.take start.toNat ++ inserted ++ items.drop (start + deleteCount).toNat := by
  have first := relative_inside items.length start low (by omega)
  have behind : start.toNat + min deleteCount.toNat (items.length - start.toNat) = (start + deleteCount).toNat := by omega
  simp only [splice, first, behind]

theorem fill_pieces (items : List α) (value : α) (start stop : Int) (low : 0 ≤ start) (order : start ≤ stop)
    (high : stop ≤ items.length) :
    fill items value start stop =
      items.take start.toNat ++ List.replicate (stop - start).toNat value ++ items.drop stop.toNat := by
  have first := relative_inside items.length start low (by omega)
  have last := relative_inside items.length stop (by omega) high
  apply List.ext_getElem
  · simp only [fill_length, List.length_append, List.length_take, List.length_replicate, List.length_drop]
    omega
  · intro i inside _
    rw [fill_length] at inside
    simp only [fill, List.getElem_mapIdx, first, last, List.getElem_append, List.length_append, List.length_take,
      List.length_replicate, List.getElem_take, List.getElem_replicate, List.getElem_drop]
    by_cases before : i < start.toNat
    · rw [if_neg (by omega), dif_pos (by omega), dif_pos (by omega)]
    · by_cases within : i < stop.toNat
      · rw [if_pos (by omega), dif_pos (by omega), dif_neg (by omega)]
      · rw [if_neg (by omega), dif_neg (by omega)]
        congr 1
        omega

-- A list with something put in, cut to a length, is the list cut shorter with the same put in.
theorem take_inserted (items inserted : List α) (index length : Nat) (inside : index ≤ items.length)
    (room : index + inserted.length ≤ length) :
    (items.take index ++ inserted ++ items.drop index).take length =
      (items.take (length - inserted.length)).take index ++ inserted ++ (items.take (length - inserted.length)).drop index := by
  have front : (items.take index ++ inserted).length = index + inserted.length := by
    rw [List.length_append, List.length_take, Nat.min_eq_left inside]
  have rest : length - (index + inserted.length) = length - inserted.length - index := by omega
  rw [List.take_append, front, List.take_of_length_le (by omega), List.take_take, Nat.min_eq_left (by omega), List.drop_take, rest]

theorem at_split (before after : List α) (item : α) : at? (before ++ item :: after) before.length = some item := by
  rw [at?, if_pos (by omega), Int.toNat_natCast, List.getElem?_append_right (Nat.le_refl _), Nat.sub_self]
  rfl

theorem set_split (before after : List α) (item value : α) :
    setAt (before ++ item :: after) before.length value = some (before ++ value :: after) := by
  rw [set_inside _ _ _ (by omega) (by rw [List.length_append, List.length_cons]; omega), Int.toNat_natCast,
    List.set_append_right before.length value (Nat.le_refl _), Nat.sub_self]
  rfl

theorem split_at (items : List α) (index : Int) (low : 0 ≤ index) (high : index < items.length) :
    ∃ before item after, items = before ++ item :: after ∧ (before.length : Int) = index := by
  have bound : index.toNat < items.length := by omega
  refine ⟨items.take index.toNat, items[index.toNat], items.drop (index.toNat + 1), ?_, ?_⟩
  · rw [List.getElem_cons_drop, List.take_append_drop]
  · rw [List.length_take]
    omega

theorem at_splice (items : List α) (start : Int) (item : α) (low : 0 ≤ start) (high : start ≤ items.length) :
    at? (splice items start 0 [item]) start = some item := by
  have size : ((items.take start.toNat).length : Int) = start := by
    rw [List.length_take]
    omega
  have read := at_split (items.take start.toNat) (items.drop (start + 0).toNat) item
  rw [size] at read
  rw [splice_pieces items [item] start 0 low (Int.le_refl _) (by omega), List.append_assoc]
  exact read

end Library.JsArray
