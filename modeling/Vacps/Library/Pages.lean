import Mathlib.Data.List.Basic
import Mathlib.Logic.Function.Iterate
import Mathlib.Order.Bounds.Basic

/- Items of different widths: the borders between them, and pages of one limited width, each filled as far as it goes. -/
set_option autoImplicit false

namespace Library

variable {Item : Type} (width : Item → Nat)

def extent : List Item → Nat
  | [] => 0
  | item :: rest => width item + extent rest

@[simp] theorem extent_nil : extent width [] = 0 := rfl

@[simp] theorem extent_cons (item : Item) (items : List Item) : extent width (item :: items) = width item + extent width items := rfl

@[simp] theorem extent_append (front back : List Item) : extent width (front ++ back) = extent width front + extent width back := by
  induction front with
  | nil => simp
  | cons item rest ih =>
      rw [List.cons_append, extent_cons, ih, extent_cons]
      omega

theorem extent_map {Other : Type} (value : Other → Item) (items : List Other) :
    extent width (items.map value) = extent (fun other => width (value other)) items := by
  induction items with
  | nil => rfl
  | cons item rest ih => rw [List.map_cons, extent_cons, ih, extent_cons]

-- A place where some item ends, or none has started.
def Border (items : List Item) (place : Nat) : Prop := ∃ front, front <+: items ∧ extent width front = place

-- The borders around a place: the last up to it and the first from it on.
def BorderBelow (items : List Item) (place border : Nat) : Prop := IsGreatest {other | Border width items other ∧ other ≤ place} border

def BorderAbove (items : List Item) (place border : Nat) : Prop := IsLeast {other | Border width items other ∧ place ≤ other} border

theorem border_start (items : List Item) : Border width items 0 := ⟨[], List.nil_prefix, rfl⟩

theorem border_stop (items : List Item) : Border width items (extent width items) := ⟨items, List.prefix_rfl, rfl⟩

theorem border_le (items : List Item) (border : Nat) (here : Border width items border) : border ≤ extent width items := by
  obtain ⟨front, ⟨rest, rfl⟩, rfl⟩ := here
  rw [extent_append]
  omega

theorem borders_around (items : List Item) (place : Nat) (inside : place < extent width items) :
    ∃ front item rest, items = front ++ item :: rest ∧ extent width front ≤ place ∧ place < extent width front + width item := by
  induction items generalizing place with
  | nil => simp at inside
  | cons item rest ih =>
      rw [extent_cons] at inside
      by_cases here : place < width item
      · exact ⟨[], item, rest, rfl, Nat.zero_le place, by simpa using here⟩
      · obtain ⟨front, next, others, rfl, after, before⟩ := ih (place - width item) (by omega)
        refine ⟨item :: front, next, others, rfl, ?_, ?_⟩ <;> rw [extent_cons] <;> omega

-- No border lies inside an item.
theorem border_sides (front : List Item) (item : Item) (rest : List Item) (border : Nat)
    (here : Border width (front ++ item :: rest) border) : border ≤ extent width front ∨ extent width front + width item ≤ border := by
  obtain ⟨start, within, rfl⟩ := here
  rcases List.prefix_or_prefix_of_prefix within (List.prefix_append front (item :: rest)) with ⟨more, rfl⟩ | ⟨more, rfl⟩
  · exact Or.inl (by rw [extent_append]; omega)
  · cases more with
    | nil => exact Or.inl (by rw [List.append_nil])
    | cons first others =>
        have same := (List.cons_prefix_cons.mp ((List.prefix_append_right_inj front).mp within)).1
        subst same
        exact Or.inr (by rw [extent_append, extent_cons]; omega)

theorem border_between (front : List Item) (item : Item) (rest : List Item) :
    Border width (front ++ item :: rest) (extent width front) ∧
      Border width (front ++ item :: rest) (extent width front + width item) := by
  refine ⟨⟨front, List.prefix_append _ _, rfl⟩, front ++ [item], ⟨rest, by simp⟩, ?_⟩
  rw [extent_append, extent_cons, extent_nil, Nat.add_zero]

theorem below_inside (front : List Item) (item : Item) (rest : List Item) (place : Nat) (after : extent width front ≤ place)
    (before : place < extent width front + width item) : BorderBelow width (front ++ item :: rest) place (extent width front) := by
  refine ⟨⟨(border_between width front item rest).1, after⟩, ?_⟩
  intro other bounds
  have sides := border_sides width front item rest other bounds.1
  have within : other ≤ place := bounds.2
  omega

theorem above_inside (front : List Item) (item : Item) (rest : List Item) (place : Nat) (after : extent width front < place)
    (before : place ≤ extent width front + width item) :
    BorderAbove width (front ++ item :: rest) place (extent width front + width item) := by
  refine ⟨⟨(border_between width front item rest).2, before⟩, ?_⟩
  intro other bounds
  have sides := border_sides width front item rest other bounds.1
  have within : place ≤ other := bounds.2
  omega

theorem below_border (items : List Item) (place : Nat) (here : Border width items place) : BorderBelow width items place place :=
  ⟨⟨here, Nat.le_refl place⟩, fun _ bounds => bounds.2⟩

theorem above_border (items : List Item) (place : Nat) (here : Border width items place) : BorderAbove width items place place :=
  ⟨⟨here, Nat.le_refl place⟩, fun _ bounds => bounds.2⟩

theorem below_clipped (items : List Item) (place border : Nat) (below : BorderBelow width items (min place (extent width items)) border) :
    BorderBelow width items place border := by
  obtain ⟨here, last⟩ := below
  refine ⟨⟨here.1, Nat.le_trans here.2 (Nat.min_le_left _ _)⟩, ?_⟩
  intro other bounds
  exact last ⟨bounds.1, Nat.le_min.mpr ⟨bounds.2, border_le width items other bounds.1⟩⟩

theorem below_exists (items : List Item) (place : Nat) : ∃ border, BorderBelow width items place border := by
  by_cases inside : place < extent width items
  · obtain ⟨front, item, rest, rfl, after, before⟩ := borders_around width items place inside
    exact ⟨_, below_inside width front item rest place after before⟩
  · refine ⟨extent width items, ⟨border_stop width items, by omega⟩, fun other bounds => ?_⟩
    exact border_le width items other bounds.1

-- From a place further on, the same border comes next exactly where no border lies between the two places.
theorem above_moved (items : List Item) (place moved border : Nat) (back : moved ≤ place)
    (above : BorderAbove width items moved border) :
    BorderAbove width items place border ↔ ∀ other, Border width items other → moved ≤ other → place ≤ other := by
  constructor
  · intro next other here behind
    exact Nat.le_trans next.1.2 (above.2 ⟨here, behind⟩)
  · intro kept
    exact ⟨⟨above.1.1, kept border above.1.1 above.1.2⟩, fun other bounds => above.2 ⟨bounds.1, Nat.le_trans back bounds.2⟩⟩

theorem below_moved (items : List Item) (place moved border : Nat) (back : moved ≤ place)
    (below : BorderBelow width items moved border) :
    BorderBelow width items place border ↔ ∀ other, Border width items other → other ≤ place → other ≤ moved := by
  constructor
  · intro last other here before
    exact Nat.le_trans (last.2 ⟨here, before⟩) below.1.2
  · intro kept
    exact ⟨⟨below.1.1, Nat.le_trans below.1.2 back⟩, fun other bounds => below.2 ⟨bounds.1, kept other bounds.1 bounds.2⟩⟩

-- Where every item has some width, a border is the end of one beginning only.
theorem border_front (items front other : List Item) (wide : ∀ item ∈ items, 0 < width item) (within : front <+: items)
    (inside : other <+: items) (same : extent width front = extent width other) : front = other := by
  have shorter : ∀ a b : List Item, b <+: items → a <+: b → extent width a = extent width b → a = b := by
    rintro a b inside ⟨more, rfl⟩ same
    cases more with
    | nil => rw [List.append_nil]
    | cons item rest =>
        have positive := wide item (inside.subset (by simp))
        rw [extent_append, extent_cons] at same
        omega
  rcases List.prefix_or_prefix_of_prefix within inside with before | behind
  · exact shorter front other inside before same
  · exact (shorter other front within behind same.symm).symm

-- The longest beginning that has room.
def filled : Nat → List Item → List Item
  | _, [] => []
  | room, item :: rest => if width item ≤ room then item :: filled (room - width item) rest else []

-- What is on the pages so far and what is still to come, with one page more.
def turned (limit : Nat) (pages : List Item × List Item) : List Item × List Item :=
  (pages.1 ++ filled width limit pages.2, pages.2.drop (filled width limit pages.2).length)

theorem filled_front (room : Nat) (items : List Item) : filled width room items <+: items := by
  induction items generalizing room with
  | nil => exact List.nil_prefix
  | cons item rest ih =>
      rw [filled]
      split
      · exact List.cons_prefix_cons.mpr ⟨rfl, ih (room - width item)⟩
      · exact List.nil_prefix

theorem filled_fits (room : Nat) (items : List Item) : extent width (filled width room items) ≤ room := by
  induction items generalizing room with
  | nil => exact Nat.zero_le room
  | cons item rest ih =>
      rw [filled]
      split
      · have behind := ih (room - width item)
        rw [extent_cons]
        omega
      · exact Nat.zero_le room

-- The item behind a page is one that it has no room for.
theorem filled_full (room : Nat) (items : List Item) (next : Item) (rest : List Item)
    (left : items = filled width room items ++ next :: rest) : room < extent width (filled width room items) + width next := by
  induction items generalizing room with
  | nil => simp [filled] at left
  | cons item others ih =>
      rw [filled] at left ⊢
      split
      · rename_i fits
        rw [if_pos fits, List.cons_append, List.cons.injEq] at left
        have behind := ih (room - width item) left.2
        rw [extent_cons]
        omega
      · rename_i wide
        rw [if_neg wide, List.nil_append, List.cons.injEq] at left
        rw [← left.1, extent_nil]
        omega

theorem filled_split (room : Nat) (items : List Item) :
    filled width room items ++ items.drop (filled width room items).length = items := by
  have start := List.prefix_iff_eq_take.mp (filled_front width room items)
  have whole := List.take_append_drop (filled width room items).length items
  rwa [← start] at whole

theorem filled_some (room : Nat) (item : Item) (rest : List Item) (fits : width item ≤ room) :
    0 < (filled width room (item :: rest)).length := by
  rw [filled, if_pos fits]
  exact Nat.succ_pos _

theorem filled_member (room : Nat) (items : List Item) (item : Item) (member : item ∈ filled width room items) : width item ≤ room := by
  induction items generalizing room with
  | nil => simp [filled] at member
  | cons first rest ih =>
      rw [filled] at member
      split at member
      · rcases List.mem_cons.mp member with rfl | later
        · assumption
        · exact Nat.le_trans (ih _ later) (Nat.sub_le _ _)
      · cases member

theorem turned_join (limit : Nat) (pages : List Item × List Item) :
    (turned width limit pages).1 ++ (turned width limit pages).2 = pages.1 ++ pages.2 := by
  rw [turned, List.append_assoc, filled_split]

end Library
