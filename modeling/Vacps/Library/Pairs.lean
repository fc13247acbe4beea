import Mathlib.Data.List.Basic

/- Lists in which some items open a pair and the item right behind closes it: what holds at every
   border between two items, and what cutting and joining at a border does. -/
set_option autoImplicit false

namespace Library

variable {α : Type} (opens closes : α → Bool)

structure Paired (items : List α) : Prop where
  preceded : ∀ (i : Nat) (item : α), items[i]? = some item → closes item = true →
    ∃ j before, i = j + 1 ∧ items[j]? = some before ∧ opens before = true
  followed : ∀ (i : Nat) (item : α), items[i]? = some item → opens item = true →
    ∃ after, items[i + 1]? = some after ∧ closes after = true

-- A stretch of such a list: whether a pair is open at its left border and at its right one.
def Spans : Bool → List α → Bool → Prop
  | left, [], right => left = right
  | left, item :: rest, right => closes item = left ∧ Spans (opens item) rest right

-- Whether the border before an item lies inside a pair.
def joined (items : List α) (border : Nat) : Bool := items[border]?.any closes

theorem spans_append (left right : Bool) (xs ys : List α) :
    Spans opens closes left (xs ++ ys) right ↔ ∃ middle, Spans opens closes left xs middle ∧ Spans opens closes middle ys right := by
  induction xs generalizing left with
  | nil =>
      constructor
      · exact fun spans => ⟨left, rfl, spans⟩
      · rintro ⟨middle, same, spans⟩
        cases same
        exact spans
  | cons item rest ih =>
      constructor
      · rintro ⟨closed, spans⟩
        obtain ⟨middle, before, behind⟩ := (ih (opens item)).mp spans
        exact ⟨middle, ⟨closed, before⟩, behind⟩
      · rintro ⟨middle, ⟨closed, before⟩, behind⟩
        exact ⟨closed, (ih (opens item)).mpr ⟨middle, before, behind⟩⟩

theorem spans_right_unique (left right other : Bool) (items : List α) (spans : Spans opens closes left items right)
    (too : Spans opens closes left items other) : right = other := by
  induction items generalizing left with
  | nil => exact spans.symm.trans too
  | cons item rest ih => exact ih (opens item) spans.2 too.2

theorem spans_left_unique (left other right : Bool) (items : List α) (spans : Spans opens closes left items right)
    (too : Spans opens closes other items right) : left = other := by
  cases items with
  | nil => exact spans.trans too.symm
  | cons item rest => exact spans.1.symm.trans too.1

theorem spans_left (left : Bool) (items : List α) (spans : Spans opens closes left items false) :
    left = joined closes items 0 := by
  cases items with
  | nil => exact spans
  | cons item rest => exact spans.1.symm

theorem spans_replicate (blank : α) (plain : opens blank = false ∧ closes blank = false) (count : Nat) :
    Spans opens closes false (List.replicate count blank) false := by
  induction count with
  | zero => rfl
  | succ count ih =>
      refine ⟨plain.2, ?_⟩
      rw [plain.1]
      exact ih

theorem spans_cut (items : List α) (border : Nat) (whole : Spans opens closes false items false) :
    Spans opens closes false (items.take border) (joined closes items border) ∧
      Spans opens closes (joined closes items border) (items.drop border) false := by
  rw [← List.take_append_drop border items] at whole
  obtain ⟨middle, before, behind⟩ := (spans_append opens closes false false _ _).mp whole
  have same : middle = joined closes items border := by
    rw [spans_left opens closes middle _ behind, joined, joined, List.getElem?_drop, Nat.add_zero]
  rw [← same]
  exact ⟨before, behind⟩

-- Two parts of such lists fit together where their borders agree, and only there.
theorem spans_join (xs ys : List α) (i j : Nat) (first : Spans opens closes false xs false) (second : Spans opens closes false ys false) :
    Spans opens closes false (xs.take i ++ ys.drop j) false ↔ joined closes xs i = joined closes ys j := by
  have before := (spans_cut opens closes xs i first).1
  have behind := (spans_cut opens closes ys j second).2
  constructor
  · intro spans
    obtain ⟨middle, taken, dropped⟩ := (spans_append opens closes false false _ _).mp spans
    rw [spans_right_unique opens closes false _ middle _ before taken, spans_left_unique opens closes middle _ false _ dropped behind]
  · intro agree
    rw [← agree] at behind
    exact (spans_append opens closes false false _ _).mpr ⟨_, before, behind⟩

-- A list of this kind in the place of what stood between two borders.
theorem spans_replace (items inserted : List α) (start stop : Nat) (whole : Spans opens closes false items false)
    (fresh : Spans opens closes false inserted false) (clean : joined closes items start = false ∧ joined closes items stop = false) :
    Spans opens closes false (items.take start ++ inserted ++ items.drop stop) false := by
  have before := (spans_cut opens closes items start whole).1
  have behind := (spans_cut opens closes items stop whole).2
  rw [clean.1] at before
  rw [clean.2] at behind
  have joinedBefore := (spans_append opens closes false false _ _).mpr ⟨false, before, fresh⟩
  exact (spans_append opens closes false false _ _).mpr ⟨false, joinedBefore, behind⟩

theorem paired_tail (left : Bool) (item : α) (rest : List α) (spans : Spans opens closes left (item :: rest) false) (i : Nat)
    (next : α) (found : (item :: rest)[i]? = some next) (opened : opens next = true) :
    ∃ after, (item :: rest)[i + 1]? = some after ∧ closes after = true := by
  induction rest generalizing left item i with
  | nil =>
      obtain ⟨-, last⟩ := spans
      cases i with
      | zero =>
          cases Option.some.inj found
          rw [Spans, opened] at last
          exact nomatch last
      | succ i => simp at found
  | cons second rest ih =>
      obtain ⟨-, inner⟩ := spans
      cases i with
      | zero =>
          cases Option.some.inj found
          exact ⟨second, rfl, inner.1.trans opened⟩
      | succ i => exact ih (opens item) second inner i found

theorem paired_head (left : Bool) (items : List α) (spans : Spans opens closes left items false) (i : Nat) (item : α)
    (found : items[i]? = some item) (closed : closes item = true) :
    (i = 0 ∧ left = true) ∨ ∃ j before, i = j + 1 ∧ items[j]? = some before ∧ opens before = true := by
  induction items generalizing left i with
  | nil => simp at found
  | cons first rest ih =>
      cases i with
      | zero =>
          cases Option.some.inj found
          exact Or.inl ⟨rfl, spans.1.symm.trans closed⟩
      | succ i =>
          rcases ih (opens first) spans.2 i found with ⟨rfl, opened⟩ | ⟨j, before, rfl, earlier, opened⟩
          · exact Or.inr ⟨0, first, rfl, rfl, opened⟩
          · exact Or.inr ⟨j + 1, before, rfl, earlier, opened⟩

theorem spans_paired (items : List α) (spans : Spans opens closes false items false) : Paired opens closes items := by
  constructor
  · intro i item found closed
    rcases paired_head opens closes false items spans i item found closed with ⟨-, impossible⟩ | here
    · exact nomatch impossible
    · exact here
  · intro i item found opened
    cases items with
    | nil => simp at found
    | cons first rest => exact paired_tail opens closes false first rest spans i item found opened

theorem borders_spans (left : Bool) (items : List α) (first : joined closes items 0 = left)
    (next : ∀ i item, items[i]? = some item → opens item = joined closes items (i + 1)) : Spans opens closes left items false := by
  induction items generalizing left with
  | nil => exact first.symm
  | cons item rest ih => exact ⟨first, ih (opens item) (next 0 item rfl).symm fun i other found => next (i + 1) other found⟩

theorem paired_spans (items : List α) (paired : Paired opens closes items) : Spans opens closes false items false := by
  apply borders_spans
  · cases read : items[0]? with
    | none => rw [joined, read]; rfl
    | some item =>
        rw [joined, read]
        cases closed : closes item with
        | false => exact closed
        | true =>
            obtain ⟨j, -, impossible, -⟩ := paired.preceded 0 item read closed
            exact absurd impossible (by omega)
  · intro i item found
    cases opened : opens item with
    | true =>
        obtain ⟨after, read, closed⟩ := paired.followed i item found opened
        rw [joined, read]
        exact closed.symm
    | false =>
        cases read : items[i + 1]? with
        | none => rw [joined, read]; rfl
        | some after =>
            rw [joined, read]
            cases closed : closes after with
            | false => exact closed.symm
            | true =>
                obtain ⟨j, before, same, earlier, opening⟩ := paired.preceded (i + 1) after read closed
                obtain rfl : i = j := by omega
                rw [found] at earlier
                cases Option.some.inj earlier
                exact absurd (opened.symm.trans opening) (by decide)

end Library
