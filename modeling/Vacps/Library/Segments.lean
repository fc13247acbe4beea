import Mathlib.Data.List.Basic

/- Rooted texts made of names: a separator stands before each name, and no name contains it. -/
set_option autoImplicit false

namespace Library

variable {α : Type} (separator : α)

def rooted (names : List (List α)) : List α := names.flatMap (separator :: ·)

@[simp] theorem rooted_nil : rooted separator [] = [] := rfl

@[simp] theorem rooted_cons (name : List α) (rest : List (List α)) :
    rooted separator (name :: rest) = separator :: (name ++ rooted separator rest) := rfl

@[simp] theorem rooted_append (front back : List (List α)) :
    rooted separator (front ++ back) = rooted separator front ++ rooted separator back := List.flatMap_append

theorem rooted_empty (names : List (List α)) (empty : rooted separator names = []) : names = [] := by
  cases names with
  | nil => rfl
  | cons name rest => simp at empty

-- '/' + names.join('/')
theorem rooted_join (names : List (List α)) (some_ : names ≠ []) :
    rooted separator names = separator :: [separator].intercalate names := by
  induction names with
  | nil => exact absurd rfl some_
  | cons name rest ih =>
      cases rest with
      | nil => simp
      | cons next rest =>
          rw [rooted_cons, ih (by simp), List.intercalate_cons_cons]
          simp

theorem name_ends (first second front back : List α) (plainFirst : separator ∉ first) (plainSecond : separator ∉ second)
    (bounded : back = [] ∨ back.head? = some separator) (start : first ++ separator :: front <+: second ++ back) :
    first = second ∧ separator :: front <+: back := by
  induction first generalizing second with
  | nil =>
      cases second with
      | nil => exact ⟨rfl, start⟩
      | cons head rest =>
          have same := (List.cons_prefix_cons.mp start).1
          exact absurd (same ▸ List.mem_cons_self) plainSecond
  | cons head rest ih =>
      cases second with
      | nil =>
          rcases bounded with rfl | starts
          · simp at start
          · cases back with
            | nil => simp at starts
            | cons next later =>
                have same := (List.cons_prefix_cons.mp start).1
                rw [List.head?_cons, Option.some_inj] at starts
                exact absurd (by rw [same, starts]; exact List.mem_cons_self) plainFirst
      | cons other later =>
          obtain ⟨same, deeper⟩ := List.cons_prefix_cons.mp start
          obtain ⟨equal, tail⟩ := ih later (fun member => plainFirst (List.mem_cons_of_mem _ member))
            (fun member => plainSecond (List.mem_cons_of_mem _ member)) deeper
          exact ⟨by rw [same, equal], tail⟩

theorem rooted_bounded (names : List (List α)) :
    rooted separator names = [] ∨ (rooted separator names).head? = some separator := by
  cases names with
  | nil => exact Or.inl rfl
  | cons name rest => exact Or.inr rfl

-- A text that goes on behind a separator names something below.
theorem rooted_below (root names : List (List α)) (plainRoot : ∀ name ∈ root, separator ∉ name)
    (plain : ∀ name ∈ names, separator ∉ name) :
    rooted separator root ++ [separator] <+: rooted separator names ↔ root <+: names ∧ root ≠ names := by
  induction root generalizing names with
  | nil =>
      cases names with
      | nil => simp
      | cons name rest => simp
  | cons first others ih =>
      cases names with
      | nil => simp
      | cons name rest =>
          have below := ih rest (fun other member => plainRoot other (List.mem_cons_of_mem _ member))
            fun other member => plain other (List.mem_cons_of_mem _ member)
          have starts : ∃ front, rooted separator others ++ [separator] = separator :: front := by
            cases others with
            | nil => exact ⟨[], rfl⟩
            | cons next later => exact ⟨_, rfl⟩
          obtain ⟨front, shape⟩ := starts
          simp only [rooted_cons, List.cons_append, List.append_assoc, List.cons_prefix_cons, true_and]
          refine ⟨?_, ?_⟩
          · intro start
            rw [shape] at start
            obtain ⟨rfl, deeper⟩ := name_ends separator first name front _ (plainRoot first List.mem_cons_self)
              (plain name List.mem_cons_self) (rooted_bounded separator rest) start
            obtain ⟨under, different⟩ := below.mp (shape ▸ deeper)
            exact ⟨⟨rfl, under⟩, fun same => different (List.cons.inj same).2⟩
          · rintro ⟨⟨rfl, under⟩, different⟩
            exact (List.prefix_append_right_inj first).mpr (below.mpr ⟨under, fun same => different (by rw [same])⟩)

-- Where a separator follows, a text has been cut between two names.
theorem rooted_cut (above : List α) (names : List (List α)) (plain : ∀ name ∈ names, separator ∉ name)
    (start : above ++ [separator] <+: rooted separator names) :
    ∃ front, front <+: names ∧ above = rooted separator front := by
  induction names generalizing above with
  | nil => simp at start
  | cons name rest ih =>
      cases above with
      | nil => exact ⟨[], List.nil_prefix, rfl⟩
      | cons head body =>
          rw [rooted_cons, List.cons_append, List.cons_prefix_cons] at start
          obtain ⟨rfl, tail⟩ := start
          have long : name.length ≤ body.length := by
            by_contra short
            have inside : (body ++ [head]) <+: name :=
              List.prefix_of_prefix_length_le tail (List.prefix_append _ _) (by simp; omega)
            exact plain name List.mem_cons_self (inside.subset (by simp))
          obtain ⟨later, rfl⟩ := List.prefix_of_prefix_length_le (List.prefix_append _ _)
            ((List.prefix_append body [head]).trans tail) long
          rw [List.append_assoc, List.prefix_append_right_inj] at tail
          obtain ⟨front, under, rfl⟩ := ih later (fun other member => plain other (List.mem_cons_of_mem _ member)) tail
          exact ⟨name :: front, List.cons_prefix_cons.mpr ⟨rfl, under⟩, rfl⟩

variable [DecidableEq α]

theorem split_cons (text : List α) : (separator :: text).splitOn separator = [] :: text.splitOn separator := by
  simpa using List.splitOn_append_cons_self (a := separator) [] text

theorem split_rooted (text : List α) (names : List (List α)) (plain : ∀ name ∈ names, separator ∉ name)
    (whole : separator ∉ text) : (text ++ rooted separator names).splitOn separator = text :: names := by
  induction names generalizing text with
  | nil =>
      rw [rooted_nil, List.append_nil, List.splitOn_eq_singleton whole]
  | cons name rest ih =>
      rw [rooted_cons, List.splitOn_append_cons_self, List.splitOn_eq_singleton whole,
        ih name (fun other member => plain other (List.mem_cons_of_mem _ member)) (plain name List.mem_cons_self)]
      rfl

theorem split_plain (text name : List α) (member : name ∈ text.splitOn separator) : separator ∉ name := by
  induction text generalizing name with
  | nil =>
      rw [List.splitOn_nil, List.mem_singleton] at member
      simp [member]
  | cons head rest ih =>
      rw [List.splitOn_cons_eq_if_modifyHead] at member
      split at member
      · rcases List.mem_cons.mp member with rfl | later
        · simp
        · exact ih name later
      · rename_i other
        cases parts : rest.splitOn separator with
        | nil => exact absurd parts (List.splitOn_ne_nil separator rest)
        | cons first others =>
            rw [parts, List.modifyHead_cons, List.mem_cons] at member
            rcases member with rfl | later
            · intro inside
              rcases List.mem_cons.mp inside with rfl | deeper
              · simp at other
              · exact ih first (parts ▸ List.mem_cons_self) deeper
            · exact ih name (parts ▸ List.mem_cons_of_mem _ later)

theorem split_inside (text name : List α) (member : name ∈ text.splitOn separator) (unit : α) (inside : unit ∈ name) :
    unit ∈ text := by
  induction text generalizing name with
  | nil =>
      rw [List.splitOn_nil, List.mem_singleton] at member
      simp [member] at inside
  | cons head rest ih =>
      rw [List.splitOn_cons_eq_if_modifyHead] at member
      split at member
      · rcases List.mem_cons.mp member with rfl | later
        · cases inside
        · exact List.mem_cons_of_mem _ (ih name later inside)
      · cases parts : rest.splitOn separator with
        | nil => exact absurd parts (List.splitOn_ne_nil separator rest)
        | cons first others =>
            rw [parts, List.modifyHead_cons, List.mem_cons] at member
            rcases member with rfl | later
            · rcases List.mem_cons.mp inside with rfl | deeper
              · exact List.mem_cons_self
              · exact List.mem_cons_of_mem _ (ih first (parts ▸ List.mem_cons_self) deeper)
            · exact List.mem_cons_of_mem _ (ih name (parts ▸ List.mem_cons_of_mem _ later) inside)

theorem rooted_injective (first second : List (List α)) (plainFirst : ∀ name ∈ first, separator ∉ name)
    (plainSecond : ∀ name ∈ second, separator ∉ name) (same : rooted separator first = rooted separator second) :
    first = second := by
  have splitFirst := split_rooted separator [] first plainFirst (by simp)
  have splitSecond := split_rooted separator [] second plainSecond (by simp)
  rw [same, splitSecond] at splitFirst
  exact (List.cons.inj splitFirst).2.symm

-- What stands before the last separator.
def beforeLast (text : List α) : List α := ((text.reverse.dropWhile (· ≠ separator)).drop 1).reverse

theorem before_last (front name : List α) (plain : separator ∉ name) :
    beforeLast separator (front ++ separator :: name) = front := by
  have passed : ∀ unit ∈ name.reverse, decide (unit ≠ separator) = true := by
    intro unit member
    rw [decide_eq_true_iff]
    rintro rfl
    exact plain (List.mem_reverse.mp member)
  rw [beforeLast, List.reverse_append, List.reverse_cons, List.append_assoc, List.dropWhile_append_of_pos passed]
  simp

end Library
