import Mathlib.Order.Lattice

/- Chains of a partial successor that always moves forward: their elements by index, the elements
   that a limit leaves due, and the bounded search for the first element past the limit. -/
set_option autoImplicit false

namespace Library

structure Chain (α : Type) [LinearOrder α] where
  next : α → Option α
  later : ∀ a b, next a = some b → a < b

namespace Chain

variable {α : Type} [LinearOrder α] (chain : Chain α)

def nth (start : α) : Nat → Option α
  | 0 => some start
  | n + 1 => (nth start n).bind chain.next

-- At most the given number of elements from here on, stopping before the first one past the limit.
def due (limit : α) : Nat → α → List α
  | 0, _ => []
  | n + 1, here =>
      if limit < here then []
      else here :: match chain.next here with
        | none => []
        | some there => due limit n there

-- The first element past the limit among the next ones, or the one where the steps run out.
def escape (limit : α) : Nat → α → Option α
  | 0, here => chain.next here
  | n + 1, here =>
      match chain.next here with
      | none => none
      | some there => if limit < there then some there else escape limit n there

def Reaches (start target : α) : Prop := ∃ n, chain.nth start n = some target

theorem nth_zero (start : α) : chain.nth start 0 = some start := rfl

theorem nth_succ (start : α) (n : Nat) : chain.nth start (n + 1) = (chain.nth start n).bind chain.next := rfl

theorem nth_from_next (start : α) (n : Nat) :
    chain.nth start (n + 1) = (chain.next start).bind fun there => chain.nth there n := by
  induction n with
  | zero => cases step : chain.next start <;> simp [nth, step]
  | succ n ih =>
      rw [nth_succ, ih]
      cases chain.next start with
      | none => rfl
      | some there => rfl

theorem nth_add (start : α) (m n : Nat) :
    chain.nth start (m + n) = (chain.nth start m).bind fun there => chain.nth there n := by
  induction n with
  | zero => cases chain.nth start m <;> rfl
  | succ n ih =>
      rw [← Nat.add_assoc, nth_succ, ih]
      cases chain.nth start m with
      | none => rfl
      | some there => rfl

theorem nth_defined (start last : α) (m n : Nat) (before : m ≤ n) (reached : chain.nth start n = some last) :
    ∃ there, chain.nth start m = some there := by
  obtain ⟨rest, rfl⟩ := Nat.exists_eq_add_of_le before
  rw [nth_add] at reached
  obtain ⟨there, here, _⟩ := Option.bind_eq_some_iff.mp reached
  exact ⟨there, here⟩

theorem nth_undefined (start : α) (m n : Nat) (before : m ≤ n) (ended : chain.nth start m = none) :
    chain.nth start n = none := by
  cases reached : chain.nth start n with
  | none => rfl
  | some last =>
      obtain ⟨there, here⟩ := chain.nth_defined start last m n before reached
      rw [ended] at here
      cases here

theorem nth_le (start there : α) (n : Nat) (reached : chain.nth start n = some there) : start ≤ there := by
  induction n generalizing there with
  | zero =>
      cases reached
      exact le_refl start
  | succ n ih =>
      obtain ⟨middle, first, last⟩ := Option.bind_eq_some_iff.mp reached
      exact le_trans (ih middle first) (le_of_lt (chain.later middle there last))

theorem nth_lt (start a b : α) (m n : Nat) (before : m < n) (reachedA : chain.nth start m = some a)
    (reachedB : chain.nth start n = some b) : a < b := by
  obtain ⟨rest, rfl⟩ := Nat.exists_eq_add_of_le before
  rw [nth_add, nth_succ, reachedA] at reachedB
  obtain ⟨middle, step, last⟩ := Option.bind_eq_some_iff.mp reachedB
  exact lt_of_lt_of_le (chain.later a middle step) (chain.nth_le middle b rest last)

theorem nth_index (start there : α) (m n : Nat) (reachedM : chain.nth start m = some there)
    (reachedN : chain.nth start n = some there) : m = n := by
  rcases Nat.lt_trichotomy m n with less | same | more
  · exact absurd (chain.nth_lt start there there m n less reachedM reachedN) (lt_irrefl there)
  · exact same
  · exact absurd (chain.nth_lt start there there n m more reachedN reachedM) (lt_irrefl there)

theorem nth_le_of_le (start a b : α) (m n : Nat) (before : m ≤ n) (reachedA : chain.nth start m = some a)
    (reachedB : chain.nth start n = some b) : a ≤ b := by
  rcases Nat.lt_or_eq_of_le before with less | rfl
  · exact le_of_lt (chain.nth_lt start a b m n less reachedA reachedB)
  · exact le_of_eq (Option.some.inj (reachedA.symm.trans reachedB))

theorem due_element (limit start there : α) (n i : Nat) :
    (chain.due limit n start)[i]? = some there ↔ i < n ∧ chain.nth start i = some there ∧ there ≤ limit := by
  induction n generalizing start i with
  | zero => simp [due]
  | succ n ih =>
      rw [due]
      by_cases past : limit < start
      · rw [if_pos past]
        constructor
        · intro absent
          cases absent
        · rintro ⟨_, reached, inside⟩
          exact absurd (lt_of_lt_of_le past (chain.nth_le start there i reached)) (not_lt_of_ge inside)
      · rw [if_neg past]
        cases i with
        | zero =>
            simp only [List.getElem?_cons_zero, nth_zero, Option.some.injEq, Nat.zero_lt_succ, true_and]
            constructor
            · rintro rfl
              exact ⟨rfl, not_lt.mp past⟩
            · exact fun found => found.1
        | succ i =>
            rw [List.getElem?_cons_succ, nth_from_next]
            cases chain.next start with
            | none => simp
            | some step => simpa using ih step i

theorem due_member (limit start there : α) (n : Nat) :
    there ∈ chain.due limit n start ↔ ∃ i, i < n ∧ chain.nth start i = some there ∧ there ≤ limit := by
  rw [List.mem_iff_getElem?]
  exact exists_congr fun i => chain.due_element limit start there n i

theorem due_bound (limit start : α) (n : Nat) : (chain.due limit n start).length ≤ n := by
  by_contra more
  obtain ⟨there, found⟩ : ∃ there, (chain.due limit n start)[n]? = some there :=
    ⟨_, List.getElem?_eq_getElem (Nat.lt_of_not_le more)⟩
  exact absurd ((chain.due_element limit start there n n).mp found).1 (Nat.lt_irrefl n)

theorem due_length (limit start there : α) (n i : Nat) (bound : i < n) (reached : chain.nth start i = some there)
    (inside : there ≤ limit) : i < (chain.due limit n start).length := by
  have found := (chain.due_element limit start there n i).mpr ⟨bound, reached, inside⟩
  exact (List.getElem?_eq_some_iff.mp found).1

-- The element just after the due ones: absent, past the limit, or cut off by the count.
theorem due_end (limit start there : α) (n : Nat)
    (reached : chain.nth start (chain.due limit n start).length = some there) :
    limit < there ∨ (chain.due limit n start).length = n := by
  rcases Nat.lt_or_eq_of_le (chain.due_bound limit start n) with less | full
  · left
    by_contra inside
    exact absurd (chain.due_length limit start there n _ less reached (not_lt.mp inside)) (Nat.lt_irrefl _)
  · exact Or.inr full

theorem due_take (limit start : α) (m n : Nat) :
    (chain.due limit n start).take m = chain.due limit (min m n) start := by
  apply List.ext_getElem?
  intro i
  by_cases inside : i < m
  · rw [List.getElem?_take_of_lt inside]
    apply Option.ext
    intro there
    rw [due_element, due_element, Nat.lt_min]
    exact and_congr_left fun _ => ⟨fun bound => ⟨inside, bound⟩, fun bound => bound.2⟩
  · rw [List.getElem?_take_eq_none (Nat.le_of_not_lt inside), eq_comm, List.getElem?_eq_none_iff]
    exact Nat.le_trans (chain.due_bound limit start _) (Nat.le_trans (Nat.min_le_left m n) (Nat.le_of_not_lt inside))

theorem due_sorted (limit start : α) (n : Nat) : (chain.due limit n start).Pairwise (· < ·) := by
  rw [List.pairwise_iff_getElem]
  intro i j hi hj before
  have first := (chain.due_element limit start _ n i).mp (List.getElem?_eq_getElem hi)
  have second := (chain.due_element limit start _ n j).mp (List.getElem?_eq_getElem hj)
  exact chain.nth_lt start _ _ i j before first.2.1 second.2.1

theorem due_nonempty (limit start : α) (n : Nat) (positive : 0 < n) (inside : start ≤ limit) :
    ∃ rest, chain.due limit n start = start :: rest := by
  cases n with
  | zero => cases positive
  | succ n => exact ⟨_, by rw [due, if_neg (not_lt.mpr inside)]⟩

-- Every step before the result stays within the limit; the result ends the chain, passes the
-- limit, or stands where the steps ran out.
theorem escape_spec (limit start : α) (n : Nat) :
    ∃ k, 1 ≤ k ∧ k ≤ n + 1 ∧ chain.escape limit n start = chain.nth start k ∧
      (∀ j, 1 ≤ j → j < k → ∃ there, chain.nth start j = some there ∧ there ≤ limit) ∧
      (k = n + 1 ∨ ∀ there, chain.nth start k = some there → limit < there) := by
  induction n generalizing start with
  | zero =>
      refine ⟨1, Nat.le_refl 1, Nat.le_refl 1, ?_, ?_, Or.inl rfl⟩
      · rw [escape, nth_from_next]
        cases chain.next start <;> rfl
      · intro j low high
        omega
  | succ n ih =>
      cases step : chain.next start with
      | none =>
          have ended : chain.nth start 1 = none := by rw [nth_from_next, step]; rfl
          refine ⟨1, Nat.le_refl 1, by omega, ?_, ?_, Or.inr ?_⟩
          · rw [escape, step, ended]
          · intro j low high
            omega
          · intro there reached
            rw [ended] at reached
            cases reached
      | some there =>
          have first : chain.nth start 1 = some there := by rw [nth_from_next, step]; rfl
          by_cases past : limit < there
          · refine ⟨1, Nat.le_refl 1, by omega, ?_, ?_, Or.inr ?_⟩
            · simp only [escape, step, if_pos past, first]
            · intro j low high
              omega
            · intro other reached
              cases first.symm.trans reached
              exact past
          · obtain ⟨k, low, high, result, inside, ending⟩ := ih there
            have shift : ∀ j, chain.nth start (j + 1) = chain.nth there j := by
              intro j
              rw [nth_from_next, step]
              rfl
            refine ⟨k + 1, by omega, by omega, ?_, ?_, ?_⟩
            · simp only [escape, step, if_neg past, result, shift]
            · intro j jlow jhigh
              rcases Nat.eq_or_lt_of_le jlow with rfl | more
              · exact ⟨there, first, not_lt.mp past⟩
              · obtain ⟨i, rfl⟩ : ∃ i, j = i + 1 := ⟨j - 1, by omega⟩
                rw [shift]
                exact inside i (by omega) (by omega)
            · rw [shift]
              exact ending.imp (fun eq => by omega) id

-- The bounded search fails to pass the limit in one way only: all its steps and the one after
-- them exist and stay within the limit.
theorem escape_passes_iff (limit start : α) (n : Nat) :
    (∀ there, chain.escape limit n start = some there → limit < there) ↔
      ∀ there, chain.nth start (n + 1) = some there → limit < there := by
  obtain ⟨k, _, high, result, inside, ending⟩ := chain.escape_spec limit start n
  rw [result]
  constructor
  · intro passes there reached
    rcases Nat.lt_or_eq_of_le high with less | rfl
    · obtain ⟨middle, here⟩ := chain.nth_defined start there k (n + 1) high reached
      exact lt_trans (passes middle here) (chain.nth_lt start middle there k (n + 1) less here reached)
    · exact passes there reached
  · intro last
    rcases ending with rfl | passes
    · exact last
    · exact passes

theorem escape_stops (limit start there : α) (n : Nat) (reached : chain.nth start (n + 1) = some there)
    (inside : there ≤ limit) : chain.escape limit n start = some there := by
  obtain ⟨k, _, high, result, _, ending⟩ := chain.escape_spec limit start n
  rcases Nat.lt_or_eq_of_le high with less | rfl
  · obtain ⟨middle, here⟩ := chain.nth_defined start there k (n + 1) high reached
    have passed := (ending.resolve_left (Nat.ne_of_lt less)) middle here
    have order := chain.nth_lt start middle there k (n + 1) less here reached
    exact absurd (lt_trans passed order) (not_lt_of_ge inside)
  · exact result.trans reached

-- The search finds nothing exactly when the chain ends among its steps, all of them within the limit.
theorem escape_none_iff (limit start : α) (n : Nat) :
    chain.escape limit n start = none ↔ chain.nth start (n + 1) = none ∧
      ∀ i there, 1 ≤ i → chain.nth start i = some there → there ≤ limit := by
  obtain ⟨k, low, high, result, inside, ending⟩ := chain.escape_spec limit start n
  rw [result]
  constructor
  · intro ended
    refine ⟨chain.nth_undefined start k (n + 1) high ended, fun i there positive reached => ?_⟩
    have before : i < k := by
      by_contra late
      rw [chain.nth_undefined start k i (Nat.le_of_not_lt late) ended] at reached
      cases reached
    obtain ⟨other, here, bound⟩ := inside i positive before
    exact Option.some.inj (here.symm.trans reached) ▸ bound
  · rintro ⟨last, all⟩
    cases found : chain.nth start k with
    | none => rfl
    | some there =>
        rcases ending with rfl | passes
        · rw [last] at found
          cases found
        · exact absurd (passes there found) (not_lt_of_ge (all k there low found))

theorem escape_reaches (limit start there : α) (n : Nat) (found : chain.escape limit n start = some there) :
    ∃ k, 1 ≤ k ∧ chain.nth start k = some there := by
  obtain ⟨k, low, _, result, _, _⟩ := chain.escape_spec limit start n
  exact ⟨k, low, result.symm.trans found⟩

end Chain

end Library
