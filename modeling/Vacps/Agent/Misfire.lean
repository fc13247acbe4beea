import Vacps.Agent.ScheduleLogic

/- The misfire plan on the cron chain: what planMisfire does to instants, without the text. Ticks
   apply it over and over, each time from the cursor the last one left. -/
set_option autoImplicit false

namespace Vacps

open Library

def catchUpCount (policy : SchedulePolicy) : Nat :=
  max 1 (min (max 0 policy.max_catchup_runs).toNat MAX_CATCHUP_STEPS_PER_PUMP)

def leapsBacklog (chain : Chain Int) (count : Nat) (start now : Int) : Bool :=
  count == 32 && (chain.nth start 32).any fun slot => decide (slot ≤ now)

-- The cursor after a catch-up. With the whole step budget enqueued and work still due, the plan
-- leaps on past now; an empty leap falls back on the slot after the last one enqueued.
def catchUpNext (chain : Chain Int) (count : Nat) (start now : Int) : Option Int :=
  if leapsBacklog chain count start now then
    ((chain.nth start 31).bind (chain.escape now 32)).or (chain.nth start 32)
  else chain.nth start (chain.due now count start).length

def slotPlan (chain : Chain Int) (policy : SchedulePolicy) (start now : Int) : List Int × Option Int :=
  match policy.misfire with
  | .skip => ([], chain.escape now 32 start)
  | .run_once => ([start], chain.escape now 32 start)
  | .catch_up => (chain.due now (catchUpCount policy) start, catchUpNext chain (catchUpCount policy) start now)

def slotTicks (chain : Chain Int) (policy : SchedulePolicy) : Option Int → List Int → List Int × Option Int
  | cursor, [] => ([], cursor)
  | none, _ :: _ => ([], none)
  | some start, now :: rest =>
      if now < start then slotTicks chain policy (some start) rest
      else
        let plan := slotPlan chain policy start now
        let later := slotTicks chain policy plan.2 rest
        (plan.1 ++ later.1, later.2)

theorem catch_up_count_bounds (policy : SchedulePolicy) : 1 ≤ catchUpCount policy ∧ catchUpCount policy ≤ 32 := by
  unfold catchUpCount MAX_CATCHUP_STEPS_PER_PUMP MAX_SCHEDULE_ADVANCE_STEPS
  omega

theorem catch_up_count_full (policy : SchedulePolicy) : catchUpCount policy = 32 ↔ 32 ≤ policy.max_catchup_runs := by
  unfold catchUpCount MAX_CATCHUP_STEPS_PER_PUMP MAX_SCHEDULE_ADVANCE_STEPS
  omega

theorem leaps_backlog_iff (chain : Chain Int) (count : Nat) (start now : Int) :
    leapsBacklog chain count start now = true ↔
      count = 32 ∧ ∃ slot, chain.nth start 32 = some slot ∧ slot ≤ now := by
  simp [leapsBacklog, Option.any_eq_true]

section choice

variable (chain : Chain Int)

theorem due_last (limit start : Int) (n : Nat) (positive : 0 < n) (inside : start ≤ limit) :
    ∃ last, (chain.due limit n start).getLast? = some last ∧
      chain.nth start ((chain.due limit n start).length - 1) = some last ∧
      chain.nth start (chain.due limit n start).length = chain.next last := by
  obtain ⟨rest, shape⟩ := chain.due_nonempty limit start n positive inside
  have size : 0 < (chain.due limit n start).length := by rw [shape]; simp
  have found : (chain.due limit n start)[(chain.due limit n start).length - 1]? =
      (chain.due limit n start).getLast? := (List.getLast?_eq_getElem? (l := chain.due limit n start)).symm
  obtain ⟨last, isLast⟩ : ∃ last, (chain.due limit n start).getLast? = some last :=
    ⟨_, List.getLast?_eq_some_getLast (List.ne_nil_of_length_pos size)⟩
  have reached := ((chain.due_element limit start last n _).mp (found.trans isLast)).2.1
  refine ⟨last, isLast, reached, ?_⟩
  obtain ⟨k, step⟩ : ∃ k, (chain.due limit n start).length = k + 1 := ⟨_, (Nat.sub_add_cancel size).symm⟩
  rw [step] at reached ⊢
  rw [Chain.nth_succ, show chain.nth start k = some last from reached, Option.bind_some]

theorem due_before_leap (count : Nat) (start now slot : Int) (full : count = 32)
    (reached : chain.nth start 32 = some slot) (inside : slot ≤ now) : (chain.due now count start).length = 32 := by
  subst full
  obtain ⟨last, here⟩ := chain.nth_defined start slot 31 32 (by omega) reached
  have due := le_trans (chain.nth_le_of_le start last slot 31 32 (by omega) here reached) inside
  have more := chain.due_length now start last 32 31 (by omega) here due
  have bound := chain.due_bound now start 32
  omega

-- The three-way choice in the code comes down to whether the plan leaps.
theorem catch_up_choice (count : Nat) (start now last : Int) (low : 1 ≤ count) (high : count ≤ 32)
    (reached : chain.nth start ((chain.due now count start).length - 1) = some last)
    (after : chain.nth start (chain.due now count start).length = chain.next last) :
    (if (chain.next last).any (fun slot => decide (now < slot)) then chain.next last
      else if (chain.due now 32 start).length ≤ (chain.due now count start).length then
        (chain.escape now 32 last).or (chain.next last)
      else chain.next last) = catchUpNext chain count start now := by
  unfold catchUpNext
  by_cases leaps : leapsBacklog chain count start now
  · obtain ⟨full, slot, at32, inside⟩ := (leaps_backlog_iff chain count start now).mp leaps
    have size := due_before_leap chain count start now slot full at32 inside
    rw [size] at reached after
    subst full
    have stays : ¬ now < slot := not_lt.mpr inside
    rw [if_pos leaps, ← after, at32, reached]
    simp [stays]
  · rw [if_neg leaps]
    cases step : chain.next last with
    | none => simp [after, step, Chain.escape]
    | some slot =>
        rw [step] at after
        by_cases past : now < slot
        · simp [past, after]
        · have inside : slot ≤ now := not_lt.mp past
          have size := (chain.due_end now start slot count after).resolve_left past
          have notFull : count ≠ 32 := by
            intro full
            rw [size, full] at after
            exact leaps ((leaps_backlog_iff chain count start now).mpr ⟨full, slot, after, inside⟩)
          have more := chain.due_length now start slot 32 count (by omega) (size ▸ after) inside
          have shorter : ¬ (chain.due now 32 start).length ≤ (chain.due now count start).length := by omega
          simp [past, after, shorter]

end choice

-- When a catch-up tick loses nothing: the leap is not taken, or it ends the whole chain.
def keepsBacklog (chain : Chain Int) (policy : SchedulePolicy) (start now : Int) : Prop :=
  32 ≤ policy.max_catchup_runs → ∀ slot, chain.nth start 32 = some slot →
    now < slot ∨ (chain.nth start 64 = none ∧ ∀ time, chain.Reaches start time → time ≤ now)

section catchUp

variable (chain : Chain Int) (policy : SchedulePolicy)

-- One catch-up moves the cursor over indices that are all due; it loses one exactly when it passes
-- more of them than it enqueues.
theorem catch_up_step (start now : Int) (inside : start ≤ now) :
    ∃ m, 1 ≤ m ∧ catchUpNext chain (catchUpCount policy) start now = chain.nth start m ∧
      (chain.due now (catchUpCount policy) start).length ≤ m ∧
      (∀ i, i < m → ∃ slot, chain.nth start i = some slot ∧ slot ≤ now) ∧
      (m = (chain.due now (catchUpCount policy) start).length ↔ keepsBacklog chain policy start now) ∧
      (m = (chain.due now (catchUpCount policy) start).length ∨ m = 64 ∨
        ∀ slot, chain.nth start m = some slot → now < slot) := by
  have bounds := catch_up_count_bounds policy
  obtain ⟨rest, shape⟩ := chain.due_nonempty now start (catchUpCount policy) (by omega) inside
  have positive : 1 ≤ (chain.due now (catchUpCount policy) start).length := by rw [shape]; simp
  have enqueued : ∀ i, i < (chain.due now (catchUpCount policy) start).length →
      ∃ slot, chain.nth start i = some slot ∧ slot ≤ now := by
    intro i bound
    have found := (chain.due_element now start _ (catchUpCount policy) i).mp (List.getElem?_eq_getElem bound)
    exact ⟨_, found.2⟩
  by_cases leaps : leapsBacklog chain (catchUpCount policy) start now
  · obtain ⟨full, slot, at32, due⟩ := (leaps_backlog_iff chain (catchUpCount policy) start now).mp leaps
    have size := due_before_leap chain (catchUpCount policy) start now slot full at32 due
    obtain ⟨last, at31⟩ := chain.nth_defined start slot 31 32 (by omega) at32
    obtain ⟨k, low, high, result, within, ending⟩ := chain.escape_spec now last 32
    have shift : ∀ j, chain.nth start (31 + j) = chain.nth last j := by
      intro j
      rw [chain.nth_add, at31, Option.bind_some]
    have large := (catch_up_count_full policy).mp full
    have more : k ≠ 1 := by
      rintro rfl
      rw [← shift 1, at32] at ending
      have passed := (ending.resolve_left (by omega)) slot rfl
      omega
    rw [catchUpNext, if_pos leaps, at31, Option.bind_some, result, size]
    cases ends : chain.nth last k with
    | none =>
        refine ⟨32, by omega, by rw [at32]; rfl, Nat.le_refl 32, ?_, ?_, Or.inl rfl⟩
        · intro i bound
          exact enqueued i (by omega)
        · refine iff_of_true rfl fun _ _ _ => Or.inr ⟨?_, ?_⟩
          · exact chain.nth_undefined start (31 + k) 64 (by omega) ((shift k).trans ends)
          · rintro time ⟨i, reached⟩
            have before : i < 31 + k := by
              by_contra past
              rw [chain.nth_undefined start (31 + k) i (by omega) ((shift k).trans ends)] at reached
              cases reached
            rcases Nat.lt_or_ge i 32 with early | late
            · obtain ⟨found, there, bound⟩ := enqueued i (by omega)
              exact Option.some.inj (there.symm.trans reached) ▸ bound
            · obtain ⟨j, rfl⟩ := Nat.exists_eq_add_of_le (show 31 ≤ i by omega)
              obtain ⟨found, there, bound⟩ := within j (by omega) (by omega)
              rw [shift, there] at reached
              exact Option.some.inj reached ▸ bound
    | some target =>
        refine ⟨31 + k, by omega, by rw [shift, ends]; rfl, by omega, ?_, ?_, Or.inr ?_⟩
        · intro i bound
          rcases Nat.lt_or_ge i 32 with early | late
          · exact enqueued i (by omega)
          · obtain ⟨j, rfl⟩ := Nat.exists_eq_add_of_le (show 31 ≤ i by omega)
            rw [shift]
            exact within j (by omega) (by omega)
        · refine iff_of_false (by omega) fun keeps => ?_
          rcases keeps large slot at32 with past | ⟨ended, all⟩
          · omega
          · rcases ending with rfl | passes
            · rw [← shift 33, ended] at ends
              cases ends
            · have reached : chain.Reaches start target := ⟨31 + k, (shift k).trans ends⟩
              have passed := passes target ends
              have bound := all target reached
              omega
        · rw [shift]
          exact ending.imp (fun last => by omega) id
  · rw [catchUpNext, if_neg leaps]
    refine ⟨_, positive, rfl, Nat.le_refl _, enqueued, iff_of_true rfl ?_, Or.inl rfl⟩
    intro large slot at32
    left
    by_contra due
    exact leaps ((leaps_backlog_iff chain (catchUpCount policy) start now).mpr
      ⟨(catch_up_count_full policy).mpr large, slot, at32, not_lt.mp due⟩)

-- A plan moves the cursor forward along the chain, or ends it.
theorem slot_plan_reaches (start now next : Int) (inside : start ≤ now)
    (found : (slotPlan chain policy start now).2 = some next) : ∃ k, 1 ≤ k ∧ chain.nth start k = some next := by
  unfold slotPlan at found
  cases kind : policy.misfire with
  | skip =>
      rw [kind] at found
      exact chain.escape_reaches now start next 32 found
  | run_once =>
      rw [kind] at found
      exact chain.escape_reaches now start next 32 found
  | catch_up =>
      rw [kind] at found
      obtain ⟨m, low, cursor, _⟩ := catch_up_step chain policy start now inside
      exact ⟨m, low, cursor.symm.trans found⟩

theorem slot_plan_indexed (start now slot : Int) (member : slot ∈ (slotPlan chain policy start now).1) :
    ∃ i, chain.nth start i = some slot := by
  unfold slotPlan at member
  split at member
  · cases member
  · cases List.mem_singleton.mp member
    exact ⟨0, rfl⟩
  · obtain ⟨i, _, here, _⟩ := (chain.due_member now start slot _).mp member
    exact ⟨i, here⟩

theorem slot_plan_sorted (start now : Int) : (slotPlan chain policy start now).1.Pairwise (· < ·) := by
  unfold slotPlan
  split
  · exact List.Pairwise.nil
  · exact List.pairwise_singleton _ _
  · exact chain.due_sorted now start _

theorem slot_ticks_idle (cursor : Option Int) (now : Int) (rest : List Int)
    (idle : ∀ start, cursor = some start → now < start) :
    slotTicks chain policy cursor (now :: rest) = slotTicks chain policy cursor rest := by
  cases cursor with
  | none => cases rest <;> rfl
  | some start => rw [slotTicks, if_pos (idle start rfl)]

theorem slot_ticks_due (start now : Int) (rest : List Int) (inside : start ≤ now) :
    slotTicks chain policy (some start) (now :: rest) =
      ((slotPlan chain policy start now).1 ++ (slotTicks chain policy (slotPlan chain policy start now).2 rest).1,
        (slotTicks chain policy (slotPlan chain policy start now).2 rest).2) := by
  rw [slotTicks, if_neg (not_lt.mpr inside)]

theorem slot_ticks_ended (readings : List Int) : slotTicks chain policy none readings = ([], none) := by
  cases readings <;> rfl

-- What the ticks have done by the time the cursor stands at index m: everything before it was due,
-- what was enqueued lies before it, in order.
structure Covered (start last : Int) (m : Nat) (slots : List Int) : Prop where
  passed : ∀ i, i < m → ∃ slot, chain.nth start i = some slot ∧ slot ≤ last
  indexed : ∀ slot, slot ∈ slots → ∃ i, i < m ∧ chain.nth start i = some slot
  sorted : slots.Pairwise (· < ·)

def Complete (start : Int) (m : Nat) (slots : List Int) : Prop :=
  ∀ i, i < m → ∀ slot, chain.nth start i = some slot → slot ∈ slots

-- Every tick that finds the schedule due keeps the backlog.
def keepsEvery (start : Option Int) (readings : List Int) : Prop :=
  ∀ before now after, readings = before ++ now :: after →
    ∀ cursor, (slotTicks chain policy start before).2 = some cursor → cursor ≤ now → keepsBacklog chain policy cursor now

theorem keeps_every_idle (cursor : Option Int) (now : Int) (rest : List Int)
    (idle : ∀ start, cursor = some start → now < start) :
    keepsEvery chain policy cursor (now :: rest) ↔ keepsEvery chain policy cursor rest := by
  constructor
  · intro keeps before reading after split from_ reached inside
    refine keeps (now :: before) reading after (by rw [split]; rfl) from_ ?_ inside
    rwa [slot_ticks_idle chain policy cursor now before idle]
  · intro keeps before reading after split from_ reached inside
    cases before with
    | nil =>
        cases split
        have early := idle from_ reached
        omega
    | cons first before =>
        cases split
        rw [slot_ticks_idle chain policy cursor now before idle] at reached
        exact keeps before reading after rfl from_ reached inside

theorem keeps_every_due (start now : Int) (rest : List Int) (inside : start ≤ now) :
    keepsEvery chain policy (some start) (now :: rest) ↔
      keepsBacklog chain policy start now ∧ keepsEvery chain policy (slotPlan chain policy start now).2 rest := by
  constructor
  · intro keeps
    refine ⟨keeps [] now rest rfl start rfl inside, ?_⟩
    intro before reading after split from_ reached bound
    refine keeps (now :: before) reading after (by rw [split]; rfl) from_ ?_ bound
    rwa [slot_ticks_due chain policy start now before inside]
  · rintro ⟨first, later⟩ before reading after split from_ reached bound
    cases before with
    | nil =>
        cases split
        cases reached
        exact first
    | cons head before =>
        cases split
        rw [slot_ticks_due chain policy start now before inside] at reached
        exact later before reading after rfl from_ reached bound

theorem nth_shift (start next : Int) (m i : Nat) (reached : chain.nth start m = some next) :
    chain.nth start (m + i) = chain.nth next i := by
  rw [chain.nth_add, reached, Option.bind_some]

theorem covered_append (start next last : Int) (m n : Nat) (first later : List Int)
    (reached : chain.nth start m = some next) (front : Covered chain start last m first)
    (back : Covered chain next last n later) : Covered chain start last (m + n) (first ++ later) := by
  refine ⟨?_, ?_, ?_⟩
  · intro i bound
    rcases Nat.lt_or_ge i m with early | late
    · exact front.passed i early
    · obtain ⟨j, rfl⟩ := Nat.exists_eq_add_of_le late
      rw [nth_shift chain start next m j reached]
      exact back.passed j (by omega)
  · intro slot member
    rcases List.mem_append.mp member with before | after
    · obtain ⟨i, bound, here⟩ := front.indexed slot before
      exact ⟨i, by omega, here⟩
    · obtain ⟨i, bound, here⟩ := back.indexed slot after
      exact ⟨m + i, by omega, (nth_shift chain start next m i reached).trans here⟩
  · refine List.pairwise_append.mpr ⟨front.sorted, back.sorted, ?_⟩
    intro a before b after
    obtain ⟨i, bound, reachedA⟩ := front.indexed a before
    obtain ⟨j, _, reachedB⟩ := back.indexed b after
    exact chain.nth_lt start a b i (m + j) (by omega) reachedA ((nth_shift chain start next m j reached).trans reachedB)

theorem complete_append (start next last : Int) (m n : Nat) (first later : List Int)
    (reached : chain.nth start m = some next) (front : Covered chain start last m first)
    (back : Covered chain next last n later) :
    Complete chain start (m + n) (first ++ later) ↔ Complete chain start m first ∧ Complete chain next n later := by
  constructor
  · intro all
    constructor
    · intro i bound slot here
      rcases List.mem_append.mp (all i (by omega) slot here) with inside | after
      · exact inside
      · obtain ⟨j, _, there⟩ := back.indexed slot after
        rw [← nth_shift chain start next m j reached] at there
        have same := chain.nth_index start slot i (m + j) here there
        omega
    · intro i bound slot here
      rw [← nth_shift chain start next m i reached] at here
      rcases List.mem_append.mp (all (m + i) (by omega) slot here) with before | inside
      · obtain ⟨j, bound', there⟩ := front.indexed slot before
        have same := chain.nth_index start slot j (m + i) there here
        omega
      · exact inside
  · rintro ⟨firstAll, laterAll⟩ i bound slot here
    rcases Nat.lt_or_ge i m with early | late
    · exact List.mem_append_left later (firstAll i early slot here)
    · obtain ⟨j, rfl⟩ := Nat.exists_eq_add_of_le late
      rw [nth_shift chain start next m j reached] at here
      exact List.mem_append_right first (laterAll j (by omega) slot here)

theorem catch_up_covered (start now last : Int) (inside : start ≤ now) (bounded : now ≤ last) :
    ∃ m, 1 ≤ m ∧ catchUpNext chain (catchUpCount policy) start now = chain.nth start m ∧
      Covered chain start last m (chain.due now (catchUpCount policy) start) ∧
      (Complete chain start m (chain.due now (catchUpCount policy) start) ↔ keepsBacklog chain policy start now) := by
  obtain ⟨m, low, cursor, bound, passed, keeps, _⟩ := catch_up_step chain policy start now inside
  refine ⟨m, low, cursor, ⟨?_, ?_, chain.due_sorted now start _⟩, ?_⟩
  · intro i before
    obtain ⟨slot, here, due⟩ := passed i before
    exact ⟨slot, here, le_trans due bounded⟩
  · intro slot member
    obtain ⟨i, found⟩ := List.mem_iff_getElem?.mp member
    have size := (List.getElem?_eq_some_iff.mp found).1
    exact ⟨i, by omega, ((chain.due_element now start slot _ i).mp found).2.1⟩
  · rw [← keeps]
    constructor
    · intro all
      by_contra more
      obtain ⟨slot, here, due⟩ := passed (chain.due now (catchUpCount policy) start).length (by omega)
      obtain ⟨j, found⟩ := List.mem_iff_getElem?.mp (all _ (by omega) slot here)
      have size := (List.getElem?_eq_some_iff.mp found).1
      have same := chain.nth_index start slot j _ ((chain.due_element now start slot _ j).mp found).2.1 here
      omega
    · rintro full i before slot here
      have found := chain.due_element now start slot (catchUpCount policy) i
      have limit := chain.due_bound now start (catchUpCount policy)
      obtain ⟨other, there, due⟩ := passed i before
      cases here.symm.trans there
      exact List.mem_of_getElem? (found.mpr ⟨by omega, here, due⟩)

-- Induction on the readings: one catch-up step in front of the run from its cursor, whose indices
-- are shifted by the step's m.
theorem slot_ticks_covered (catching : policy.misfire = .catch_up) (start last : Int) (readings : List Int)
    (bounded : ∀ now ∈ readings, now ≤ last) :
    ∃ m, (slotTicks chain policy (some start) readings).2 = chain.nth start m ∧
      Covered chain start last m (slotTicks chain policy (some start) readings).1 ∧
      (Complete chain start m (slotTicks chain policy (some start) readings).1 ↔
        keepsEvery chain policy (some start) readings) := by
  induction readings generalizing start with
  | nil =>
      refine ⟨0, rfl, ⟨fun i bound => absurd bound (Nat.not_lt_zero i), ?_, List.Pairwise.nil⟩, ?_⟩
      · intro slot member
        cases member
      · refine iff_of_true (fun i bound => absurd bound (Nat.not_lt_zero i)) ?_
        intro before now after split
        cases before <;> cases split
  | cons now rest ih =>
      have restBound : ∀ reading ∈ rest, reading ≤ last := fun reading member =>
        bounded reading (List.mem_cons_of_mem now member)
      have nowBound : now ≤ last := bounded now List.mem_cons_self
      by_cases early : now < start
      · have idle : ∀ cursor, some start = some cursor → now < cursor := by
          rintro cursor ⟨⟩
          exact early
        rw [slot_ticks_idle chain policy (some start) now rest idle, keeps_every_idle chain policy _ now rest idle]
        exact ih start restBound
      · have inside : start ≤ now := not_lt.mp early
        obtain ⟨m, _, cursor, front, kept⟩ := catch_up_covered chain policy start now last inside nowBound
        have plan : slotPlan chain policy start now =
            (chain.due now (catchUpCount policy) start, catchUpNext chain (catchUpCount policy) start now) := by
          rw [slotPlan, catching]
        rw [slot_ticks_due chain policy start now rest inside, keeps_every_due chain policy start now rest inside, plan,
          ← kept, cursor]
        cases reached : chain.nth start m with
        | none =>
            rw [slot_ticks_ended, List.append_nil]
            refine ⟨m, reached.symm, front, (and_iff_left ?_).symm⟩
            intro before reading after _ from_ found
            rw [slot_ticks_ended] at found
            cases found
        | some next =>
            obtain ⟨n, ending, back, keptLater⟩ := ih next restBound
            refine ⟨m + n, ending.trans (nth_shift chain start next m n reached).symm,
              covered_append chain start next last m n _ _ reached front back, ?_⟩
            rw [complete_append chain start next last m n _ _ reached front back, keptLater]


def settledAt (last : Int) (cursor : Option Int) : Prop := ∀ slot, cursor = some slot → last < slot

-- A settled run is complete exactly when its slots are the chain up to the last reading.
theorem complete_iff_backlog (start last : Int) (m : Nat) (slots : List Int) (covered : Covered chain start last m slots)
    (settled : settledAt last (chain.nth start m)) :
    Complete chain start m slots ↔ ∀ slot, slot ∈ slots ↔ chain.Reaches start slot ∧ slot ≤ last := by
  constructor
  · intro all slot
    constructor
    · intro member
      obtain ⟨i, bound, here⟩ := covered.indexed slot member
      obtain ⟨other, there, due⟩ := covered.passed i bound
      cases here.symm.trans there
      exact ⟨⟨i, here⟩, due⟩
    · rintro ⟨⟨i, here⟩, due⟩
      rcases Nat.lt_or_ge i m with early | late
      · exact all i early slot here
      · obtain ⟨next, there⟩ := chain.nth_defined start slot m i late here
        have after := settled next there
        have order := chain.nth_le_of_le start next slot m i late there here
        omega
  · intro exact_ i bound slot here
    obtain ⟨other, there, due⟩ := covered.passed i bound
    cases here.symm.trans there
    exact (exact_ slot).mpr ⟨⟨i, here⟩, due⟩

-- Each repeat either finds the schedule settled or moves the cursor forward.
theorem repeats_settle (catching : policy.misfire = .catch_up) (last : Int) (cursor : Option Int) (repeats : Nat)
    (enough : ∀ start, cursor = some start → last < start + repeats) :
    settledAt last (slotTicks chain policy cursor (List.replicate repeats last)).2 := by
  induction repeats generalizing cursor with
  | zero =>
      intro slot here
      cases cursor with
      | none => cases here
      | some start =>
          cases here
          simpa using enough slot rfl
  | succ repeats ih =>
      rw [List.replicate_succ]
      cases cursor with
      | none =>
          rw [slot_ticks_ended]
          intro slot here
          cases here
      | some start =>
          by_cases early : last < start
          · have idle : ∀ cursor, some start = some cursor → last < cursor := by
              rintro cursor ⟨⟩
              exact early
            rw [slot_ticks_idle chain policy (some start) last _ idle]
            refine ih (some start) ?_
            rintro cursor ⟨⟩
            omega
          · obtain ⟨m, low, next, _⟩ := catch_up_step chain policy start last (not_lt.mp early)
            rw [slot_ticks_due chain policy start last _ (not_lt.mp early)]
            refine ih _ ?_
            intro cursor here
            have moved : chain.nth start m = some cursor := by
              rw [← next, ← here, slotPlan, catching]
            have forward := chain.nth_lt start start cursor 0 m low rfl moved
            have room := enough start rfl
            omega

theorem slot_ticks_append (cursor : Option Int) (first later : List Int) :
    (slotTicks chain policy cursor (first ++ later)).2 =
      (slotTicks chain policy (slotTicks chain policy cursor first).2 later).2 := by
  induction first generalizing cursor with
  | nil => rfl
  | cons now rest ih =>
      cases cursor with
      | none => simp only [slot_ticks_ended]
      | some start =>
          rw [List.cons_append]
          by_cases early : now < start
          · have idle : ∀ cursor, some start = some cursor → now < cursor := by
              rintro cursor ⟨⟩
              exact early
            rw [slot_ticks_idle chain policy (some start) now _ idle, slot_ticks_idle chain policy (some start) now _ idle, ih]
          · rw [slot_ticks_due chain policy start now _ (not_lt.mp early),
              slot_ticks_due chain policy start now rest (not_lt.mp early)]
            exact ih _

end catchUp

section plan

variable (platform : Platform) (cron timezone : String) (policy : SchedulePolicy)

-- planMisfire from a due cursor is the plan on the cron chain, written as ISO text.
theorem plan_misfire_of_chain (raw : String) (start now : Int) (parsed : platform.dateParse raw = some start)
    (due : start ≤ now) :
    planMisfire platform { cron := cron, timezone := timezone, policy := policy, nextRunAtRaw := raw, nowMs := now } =
      some
        { enqueueSlots := (slotPlan (cronChain platform cron timezone) policy start now).1.map toISOString
          advancedNext := (slotPlan (cronChain platform cron timezone) policy start now).2.map toISOString
          scheduledForRaw := raw
          scheduledForMs := start } := by
  have valid : validTime start := date_parse_valid platform.otherDate raw start parsed
  let chain := cronChain platform cron timezone
  have missed := missed_slots_of_chain platform cron timezone now 32 start valid
  obtain ⟨rest, shape⟩ := chain.due_nonempty now start 32 (by omega) due
  have past := advance_past_now_of_chain platform cron timezone now 32 start valid
  have first : missedSlots platform cron timezone now 32 (toISOString start) = toISOString start :: rest.map toISOString := by
    rw [missed, shape, List.map_cons]
  unfold planMisfire slotPlan
  simp only [parsed, if_neg (not_lt.mpr due), MAX_CATCHUP_STEPS_PER_PUMP, MAX_SCHEDULE_ADVANCE_STEPS,
    Option.getD_none, min_self, Int.toNat_natCast]
  cases policy.misfire with
  | skip => simp [first, past]
  | run_once => simp [first, past]
  | catch_up =>
      obtain ⟨last, isLast, here, after⟩ :=
        due_last chain now start (catchUpCount policy) (catch_up_count_bounds policy).1 due
      have bounds := catch_up_count_bounds policy
      have taken : (missedSlots platform cron timezone now 32 (toISOString start)).take (catchUpCount policy) =
          (chain.due now (catchUpCount policy) start).map toISOString := by
        rw [missed, ← List.map_take, Chain.due_take, Nat.min_eq_left bounds.2]
      have lastValid := cron_chain_nth_valid platform cron timezone start last _ valid here
      have step := next_after_iso_of_chain platform cron timezone last lastValid
      have leap := advance_past_now_of_chain platform cron timezone now 32 last lastValid
      have choice := catch_up_choice chain (catchUpCount policy) start now last bounds.1 bounds.2 here after
      have count : max 1 (min (max 0 policy.max_catchup_runs).toNat 32) = catchUpCount policy := rfl
      have lengths : (missedSlots platform cron timezone now 32 (toISOString start)).length =
          (chain.due now 32 start).length := by rw [missed, List.length_map]
      rw [first] at taken lengths
      simp only [first, count, taken, List.getLast?_map, isLast, Option.map_some, Option.getD_some, step, leap,
        lengths, List.length_map]
      have tested : ((chain.next last).map toISOString).any (laterThan platform now) =
          (chain.next last).any fun slot => decide (now < slot) := by
        cases next : chain.next last with
        | none => rfl
        | some slot =>
            exact later_than_of_iso platform now slot (cron_chain_next_valid platform cron timezone last slot next)
      rw [← choice, tested]
      split_ifs
      · rfl
      · simp only [Option.map_or]
        rfl
      · rfl

end plan

end Vacps
