import Vacps.Agent.Backlog

/- The policy table of MISFIRE_POLICY_SPEC, read off single plans. -/
set_option autoImplicit false

namespace Vacps

open Library

section table

variable (chain : Chain Int) (policy : SchedulePolicy)

-- How many elements of the chain are due.
def DueCount (start now : Int) (dues : Nat) : Prop :=
  ∀ i, (∃ slot, chain.nth start i = some slot ∧ slot ≤ now) ↔ i < dues

-- What the table says of a plan that enqueues the slots.
structure FollowsTable (raw : String) (start now : Int) (plan : MisfirePlan) (slots : List Int) : Prop where
  text : plan.enqueueSlots = slots.map toISOString
  increasing : slots.Pairwise (· < ·)
  onChain : ∀ i < slots.length, slots[i]? = chain.nth start i
  due : ∀ slot ∈ slots, slot ≤ now
  count : ∃ dues, DueCount chain start now dues ∧ slots.length =
    match policy.misfire with
    | .run_once => 1
    | .skip => 0
    | .catch_up => min (min policy.max_catchup_runs.toNat 32) dues
  next : policy.misfire = .catch_up →
    if slots = [] then ∃ i slot, chain.nth start i = some slot ∧ plan.advancedNext = some (toISOString slot)
    else plan.advancedNext = (chain.nth start slots.length).map toISOString
  token : plan.scheduledForRaw = raw

theorem nth_forward (start there : Int) (i : Nat) (reached : chain.nth start i = some there) : start + i ≤ there := by
  induction i generalizing there with
  | zero =>
      cases reached
      simp
  | succ i ih =>
      obtain ⟨middle, first, last⟩ := Option.bind_eq_some_iff.mp reached
      have before := ih middle first
      have later := chain.later middle there last
      push_cast
      omega

theorem due_count_length (start now : Int) (n : Nat) (enough : now < start + n) :
    DueCount chain start now (chain.due now n start).length := by
  intro i
  constructor
  · rintro ⟨slot, reached, inside⟩
    have forward := nth_forward chain start slot i reached
    exact chain.due_length now start slot n i (by omega) reached inside
  · intro inside
    have found := (chain.due_element now start _ n i).mp (List.getElem?_eq_getElem inside)
    exact ⟨_, found.2⟩

theorem due_count_exists (start now : Int) : ∃ dues, DueCount chain start now dues :=
  ⟨_, due_count_length chain start now (now - start + 1).toNat (by omega)⟩

theorem due_length_count (start now : Int) (n dues : Nat) (counted : DueCount chain start now dues) :
    (chain.due now n start).length = min n dues := by
  refine Nat.le_antisymm ?_ ?_
  · by_contra more
    have inside : min n dues < (chain.due now n start).length := not_le.mp more
    have found := (chain.due_element now start _ n _).mp (List.getElem?_eq_getElem inside)
    have few := (counted (min n dues)).mp ⟨_, found.2⟩
    omega
  · by_contra fewer
    have shorter : (chain.due now n start).length < min n dues := not_le.mp fewer
    obtain ⟨slot, reached, inside⟩ := (counted (chain.due now n start).length).mpr (by omega)
    have longer := chain.due_length now start slot n _ (by omega) reached inside
    omega

theorem prefix_on_chain (start now : Int) (n i : Nat) (inside : i < (chain.due now n start).length) :
    (chain.due now n start)[i]? = chain.nth start i := by
  have found := (chain.due_element now start _ n i).mp (List.getElem?_eq_getElem inside)
  rw [found.2.1, List.getElem?_eq_getElem inside]

end table

section rows

variable (platform : Platform) (cron timezone : String) (policy : SchedulePolicy)

-- Two cursors of one chain with the same text are one.
theorem cursor_injective (start : Int) (valid : validTime start) (m n : Nat)
    (same : ((cronChain platform cron timezone).nth start m).map toISOString =
      ((cronChain platform cron timezone).nth start n).map toISOString) :
    (cronChain platform cron timezone).nth start m = (cronChain platform cron timezone).nth start n := by
  cases first : (cronChain platform cron timezone).nth start m with
  | none =>
      rw [first, Option.map_none, eq_comm, Option.map_eq_none_iff] at same
      exact same.symm
  | some a =>
      rw [first, Option.map_some, eq_comm, Option.map_eq_some_iff] at same
      obtain ⟨b, second, text⟩ := same
      rw [second, to_iso_injective b a (cron_chain_nth_valid platform cron timezone start b n valid second)
        (cron_chain_nth_valid platform cron timezone start a m valid first) text]

theorem skip_follows (skipping : policy.misfire = .skip) (raw : String) (start now : Int) (next : Option String) :
    FollowsTable (cronChain platform cron timezone) policy raw start now ⟨[], next, raw, start⟩ [] where
  text := rfl
  increasing := List.Pairwise.nil
  onChain := fun i few => absurd few (Nat.not_lt_zero i)
  due := fun _ member => by cases member
  count := by
    obtain ⟨dues, counted⟩ := due_count_exists (cronChain platform cron timezone) start now
    exact ⟨dues, counted, by rw [skipping]; rfl⟩
  next := fun catching => by rw [skipping] at catching; cases catching
  token := rfl

theorem run_once_follows (once : policy.misfire = .run_once) (raw : String) (start now : Int) (inside : start ≤ now)
    (next : Option String) :
    FollowsTable (cronChain platform cron timezone) policy raw start now ⟨[toISOString start], next, raw, start⟩ [start] where
  text := rfl
  increasing := List.pairwise_singleton _ _
  onChain := by
    intro i few
    obtain rfl : i = 0 := by simpa using few
    rfl
  due := by
    intro slot member
    rw [List.mem_singleton.mp member]
    exact inside
  count := by
    obtain ⟨dues, counted⟩ := due_count_exists (cronChain platform cron timezone) start now
    exact ⟨dues, counted, by rw [once]; rfl⟩
  next := fun catching => by rw [once] at catching; cases catching
  token := rfl

theorem catch_up_count_some (some_ : 1 ≤ policy.max_catchup_runs) :
    catchUpCount policy = min policy.max_catchup_runs.toNat 32 := by
  unfold catchUpCount MAX_CATCHUP_STEPS_PER_PUMP MAX_SCHEDULE_ADVANCE_STEPS
  omega

theorem catch_up_follows (catching : policy.misfire = .catch_up) (raw : String) (start now : Int) (inside : start ≤ now)
    (some_ : 1 ≤ policy.max_catchup_runs) (keeps : keepsBacklog (cronChain platform cron timezone) policy start now) :
    FollowsTable (cronChain platform cron timezone) policy raw start now
      ⟨((cronChain platform cron timezone).due now (catchUpCount policy) start).map toISOString,
        (catchUpNext (cronChain platform cron timezone) (catchUpCount policy) start now).map toISOString, raw, start⟩
      ((cronChain platform cron timezone).due now (catchUpCount policy) start) where
  text := rfl
  increasing := (cronChain platform cron timezone).due_sorted now start _
  onChain := prefix_on_chain (cronChain platform cron timezone) start now _
  due := by
    intro slot member
    obtain ⟨_, _, _, due⟩ := ((cronChain platform cron timezone).due_member now start slot _).mp member
    exact due
  count := by
    obtain ⟨dues, counted⟩ := due_count_exists (cronChain platform cron timezone) start now
    refine ⟨dues, counted, ?_⟩
    rw [catching, due_length_count _ start now _ dues counted, catch_up_count_some policy some_]
  next := by
    intro _
    obtain ⟨rest, shape⟩ := (cronChain platform cron timezone).due_nonempty now start (catchUpCount policy)
      (catch_up_count_bounds policy).1 inside
    obtain ⟨m, _, cursor, _, _, exact_, _⟩ := catch_up_step (cronChain platform cron timezone) policy start now inside
    rw [if_neg (by rw [shape]; simp)]
    dsimp only
    rw [cursor, exact_.mpr keeps]
  token := rfl

-- A plan that follows the table had a slot to enqueue and did not leap.
theorem follows_keeps (catching : policy.misfire = .catch_up) (raw : String) (start now : Int) (inside : start ≤ now)
    (valid : validTime start) (plan : MisfirePlan) (slots : List Int)
    (enqueued : plan.enqueueSlots = ((cronChain platform cron timezone).due now (catchUpCount policy) start).map toISOString)
    (advanced : plan.advancedNext =
      (catchUpNext (cronChain platform cron timezone) (catchUpCount policy) start now).map toISOString)
    (follows : FollowsTable (cronChain platform cron timezone) policy raw start now plan slots) :
    1 ≤ policy.max_catchup_runs ∧ keepsBacklog (cronChain platform cron timezone) policy start now := by
  let chain := cronChain platform cron timezone
  obtain ⟨rest, shape⟩ := chain.due_nonempty now start (catchUpCount policy) (catch_up_count_bounds policy).1 inside
  have size : slots.length = (chain.due now (catchUpCount policy) start).length := by
    have same := congrArg List.length (follows.text.symm.trans enqueued)
    rwa [List.length_map, List.length_map] at same
  have positive : 1 ≤ slots.length := by
    rw [size, shape]
    simp
  obtain ⟨dues, _, count⟩ := follows.count
  rw [catching] at count
  dsimp only at count
  refine ⟨by omega, ?_⟩
  have next := follows.next catching
  rw [if_neg (List.ne_nil_of_length_pos positive), advanced, size] at next
  obtain ⟨m, _, cursor, behind, defined, exact_, _⟩ := catch_up_step chain policy start now inside
  rw [cursor] at next
  have same := cursor_injective platform cron timezone start valid _ _ next
  refine exact_.mp ?_
  rcases Nat.eq_or_lt_of_le behind with here | past
  · exact here.symm
  · obtain ⟨slot, reached, _⟩ := defined _ past
    exact chain.nth_index start slot _ _ (same.trans reached) reached

end rows

-- The plan from a due cursor follows the table exactly when, for catch_up, the limit is not zero and the step budget
-- leaves no backlog behind.
theorem plan_follows_table_iff (platform : Platform) (cron timezone : String) (policy : SchedulePolicy) (raw : String)
    (start now : Int) (parsed : platform.dateParse raw = some start) (due : start ≤ now) :
    (∃ plan slots, planAt platform cron timezone policy raw now = some plan ∧
      FollowsTable (cronChain platform cron timezone) policy raw start now plan slots) ↔
        (policy.misfire = .catch_up →
          1 ≤ policy.max_catchup_runs ∧ keepsBacklog (cronChain platform cron timezone) policy start now) := by
  have valid := date_parse_valid platform.otherDate raw start parsed
  rw [planAt, plan_misfire_of_chain platform cron timezone policy raw start now parsed due]
  constructor
  · rintro ⟨plan, slots, planned, follows⟩ catching
    cases planned
    refine follows_keeps platform cron timezone policy catching raw start now due valid _ slots ?_ ?_ follows
    · rw [slotPlan, catching]
    · rw [slotPlan, catching]
  · intro condition
    cases kind : policy.misfire with
    | skip =>
        refine ⟨_, [], rfl, ?_⟩
        simp only [slotPlan, kind]
        exact skip_follows platform cron timezone policy kind raw start now _
    | run_once =>
        refine ⟨_, [start], rfl, ?_⟩
        simp only [slotPlan, kind]
        exact run_once_follows platform cron timezone policy kind raw start now due _
    | catch_up =>
        obtain ⟨some_, keeps⟩ := condition kind
        refine ⟨_, (cronChain platform cron timezone).due now (catchUpCount policy) start, rfl, ?_⟩
        simp only [slotPlan, kind]
        exact catch_up_follows platform cron timezone policy kind raw start now due some_ keeps

theorem plan_follows_table_two :
    ∃ plan slots, planAt utcMinutes "* * * * *" "UTC" (queueing .catch_up 2) "1970-01-01T00:00:00.000Z" 150000 = some plan ∧
      FollowsTable (cronChain utcMinutes "* * * * *" "UTC") (queueing .catch_up 2) "1970-01-01T00:00:00.000Z" 0 150000 plan slots := by
  refine (plan_follows_table_iff utcMinutes "* * * * *" "UTC" (queueing .catch_up 2) "1970-01-01T00:00:00.000Z" 0 150000
    utc_minutes_parse_epoch (by decide)).mpr fun _ => ⟨by decide, fun large => ?_⟩
  exact absurd large (by decide)

-- With max_catchup_runs = 0 the first due slot is enqueued all the same.
theorem zero_limit_enqueues :
    ¬∃ plan slots, planAt utcMinutes "* * * * *" "UTC" (queueing .catch_up 0) "1970-01-01T00:00:00.000Z" 0 = some plan ∧
      FollowsTable (cronChain utcMinutes "* * * * *" "UTC") (queueing .catch_up 0) "1970-01-01T00:00:00.000Z" 0 0 plan slots := by
  rintro ⟨plan, slots, planned, follows⟩
  rw [planAt, plan_misfire_of_chain utcMinutes _ _ _ _ 0 0 utc_minutes_parse_epoch (by decide)] at planned
  cases planned
  have enqueued := congrArg List.length follows.text
  obtain ⟨dues, _, count⟩ := follows.count
  have none_ : slots.length = 0 := by simpa [queueing] using count
  rw [List.length_map, List.length_map, none_] at enqueued
  revert enqueued
  decide

end Vacps
