import Vacps.Contracts.IsoDate
import Vacps.Contracts.Json
import Vacps.Library.Async
import Vacps.Library.Runs
import Vacps.Library.Table

/- vacps-native/script/src/runtime/idempotency.ts: one run per tool and key, joined while it goes on and replayed
   for ten minutes after its start. -/
set_option autoImplicit false

namespace Vacps.Idempotency

open Library

def TTL_MS : Int := 10 * 60 * 1000

def CAPACITY : Nat := 32

section store

variable {R E : Type}

-- A pending entry is known by the run whose promise it holds.
inductive EntryKind (R : Type) where
  | pending (run : Nat)
  | settled (result : R)

structure StoreEntry (R : Type) where
  storeKey : String
  requestHash : String
  createdAt : Int
  kind : EntryKind R

abbrev Records (R : Type) : Type := Table String (StoreEntry R) StoreEntry.storeKey

def StoreEntry.isSettled (entry : StoreEntry R) : Bool :=
  match entry.kind with
  | .settled _ => true
  | .pending _ => false

def StoreEntry.expired (nowMs : Int) (entry : StoreEntry R) : Bool :=
  entry.isSettled && decide (TTL_MS ≤ nowMs - entry.createdAt)

def pruneExpiredSettled (records : Records R) (nowMs : Int) : Records R := records.delete (StoreEntry.expired nowMs)

def evictOldestSettled (records : Records R) : Option (Records R) :=
  (records.rows.find? StoreEntry.isSettled).map fun oldest =>
    records.delete fun entry => decide (entry.storeKey = oldest.storeKey)

-- while (records.size >= CAPACITY), each turn of which takes one entry away.
def makeRoom : Nat → Records R → Records R
  | 0, records => records
  | turns + 1, records =>
      if CAPACITY ≤ records.rows.length then
        match evictOldestSettled records with
        | some fewer => makeRoom turns fewer
        | none => records
      else records

structure StoreError where
  message : String
  code : String
  statusCode : Nat
  details : List (String × Json)

def idempotencyConflict (toolName key : String) : StoreError :=
  ⟨"The idempotency key was previously used with different arguments.", "idempotency_conflict", 409,
    [("tool_name", .str toolName), ("key", .str key)]⟩

def idempotencyCapacity (toolName key : String) : StoreError :=
  ⟨"Idempotency store is at capacity with in-flight operations.", "idempotency_capacity", 503,
    [("tool_name", .str toolName), ("key", .str key), ("capacity", .num CAPACITY)]⟩

-- A run that execute started: the entry it was started for, what came of it, and whether execute has gone on
-- behind it.
structure Keyed where
  storeKey : String
  requestHash : String
  createdAt : Int

structure Run (R E : Type) where
  keyed : Option Keyed
  outcome : Option (Except E R)
  finished : Bool

-- What the first turn of a call comes to: a run of its own, the run it waits for, a result, or an error.
inductive Reply (R : Type) where
  | started (run : Nat)
  | joined (run : Nat)
  | replayed (result : R)
  | rejected (error : StoreError)

structure IdempotencyStore (R E : Type) where
  records : Records R
  runs : List (Run R E)

def storeKeyOf (toolName key : String) : String := String.ofList (toolName.toList ++ '\x00' :: key.toList)

def startRun (store : IdempotencyStore R E) (toolName key requestHash : String) (createdAt : Int) :
    Reply R × IdempotencyStore R E :=
  if CAPACITY ≤ store.records.rows.length then (.rejected (idempotencyCapacity toolName key), store)
  else
    (.started store.runs.length,
      { records := store.records.put ⟨storeKeyOf toolName key, requestHash, createdAt, .pending store.runs.length⟩
        runs := store.runs ++ [⟨some ⟨storeKeyOf toolName key, requestHash, createdAt⟩, none, false⟩] })

-- execute up to its first await, with its two readings of the clock.
def execute (store : IdempotencyStore R E) (toolName : String) (key : Option String) (requestHash : String) (nowMs createdAt : Int) :
    Reply R × IdempotencyStore R E :=
  match truthy key with
  | none => (.started store.runs.length, { store with runs := store.runs ++ [⟨none, none, false⟩] })
  | some key =>
      let records := pruneExpiredSettled store.records nowMs
      match records.find? (storeKeyOf toolName key) with
      | some existing =>
          if existing.requestHash ≠ requestHash then (.rejected (idempotencyConflict toolName key), { store with records := records })
          else
            match existing.kind with
            | .pending run => (.joined run, { store with records := records })
            | .settled result => (.replayed result, { store with records := records })
      | none => startRun { store with records := makeRoom records.rows.length records } toolName key requestHash createdAt

-- The promise of a run settles.
def settle (store : IdempotencyStore R E) (run : Nat) (outcome : Except E R) : IdempotencyStore R E :=
  match store.runs[run]? with
  | some ⟨keyed, none, finished⟩ => { store with runs := store.runs.set run ⟨keyed, some outcome, finished⟩ }
  | _ => store

def isPending (records : Records R) (storeKey : String) (run : Nat) : Bool :=
  match records.find? storeKey with
  | some ⟨_, _, _, .pending other⟩ => other == run
  | _ => false

-- execute behind its own await.
def finish (store : IdempotencyStore R E) (run : Nat) : IdempotencyStore R E :=
  match store.runs[run]? with
  | some ⟨some keyed, some outcome, false⟩ =>
      { records :=
          if isPending store.records keyed.storeKey run then
            match outcome with
            | .ok result => store.records.put ⟨keyed.storeKey, keyed.requestHash, keyed.createdAt, .settled result⟩
            | .error _ => store.records.delete fun entry => decide (entry.storeKey = keyed.storeKey)
          else store.records
        runs := store.runs.set run ⟨some keyed, some outcome, true⟩ }
  | some ⟨none, some outcome, false⟩ => { store with runs := store.runs.set run ⟨none, some outcome, true⟩ }
  | _ => store

inductive StoreEvent (R E : Type) where
  | call (toolName : String) (key : Option String) (requestHash : String) (nowMs createdAt : Int)
  | settle (run : Nat) (outcome : Except E R)
  | finish (run : Nat)

def IdempotencyStore.step (store : IdempotencyStore R E) : StoreEvent R E → IdempotencyStore R E
  | .call toolName key requestHash nowMs createdAt => (execute store toolName key requestHash nowMs createdAt).2
  | .settle run outcome => settle store run outcome
  | .finish run => Idempotency.finish store run

-- The store and the last reading of the clock.
structure Clocked (R E : Type) where
  store : IdempotencyStore R E
  clock : Int

def Clocked.next (state : Clocked R E) (event : StoreEvent R E) : Clocked R E where
  store := state.store.step event
  clock :=
    match event with
    | .call _ _ _ _ createdAt => createdAt
    | _ => state.clock

def clockForward (state : Clocked R E) : StoreEvent R E → Prop
  | .call _ _ _ nowMs createdAt => state.clock ≤ nowMs ∧ nowMs ≤ createdAt
  | _ => True

-- The entry a call finds, once it has pruned.
def live (store : IdempotencyStore R E) (nowMs : Int) (storeKey : String) : Option (StoreEntry R) :=
  (pruneExpiredSettled store.records nowMs).find? storeKey

structure Inv (state : Clocked R E) : Prop where
  small : state.store.records.rows.length ≤ CAPACITY
  pending : ∀ entry ∈ state.store.records.rows, ∀ run, entry.kind = .pending run → ∃ outcome,
    state.store.runs[run]? = some ⟨some ⟨entry.storeKey, entry.requestHash, entry.createdAt⟩, outcome, false⟩
  flying : ∀ (run : Nat) keyed outcome, state.store.runs[run]? = some ⟨some keyed, outcome, false⟩ →
    state.store.records.find? keyed.storeKey = some ⟨keyed.storeKey, keyed.requestHash, keyed.createdAt, .pending run⟩
  settled : ∀ entry ∈ state.store.records.rows, ∀ result, entry.kind = .settled result → ∃ run : Nat,
    state.store.runs[run]? = some ⟨some ⟨entry.storeKey, entry.requestHash, entry.createdAt⟩, some (.ok result), true⟩
  ended : ∀ (run : Nat) keyed outcome, state.store.runs[run]? = some ⟨keyed, outcome, true⟩ → outcome.isSome = true
  ordered : (state.store.records.rows.map StoreEntry.createdAt).Pairwise (· ≤ ·)
  past : ∀ entry ∈ state.store.records.rows, entry.createdAt ≤ state.clock

theorem expired_settled (nowMs : Int) (entry : StoreEntry R) (expired : entry.expired nowMs = true) : entry.isSettled = true :=
  (Bool.and_eq_true_iff.mp expired).1

theorem pending_unsettled (entry : StoreEntry R) (run : Nat) (pending : entry.kind = .pending run) : entry.isSettled = false := by
  unfold StoreEntry.isSettled
  rw [pending]

theorem delete_rows (records : Records R) (selects : StoreEntry R → Bool) (entry : StoreEntry R) :
    entry ∈ (records.delete selects).rows ↔ entry ∈ records.rows ∧ selects entry = false := by
  simp only [Table.delete, List.mem_filter, Bool.not_eq_true']

-- Settled entries may go, and the clock may go on.
theorem inv_dropped (state : Clocked R E) (inv : Inv state) (selects : StoreEntry R → Bool) (clock : Int)
    (later : state.clock ≤ clock) (only : ∀ entry ∈ state.store.records.rows, selects entry = true → entry.isSettled = true) :
    Inv (⟨⟨state.store.records.delete selects, state.store.runs⟩, clock⟩ : Clocked R E) where
  small := (List.length_filter_le _ _).trans inv.small
  pending entry member := inv.pending entry ((delete_rows _ selects entry).mp member).1
  flying run keyed outcome found := by
    have stored := inv.flying run keyed outcome found
    have member := state.store.records.find_mem _ _ stored
    rw [Table.find_remaining, stored, Option.filter_some, if_pos]
    rw [Bool.not_eq_true']
    by_contra selected
    have settled := only _ member (Bool.of_not_eq_false selected)
    cases settled
  settled entry member := inv.settled entry ((delete_rows _ selects entry).mp member).1
  ended := inv.ended
  ordered := inv.ordered.sublist (List.filter_sublist.map _)
  past entry member := (inv.past entry ((delete_rows _ selects entry).mp member).1).trans later

theorem inv_pruned (state : Clocked R E) (inv : Inv state) (nowMs : Int) (later : state.clock ≤ nowMs) :
    Inv (⟨⟨pruneExpiredSettled state.store.records nowMs, state.store.runs⟩, nowMs⟩ : Clocked R E) :=
  inv_dropped state inv (StoreEntry.expired nowMs) nowMs later fun entry _ expired => expired_settled nowMs entry expired

theorem same_key (records : Records R) (first second : StoreEntry R) (one : first ∈ records.rows) (other : second ∈ records.rows)
    (same : first.storeKey = second.storeKey) : first = second := by
  have found := records.find_of_mem first one
  rw [same, records.find_of_mem second other] at found
  exact (Option.some.inj found).symm

-- In a store that is not over its capacity at most one entry goes: the first settled one of a full store.
theorem room_cases (records : Records R) (small : records.rows.length ≤ CAPACITY) :
    makeRoom records.rows.length records = records ∨
      ∃ oldest, records.rows.find? StoreEntry.isSettled = some oldest ∧ CAPACITY ≤ records.rows.length ∧
        makeRoom records.rows.length records = records.delete fun entry => decide (entry.storeKey = oldest.storeKey) := by
  cases turns : records.rows.length with
  | zero => exact Or.inl rfl
  | succ rest =>
      rw [makeRoom]
      by_cases full : CAPACITY ≤ records.rows.length
      · rw [if_pos full, evictOldestSettled]
        cases found : records.rows.find? StoreEntry.isSettled with
        | none => exact Or.inl rfl
        | some oldest =>
            refine Or.inr ⟨oldest, rfl, turns ▸ full, ?_⟩
            have shorter := records.delete_shorter (fun entry => decide (entry.storeKey = oldest.storeKey)) oldest
              (List.mem_of_find?_eq_some found) (by simp)
            rw [Option.map_some]
            dsimp only
            cases rest with
            | zero => rfl
            | succ more => rw [makeRoom, if_neg (by omega)]
      · rw [if_neg full]
        exact Or.inl rfl

theorem inv_room (state : Clocked R E) (inv : Inv state) :
    Inv (⟨⟨makeRoom state.store.records.rows.length state.store.records, state.store.runs⟩, state.clock⟩ : Clocked R E) := by
  rcases room_cases state.store.records inv.small with same | ⟨oldest, first, _, fewer⟩
  · rw [same]
    exact inv
  · rw [fewer]
    refine inv_dropped state inv _ state.clock (le_refl _) fun entry member selected => ?_
    rw [same_key state.store.records entry oldest member (List.mem_of_find?_eq_some first) (of_decide_eq_true selected)]
    exact List.find?_some first

theorem appended {α : Type} (items : List α) (last item : α) (i : Nat) (found : (items ++ [last])[i]? = some item) :
    items[i]? = some item ∨ (i = items.length ∧ item = last) := by
  by_cases old : i < items.length
  · rw [List.getElem?_append_left old] at found
    exact Or.inl found
  · have bound := (List.getElem?_eq_some_iff.mp found).1
    rw [List.length_append, List.length_singleton] at bound
    have here : i = items.length := by omega
    rw [here, List.getElem?_concat_length] at found
    exact Or.inr ⟨here, (Option.some.inj found).symm⟩

theorem still {α : Type} (items : List α) (last item : α) (i : Nat) (found : items[i]? = some item) :
    (items ++ [last])[i]? = some item := by
  rw [List.getElem?_append_left (List.getElem?_eq_some_iff.mp found).1, found]

theorem inv_started (state : Clocked R E) (inv : Inv state) (keyed : Keyed) (later : state.clock ≤ keyed.createdAt)
    (fresh : state.store.records.find? keyed.storeKey = none) (room : state.store.records.rows.length < CAPACITY) :
    Inv (⟨{ records := state.store.records.put ⟨keyed.storeKey, keyed.requestHash, keyed.createdAt, .pending state.store.runs.length⟩
            runs := state.store.runs ++ [⟨some keyed, none, false⟩] }, keyed.createdAt⟩ : Clocked R E) := by
  have rows := state.store.records.put_fresh
    ⟨keyed.storeKey, keyed.requestHash, keyed.createdAt, .pending state.store.runs.length⟩ fresh
  have cases_row : ∀ entry, entry ∈ (state.store.records.put
      ⟨keyed.storeKey, keyed.requestHash, keyed.createdAt, .pending state.store.runs.length⟩).rows →
      entry ∈ state.store.records.rows ∨
        entry = ⟨keyed.storeKey, keyed.requestHash, keyed.createdAt, .pending state.store.runs.length⟩ := by
    intro entry member
    rw [rows, List.mem_append, List.mem_singleton] at member
    exact member
  refine ⟨?_, ?_, ?_, ?_, ?_, ?_, ?_⟩
  · rw [rows, List.length_append, List.length_singleton]
    exact room
  · intro entry member run pending
    rcases cases_row entry member with old | rfl
    · obtain ⟨outcome, found⟩ := inv.pending entry old run pending
      exact ⟨outcome, still _ _ _ _ found⟩
    · cases pending
      exact ⟨none, List.getElem?_concat_length⟩
  · intro run other outcome found
    rw [Table.find_put]
    rcases appended _ _ _ _ found with old | ⟨rfl, new⟩
    · have stored := inv.flying run other outcome old
      rw [if_neg, stored]
      intro same
      rw [← same, fresh] at stored
      cases stored
    · cases new
      exact if_pos rfl
  · intro entry member result settled
    rcases cases_row entry member with old | rfl
    · obtain ⟨run, found⟩ := inv.settled entry old result settled
      exact ⟨run, still _ _ _ _ found⟩
    · cases settled
  · intro run other outcome found
    rcases appended _ _ _ _ found with old | ⟨_, new⟩
    · exact inv.ended run other outcome old
    · cases new
  · rw [rows, List.map_append, List.pairwise_append]
    refine ⟨inv.ordered, List.pairwise_singleton _ _, ?_⟩
    intro before member after last
    obtain ⟨entry, stored, rfl⟩ := List.mem_map.mp member
    rw [List.map_singleton, List.mem_singleton] at last
    rw [last]
    exact (inv.past entry stored).trans later
  · intro entry member
    rcases cases_row entry member with old | rfl
    · exact (inv.past entry old).trans later
    · exact le_refl _

theorem inv_call (state : Clocked R E) (inv : Inv state) (toolName : String) (key : Option String) (requestHash : String)
    (nowMs createdAt : Int) (forward : state.clock ≤ nowMs ∧ nowMs ≤ createdAt) :
    Inv (state.next (.call toolName key requestHash nowMs createdAt)) := by
  have later := forward.1.trans forward.2
  have pruned := inv_pruned state inv nowMs forward.1
  have kept : Inv (⟨⟨pruneExpiredSettled state.store.records nowMs, state.store.runs⟩, createdAt⟩ : Clocked R E) :=
    { pruned with past := fun entry member => (pruned.past entry member).trans forward.2 }
  unfold Clocked.next IdempotencyStore.step execute
  dsimp only
  split
  · refine ⟨inv.small, ?_, ?_, ?_, ?_, inv.ordered, fun entry member => (inv.past entry member).trans later⟩
    · intro entry member run pending
      obtain ⟨outcome, found⟩ := inv.pending entry member run pending
      exact ⟨outcome, still _ _ _ _ found⟩
    · intro run keyed outcome found
      rcases appended _ _ _ _ found with old | ⟨_, new⟩
      · exact inv.flying run keyed outcome old
      · cases new
    · intro entry member result settled
      obtain ⟨run, found⟩ := inv.settled entry member result settled
      exact ⟨run, still _ _ _ _ found⟩
    · intro run keyed outcome found
      rcases appended _ _ _ _ found with old | ⟨_, new⟩
      · exact inv.ended run keyed outcome old
      · cases new
  · rename_i text given
    split
    · split
      · exact kept
      · split
        · exact kept
        · exact kept
    · rename_i absent
      have roomy := inv_room _ pruned
      unfold startRun
      dsimp only
      split
      · exact { roomy with past := fun entry member => (roomy.past entry member).trans forward.2 }
      · rename_i room
        refine inv_started _ roomy ⟨storeKeyOf toolName text, requestHash, createdAt⟩ forward.2 ?_ (Nat.lt_of_not_le room)
        rcases room_cases _ pruned.small with same | ⟨oldest, _, _, fewer⟩
        · exact (congrArg (fun records => records.find? (storeKeyOf toolName text)) same).trans absent
        · refine (congrArg (fun records => records.find? (storeKeyOf toolName text)) fewer).trans ?_
          rw [Table.find_remaining]
          exact (congrArg (Option.filter _) absent).trans rfl

theorem inv_settle (state : Clocked R E) (inv : Inv state) (run : Nat) (outcome : Except E R) :
    Inv (state.next (.settle run outcome)) := by
  unfold Clocked.next IdempotencyStore.step settle
  dsimp only
  split
  · rename_i keyed finished found
    have running : finished = false := by
      by_contra ended
      have some_outcome := inv.ended run keyed none (by rw [found, Bool.of_not_eq_false ended])
      cases some_outcome
    subst running
    have changed := fun (i : Nat) (other : Run R E) => located_set state.store.runs run i _ ⟨keyed, some outcome, false⟩ other found
    refine ⟨inv.small, ?_, ?_, ?_, ?_, inv.ordered, inv.past⟩
    · intro entry member i pending
      obtain ⟨before, stored⟩ := inv.pending entry member i pending
      by_cases same : i = run
      · subst same
        rw [found] at stored
        cases stored
        exact ⟨some outcome, (changed i _).mpr (Or.inl ⟨rfl, rfl⟩)⟩
      · exact ⟨before, (changed i _).mpr (Or.inr ⟨same, stored⟩)⟩
    · intro i other result there
      rcases (changed i _).mp there with ⟨rfl, new⟩ | ⟨_, old⟩
      · cases new
        exact inv.flying i _ none found
      · exact inv.flying i other result old
    · intro entry member result settled
      obtain ⟨i, stored⟩ := inv.settled entry member result settled
      refine ⟨i, (changed i _).mpr (Or.inr ⟨?_, stored⟩)⟩
      rintro rfl
      rw [found] at stored
      cases stored
    · intro i other result there
      rcases (changed i _).mp there with ⟨_, new⟩ | ⟨_, old⟩
      · cases new
      · exact inv.ended i other result old
  · exact inv

-- The entry of a run that execute has not gone on behind is there, so the identity check passes.
theorem still_pending (state : Clocked R E) (inv : Inv state) (run : Nat) (keyed : Keyed) (outcome : Option (Except E R))
    (found : state.store.runs[run]? = some ⟨some keyed, outcome, false⟩) :
    isPending state.store.records keyed.storeKey run = true := by
  rw [isPending, inv.flying run keyed outcome found]
  exact beq_self_eq_true run

theorem pending_run (state : Clocked R E) (inv : Inv state) (run : Nat) (keyed : Keyed) (outcome : Option (Except E R)) (finished : Bool)
    (found : state.store.runs[run]? = some ⟨some keyed, outcome, finished⟩) (entry : StoreEntry R)
    (member : entry ∈ state.store.records.rows) (pending : entry.kind = .pending run) : entry.storeKey = keyed.storeKey := by
  obtain ⟨other, stored⟩ := inv.pending entry member run pending
  rw [found] at stored
  cases stored
  rfl

-- The entry of the run is gone or holds its result; the others are as they were.
theorem inv_finished (state : Clocked R E) (inv : Inv state) (run : Nat) (keyed : Keyed) (outcome : Except E R)
    (found : state.store.runs[run]? = some ⟨some keyed, some outcome, false⟩) (records : Records R)
    (others : ∀ entry : StoreEntry R, entry.storeKey ≠ keyed.storeKey → (entry ∈ records.rows ↔ entry ∈ state.store.records.rows))
    (here : ∀ entry ∈ records.rows, entry.storeKey = keyed.storeKey → ∃ result, outcome = .ok result ∧
      entry = ⟨keyed.storeKey, keyed.requestHash, keyed.createdAt, .settled result⟩)
    (small : records.rows.length ≤ CAPACITY) (ordered : (records.rows.map StoreEntry.createdAt).Pairwise (· ≤ ·)) :
    Inv (⟨⟨records, state.store.runs.set run ⟨some keyed, some outcome, true⟩⟩, state.clock⟩ : Clocked R E) := by
  have changed := fun (i : Nat) (other : Run R E) => located_set state.store.runs run i _ ⟨some keyed, some outcome, true⟩ other found
  have stored := inv.flying run keyed _ found
  refine ⟨small, ?_, ?_, ?_, ?_, ordered, ?_⟩
  · intro entry member i pending
    by_cases mine : entry.storeKey = keyed.storeKey
    · obtain ⟨result, _, rfl⟩ := here entry member mine
      cases pending
    · have before := (others entry mine).mp member
      obtain ⟨result, there⟩ := inv.pending entry before i pending
      refine ⟨result, (changed i _).mpr (Or.inr ⟨?_, there⟩)⟩
      rintro rfl
      exact mine (pending_run state inv i keyed _ _ found entry before pending)
  · intro i other result there
    rcases (changed i _).mp there with ⟨_, new⟩ | ⟨different, old⟩
    · cases new
    · have flying := inv.flying i other result old
      have elsewhere : other.storeKey ≠ keyed.storeKey := by
        intro same
        rw [same, stored] at flying
        injection (Option.some.inj flying) with _ _ _ kind
        cases kind
        exact different rfl
      exact records.find_of_mem _ ((others _ elsewhere).mpr (state.store.records.find_mem _ _ flying))
  · intro entry member result settled
    by_cases mine : entry.storeKey = keyed.storeKey
    · obtain ⟨own, rfl, rfl⟩ := here entry member mine
      cases settled
      exact ⟨run, (changed run _).mpr (Or.inl ⟨rfl, rfl⟩)⟩
    · obtain ⟨i, there⟩ := inv.settled entry ((others entry mine).mp member) result settled
      refine ⟨i, (changed i _).mpr (Or.inr ⟨?_, there⟩)⟩
      rintro rfl
      rw [found] at there
      cases there
  · intro i other result there
    rcases (changed i _).mp there with ⟨_, new⟩ | ⟨_, old⟩
    · cases new
      rfl
    · exact inv.ended i other result old
  · intro entry member
    by_cases mine : entry.storeKey = keyed.storeKey
    · obtain ⟨result, _, rfl⟩ := here entry member mine
      have before := inv.past _ (state.store.records.find_mem _ _ stored)
      exact before
    · exact inv.past entry ((others entry mine).mp member)

theorem inv_finish (state : Clocked R E) (inv : Inv state) (run : Nat) : Inv (state.next (.finish run)) := by
  unfold Clocked.next IdempotencyStore.step finish
  dsimp only
  split
  · rename_i keyed outcome found
    have stored := inv.flying run keyed _ found
    rw [if_pos (still_pending state inv run keyed _ found)]
    cases outcome with
    | ok result =>
        let entry : StoreEntry R := ⟨keyed.storeKey, keyed.requestHash, keyed.createdAt, .settled result⟩
        have rows := fun other => state.store.records.mem_put entry other
        refine inv_finished state inv run keyed (.ok result) found (state.store.records.put entry) ?_ ?_ ?_ ?_
        · intro other elsewhere
          rw [rows]
          refine ⟨fun either => ?_, fun old => Or.inr ⟨old, elsewhere⟩⟩
          rcases either with rfl | ⟨old, _⟩
          · exact absurd rfl elsewhere
          · exact old
        · intro other member same
          rcases (rows other).mp member with rfl | ⟨_, different⟩
          · exact ⟨result, rfl, rfl⟩
          · exact absurd same different
        · rw [Table.put_length, if_neg (by rw [stored]; exact Option.some_ne_none _)]
          exact inv.small
        · rw [state.store.records.put_column entry _ stored StoreEntry.createdAt rfl]
          exact inv.ordered
    | error error =>
        refine inv_finished state inv run keyed (.error error) found
          (state.store.records.delete fun entry => decide (entry.storeKey = keyed.storeKey)) ?_ ?_ ?_ ?_
        · intro other elsewhere
          rw [delete_rows]
          exact and_iff_left (decide_eq_false elsewhere)
        · intro other member same
          have unselected := ((delete_rows _ _ other).mp member).2
          rw [decide_eq_true same] at unselected
          cases unselected
        · exact (List.length_filter_le _ _).trans inv.small
        · exact inv.ordered.sublist (List.filter_sublist.map _)
  · rename_i outcome found
    have changed := fun (i : Nat) (other : Run R E) => located_set state.store.runs run i _ ⟨none, some outcome, true⟩ other found
    have unkeyed : ∀ (i : Nat) keyed result finished, state.store.runs[i]? = some ⟨some keyed, result, finished⟩ →
        (state.store.runs.set run ⟨none, some outcome, true⟩)[i]? = some ⟨some keyed, result, finished⟩ := by
      intro i keyed result finished there
      refine (changed i _).mpr (Or.inr ⟨?_, there⟩)
      rintro rfl
      rw [found] at there
      cases there
    refine ⟨inv.small, ?_, ?_, ?_, ?_, inv.ordered, inv.past⟩
    · intro entry member i pending
      obtain ⟨result, there⟩ := inv.pending entry member i pending
      exact ⟨result, unkeyed i _ result false there⟩
    · intro i keyed result there
      rcases (changed i _).mp there with ⟨_, new⟩ | ⟨_, old⟩
      · cases new
      · exact inv.flying i keyed result old
    · intro entry member result settled
      obtain ⟨i, there⟩ := inv.settled entry member result settled
      exact ⟨i, unkeyed i _ _ true there⟩
    · intro i keyed result there
      rcases (changed i _).mp there with ⟨_, new⟩ | ⟨_, old⟩
      · cases new
        rfl
      · exact inv.ended i keyed result old
  · exact inv

theorem inv_next (state : Clocked R E) (event : StoreEvent R E) (inv : Inv state) (forward : clockForward state event) :
    Inv (state.next event) := by
  cases event with
  | call toolName key requestHash nowMs createdAt => exact inv_call state inv toolName key requestHash nowMs createdAt forward
  | settle run outcome => exact inv_settle state inv run outcome
  | finish run => exact inv_finish state inv run

def newStore (clock : Int) : Clocked R E := ⟨⟨Table.empty, []⟩, clock⟩

theorem inv_run (clock : Int) (events : List (StoreEvent R E)) (along : Along Clocked.next clockForward (newStore clock) events) :
    Inv (runFrom Clocked.next (newStore clock) events) := by
  refine along_keeps Clocked.next clockForward Inv inv_next _ events ?_ along
  refine ⟨Nat.zero_le _, ?_, ?_, ?_, ?_, List.Pairwise.nil, ?_⟩
  · intro entry member
    cases member
  · intro run keyed outcome found
    cases found
  · intro entry member
    cases member
  · intro run keyed outcome found
    cases found
  · intro entry member
    cases member

def SingleFlight (store : IdempotencyStore R E) : Prop :=
  ∀ (i j : Nat) first second ended ended', store.runs[i]? = some ⟨some first, none, ended⟩ →
    store.runs[j]? = some ⟨some second, none, ended'⟩ → first.storeKey = second.storeKey → i = j

theorem single_flight (state : Clocked R E) (inv : Inv state) : SingleFlight state.store := by
  intro i j first second ended ended' one other same
  have running : ∀ (run : Nat) keyed finished, state.store.runs[run]? = some ⟨some keyed, none, finished⟩ → finished = false := by
    intro run keyed finished found
    by_contra done
    have outcome := inv.ended run (some keyed) none (by rw [found, Bool.of_not_eq_false done])
    cases outcome
  have here := running i first ended one
  have there := running j second ended' other
  subst here there
  have stored := inv.flying i first none one
  rw [same, inv.flying j second none other] at stored
  injection (Option.some.inj stored) with _ _ _ kind
  cases kind
  rfl

-- What each step from a state does.
structure Lawful (state : Clocked R E) (event : StoreEvent R E) : Prop where
  -- A call with the live entry's hash waits for its run or is answered with what came of it; nothing runs.
  joins : ∀ toolName key text requestHash nowMs createdAt entry, event = .call toolName key requestHash nowMs createdAt →
    truthy key = some text → live state.store nowMs (storeKeyOf toolName text) = some entry → entry.requestHash = requestHash →
      (state.store.step event).runs = state.store.runs ∧
        match entry.kind with
        | .pending run => (execute state.store toolName key requestHash nowMs createdAt).1 = .joined run
        | .settled result => (execute state.store toolName key requestHash nowMs createdAt).1 = .replayed result ∧
            ∃ run : Nat, state.store.runs[run]? =
              some ⟨some ⟨entry.storeKey, entry.requestHash, entry.createdAt⟩, some (.ok result), true⟩
  -- One with another hash is rejected; nothing runs.
  rejects : ∀ toolName key text requestHash nowMs createdAt entry, event = .call toolName key requestHash nowMs createdAt →
    truthy key = some text → live state.store nowMs (storeKeyOf toolName text) = some entry → entry.requestHash ≠ requestHash →
      (state.store.step event).runs = state.store.runs ∧
        (execute state.store toolName key requestHash nowMs createdAt).1 = .rejected (idempotencyConflict toolName text)
  -- A failed run takes away its own entry and no other.
  fails : ∀ (run : Nat) keyed error, event = .finish run → state.store.runs[run]? = some ⟨some keyed, some (.error error), false⟩ →
    ∀ entry, entry ∈ (state.store.step event).records.rows ↔ entry ∈ state.store.records.rows ∧ entry.kind ≠ .pending run
  -- A pending entry stays until execute goes on behind its run.
  waits : ∀ entry ∈ state.store.records.rows, ∀ run, entry.kind = .pending run → event ≠ .finish run →
    entry ∈ (state.store.step event).records.rows
  -- What a call takes away is settled, and expired or the oldest settled entry of a full store.
  evicts : ∀ toolName key requestHash nowMs createdAt, event = .call toolName key requestHash nowMs createdAt →
    ∀ entry ∈ state.store.records.rows, entry ∉ (state.store.step event).records.rows → entry.isSettled = true ∧
      (entry.expired nowMs = true ∨
        ((pruneExpiredSettled state.store.records nowMs).rows.find? StoreEntry.isSettled = some entry ∧
          CAPACITY ≤ (pruneExpiredSettled state.store.records nowMs).rows.length ∧
          ∀ other ∈ (pruneExpiredSettled state.store.records nowMs).rows, other.isSettled = true →
            entry.createdAt ≤ other.createdAt))

theorem first_oldest (entries : List (StoreEntry R)) (ordered : (entries.map StoreEntry.createdAt).Pairwise (· ≤ ·))
    (test : StoreEntry R → Bool) (first : StoreEntry R) (found : entries.find? test = some first) :
    ∀ other ∈ entries, test other = true → first.createdAt ≤ other.createdAt := by
  induction entries with
  | nil => cases found
  | cons head rest ih =>
      obtain ⟨least, later⟩ := List.pairwise_cons.mp ordered
      intro other member passes
      by_cases here : test head = true
      · rw [List.find?_cons_of_pos here] at found
        cases found
        rcases List.mem_cons.mp member with rfl | behind
        · exact le_refl _
        · exact least _ (List.mem_map_of_mem behind)
      · rw [List.find?_cons_of_neg here] at found
        rcases List.mem_cons.mp member with rfl | behind
        · exact absurd passes here
        · exact ih later found other behind passes

theorem call_live (store : IdempotencyStore R E) (toolName : String) (key : Option String) (text requestHash : String)
    (nowMs createdAt : Int) (entry : StoreEntry R) (given : truthy key = some text)
    (here : live store nowMs (storeKeyOf toolName text) = some entry) :
    execute store toolName key requestHash nowMs createdAt =
      (if entry.requestHash ≠ requestHash then .rejected (idempotencyConflict toolName text)
        else match entry.kind with
          | .pending run => .joined run
          | .settled result => .replayed result,
        { store with records := pruneExpiredSettled store.records nowMs }) := by
  unfold live at here
  simp only [execute, given, here]
  split
  · rfl
  · split <;> rfl

theorem started_rows (store : IdempotencyStore R E) (toolName key requestHash : String) (createdAt : Int) (entry : StoreEntry R)
    (absent : store.records.find? (storeKeyOf toolName key) = none) (member : entry ∈ store.records.rows) :
    entry ∈ (startRun store toolName key requestHash createdAt).2.records.rows := by
  unfold startRun
  split
  · exact member
  · refine (store.records.mem_put _ entry).mpr (Or.inr ⟨member, fun same => ?_⟩)
    have found := store.records.find_of_mem entry member
    rw [same] at found
    rw [absent] at found
    cases found

theorem call_evicts (state : Clocked R E) (inv : Inv state) (toolName : String) (key : Option String) (requestHash : String)
    (nowMs createdAt : Int) (forward : state.clock ≤ nowMs) (entry : StoreEntry R) (member : entry ∈ state.store.records.rows)
    (gone : entry ∉ (execute state.store toolName key requestHash nowMs createdAt).2.records.rows) :
    entry.isSettled = true ∧
      (entry.expired nowMs = true ∨
        ((pruneExpiredSettled state.store.records nowMs).rows.find? StoreEntry.isSettled = some entry ∧
          CAPACITY ≤ (pruneExpiredSettled state.store.records nowMs).rows.length ∧
          ∀ other ∈ (pruneExpiredSettled state.store.records nowMs).rows, other.isSettled = true →
            entry.createdAt ≤ other.createdAt)) := by
  have pruned := inv_pruned state inv nowMs forward
  by_cases expired : entry.expired nowMs = true
  · exact ⟨expired_settled nowMs entry expired, Or.inl expired⟩
  have here : entry ∈ (pruneExpiredSettled state.store.records nowMs).rows :=
    (delete_rows _ _ entry).mpr ⟨member, Bool.eq_false_of_not_eq_true expired⟩
  cases given : truthy key with
  | none =>
      simp only [execute, given] at gone
      exact absurd member gone
  | some text =>
      cases found : live state.store nowMs (storeKeyOf toolName text) with
      | some existing =>
          rw [call_live state.store toolName key text requestHash nowMs createdAt existing given found] at gone
          exact absurd here gone
      | none =>
          unfold live at found
          simp only [execute, given, found] at gone
          rcases room_cases _ pruned.small with same | ⟨oldest, first, full, fewer⟩
          · rw [same] at gone
            exact absurd (started_rows _ toolName text requestHash createdAt entry found here) gone
          · have chosen : entry.storeKey = oldest.storeKey := by
              by_contra different
              rw [fewer] at gone
              refine gone (started_rows _ toolName text requestHash createdAt entry ?_ ((delete_rows _ _ entry).mpr ⟨here, decide_eq_false different⟩))
              exact (Table.find_remaining _ _ _).trans (congrArg (Option.filter _) found)
            have same := same_key _ entry oldest here (List.mem_of_find?_eq_some first) chosen
            subst same
            exact ⟨List.find?_some first, Or.inr ⟨first, full, first_oldest _ pruned.ordered StoreEntry.isSettled entry first⟩⟩

theorem finish_others (state : Clocked R E) (inv : Inv state) (run : Nat) (keyed : Keyed) (outcome : Except E R)
    (found : state.store.runs[run]? = some ⟨some keyed, some outcome, false⟩) (entry : StoreEntry R)
    (elsewhere : entry.storeKey ≠ keyed.storeKey) :
    entry ∈ (state.store.step (.finish run)).records.rows ↔ entry ∈ state.store.records.rows := by
  simp only [IdempotencyStore.step, finish, found, still_pending state inv run keyed _ found, if_true]
  cases outcome with
  | ok result =>
      rw [Table.mem_put]
      refine ⟨fun either => ?_, fun old => Or.inr ⟨old, elsewhere⟩⟩
      rcases either with rfl | ⟨old, _⟩
      · exact absurd rfl elsewhere
      · exact old
  | error error =>
      rw [delete_rows]
      exact and_iff_left (decide_eq_false elsewhere)

theorem own_entry (state : Clocked R E) (inv : Inv state) (run : Nat) (keyed : Keyed) (outcome : Option (Except E R))
    (found : state.store.runs[run]? = some ⟨some keyed, outcome, false⟩) (entry : StoreEntry R)
    (member : entry ∈ state.store.records.rows) : entry.storeKey = keyed.storeKey ↔ entry.kind = .pending run := by
  refine ⟨fun same => ?_, pending_run state inv run keyed outcome false found entry member⟩
  have stored := state.store.records.find_of_mem entry member
  rw [same, inv.flying run keyed outcome found] at stored
  rw [← Option.some.inj stored]

theorem lawful (state : Clocked R E) (inv : Inv state) (event : StoreEvent R E) (forward : clockForward state event) :
    Lawful state event where
  joins := by
    rintro toolName key text requestHash nowMs createdAt entry rfl given here same
    simp only [IdempotencyStore.step, call_live state.store toolName key text requestHash nowMs createdAt entry given here]
    refine ⟨trivial, ?_⟩
    rw [if_neg (not_not.mpr same)]
    cases kind : entry.kind with
    | pending run => rfl
    | settled result =>
        refine ⟨rfl, inv.settled entry ?_ result kind⟩
        exact ((delete_rows _ _ entry).mp (Table.find_mem _ _ _ here)).1
  rejects := by
    rintro toolName key text requestHash nowMs createdAt entry rfl given here different
    simp only [IdempotencyStore.step, call_live state.store toolName key text requestHash nowMs createdAt entry given here]
    exact ⟨trivial, if_pos different⟩
  fails := by
    rintro run keyed error rfl found entry
    by_cases mine : entry.storeKey = keyed.storeKey
    · refine ⟨fun member => ?_, fun ⟨member, other⟩ => ?_⟩
      · simp only [IdempotencyStore.step, finish, found, still_pending state inv run keyed _ found, if_true] at member
        have unselected := ((delete_rows _ _ entry).mp member).2
        rw [decide_eq_true mine] at unselected
        cases unselected
      · exact absurd ((own_entry state inv run keyed _ found entry member).mp mine) other
    · rw [finish_others state inv run keyed (.error error) found entry mine]
      refine ⟨fun member => ⟨member, fun pending => mine ?_⟩, And.left⟩
      exact (own_entry state inv run keyed _ found entry member).mpr pending
  waits := by
    intro entry member run pending other
    cases event with
    | call toolName key requestHash nowMs createdAt =>
        by_contra gone
        have settled := (call_evicts state inv toolName key requestHash nowMs createdAt forward.1 entry member gone).1
        rw [pending_unsettled entry run pending] at settled
        cases settled
    | settle i outcome =>
        simp only [IdempotencyStore.step, settle]
        split <;> exact member
    | finish i =>
        have different : i ≠ run := fun same => other (same ▸ rfl)
        by_cases running : ∃ keyed outcome, state.store.runs[i]? = some ⟨some keyed, some outcome, false⟩
        · obtain ⟨keyed, outcome, found⟩ := running
          refine (finish_others state inv i keyed outcome found entry fun same => ?_).mpr member
          rw [(own_entry state inv i keyed _ found entry member).mp same] at pending
          cases pending
          exact different rfl
        · simp only [IdempotencyStore.step, finish]
          split
          · rename_i keyed outcome found
            exact absurd ⟨keyed, outcome, found⟩ running
          · exact member
          · exact member
  evicts := by
    rintro toolName key requestHash nowMs createdAt rfl entry member gone
    exact call_evicts state inv toolName key requestHash nowMs createdAt forward.1 entry member gone

end store

-- In every state the store comes to under a clock that does not go back, at most one run is in flight per
-- tool and key, there are at most CAPACITY entries, and every step is lawful.
theorem single_flight_store {R E : Type} (clock : Int) (events : List (StoreEvent R E))
    (along : Along Clocked.next clockForward (newStore clock) events) :
    let state := runFrom Clocked.next (newStore clock) events
    SingleFlight state.store ∧ state.store.records.rows.length ≤ CAPACITY ∧
      ∀ event, clockForward state event → Lawful state event := by
  intro state
  have inv := inv_run clock events along
  exact ⟨single_flight state inv, inv.small, fun event forward => lawful state inv event forward⟩

-- A run that another call joined is settled, and replayed to a third call.
theorem single_flight_store_replays :
    let events : List (StoreEvent String String) :=
      [.call "shell" (some "key") "hash" 0 0, .call "shell" (some "key") "hash" 5 5, .settle 0 (.ok "done"), .finish 0]
    let state := runFrom Clocked.next (newStore 0) events
    (execute state.store "shell" (some "key") "hash" 9 9).1 = .replayed "done" ∧ SingleFlight state.store ∧
      state.store.records.rows.length ≤ CAPACITY ∧ ∀ event, clockForward state event → Lawful state event := by
  intro events state
  refine ⟨rfl, ?_⟩
  exact single_flight_store 0 events ⟨⟨le_refl 0, le_refl 0⟩, ⟨by decide, le_refl 5⟩, trivial, trivial, trivial⟩

end Vacps.Idempotency
