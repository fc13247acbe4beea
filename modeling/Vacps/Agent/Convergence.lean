import Mathlib.Data.Int.Order.Basic
import Mathlib.Data.Prod.Lex
import Mathlib.Order.WithBot
import Vacps.Agent.CursorRaces
import Vacps.Library.Joins

/- Deliveries of the wires of one schedule: a row stands for its revision and, at that revision, its
   cursor, and every merge joins the two. -/
set_option autoImplicit false

namespace Vacps.SchedulerStore

open Library

section deliveries

variable {Task : Type} (platform : Platform)

-- What the merge leaves of the row it was asked about.
def deliver (current : Option (SchedulerMergeLocal Task)) (incoming : SchedulerMergeIncoming Task) :
    Option (SchedulerMergeLocal Task) :=
  match mergeSchedulerWire platform current incoming with
  | .ignore => current
  | .apply revision cron timezone enabled task policy nextRunAt =>
      some ⟨revision, cron, timezone, enabled, task, policy, nextRunAt⟩

def deliverAll (wires : List (SchedulerMergeIncoming Task)) : Option (SchedulerMergeLocal Task) :=
  wires.foldl (deliver platform) none

-- Equal configuration and enabled flag.
def sameConfig (a b : SchedulerMergeIncoming Task) : Prop :=
  a.cron = b.cron ∧ a.timezone = b.timezone ∧ a.enabled = b.enabled ∧ a.task = b.task ∧ a.policy = b.policy

def holdsConfig (row : SchedulerMergeLocal Task) (wire : SchedulerMergeIncoming Task) : Prop :=
  row.cron = wire.cron ∧ row.timezone = wire.timezone ∧ row.enabled = wire.enabled ∧ row.task = wire.task ∧
    row.policy = wire.policy

-- The latest instant among the cursors that the wires of one revision carry.
def latestInstant (revision : Int) (wires : List (SchedulerMergeIncoming Task)) : Option Int :=
  ((wires.filter fun wire => wire.revision = revision).filterMap fun wire => instantOf platform wire.nextRunAt).max?

-- No row, or a revision with the cursor reached at it.
abbrev Progress : Type := WithBot (Int ×ₗ WithBot Int)

def progressAt (revision : Int) (cursor : WithBot Int) : Progress := ((toLex (revision, cursor) : Int ×ₗ WithBot Int) : Progress)

def cursorRank (cursor : Option Int) : WithBot Int :=
  match cursor with
  | none => ⊥
  | some time => (time : WithBot Int)

def reached (text : Option String) : WithBot Int := cursorRank (instantOf platform text)

def latestReached (revision : Int) (wires : List (SchedulerMergeIncoming Task)) : WithBot Int :=
  cursorRank (latestInstant platform revision wires)

def rowProgress (row : Option (SchedulerMergeLocal Task)) : Progress :=
  match row with
  | none => ⊥
  | some row => progressAt row.revision (reached platform row.nextRunAt)

-- A disabled wire carries no cursor to the row.
def wireProgress (wire : SchedulerMergeIncoming Task) : Progress :=
  progressAt wire.revision (if wire.enabled then reached platform wire.nextRunAt else ⊥)

theorem progress_le_iff (a b : Int) (first second : WithBot Int) :
    progressAt a first ≤ progressAt b second ↔ a < b ∨ a = b ∧ first ≤ second :=
  WithBot.coe_le_coe.trans Prod.Lex.toLex_le_toLex

theorem progress_join (revision : Int) (first second : WithBot Int) :
    progressAt revision first ⊔ progressAt revision second = progressAt revision (first ⊔ second) := by
  rcases le_total first second with below | above
  · rw [sup_eq_right.mpr below, sup_eq_right]
    exact (progress_le_iff revision revision first second).mpr (Or.inr ⟨rfl, below⟩)
  · rw [sup_eq_left.mpr above, sup_eq_left]
    exact (progress_le_iff revision revision second first).mpr (Or.inr ⟨rfl, above⟩)

theorem progress_injective (a b : Int) (first second : WithBot Int) (same : progressAt a first = progressAt b second) :
    a = b ∧ first = second := by
  have forward := (progress_le_iff a b first second).mp (le_of_eq same)
  have backward := (progress_le_iff b a second first).mp (le_of_eq same.symm)
  have level : a = b := by omega
  refine ⟨level, le_antisymm ?_ ?_⟩
  · rcases forward with less | ⟨_, below⟩
    · omega
    · exact below
  · rcases backward with less | ⟨_, below⟩
    · omega
    · exact below

theorem cursor_rank_injective (a b : Option Int) (same : cursorRank a = cursorRank b) : a = b := by
  cases a with
  | none =>
      cases b with
      | none => rfl
      | some _ => exact absurd same.symm WithBot.coe_ne_bot
  | some time =>
      cases b with
      | none => exact absurd same WithBot.coe_ne_bot
      | some other => exact congrArg some (WithBot.coe_inj.mp same)

theorem reached_le_latest (revision : Int) (wires : List (SchedulerMergeIncoming Task)) (wire : SchedulerMergeIncoming Task)
    (listed : wire ∈ wires) (level : wire.revision = revision) :
    reached platform wire.nextRunAt ≤ latestReached platform revision wires := by
  cases shown : instantOf platform wire.nextRunAt with
  | none =>
      rw [reached, shown]
      exact bot_le
  | some time =>
      have carried : time ∈ (wires.filter fun wire => wire.revision = revision).filterMap
          fun wire => instantOf platform wire.nextRunAt :=
        List.mem_filterMap.mpr ⟨wire, List.mem_filter.mpr ⟨listed, by simp [level]⟩, shown⟩
      cases latest : latestInstant platform revision wires with
      | none =>
          rw [List.max?_eq_none_iff.mp latest] at carried
          cases carried
      | some top =>
          rw [reached, shown, latestReached, latest]
          exact WithBot.coe_le_coe.mpr ((List.max?_eq_some_iff.mp latest).2 time carried)

theorem latest_reached_cases (revision : Int) (wires : List (SchedulerMergeIncoming Task)) :
    latestReached platform revision wires = ⊥ ∨
      ∃ wire ∈ wires, wire.revision = revision ∧ latestReached platform revision wires = reached platform wire.nextRunAt := by
  cases latest : latestInstant platform revision wires with
  | none =>
      left
      rw [latestReached, latest]
      rfl
  | some top =>
      right
      obtain ⟨wire, member, shown⟩ := List.mem_filterMap.mp (List.max?_eq_some_iff.mp latest).1
      obtain ⟨listed, level⟩ := List.mem_filter.mp member
      refine ⟨wire, listed, by simpa using level, ?_⟩
      rw [latestReached, latest, reached, shown]

theorem canonical_text_eq (text : Option String) :
    canonicalText platform text = (instantOf platform text).map toISOString := by
  simp only [canonicalText, instantOf, canonicalUtcIso]
  cases truthy text <;> rfl

theorem instant_of_map (cursor : Option Int) (valid : ∀ time, cursor = some time → validTime time) :
    instantOf platform (cursor.map toISOString) = cursor := by
  cases cursor with
  | none => rfl
  | some time => exact instant_of_iso platform time (valid time rfl)

theorem instant_of_canonical (text : Option String) : instantOf platform (canonicalText platform text) = instantOf platform text := by
  rw [canonical_text_eq]
  exact instant_of_map platform _ fun time shown => instant_valid platform text time shown

theorem instant_of_later (a b : Option String) :
    instantOf platform (laterUtcIso platform.otherDate a b) = laterInstant (instantOf platform a) (instantOf platform b) := by
  rw [later_text_eq]
  apply instant_of_map
  intro time shown
  cases first : instantOf platform a with
  | none =>
      rw [first] at shown
      exact instant_valid platform b time shown
  | some am =>
      have aValid := instant_valid platform a am first
      cases second : instantOf platform b with
      | none =>
          rw [first, second] at shown
          cases shown
          exact aValid
      | some bm =>
          have bValid := instant_valid platform b bm second
          rw [first, second] at shown
          cases shown
          rcases max_choice am bm with left | right
          · rwa [left]
          · rwa [right]

theorem reached_later (a b : Option String) :
    reached platform (laterUtcIso platform.otherDate a b) = reached platform a ⊔ reached platform b := by
  simp only [reached, instant_of_later]
  cases instantOf platform a <;> cases instantOf platform b <;> simp [laterInstant, cursorRank]

-- A row left by these wires: the configuration of one at its revision, a cursor only when enabled,
-- and the text of that cursor is the one toISOString writes.
structure Delivered (wires : List (SchedulerMergeIncoming Task)) (row : SchedulerMergeLocal Task) : Prop where
  source : ∃ wire ∈ wires, row.revision = wire.revision ∧ holdsConfig row wire
  disabled : row.enabled = false → row.nextRunAt = none
  text : row.nextRunAt = (instantOf platform row.nextRunAt).map toISOString

def deliveredBy (wires : List (SchedulerMergeIncoming Task)) (row : Option (SchedulerMergeLocal Task)) : Prop :=
  ∀ stored, row = some stored → Delivered platform wires stored

-- The row an applied wire leaves, given the cursor an enabled one gets.
def rowOf (wire : SchedulerMergeIncoming Task) (next : Option String) : SchedulerMergeLocal Task :=
  ⟨wire.revision, wire.cron, wire.timezone, wire.enabled, wire.task, wire.policy, if wire.enabled then next else none⟩

theorem row_of_delivered (wires : List (SchedulerMergeIncoming Task)) (wire : SchedulerMergeIncoming Task) (listed : wire ∈ wires)
    (next : Option String) (text : next = (instantOf platform next).map toISOString) :
    Delivered platform wires (rowOf wire next) := by
  refine ⟨⟨wire, listed, rfl, rfl, rfl, rfl, rfl, rfl⟩, ?_, ?_⟩
  · intro off
    exact if_neg (by simp [show wire.enabled = false from off])
  · cases on : wire.enabled with
    | false => simp only [rowOf, on, Bool.false_eq_true, if_false]; rfl
    | true => simpa only [rowOf, on, if_true] using text

theorem row_of_progress (wire : SchedulerMergeIncoming Task) (next : Option String) :
    rowProgress platform (some (rowOf wire next)) =
      progressAt wire.revision (if wire.enabled then reached platform next else ⊥) := by
  cases on : wire.enabled with
  | false => simp only [rowProgress, rowOf, on, Bool.false_eq_true, if_false]; rfl
  | true => simp only [rowProgress, rowOf, on, if_true]

theorem deliver_none (wire : SchedulerMergeIncoming Task) (positive : 1 ≤ wire.revision) :
    deliver platform none wire = some (rowOf wire (canonicalText platform wire.nextRunAt)) := by
  have revision : max 1 wire.revision = wire.revision := by omega
  simp only [deliver, mergeSchedulerWire, revision]
  rfl

theorem deliver_older (row : SchedulerMergeLocal Task) (wire : SchedulerMergeIncoming Task) (older : wire.revision < row.revision) :
    deliver platform (some row) wire = some row := by
  simp only [deliver, mergeSchedulerWire, if_pos older]

theorem deliver_newer (row : SchedulerMergeLocal Task) (wire : SchedulerMergeIncoming Task) (newer : row.revision < wire.revision) :
    deliver platform (some row) wire = some (rowOf wire (canonicalText platform wire.nextRunAt)) := by
  have notOlder : ¬ wire.revision < row.revision := by omega
  simp only [deliver, mergeSchedulerWire, if_neg notOlder, if_pos newer]
  rfl

theorem deliver_same (row : SchedulerMergeLocal Task) (wire : SchedulerMergeIncoming Task) (same : row.revision = wire.revision) :
    deliver platform (some row) wire =
      some (rowOf wire (laterUtcIso platform.otherDate row.nextRunAt wire.nextRunAt)) := by
  cases on : wire.enabled with
  | true =>
      rw [deliver, merge_same_revision platform row wire same on]
      simp only [rowOf, on, if_true, same]
  | false =>
      simp only [deliver, mergeSchedulerWire, same, lt_irrefl, on, Bool.not_false, if_true, rowOf, Bool.false_eq_true,
        if_false]

section converging

variable (wires : List (SchedulerMergeIncoming Task)) (positive : ∀ wire ∈ wires, 1 ≤ wire.revision)
  (agreeing : ∀ first ∈ wires, ∀ second ∈ wires, first.revision = second.revision → sameConfig first second)

include positive agreeing

-- Each branch of the merge joins: a stale wire lies below the row, a newer one above it, and at one
-- revision the two agree on being enabled.
theorem deliver_joins :
    Joining (deliver platform) (rowProgress platform) (wireProgress platform) (deliveredBy platform wires) (· ∈ wires) := by
  intro current wire kept listed
  have canonical : Delivered platform wires (rowOf wire (canonicalText platform wire.nextRunAt)) := by
    apply row_of_delivered platform wires wire listed
    rw [instant_of_canonical, canonical_text_eq]
  have weighed : rowProgress platform (some (rowOf wire (canonicalText platform wire.nextRunAt))) = wireProgress platform wire := by
    rw [row_of_progress, wireProgress, reached, instant_of_canonical, ← reached]
  cases current with
  | none =>
      rw [deliver_none platform wire (positive wire listed), weighed]
      refine ⟨?_, (bot_sup_eq _).symm⟩
      intro stored same
      cases same
      exact canonical
  | some row =>
      have delivered := kept row rfl
      rcases Int.lt_trichotomy wire.revision row.revision with older | same | newer
      · rw [deliver_older platform row wire older]
        refine ⟨kept, (sup_eq_left.mpr ?_).symm⟩
        exact (progress_le_iff _ _ _ _).mpr (Or.inl older)
      · obtain ⟨source, fromSource, revision, config⟩ := delivered.source
        have agreed := agreeing wire listed source fromSource (same.trans revision)
        rw [deliver_same platform row wire same.symm]
        constructor
        · intro stored merged
          cases merged
          apply row_of_delivered platform wires wire listed
          rw [instant_of_later, later_text_eq]
        · rw [row_of_progress, wireProgress, rowProgress, ← same, progress_join, reached_later]
          cases on : wire.enabled with
          | true => rfl
          | false =>
              have off : row.enabled = false := by rw [config.2.2.1, ← agreed.2.2.1, on]
              rw [delivered.disabled off]
              rfl
      · rw [deliver_newer platform row wire newer, weighed]
        refine ⟨?_, (sup_eq_right.mpr ?_).symm⟩
        · intro stored same
          cases same
          exact canonical
        · exact (progress_le_iff _ _ _ _).mpr (Or.inl newer)

omit positive in
-- Two rows of these wires that stand for the same progress are the same row.
theorem delivered_unique (first second : Option (SchedulerMergeLocal Task)) (firstDelivered : deliveredBy platform wires first)
    (secondDelivered : deliveredBy platform wires second) (same : rowProgress platform first = rowProgress platform second) :
    first = second := by
  cases first with
  | none =>
      cases second with
      | none => rfl
      | some _ => exact absurd same.symm (WithBot.coe_ne_bot)
  | some a =>
      cases second with
      | none => exact absurd same (WithBot.coe_ne_bot)
      | some b =>
          have aDelivered := firstDelivered a rfl
          have bDelivered := secondDelivered b rfl
          obtain ⟨level, cursors⟩ := progress_injective _ _ _ _ same
          have texts : a.nextRunAt = b.nextRunAt := by
            rw [aDelivered.text, bDelivered.text, cursor_rank_injective _ _ cursors]
          obtain ⟨aWire, aListed, aRevision, aCron, aTimezone, aEnabled, aTask, aPolicy⟩ := aDelivered.source
          obtain ⟨bWire, bListed, bRevision, bCron, bTimezone, bEnabled, bTask, bPolicy⟩ := bDelivered.source
          obtain ⟨cron, timezone, enabled, task, policy⟩ := agreeing aWire aListed bWire bListed (by omega)
          cases a
          cases b
          simp_all

theorem deliver_all_delivered (deliveries : List (SchedulerMergeIncoming Task)) (listed : ∀ wire ∈ deliveries, wire ∈ wires) :
    deliveredBy platform wires (deliverAll platform deliveries) :=
  joined_keeps _ _ _ _ _ (deliver_joins platform wires positive agreeing) deliveries none (fun _ absent => by cases absent) listed

theorem deliver_all_weight_le (wire : SchedulerMergeIncoming Task) (listed : wire ∈ wires) :
    wireProgress platform wire ≤ rowProgress platform (deliverAll platform wires) :=
  joined_weight_le _ _ _ _ _ (deliver_joins platform wires positive agreeing) wires none wire (fun _ absent => by cases absent)
    (fun _ member => member) listed

theorem deliver_all_cursor (row : SchedulerMergeLocal Task) (left : deliverAll platform wires = some row)
    (on : row.enabled = true) : reached platform row.nextRunAt = latestReached platform row.revision wires := by
  have delivered := deliver_all_delivered platform wires positive agreeing wires (fun _ member => member) row left
  have below : ∀ wire ∈ wires, wireProgress platform wire ≤ progressAt row.revision (reached platform row.nextRunAt) := by
    intro wire listed
    have bounded := deliver_all_weight_le platform wires positive agreeing wire listed
    rwa [left] at bounded
  have enabled : ∀ wire ∈ wires, wire.revision = row.revision → wire.enabled = true := by
    intro wire listed level
    obtain ⟨source, fromSource, revision, config⟩ := delivered.source
    have agreed := agreeing wire listed source fromSource (level.trans revision)
    rw [agreed.2.2.1, ← config.2.2.1, on]
  apply le_antisymm
  · have bounded : rowProgress platform (deliverAll platform wires) ≤
        progressAt row.revision (latestReached platform row.revision wires) := by
      apply (joined_le_iff _ _ _ _ _ (deliver_joins platform wires positive agreeing) wires none _
        (fun _ absent => by cases absent) fun _ member => member).mpr
      refine ⟨bot_le, ?_⟩
      intro wire listed
      rcases (progress_le_iff _ _ _ _).mp (below wire listed) with earlier | ⟨level, _⟩
      · exact (progress_le_iff _ _ _ _).mpr (Or.inl earlier)
      · rw [wireProgress, if_pos (enabled wire listed level)]
        exact (progress_le_iff _ _ _ _).mpr (Or.inr ⟨level, reached_le_latest platform row.revision wires wire listed level⟩)
    rw [left] at bounded
    rcases (progress_le_iff _ _ _ _).mp bounded with earlier | ⟨_, cursor⟩
    · omega
    · exact cursor
  · rcases latest_reached_cases platform row.revision wires with none_ | ⟨wire, listed, level, carried⟩
    · rw [none_]
      exact bot_le
    · have bounded := below wire listed
      rw [wireProgress, if_pos (enabled wire listed level)] at bounded
      rcases (progress_le_iff _ _ _ _).mp bounded with earlier | ⟨_, cursor⟩
      · omega
      · rwa [carried]

-- The claim's law: only the set of delivered wires matters, the row has the configuration of the
-- highest revision, and an enabled row the latest cursor that revision carries.
theorem deliveries_converge :
    (∀ deliveries, (∀ wire, wire ∈ deliveries ↔ wire ∈ wires) → deliverAll platform deliveries = deliverAll platform wires) ∧
      (wires ≠ [] → ∃ row, deliverAll platform wires = some row ∧
        (∃ top ∈ wires, (∀ wire ∈ wires, wire.revision ≤ top.revision) ∧ row.revision = top.revision ∧ holdsConfig row top) ∧
        (row.enabled = true → row.nextRunAt = (latestInstant platform row.revision wires).map toISOString)) := by
  constructor
  · intro deliveries same
    have listed : ∀ wire ∈ deliveries, wire ∈ wires := fun wire member => (same wire).mp member
    apply delivered_unique platform wires agreeing
    · exact deliver_all_delivered platform wires positive agreeing deliveries listed
    · exact deliver_all_delivered platform wires positive agreeing wires fun _ member => member
    · exact joined_order_free _ _ _ _ _ (deliver_joins platform wires positive agreeing) deliveries wires none
        (fun _ absent => by cases absent) (fun _ member => member) same
  · intro some_
    obtain ⟨first, firstListed⟩ := List.exists_mem_of_ne_nil wires some_
    cases left : deliverAll platform wires with
    | none =>
        have bounded := deliver_all_weight_le platform wires positive agreeing first firstListed
        rw [left] at bounded
        exact absurd (le_bot_iff.mp bounded) WithBot.coe_ne_bot
    | some row =>
        have delivered := deliver_all_delivered platform wires positive agreeing wires (fun _ member => member) row left
        obtain ⟨top, topListed, revision, config⟩ := delivered.source
        refine ⟨row, rfl, ⟨top, topListed, ?_, revision, config⟩, ?_⟩
        · intro wire listed
          have bounded := deliver_all_weight_le platform wires positive agreeing wire listed
          rw [left] at bounded
          rcases (progress_le_iff _ _ _ _).mp bounded with earlier | ⟨level, _⟩
          · omega
          · omega
        · intro on
          rw [delivered.text]
          exact congrArg (Option.map toISOString)
            (cursor_rank_injective _ _ (deliver_all_cursor platform wires positive agreeing row left on))

end converging

end deliveries

def nightlyWire (revision : Int) (next : Option String) : SchedulerMergeIncoming CreateTaskInput :=
  ⟨revision, "* * * * *", "UTC", true, nightlyTask, DEFAULT_SCHEDULE_POLICY, next⟩

theorem deliveries_converge_two_revisions :
    let early := nightlyWire 2 (some "1970-01-01T00:01:00.000Z")
    let late := nightlyWire 2 (some "1970-01-01T00:02:00.000Z")
    let old := nightlyWire 1 (some "1970-01-01T00:09:00.000Z")
    deliverAll utcMinutes [late, old, early, late] = deliverAll utcMinutes [old, early, late] ∧
      ∃ row, deliverAll utcMinutes [old, early, late] = some row ∧ row.revision = 2 ∧
        row.nextRunAt = some "1970-01-01T00:02:00.000Z" := by
  intro early late old
  have converge := deliveries_converge utcMinutes [old, early, late]
    (by simp [old, early, late, nightlyWire]) (by simp [old, early, late, nightlyWire, sameConfig])
  obtain ⟨orderFree, final⟩ := converge
  refine ⟨orderFree _ (by intro wire; simp; tauto), ?_⟩
  obtain ⟨row, left, ⟨top, listed, highest, revision, config⟩, cursor⟩ := final (by simp)
  have two : row.revision = 2 := by
    have atLeast := highest late (by simp)
    rw [revision]
    simp only [List.mem_cons, List.not_mem_nil, or_false] at listed
    rcases listed with rfl | rfl | rfl
    · exact absurd atLeast (by decide)
    · rfl
    · rfl
  refine ⟨row, left, two, ?_⟩
  have on : row.enabled = true := by
    rw [config.2.2.1]
    simp only [List.mem_cons, List.not_mem_nil, or_false] at listed
    rcases listed with rfl | rfl | rfl <;> rfl
  rw [cursor on, two]
  decide +kernel

end Vacps.SchedulerStore
