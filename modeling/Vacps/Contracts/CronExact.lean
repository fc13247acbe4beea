import Vacps.Contracts.CronSyntax

/- What nextCronRunAfter finds: the least instant of the horizon an expression means, and when it finds another. -/
set_option autoImplicit false

namespace Vacps

open Library

section meaning

def CronExpression.Matches (e : CronExpression) (parts : ZonedParts) : Prop :=
  ∃ minute hour day month dow, parts = ⟨some minute, some hour, some day, some month, some dow⟩ ∧
    e.minute.Means 0 59 minute ∧ e.hour.Means 0 23 hour ∧ e.dom.Means 1 31 day ∧ e.month.Means 1 12 month ∧ e.dow.MeansDay dow

def firstMinute (after : Int) : Int := after / 60000 * 60000 + 60000

structure CronExpression.Fires (e : CronExpression) (platform : Platform) (timeZone : String) (after t : Int) : Prop where
  instant : validTime t
  whole : t % 60000 = 0
  later : after < t
  near : t ≤ firstMinute after + 366 * 24 * 60 * 60 * 1000
  fields : e.Matches (zonedParts platform t (if trim timeZone = "" then "UTC" else trim timeZone))

def CronExpression.IsNext (e : CronExpression) (platform : Platform) (timeZone : String) (after : Int) : Option Int → Prop
  | some run => e.Fires platform timeZone after run ∧ ∀ t, e.Fires platform timeZone after t → run ≤ t
  | none => ∀ t, ¬e.Fires platform timeZone after t

-- A field whose every value is taken by an item: by one whose step is a number, and for the day of the week n/s is n.
def CronField.Kept (min max : Nat) (field : CronField) : Prop :=
  ∀ v, field.Means min max v → .any ∈ field ∨ ∃ item ∈ field, item.Taken min max v

def CronField.KeptDay (field : CronField) : Prop := ∀ v, field.MeansDay v → .any ∈ field ∨ ∃ item ∈ field, item.TakenDay v

def CronExpression.Kept (e : CronExpression) : Prop :=
  e.minute.Kept 0 59 ∧ e.hour.Kept 0 23 ∧ e.dom.Kept 1 31 ∧ e.month.Kept 1 12 ∧ e.dow.KeptDay

-- A field means no value at all: its ranges run backwards.
def CronExpression.Idle (e : CronExpression) : Prop :=
  (∀ v, ¬e.minute.Means 0 59 v) ∨ (∀ v, ¬e.hour.Means 0 23 v) ∨ (∀ v, ¬e.dom.Means 1 31 v) ∨ (∀ v, ¬e.month.Means 1 12 v) ∨
    ∀ v, ¬e.dow.MeansDay v

def CronExpression.Every (e : CronExpression) : Prop := ∀ field ∈ e.fields, .any ∈ field

end meaning

section search

variable (platform : Platform) (fields : CronFields) (tz : String)

theorem scan_minutes_some (n : Nat) (t run : Int) :
    scanMinutes platform fields tz n t = some run ↔ ∃ k, k < n ∧ run = t + 60000 * k ∧
      matchesFields fields (zonedParts platform run tz) = true ∧
      ∀ j < k, matchesFields fields (zonedParts platform (t + 60000 * (j : Int)) tz) = false := by
  induction n generalizing t with
  | zero => exact ⟨(fun none_ => by cases none_), fun ⟨_, few, _⟩ => absurd few (Nat.not_lt_zero _)⟩
  | succ n ih =>
      rw [scanMinutes]
      cases here : matchesFields fields (zonedParts platform t tz) with
      | true =>
          rw [if_pos rfl, Option.some_inj]
          constructor
          · rintro rfl
            exact ⟨0, Nat.succ_pos n, by simp, here, fun j few => absurd few (Nat.not_lt_zero j)⟩
          · rintro ⟨k, _, rfl, _, before⟩
            cases k with
            | zero => simp
            | succ k =>
                have first := before 0 (Nat.succ_pos k)
                simp only [Int.natCast_zero, mul_zero, add_zero, here] at first
                cases first
      | false =>
          rw [if_neg (by simp), ih]
          constructor
          · rintro ⟨k, few, rfl, found, before⟩
            refine ⟨k + 1, Nat.succ_lt_succ few, by push_cast; ring, found, fun j less => ?_⟩
            cases j with
            | zero => simpa using here
            | succ j =>
                have earlier := before j (Nat.lt_of_succ_lt_succ less)
                rw [← earlier]
                push_cast
                ring_nf
          · rintro ⟨k, few, rfl, found, before⟩
            cases k with
            | zero => simp [here] at found
            | succ k =>
                refine ⟨k, Nat.lt_of_succ_lt_succ few, by push_cast; ring, found, fun j less => ?_⟩
                have earlier := before (j + 1) (Nat.succ_lt_succ less)
                rw [← earlier]
                push_cast
                ring_nf

theorem scan_minutes_none (n : Nat) (t : Int) :
    scanMinutes platform fields tz n t = none ↔
      ∀ k < n, matchesFields fields (zonedParts platform (t + 60000 * (k : Int)) tz) = false := by
  induction n generalizing t with
  | zero => exact iff_of_true rfl fun k few => absurd few (Nat.not_lt_zero k)
  | succ n ih =>
      rw [scanMinutes]
      cases here : matchesFields fields (zonedParts platform t tz) with
      | true =>
          rw [if_pos rfl]
          refine ⟨(fun none_ => by cases none_), fun all => ?_⟩
          have first := all 0 (Nat.succ_pos n)
          simp [here] at first
      | false =>
          rw [if_neg (by simp), ih]
          constructor
          · intro all k few
            cases k with
            | zero => simpa using here
            | succ k =>
                rw [← all k (Nat.lt_of_succ_lt_succ few)]
                push_cast
                ring_nf
          · intro all k few
            rw [← all (k + 1) (Nat.succ_lt_succ few)]
            push_cast
            ring_nf

end search

section fields

theorem utc_parts_valid (t : Int) (valid : validTime t) :
    ∃ minute hour day month dow, utcParts t = ⟨some minute, some hour, some day, some month, some dow⟩ ∧ dow ≤ 6 := by
  rw [utcParts, if_pos valid]
  exact ⟨_, _, _, _, _, rfl, by omega⟩

theorem dow_map_week (weekday : String) (dow : Nat) (named : dowMap weekday = some dow) : dow ≤ 6 := by
  unfold dowMap at named
  obtain ⟨front, back, split, _⟩ := List.lookup_eq_some_iff.mp named
  have member : (weekday, dow) ∈ [("Sun", 0), ("Mon", 1), ("Tue", 2), ("Wed", 3), ("Thu", 4), ("Fri", 5), ("Sat", 6)] := by
    rw [split]
    simp
  simp only [List.mem_cons, Prod.mk.injEq, List.not_mem_nil, or_false] at member
  omega

theorem zoned_parts_valid (platform : Platform) (t : Int) (tz : String) (valid : validTime t) :
    ∃ minute hour day month dow, zonedParts platform t tz = ⟨some minute, some hour, some day, some month, some dow⟩ ∧ dow ≤ 6 := by
  obtain ⟨minute, hour, day, month, dow, utc, week⟩ := utc_parts_valid t valid
  rw [zonedParts, if_pos valid]
  cases platform.formatToParts (normalizeTz tz) t with
  | none => exact ⟨minute, hour, day, month, dow, utc, week⟩
  | some bag =>
      cases named : dowMap bag.weekday with
      | none => exact ⟨bag.minute, bag.hour, bag.day, bag.month, dow, by simp [named, utc], week⟩
      | some inside => exact ⟨bag.minute, bag.hour, bag.day, bag.month, inside, by simp [named], dow_map_week _ _ named⟩

theorem zoned_parts_invalid (platform : Platform) (t : Int) (tz : String) (invalid : ¬validTime t) :
    zonedParts platform t tz = ⟨none, none, none, none, none⟩ := by
  rw [zonedParts, if_neg invalid, utcParts, if_neg invalid]

-- Whether a set that was read allows a value.
theorem reads_allows (taken : Nat → CronItem → Prop) (field : CronField) (set : Option (List Rat)) (reads : Reads taken field set)
    (value : Option Nat) :
    (set.all fun members => value.any fun number => members.contains (number : Rat)) = true ↔
      .any ∈ field ∨ ∃ v, value = some v ∧ ∃ item ∈ field, taken v item := by
  cases set with
  | none => exact iff_of_true rfl (Or.inl (reads.1.mp rfl))
  | some members =>
      have named : CronItem.any ∉ field := fun inside => by cases reads.1.mpr inside
      rw [Option.all_some, or_iff_right named]
      cases value with
      | none => simp
      | some v =>
          rw [Option.any_some, List.contains_iff_mem, reads.2 members rfl]
          simp

theorem taken_meant (min max : Nat) (field : CronField) (v : Nat)
    (allowed : .any ∈ field ∨ ∃ item ∈ field, CronItem.Taken min max v item) : field.Means min max v := by
  rcases allowed with every | ⟨item, member, taken⟩
  · exact ⟨.any, every, trivial⟩
  · exact ⟨item, member, taken.2⟩

theorem daily_meant (item : CronItem) (v : Nat) (low : v ≤ 7) (means : item.daily.means 0 7 v) : item.means 0 7 v := by
  cases item with
  | valueStep n s => exact ⟨low, means.2⟩
  | _ => exact means

theorem day_meant (field : CronField) (v : Nat) (week : v ≤ 6)
    (allowed : .any ∈ field ∨ ∃ item ∈ field, CronItem.TakenDay v item) : field.MeansDay v := by
  rcases allowed with every | ⟨item, member, _, ⟨low, means⟩ | ⟨sunday, means⟩⟩
  · exact Or.inl ⟨week, .any, every, trivial⟩
  · exact Or.inl ⟨week, item, member, daily_meant item v (by omega) means⟩
  · exact Or.inr ⟨sunday, item, member, daily_meant item 7 (le_refl 7) means⟩

variable (e : CronExpression) (fields : CronFields) (read : CronFields.Of e fields)

include read

theorem matches_invalid : matchesFields fields ⟨none, none, none, none, none⟩ = true ↔ e.Every := by
  simp only [matchesFields, Bool.and_eq_true, reads_allows _ _ _ read.minutes, reads_allows _ _ _ read.hours,
    reads_allows _ _ _ read.doms, reads_allows _ _ _ read.months, reads_allows _ _ _ read.dows]
  simp only [CronExpression.Every, CronExpression.fields, List.forall_mem_cons]
  simp
  tauto

theorem matches_valid (minute hour day month dow : Nat) :
    matchesFields fields ⟨some minute, some hour, some day, some month, some dow⟩ = true ↔
      (.any ∈ e.minute ∨ ∃ item ∈ e.minute, item.Taken 0 59 minute) ∧ (.any ∈ e.hour ∨ ∃ item ∈ e.hour, item.Taken 0 23 hour) ∧
        (.any ∈ e.dom ∨ ∃ item ∈ e.dom, item.Taken 1 31 day) ∧ (.any ∈ e.month ∨ ∃ item ∈ e.month, item.Taken 1 12 month) ∧
          (.any ∈ e.dow ∨ ∃ item ∈ e.dow, item.TakenDay dow) := by
  simp only [matchesFields, Bool.and_eq_true, reads_allows _ _ _ read.minutes, reads_allows _ _ _ read.hours,
    reads_allows _ _ _ read.doms, reads_allows _ _ _ read.months, reads_allows _ _ _ read.dows, Option.some_inj, exists_eq_left']
  tauto

-- What the code takes at an instant is meant.
theorem matches_meant (parts : ZonedParts) (minute hour day month dow : Nat) (week : dow ≤ 6)
    (same : parts = ⟨some minute, some hour, some day, some month, some dow⟩) (found : matchesFields fields parts = true) :
    e.Matches parts := by
  rw [same, matches_valid e fields read] at found
  obtain ⟨minutes, hours, doms, months, dows⟩ := found
  exact ⟨minute, hour, day, month, dow, same, taken_meant 0 59 e.minute minute minutes, taken_meant 0 23 e.hour hour hours,
    taken_meant 1 31 e.dom day doms, taken_meant 1 12 e.month month months, day_meant e.dow dow week dows⟩

theorem kept_matches (kept : e.Kept) (parts : ZonedParts) (meant : e.Matches parts) : matchesFields fields parts = true := by
  obtain ⟨minute, hour, day, month, dow, rfl, minutes, hours, doms, months, dows⟩ := meant
  exact (matches_valid e fields read minute hour day month dow).mpr
    ⟨kept.1 minute minutes, kept.2.1 hour hours, kept.2.2.1 day doms, kept.2.2.2.1 month months, kept.2.2.2.2 dow dows⟩

end fields

section horizon

variable (e : CronExpression) (platform : Platform) (timeZone : String) (after : Int)

theorem grid_time (t : Int) :
    (t % 60000 = 0 ∧ after < t ∧ t ≤ firstMinute after + 366 * 24 * 60 * 60 * 1000) ↔
      ∃ k < cronHorizon, t = firstMinute after + 60000 * (k : Int) := by
  unfold firstMinute cronHorizon
  constructor
  · rintro ⟨whole, later, near⟩
    exact ⟨((t - (after / 60000 * 60000 + 60000)) / 60000).toNat, by omega, by omega⟩
  · rintro ⟨k, few, rfl⟩
    omega

theorem fires_grid (k : Nat) (few : k < cronHorizon) :
    e.Fires platform timeZone after (firstMinute after + 60000 * (k : Int)) ↔
      validTime (firstMinute after + 60000 * (k : Int)) ∧
        e.Matches (zonedParts platform (firstMinute after + 60000 * (k : Int)) (if trim timeZone = "" then "UTC" else trim timeZone)) := by
  obtain ⟨whole, later, near⟩ := (grid_time after _).mpr ⟨k, few, rfl⟩
  exact ⟨fun fires => ⟨fires.instant, fires.fields⟩, fun both => ⟨both.1, whole, later, near, both.2⟩⟩

theorem never_fires (t : Int) (none_ : ∀ k < cronHorizon, ¬e.Fires platform timeZone after (firstMinute after + 60000 * (k : Int))) :
    ¬e.Fires platform timeZone after t := by
  intro fires
  obtain ⟨k, few, rfl⟩ := (grid_time after t).mp ⟨fires.whole, fires.later, fires.near⟩
  exact none_ k few fires

-- A search that stops at instants that are meant, and at the first of them.
theorem scan_is_next (fields : CronFields)
    (sound : ∀ k < cronHorizon, (∀ j < k, matchesFields fields (zonedParts platform (firstMinute after + 60000 * (j : Int))
        (if trim timeZone = "" then "UTC" else trim timeZone)) = false) →
      matchesFields fields (zonedParts platform (firstMinute after + 60000 * (k : Int))
        (if trim timeZone = "" then "UTC" else trim timeZone)) = true →
      e.Fires platform timeZone after (firstMinute after + 60000 * (k : Int)))
    (complete : ∀ t, e.Fires platform timeZone after t →
      matchesFields fields (zonedParts platform t (if trim timeZone = "" then "UTC" else trim timeZone)) = true) :
    e.IsNext platform timeZone after
      (scanMinutes platform fields (if trim timeZone = "" then "UTC" else trim timeZone) cronHorizon (firstMinute after)) := by
  cases found : scanMinutes platform fields (if trim timeZone = "" then "UTC" else trim timeZone) cronHorizon (firstMinute after) with
  | none =>
      have nowhere := (scan_minutes_none platform fields _ _ _).mp found
      intro t
      refine never_fires e platform timeZone after t fun k few fires => ?_
      have hit := complete _ fires
      rw [nowhere k few] at hit
      cases hit
  | some run =>
      obtain ⟨k, few, rfl, hit, before⟩ := (scan_minutes_some platform fields _ _ _ _).mp found
      refine ⟨sound k few before hit, fun t fires => ?_⟩
      obtain ⟨j, _, rfl⟩ := (grid_time after t).mp ⟨fires.whole, fires.later, fires.near⟩
      by_cases earlier : j < k
      · have missed := complete _ fires
        rw [before j earlier] at missed
        cases missed
      · omega

-- An answer that is exact found the first minute, where that is meant.
theorem next_matches (fields : CronFields)
    (next : e.IsNext platform timeZone after
      (scanMinutes platform fields (if trim timeZone = "" then "UTC" else trim timeZone) cronHorizon (firstMinute after)))
    (fires : e.Fires platform timeZone after (firstMinute after)) :
    matchesFields fields (zonedParts platform (firstMinute after) (if trim timeZone = "" then "UTC" else trim timeZone)) = true := by
  cases found : scanMinutes platform fields (if trim timeZone = "" then "UTC" else trim timeZone) cronHorizon (firstMinute after) with
  | none =>
      rw [found] at next
      exact absurd fires (next _)
  | some run =>
      rw [found] at next
      obtain ⟨k, few, rfl, hit, before⟩ := (scan_minutes_some platform fields _ _ _ _).mp found
      have least := next.2 _ fires
      have start : k = 0 := by omega
      subst start
      simpa using hit

end horizon

section conditions

variable (e : CronExpression)

theorem every_kept (every : e.Every) : e.Kept := by
  simp only [CronExpression.Every, CronExpression.fields, List.forall_mem_cons, List.not_mem_nil, false_implies, implies_true,
    and_true] at every
  obtain ⟨minute, hour, dom, month, dow⟩ := every
  exact ⟨fun _ _ => Or.inl minute, fun _ _ => Or.inl hour, fun _ _ => Or.inl dom, fun _ _ => Or.inl month, fun _ _ => Or.inl dow⟩

theorem every_matches (every : e.Every) (minute hour day month dow : Nat) (week : dow ≤ 6) :
    e.Matches ⟨some minute, some hour, some day, some month, some dow⟩ := by
  simp only [CronExpression.Every, CronExpression.fields, List.forall_mem_cons, List.not_mem_nil, false_implies, implies_true,
    and_true] at every
  obtain ⟨minutes, hours, doms, months, dows⟩ := every
  exact ⟨minute, hour, day, month, dow, rfl, ⟨.any, minutes, trivial⟩, ⟨.any, hours, trivial⟩, ⟨.any, doms, trivial⟩,
    ⟨.any, months, trivial⟩, Or.inl ⟨week, .any, dows, trivial⟩⟩

theorem idle_silent (idle : e.Idle) (parts : ZonedParts) : ¬e.Matches parts := by
  rintro ⟨minute, hour, day, month, dow, _, minutes, hours, doms, months, dows⟩
  rcases idle with none_ | none_ | none_ | none_ | none_
  · exact none_ minute minutes
  · exact none_ hour hours
  · exact none_ day doms
  · exact none_ month months
  · exact none_ dow dows

variable (fields : CronFields) (read : CronFields.Of e fields) (platform : Platform) (timeZone : String) (after : Int)

include read

theorem scan_next (start : validTime after)
    (condition : if validTime (firstMinute after) then e.Kept ∨ e.Idle else ¬e.Every) :
    e.IsNext platform timeZone after
      (scanMinutes platform fields (if trim timeZone = "" then "UTC" else trim timeZone) cronHorizon (firstMinute after)) := by
  refine scan_is_next e platform timeZone after fields ?_ ?_
  · intro k few before hit
    rw [fires_grid e platform timeZone after k few]
    by_cases valid : validTime (firstMinute after + 60000 * (k : Int))
    · obtain ⟨minute, hour, day, month, dow, same, week⟩ := zoned_parts_valid platform _
        (if trim timeZone = "" then "UTC" else trim timeZone) valid
      exact ⟨valid, matches_meant e fields read _ minute hour day month dow week same hit⟩
    · rw [zoned_parts_invalid platform _ _ valid, matches_invalid e fields read] at hit
      by_cases first : validTime (firstMinute after)
      · -- A wildcard in every field stops the search where it starts.
        obtain ⟨minute, hour, day, month, dow, same, week⟩ := zoned_parts_valid platform _
          (if trim timeZone = "" then "UTC" else trim timeZone) first
        have meant := every_matches e hit minute hour day month dow week
        rw [← same] at meant
        have stops := kept_matches e fields read (every_kept e hit) _ meant
        cases k with
        | zero => exact absurd (by simpa using first) valid
        | succ k =>
            have missed := before 0 (Nat.succ_pos k)
            rw [Int.natCast_zero, mul_zero, add_zero, stops] at missed
            cases missed
      · rw [if_neg first] at condition
        exact absurd hit condition
  · intro t fires
    obtain ⟨k, few, rfl⟩ := (grid_time after t).mp ⟨fires.whole, fires.later, fires.near⟩
    by_cases first : validTime (firstMinute after)
    · rw [if_pos first] at condition
      rcases condition with kept | idle
      · exact kept_matches e fields read kept _ fires.fields
      · exact absurd fires.fields (idle_silent e idle _)
    · have instant := fires.instant
      have later := fires.later
      unfold validTime firstMinute at *
      omega

end conditions

section answers

theorem parse_steady (expression : String) : Steady fun fuel => parseCron fuel expression := by
  unfold parseCron
  split
  · rename_i minute hour dom month dow _
    refine steady_bind (fun fuel => expandField fuel minute 0 59) _ (field_steady 0 59 minute) fun minutes => ?_
    refine steady_bind (fun fuel => expandField fuel hour 0 23) _ (field_steady 0 23 hour) fun hours => ?_
    refine steady_bind (fun fuel => expandField fuel dom 1 31) _ (field_steady 1 31 dom) fun doms => ?_
    refine steady_bind (fun fuel => expandField fuel month 1 12) _ (field_steady 1 12 month) fun months => ?_
    exact steady_bind (fun fuel => expandDow fuel dow) _ (dow_steady dow) fun dows => steady_const _
  · exact steady_const _

-- The answer is the search's, whatever fuel it took to read the expression.
theorem run_answer (platform : Platform) (text timeZone : String) (after : Int) (fuel : Nat) (fields : CronFields)
    (parsed : parseCron fuel text = some (some fields)) (holds : Option Int → Prop) :
    (∃ fuel result, cronRun fuel platform text timeZone after = some result ∧ holds result) ↔
      holds (scanMinutes platform fields (if trim timeZone = "" then "UTC" else trim timeZone) cronHorizon (firstMinute after)) := by
  constructor
  · rintro ⟨more, result, ran, right⟩
    obtain ⟨read, parsed_, rfl⟩ := Option.map_eq_some_iff.mp ran
    have first := parse_steady text fuel (max fuel more) _ (Nat.le_max_left _ _) parsed
    have second := parse_steady text more (max fuel more) _ (Nat.le_max_right _ _) parsed_
    dsimp only at first second
    rw [first] at second
    cases second
    exact right
  · intro right
    refine ⟨fuel, _, ?_, right⟩
    rw [cronRun, parsed]
    rfl

-- A zone whose clock stands still.
def fixedZone (minute hour day month dow : Nat) : Platform where
  otherDate _ := none
  parseCron _ := none
  formatToParts _ _ :=
    (["Sun", "Mon", "Tue", "Wed", "Thu", "Fri", "Sat"][dow]?).map fun weekday => ⟨minute, hour, day, month, weekday⟩

theorem week_named (dow : Nat) (week : dow ≤ 6) :
    ∃ weekday, ["Sun", "Mon", "Tue", "Wed", "Thu", "Fri", "Sat"][dow]? = some weekday ∧ dowMap weekday = some dow := by
  have all : ∀ i : Fin 7, (["Sun", "Mon", "Tue", "Wed", "Thu", "Fri", "Sat"][(i : Nat)]?).bind dowMap = some (i : Nat) := by decide
  exact Option.bind_eq_some_iff.mp (all ⟨dow, by omega⟩)

theorem fixed_zone_parts (minute hour day month dow : Nat) (week : dow ≤ 6) (t : Int) (tz : String) (valid : validTime t) :
    zonedParts (fixedZone minute hour day month dow) t tz = ⟨some minute, some hour, some day, some month, some dow⟩ := by
  obtain ⟨weekday, written, read⟩ := week_named dow week
  rw [zonedParts, if_pos valid]
  simp [fixedZone, written, read]

theorem utc_zone_parts (t : Int) (valid : validTime t) : zonedParts utcMinutes t "UTC" = utcParts t := by
  obtain ⟨minute, hour, day, month, dow, utc, week⟩ := utc_parts_valid t valid
  obtain ⟨weekday, written, read⟩ := week_named dow week
  have zone : normalizeTz "UTC" = "UTC" := by decide
  rw [zonedParts, if_pos valid, zone]
  simp [utcMinutes, utc, written, read]

theorem meant_week (field : CronField) (v : Nat) (meant : field.MeansDay v) : v ≤ 6 := by
  rcases meant with ⟨low, _⟩ | ⟨rfl, _⟩
  · exact low
  · omega

-- Where the first minute shows what the fields mean, an exact answer admits it.
theorem exact_admits (e : CronExpression) (fields : CronFields) (read : CronFields.Of e fields) (after : Int)
    (first : validTime (firstMinute after)) (minute hour day month dow : Nat)
    (meant : e.minute.Means 0 59 minute ∧ e.hour.Means 0 23 hour ∧ e.dom.Means 1 31 day ∧ e.month.Means 1 12 month ∧
      e.dow.MeansDay dow)
    (next : e.IsNext (fixedZone minute hour day month dow) "UTC" after
      (scanMinutes (fixedZone minute hour day month dow) fields (if trim "UTC" = "" then "UTC" else trim "UTC") cronHorizon
        (firstMinute after))) :
    (.any ∈ e.minute ∨ ∃ item ∈ e.minute, item.Taken 0 59 minute) ∧ (.any ∈ e.hour ∨ ∃ item ∈ e.hour, item.Taken 0 23 hour) ∧
      (.any ∈ e.dom ∨ ∃ item ∈ e.dom, item.Taken 1 31 day) ∧ (.any ∈ e.month ∨ ∃ item ∈ e.month, item.Taken 1 12 month) ∧
        (.any ∈ e.dow ∨ ∃ item ∈ e.dow, item.TakenDay dow) := by
  have week := meant_week e.dow dow meant.2.2.2.2
  have shown := fixed_zone_parts minute hour day month dow week (firstMinute after)
    (if trim "UTC" = "" then "UTC" else trim "UTC") first
  have grid := fires_grid e (fixedZone minute hour day month dow) "UTC" after 0 (by unfold cronHorizon; omega)
  rw [Int.natCast_zero, mul_zero, add_zero, shown] at grid
  have hit := next_matches e _ "UTC" after fields next (grid.mpr ⟨first, minute, hour, day, month, dow, rfl, meant⟩)
  rw [shown] at hit
  exact (matches_valid e fields read minute hour day month dow).mp hit

theorem exact_kept (e : CronExpression) (fields : CronFields) (read : CronFields.Of e fields) (after : Int)
    (first : validTime (firstMinute after))
    (next : ∀ platform timeZone, e.IsNext platform timeZone after
      (scanMinutes platform fields (if trim timeZone = "" then "UTC" else trim timeZone) cronHorizon (firstMinute after)))
    (busy : ¬e.Idle) : e.Kept := by
  simp only [CronExpression.Idle, not_or, not_forall, not_not] at busy
  obtain ⟨⟨minute, minutes⟩, ⟨hour, hours⟩, ⟨day, doms⟩, ⟨month, months⟩, dow, dows⟩ := busy
  have admits := fun minute hour day month dow meant =>
    exact_admits e fields read after first minute hour day month dow meant (next _ _)
  exact ⟨fun v means => (admits v hour day month dow ⟨means, hours, doms, months, dows⟩).1,
    fun v means => (admits minute v day month dow ⟨minutes, means, doms, months, dows⟩).2.1,
    fun v means => (admits minute hour v month dow ⟨minutes, hours, means, months, dows⟩).2.2.1,
    fun v means => (admits minute hour day v dow ⟨minutes, hours, doms, means, dows⟩).2.2.2.1,
    fun v means => (admits minute hour day month v ⟨minutes, hours, doms, months, means⟩).2.2.2.2⟩

end answers

def digit (char : Char) (written : isDigit char = true) : Numeral := ⟨[char], by simp [written]⟩

@[simp] theorem digit_digits (char : Char) (written : isDigit char = true) : (digit char written).digits = [char] := rfl

-- An expression for midnight on some days of the week.
def midnight (dow : CronField) : CronExpression where
  minute := [.value (digit '0' (by decide))]
  hour := [.value (digit '0' (by decide))]
  dom := [.any]
  month := [.any]
  dow := dow

theorem midnight_formed (dow : CronField) (formed : dow.WellFormed 0 7) : (midnight dow).WellFormed where
  minute := by simp [midnight, CronField.WellFormed, CronItem.WellFormed, Numeral.value]
  hour := by simp [midnight, CronField.WellFormed, CronItem.WellFormed, Numeral.value]
  dom := by simp [midnight, CronField.WellFormed, CronItem.WellFormed]
  month := by simp [midnight, CronField.WellFormed, CronItem.WellFormed]
  dow := formed

theorem midnight_spells (dow : CronField) (text : String) (written : text.toList = "0 0 * * ".toList ++ dow.text) :
    (midnight dow).Spells text := by
  have blank : Blank [' '] ∧ [' '] ≠ [] := ⟨by simp [Blank, isTrimmed], by simp⟩
  have empty : Blank [] := fun _ member => by cases member
  refine ⟨[], [' '], [' '], [' '], [' '], [], ⟨empty, empty⟩, ⟨blank, blank, blank, blank⟩, ?_⟩
  rw [written]
  simp [midnight, CronField.text, CronItem.text, List.intercalate]

-- In every zone the run found is the least instant of the horizon the expression means, exactly when each value
-- a field means is taken by an item, or a field means nothing; past the last time value, when a field is no wildcard.
theorem next_run_exact_iff (e : CronExpression) (formed : e.WellFormed) (text : String) (spelled : e.Spells text) (after : Int)
    (start : validTime after) :
    (∀ platform timeZone, ∃ fuel result, cronRun fuel platform text timeZone after = some result ∧
      e.IsNext platform timeZone after result) ↔
        if validTime (firstMinute after) then e.Kept ∨ e.Idle else ¬e.Every := by
  obtain ⟨fuel, fields, parsed, read⟩ := parse_spelled e formed text spelled
  simp only [fun platform timeZone => run_answer platform text timeZone after fuel fields parsed]
  constructor
  · intro next
    by_cases first : validTime (firstMinute after)
    · rw [if_pos first]
      by_cases idle : e.Idle
      · exact Or.inr idle
      · exact Or.inl (exact_kept e fields read after first next idle)
    · rw [if_neg first]
      intro every
      have stuck := next utcMinutes "UTC"
      have stops : matchesFields fields (zonedParts utcMinutes (firstMinute after) (if trim "UTC" = "" then "UTC" else trim "UTC"))
          = true := by
        rw [zoned_parts_invalid _ _ _ first]
        exact (matches_invalid e fields read).mpr every
      rw [show cronHorizon = 527040 + 1 from rfl, scanMinutes, if_pos stops] at stuck
      exact first stuck.1.instant
  · intro condition platform timeZone
    exact scan_next e fields read platform timeZone after start condition

theorem next_run_exact_weekdays :
    (∀ platform timeZone, ∃ fuel result, cronRun fuel platform "0 0 * * 1-5" timeZone 0 = some result ∧
      (midnight [.range (digit '1' (by decide)) (digit '5' (by decide))]).IsNext platform timeZone 0 result) ↔
        if validTime (firstMinute 0) then (midnight [.range (digit '1' (by decide)) (digit '5' (by decide))]).Kept ∨
            (midnight [.range (digit '1' (by decide)) (digit '5' (by decide))]).Idle
        else ¬(midnight [.range (digit '1' (by decide)) (digit '5' (by decide))]).Every :=
  next_run_exact_iff _ (midnight_formed _ (by simp [CronField.WellFormed, CronItem.WellFormed, Numeral.value])) "0 0 * * 1-5"
    (midnight_spells _ _ (by decide)) 0 (by decide)

-- From Thursday 1970-01-01 every other day from Monday on means the Friday; the code waits for the Monday.
theorem every_other_day :
    (midnight [.valueStep (digit '1' (by decide)) (digit '2' (by decide))]).WellFormed ∧
      (midnight [.valueStep (digit '1' (by decide)) (digit '2' (by decide))]).Spells "0 0 * * 1/2" ∧
        ¬∃ fuel result, cronRun fuel utcMinutes "0 0 * * 1/2" "UTC" 0 = some result ∧
          (midnight [.valueStep (digit '1' (by decide)) (digit '2' (by decide))]).IsNext utcMinutes "UTC" 0 result := by
  have formed : (midnight [.valueStep (digit '1' (by decide)) (digit '2' (by decide))]).WellFormed :=
    midnight_formed _ (by simp [CronField.WellFormed, CronItem.WellFormed, Numeral.value])
  have spelled : (midnight [.valueStep (digit '1' (by decide)) (digit '2' (by decide))]).Spells "0 0 * * 1/2" :=
    midnight_spells _ _ (by decide)
  refine ⟨formed, spelled, ?_⟩
  obtain ⟨fuel, fields, parsed, read⟩ := parse_spelled _ formed _ spelled
  rw [run_answer utcMinutes _ "UTC" 0 fuel fields parsed]
  have zone : (if trim "UTC" = "" then "UTC" else trim "UTC") = "UTC" := by decide
  rw [zone]
  intro next
  have friday : (midnight [.valueStep (digit '1' (by decide)) (digit '2' (by decide))]).Fires utcMinutes "UTC" 0 86400000 := by
    refine ⟨by decide, by decide, by decide, by decide, ?_⟩
    rw [zone, utc_zone_parts _ (by decide)]
    refine ⟨0, 0, 2, 1, 5, rfl, ?_⟩
    simp [midnight, CronField.Means, CronField.MeansDay, CronItem.means, Numeral.value]
    exact ⟨2, rfl⟩
  cases found : scanMinutes utcMinutes fields "UTC" cronHorizon (firstMinute 0) with
  | none =>
      rw [found] at next
      exact next _ friday
  | some run =>
      rw [found] at next
      have soon := next.2 _ friday
      have later := next.1.later
      obtain ⟨k, few, rfl, hit, _⟩ := (scan_minutes_some _ _ _ _ _ _).mp found
      rw [utc_zone_parts _ next.1.instant, utcParts, if_pos next.1.instant, matches_valid _ fields read] at hit
      obtain ⟨_, _, _, _, days⟩ := hit
      simp [midnight, CronItem.TakenDay, CronItem.Counts, CronItem.daily, CronItem.means, Numeral.value] at days
      omega

end Vacps
