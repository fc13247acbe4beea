import Vacps.Contracts.IsoDate
import Vacps.Contracts.Schedule
import Vacps.Library.Chain

/- contracts/cron-next.ts. Expression parsing, Intl and the date formats beyond ISO are answered by
   a Platform: no result here depends on which fields an expression selects or what a zone does. -/
set_option autoImplicit false

namespace Vacps

open Library Library.CivilDate

-- A set that is none is the wildcard; an empty one matches nothing.
structure CronFields where
  minutes : Option (List Rat)
  hours : Option (List Rat)
  doms : Option (List Rat)
  months : Option (List Rat)
  dows : Option (List Rat)
deriving DecidableEq

-- The parts of an invalid Date are NaN: none.
structure ZonedParts where
  minute : Option Nat
  hour : Option Nat
  day : Option Nat
  month : Option Nat
  dow : Option Nat

structure IntlParts where
  minute : Nat
  hour : Nat
  day : Nat
  month : Nat
  weekday : String

structure Platform where
  otherDate : String → Option Int
  parseCron : String → Option CronFields
  formatToParts : String → Int → Option IntlParts

def Platform.dateParse (platform : Platform) (text : String) : Option Int := Vacps.dateParse platform.otherDate text

-- The white space and line terminators String#trim removes.
def isTrimmed (char : Char) : Bool :=
  [9, 10, 11, 12, 13, 32, 0xA0, 0x1680, 0x2028, 0x2029, 0x202F, 0x205F, 0x3000, 0xFEFF].contains char.toNat ||
    (0x2000 ≤ char.toNat && char.toNat ≤ 0x200A)

def trim (text : String) : String :=
  String.ofList ((text.toList.dropWhile isTrimmed).reverse.dropWhile isTrimmed).reverse

def normalizeTz (tz : String) : String :=
  if trim tz ∈ ["", "Etc/UTC", "GMT", "Z"] then "UTC" else trim tz

def utcParts (ms : Int) : ZonedParts :=
  if validTime ms then
    let civil := civilOfDays (ms / 86400000)
    { minute := some (ms / 60000 % 60).toNat
      hour := some (ms / 3600000 % 24).toNat
      day := some civil.day
      month := some civil.month
      dow := some ((ms / 86400000 + 4) % 7).toNat }
  else ⟨none, none, none, none, none⟩

def dowMap (weekday : String) : Option Nat :=
  [("Sun", 0), ("Mon", 1), ("Tue", 2), ("Wed", 3), ("Thu", 4), ("Fri", 5), ("Sat", 6)].lookup weekday

-- A zone Intl rejects, and an invalid Date, fall back to the UTC wall clock.
def zonedParts (platform : Platform) (ms : Int) (timeZone : String) : ZonedParts :=
  match (if validTime ms then platform.formatToParts (normalizeTz timeZone) ms else none) with
  | some bag => ⟨some bag.minute, some bag.hour, some bag.day, some bag.month, (dowMap bag.weekday).or (utcParts ms).dow⟩
  | none => utcParts ms

def matchesFields (fields : CronFields) (parts : ZonedParts) : Bool :=
  let allowed (set : Option (List Rat)) (value : Option Nat) : Bool :=
    set.all fun members => value.any fun number => members.contains (number : Rat)
  allowed fields.minutes parts.minute && allowed fields.hours parts.hour && allowed fields.months parts.month &&
    allowed fields.doms parts.day && allowed fields.dows parts.dow

-- 366 days of minutes, both ends included: the iterations of `for (; t <= limit; t += 60_000)`.
def cronHorizon : Nat := 366 * 24 * 60 + 1

def scanMinutes (platform : Platform) (fields : CronFields) (tz : String) : Nat → Int → Option Int
  | 0, _ => none
  | n + 1, t =>
      if matchesFields fields (zonedParts platform t tz) then some t else scanMinutes platform fields tz n (t + 60000)

def nextCronRunAfter (platform : Platform) (expression timeZone : String) (after : Int) : Option Int :=
  (platform.parseCron expression).bind fun fields =>
    scanMinutes platform fields (if trim timeZone = "" then "UTC" else trim timeZone) cronHorizon
      (after / 60000 * 60000 + 60000)

-- A run past the last time value is an invalid Date, for which canonicalUtcIso answers undefined.
def nextCronRunAtIso (platform : Platform) (expression timeZone : String) (after : Int) : Option String :=
  (nextCronRunAfter platform expression timeZone after).bind fun run => canonicalUtcIso (timeClip run)

def advanceSteps (platform : Platform) (expression timeZone : String) : Nat → Int → Option String → Option String
  | 0, _, last => last
  | n + 1, cursorMs, _ =>
      match nextCronRunAtIso platform expression timeZone cursorMs with
      | none => none
      | some last =>
          match platform.dateParse last with
          | none => none
          | some ms => advanceSteps platform expression timeZone n ms (some last)

def advancePastBacklog (platform : Platform) (expression timeZone : String) (nowMs : Int) : Nat → Int → Option String
  | 0, cursorMs => nextCronRunAtIso platform expression timeZone cursorMs
  | n + 1, cursorMs =>
      match nextCronRunAtIso platform expression timeZone cursorMs with
      | none => none
      | some next =>
          match platform.dateParse next with
          | none => none
          | some nextMs =>
              if nowMs < nextMs then some next else advancePastBacklog platform expression timeZone nowMs n nextMs

def authoritativeNextAfterOccurrence (platform : Platform) (expression timeZone scheduledFor : String) (nowMs : Int)
    (misfire : Misfire) (enqueuedCount : Int) : Option String :=
  match platform.dateParse scheduledFor with
  | none => none
  | some start =>
      match misfire with
      | .catch_up =>
          advanceSteps platform expression timeZone (min (MAX_ADVANCE_STEPS : Int) (max 1 enqueuedCount)).toNat start none
      | _ => advancePastBacklog platform expression timeZone nowMs MAX_ADVANCE_STEPS start

theorem scan_minutes_from (platform : Platform) (fields : CronFields) (tz : String) (n : Nat) (t run : Int)
    (found : scanMinutes platform fields tz n t = some run) : t ≤ run := by
  induction n generalizing t with
  | zero => cases found
  | succ n ih =>
      rw [scanMinutes] at found
      split at found
      · cases found
        exact Int.le_refl _
      · have later := ih (t + 60000) found
        omega

theorem next_cron_run_later (platform : Platform) (expression timeZone : String) (after run : Int)
    (found : nextCronRunAfter platform expression timeZone after = some run) : after < run := by
  obtain ⟨fields, _, scanned⟩ := Option.bind_eq_some_iff.mp found
  have start := scan_minutes_from platform fields _ _ _ run scanned
  omega

-- The cron chain: iterated nextCronRunAfter, as far as time values go.
def cronChain (platform : Platform) (expression timeZone : String) : Chain Int where
  next after := (nextCronRunAfter platform expression timeZone after).bind timeClip
  later after run found := by
    obtain ⟨time, searched, clipped⟩ := Option.bind_eq_some_iff.mp found
    unfold timeClip at clipped
    split at clipped
    · cases clipped
      exact next_cron_run_later platform expression timeZone after run searched
    · cases clipped

section chain

variable (platform : Platform) (expression timeZone : String)

theorem cron_chain_next_valid (after run : Int) (found : (cronChain platform expression timeZone).next after = some run) :
    validTime run := by
  obtain ⟨time, _, clipped⟩ := Option.bind_eq_some_iff.mp found
  exact time_clip_valid time run clipped

theorem cron_chain_nth_valid (start run : Int) (n : Nat) (valid : validTime start)
    (reached : (cronChain platform expression timeZone).nth start n = some run) : validTime run := by
  cases n with
  | zero =>
      cases reached
      exact valid
  | succ n =>
      obtain ⟨middle, _, step⟩ := Option.bind_eq_some_iff.mp reached
      exact cron_chain_next_valid platform expression timeZone middle run step

theorem next_iso_of_chain (after : Int) :
    nextCronRunAtIso platform expression timeZone after =
      ((cronChain platform expression timeZone).next after).map toISOString := by
  simp only [nextCronRunAtIso, canonicalUtcIso, cronChain]
  cases nextCronRunAfter platform expression timeZone after <;> rfl

theorem platform_parse_iso (ms : Int) (valid : validTime ms) : platform.dateParse (toISOString ms) = some ms :=
  date_parse_iso platform.otherDate ms valid

theorem advance_steps_of_chain (n : Nat) (cursor : Int) (last : Option String) :
    advanceSteps platform expression timeZone (n + 1) cursor last =
      ((cronChain platform expression timeZone).nth cursor (n + 1)).map toISOString := by
  induction n generalizing cursor last with
  | zero =>
      rw [advanceSteps, next_iso_of_chain, Chain.nth_from_next]
      cases step : (cronChain platform expression timeZone).next cursor with
      | none => rfl
      | some run =>
          have valid := cron_chain_next_valid platform expression timeZone cursor run step
          simp [platform_parse_iso platform run valid, advanceSteps, Chain.nth_zero]
  | succ n ih =>
      rw [advanceSteps, next_iso_of_chain, Chain.nth_from_next]
      cases step : (cronChain platform expression timeZone).next cursor with
      | none => rfl
      | some run =>
          have valid := cron_chain_next_valid platform expression timeZone cursor run step
          simp only [Option.map_some, platform_parse_iso platform run valid, Option.bind_some]
          exact ih run (some (toISOString run))

theorem advance_past_of_chain (nowMs : Int) (n : Nat) (cursor : Int) :
    advancePastBacklog platform expression timeZone nowMs n cursor =
      ((cronChain platform expression timeZone).escape nowMs n cursor).map toISOString := by
  induction n generalizing cursor with
  | zero => rw [advancePastBacklog, next_iso_of_chain, Chain.escape]
  | succ n ih =>
      rw [advancePastBacklog, next_iso_of_chain, Chain.escape]
      cases step : (cronChain platform expression timeZone).next cursor with
      | none => rfl
      | some run =>
          have valid := cron_chain_next_valid platform expression timeZone cursor run step
          simp only [Option.map_some, platform_parse_iso platform run valid]
          split
          · rfl
          · exact ih run

-- The helper's answer on the chain: counted steps for catch_up, the first slot past now otherwise.
theorem authoritative_next_of_chain (start nowMs : Int) (misfire : Misfire) (enqueuedCount : Int) (valid : validTime start) :
    authoritativeNextAfterOccurrence platform expression timeZone (toISOString start) nowMs misfire enqueuedCount =
      (if misfire = .catch_up then
        (cronChain platform expression timeZone).nth start (min (MAX_ADVANCE_STEPS : Int) (max 1 enqueuedCount)).toNat
      else (cronChain platform expression timeZone).escape nowMs MAX_ADVANCE_STEPS start).map toISOString := by
  rw [authoritativeNextAfterOccurrence, platform_parse_iso platform start valid]
  cases misfire with
  | catch_up =>
      have positive : ∃ n, (min (MAX_ADVANCE_STEPS : Int) (max 1 enqueuedCount)).toNat = n + 1 :=
        ⟨_, (Nat.sub_add_cancel (by unfold MAX_ADVANCE_STEPS; omega)).symm⟩
      obtain ⟨n, steps⟩ := positive
      simp only [steps, if_true]
      exact advance_steps_of_chain platform expression timeZone n start none
  | skip => simpa using advance_past_of_chain platform expression timeZone nowMs MAX_ADVANCE_STEPS start
  | run_once => simpa using advance_past_of_chain platform expression timeZone nowMs MAX_ADVANCE_STEPS start

end chain

-- A platform for concrete runs: ISO dates only, the every-minute expression, the UTC zone.
def utcMinutes : Platform where
  otherDate _ := none
  parseCron expression := if expression = "* * * * *" then some ⟨none, none, none, none, none⟩ else none
  formatToParts zone ms :=
    if zone = "UTC" then
      match utcParts ms with
      | ⟨some minute, some hour, some day, some month, some dow⟩ =>
          (["Sun", "Mon", "Tue", "Wed", "Thu", "Fri", "Sat"][dow]?).map fun weekday => ⟨minute, hour, day, month, weekday⟩
      | _ => none
    else none

theorem utc_minutes_parse_epoch : utcMinutes.dateParse "1970-01-01T00:00:00.000Z" = some 0 := by decide

theorem utc_minutes_next (after : Int) :
    (cronChain utcMinutes "* * * * *" "UTC").next after = timeClip (after / 60000 * 60000 + 60000) := by
  have parsed : utcMinutes.parseCron "* * * * *" = some ⟨none, none, none, none, none⟩ := rfl
  have scanned : ∀ t zone, scanMinutes utcMinutes ⟨none, none, none, none, none⟩ zone cronHorizon t = some t := by
    intro t zone
    rw [show cronHorizon = 527040 + 1 from rfl, scanMinutes]
    simp [matchesFields]
  simp only [cronChain, nextCronRunAfter, parsed, Option.bind_some, scanned]

theorem utc_minutes_nth (minute : Int) (n : Nat) (low : 0 ≤ minute) (high : minute + n ≤ 144000000000) :
    (cronChain utcMinutes "* * * * *" "UTC").nth (minute * 60000) n = some ((minute + n) * 60000) := by
  induction n with
  | zero => simp [Chain.nth_zero]
  | succ n ih =>
      have valid : validTime ((minute + n) * 60000 / 60000 * 60000 + 60000) := by
        unfold validTime maxTime
        omega
      rw [Chain.nth_succ, ih (by omega), Option.bind_some, utc_minutes_next, timeClip, if_pos valid]
      congr 1
      push_cast
      omega

end Vacps
