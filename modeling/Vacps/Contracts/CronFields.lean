import Vacps.Contracts.Doubles

/- parseCron of contracts/cron-next.ts, with its loops over doubles. A loop that has not ended when the fuel
   is used up has no answer. -/
set_option autoImplicit false

namespace Vacps

section texts

def numberOf (text : List Char) : Double := toNumber (String.ofList text)

-- split(/\s+/) of a trimmed text
def splitSpaces (text : List Char) : List (List Char) :=
  if text = [] then [[]] else (text.splitOnP isTrimmed).filter (· ≠ [])

def piece (separator : Char) (text : List Char) (i : Nat) : List Char := (text.splitOn separator)[i]?.getD []

end texts

section loops

-- for (let v = a; v <= b; v += step)
structure CronLoop where
  a : Double
  b : Double
  step : Double
deriving DecidableEq, Repr

def CronLoop.run (loop : CronLoop) (fuel : Nat) : Option (List Double) := countUp loop.b loop.step fuel loop.a

def rangeLoop (range : List Char) (step : Double) : CronLoop := ⟨numberOf (piece '-' range 0), numberOf (piece '-' range 1), step⟩

-- Number.isInteger(step) && step > 0
def stepAdmitted (step : Double) : Bool := step.isInteger && !step.le (.finite 0)

def fieldLoop (min max : Nat) (part : List Char) : Option CronLoop :=
  if part.contains '/' then
    let range := piece '/' part 0
    let step := numberOf (piece '/' part 1)
    if !stepAdmitted step then none
    else if range ≠ [] ∧ range ≠ ['*'] then
      if range.contains '-' then some (rangeLoop range step) else some ⟨numberOf range, .finite max, step⟩
    else some ⟨.finite min, .finite max, step⟩
  else if part.contains '-' then some (rangeLoop part (.finite 1))
  else none

def dowLoop (part : List Char) : Option CronLoop :=
  if part.contains '/' then
    let range := piece '/' part 0
    let step := numberOf (piece '/' part 1)
    if !stepAdmitted step then none
    else if range = ['*'] ∨ range = [] then some ⟨.finite 0, .finite 6, step⟩
    else if range.contains '-' then some (rangeLoop range step)
    else some ⟨numberOf range, numberOf range, step⟩
  else if part.contains '-' then some (rangeLoop part (.finite 1))
  else none

-- What is added to the set, when it is a number.
def admitted (min max : Nat) : Double → Option Rat
  | .finite v => if min ≤ v ∧ v ≤ max then some v else none
  | _ => none

-- v % 7
def weekRemainder (v : Rat) : Rat := v - 7 * (if 0 ≤ v then (v / 7).floor else (v / 7).ceil)

def dayOfWeek (stepped : Bool) : Double → Option Rat
  | .finite v => some (if v = 7 then 0 else if stepped then weekRemainder v else v)
  | _ => none

def single (value : Double) : List Double := if value.isInteger then [value] else []

def fieldPart (min max fuel : Nat) (part : List Char) : Option (List Rat) :=
  match fieldLoop min max part with
  | some loop => (loop.run fuel).map fun values => values.filterMap (admitted min max)
  | none => some (if part.contains '/' then [] else (single (numberOf part)).filterMap (admitted min max))

def dowPart (fuel : Nat) (part : List Char) : Option (List Rat) :=
  match dowLoop part with
  | some loop => (loop.run fuel).map fun values => values.filterMap (dayOfWeek (part.contains '/'))
  | none => some (if part.contains '/' then [] else (single (numberOf part)).filterMap (dayOfWeek false))

-- A part that is the wildcard makes the field one.
def expandParts (expand : List Char → Option (List Rat)) : List (List Char) → Option (Option (List Rat))
  | [] => some (some [])
  | part :: rest =>
      if part = ['*'] then some none
      else
        match expand part with
        | none => none
        | some out => (expandParts expand rest).map fun later => later.map (out ++ ·)

def expandField (fuel : Nat) (field : List Char) (min max : Nat) : Option (Option (List Rat)) :=
  if field = ['*'] then some none else expandParts (fieldPart min max fuel) (field.splitOn ',')

def expandDow (fuel : Nat) (field : List Char) : Option (Option (List Rat)) :=
  if field = ['*'] then some none else expandParts (dowPart fuel) (field.splitOn ',')

def parseCron (fuel : Nat) (expression : String) : Option (Option CronFields) :=
  match splitSpaces (trim expression).toList with
  | [min, hour, dom, mon, dow] => do
      let minutes ← expandField fuel min 0 59
      let hours ← expandField fuel hour 0 23
      let doms ← expandField fuel dom 1 31
      let months ← expandField fuel mon 1 12
      let dows ← expandDow fuel dow
      pure (some ⟨minutes, hours, doms, months, dows⟩)
  | _ => some none

-- nextCronRunAfter from the text on; the search over the minutes is bounded by itself.
def cronRun (fuel : Nat) (platform : Platform) (expression timeZone : String) (after : Int) : Option (Option Int) :=
  (parseCron fuel expression).map fun fields =>
    fields.bind fun fields =>
      scanMinutes platform fields (if trim timeZone = "" then "UTC" else trim timeZone) cronHorizon (after / 60000 * 60000 + 60000)

-- A platform that answers what the loops end with runs as the text says.
theorem cron_run_platform (fuel : Nat) (platform : Platform) (expression timeZone : String) (after : Int)
    (fields : Option CronFields) (parsed : parseCron fuel expression = some fields)
    (answers : platform.parseCron expression = fields) :
    cronRun fuel platform expression timeZone after = some (nextCronRunAfter platform expression timeZone after) := by
  rw [cronRun, parsed, nextCronRunAfter, answers]
  rfl

example : parseCron 80 "*/20 9-11,23 1 * 5/3,7" =
    some (some ⟨some [0, 20, 40], some [9, 10, 11, 23], some [1], none, some [5, 0]⟩) := by decide +kernel

end loops

end Vacps
