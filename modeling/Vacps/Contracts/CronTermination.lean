import Vacps.Contracts.CronFields
import Vacps.Library.Fuel
import Vacps.Library.Segments

/- Which cron expressions the loops of parseCron come to an end on. -/
set_option autoImplicit false

namespace Vacps

open Library

section conditions

-- The step moves every double from the start to the bound.
def CronLoop.Progresses (loop : CronLoop) : Prop :=
  ∀ v : Double, v.Unsigned → loop.a.le v = true → v.le loop.b = true → v.add loop.step ≠ v

-- The loops of a field, as far as its parts are read: a wildcard ends the field.
def fieldLoops (loopOf : List Char → Option CronLoop) (field : List Char) : List CronLoop :=
  ((field.splitOn ',').takeWhile (· ≠ ['*'])).filterMap loopOf

def loopsOf (expression : String) : List CronLoop :=
  match splitSpaces (trim expression).toList with
  | [min, hour, dom, mon, dow] =>
      fieldLoops (fieldLoop 0 59) min ++ (fieldLoops (fieldLoop 0 23) hour ++ (fieldLoops (fieldLoop 1 31) dom ++
        (fieldLoops (fieldLoop 1 12) mon ++ fieldLoops dowLoop dow)))
  | _ => []

end conditions

section unsigned

theorem radix_nonneg (radix : Nat) (digits : List Char) (value : Rat)
    (read : Option.map (fun value : Rat => value) (do let digits ← inRadix radix digits; pure (digits : Rat)) = some value) :
    0 ≤ value := by
  obtain ⟨_, written, rfl⟩ := Option.map_eq_some_iff.mp read
  obtain ⟨n, _, same⟩ := Option.bind_eq_some_iff.mp written
  rw [← Option.some.inj same]
  exact Nat.cast_nonneg n

theorem ten_pos (exponent : Int) : 0 < powerOfTen exponent := by
  unfold powerOfTen
  split <;> positivity

theorem decimal_nonneg (chars : List Char) (value : Rat) (read : unsignedDecimal chars = some value) : 0 ≤ value := by
  unfold unsignedDecimal at read
  dsimp only at read
  split at read
  · cases read
    exact mul_nonneg (Nat.cast_nonneg _) (ten_pos _).le
  · cases read

theorem literal_nonneg (chars : List Char) (plain : '-' ∉ chars) (value : Rat) (read : stringNumericLiteral chars = some value) :
    0 ≤ value := by
  have positive : (signed chars).1 = 1 := by
    unfold signed
    split
    · rfl
    · exact absurd List.mem_cons_self plain
    · rfl
  unfold stringNumericLiteral at read
  split at read
  · cases read
    exact le_refl 0
  · split at read
    · exact radix_nonneg 16 _ value read
    · split at read
      · exact radix_nonneg 8 _ value read
      · split at read
        · exact radix_nonneg 2 _ value read
        · exact decimal_nonneg _ value read
  · obtain ⟨magnitude, decimal, rfl⟩ := Option.map_eq_some_iff.mp read
    rw [positive, Int.cast_one, one_mul]
    exact decimal_nonneg _ magnitude decimal

theorem trim_inside (text : String) (char : Char) (inside : char ∈ (trim text).toList) : char ∈ text.toList := by
  rw [trim, String.toList_ofList, List.mem_reverse] at inside
  have front := (List.dropWhile_sublist _).mem inside
  rw [List.mem_reverse] at front
  exact (List.dropWhile_sublist _).mem front

-- A numeral without a minus sign is no number below zero.
theorem number_unsigned (text : List Char) (plain : '-' ∉ text) : (numberOf text).Unsigned := by
  have plain_ : '-' ∉ (trim (String.ofList text)).toList := by
    intro inside
    have deeper := trim_inside _ _ inside
    rw [String.toList_ofList] at deeper
    exact plain deeper
  unfold numberOf toNumber
  split
  · exact rfl
  · split
    · rename_i same
      rw [same] at plain_
      exact absurd (by decide) plain_
    · split
      · rename_i value read
        exact Double.of_unsigned value (literal_nonneg _ plain_ value read)
      · exact trivial

theorem piece_plain (separator : Char) (text : List Char) (i : Nat) : separator ∉ piece separator text i := by
  unfold piece
  cases found : (text.splitOn separator)[i]? with
  | none => simp
  | some name => exact split_plain separator text name (List.mem_of_getElem? found)

theorem natural_unsigned (n : Nat) (small : n < 2 ^ 53) : (Double.finite n).Unsigned := ⟨Nat.cast_nonneg n, natural_exact n small⟩

theorem step_positive (step : Double) (admitted : stepAdmitted step = true) : ∃ value, step = .finite value ∧ 0 < value := by
  rw [stepAdmitted, Bool.and_eq_true] at admitted
  cases step with
  | nan => cases admitted.1
  | infinite negative => cases admitted.1
  | finite value =>
      refine ⟨value, rfl, ?_⟩
      have above := admitted.2
      simp only [Double.le, Bool.not_eq_true', decide_eq_false_iff_not, not_le] at above
      exact above

def CronLoop.Counts (loop : CronLoop) : Prop := loop.a.Unsigned ∧ ∃ value, loop.step = .finite value ∧ 0 < value

theorem counts (a b step : Double) (unsigned : a.Unsigned) (value : Rat) (finite : step = .finite value) (positive : 0 < value) :
    CronLoop.Counts ⟨a, b, step⟩ := ⟨unsigned, value, finite, positive⟩

theorem range_counts (range : List Char) (step : Double) (value : Rat) (finite : step = .finite value) (positive : 0 < value) :
    (rangeLoop range step).Counts := counts _ _ step (number_unsigned _ (piece_plain '-' range 0)) value finite positive

theorem field_counts (min max : Nat) (small : min < 2 ^ 53) (part : List Char) (loop : CronLoop)
    (found : fieldLoop min max part = some loop) : loop.Counts := by
  unfold fieldLoop at found
  dsimp only at found
  split at found
  · split at found
    · cases found
    · rename_i admitted
      rw [Bool.not_eq_true', Bool.not_eq_false] at admitted
      obtain ⟨value, finite, positive⟩ := step_positive _ admitted
      split at found
      · split at found
        · rw [← Option.some.inj found]
          exact range_counts _ _ value finite positive
        · rename_i plain
          rw [← Option.some.inj found]
          exact counts _ _ _ (number_unsigned _ (by simpa using plain)) value finite positive
      · rw [← Option.some.inj found]
        exact counts _ _ _ (natural_unsigned min small) value finite positive
  · split at found
    · rw [← Option.some.inj found]
      exact range_counts _ _ 1 rfl one_pos
    · cases found

theorem dow_counts (part : List Char) (loop : CronLoop) (found : dowLoop part = some loop) : loop.Counts := by
  unfold dowLoop at found
  dsimp only at found
  split at found
  · split at found
    · cases found
    · rename_i admitted
      rw [Bool.not_eq_true', Bool.not_eq_false] at admitted
      obtain ⟨value, finite, positive⟩ := step_positive _ admitted
      split at found
      · rw [← Option.some.inj found]
        exact counts _ _ _ (natural_unsigned 0 (by norm_num)) value finite positive
      · split at found
        · rw [← Option.some.inj found]
          exact range_counts _ _ value finite positive
        · rename_i plain
          rw [← Option.some.inj found]
          exact counts _ _ _ (number_unsigned _ (by simpa using plain)) value finite positive
  · split at found
    · rw [← Option.some.inj found]
      exact range_counts _ _ 1 rfl one_pos
    · cases found

end unsigned

section ending

theorem count_steady (b step v : Double) : Steady fun fuel => countUp b step fuel v := by
  intro fuel more value enough ended
  induction fuel generalizing more v value with
  | zero => cases ended
  | succ fuel ih =>
      obtain ⟨rest, rfl⟩ := Nat.exists_eq_add_of_le' enough
      rw [← Nat.add_assoc]
      dsimp only at ih ended ⊢
      rw [countUp] at ended ⊢
      split at ended
      · rename_i inside
        obtain ⟨later, reached, rfl⟩ := Option.map_eq_some_iff.mp ended
        rw [if_pos inside, ih (v.add step) (rest + fuel) later (Nat.le_add_left _ _) reached]
        rfl
      · rename_i past
        rw [if_neg past]
        exact ended

theorem loop_ends (loop : CronLoop) (counts : loop.Counts) : (Halts fun fuel => loop.run fuel) ↔ loop.Progresses := by
  obtain ⟨unsigned, value, finite, positive⟩ := counts
  unfold Halts CronLoop.run CronLoop.Progresses
  rw [finite]
  exact count_ends_iff loop.a loop.b value positive unsigned

theorem field_part_steady (min max : Nat) (part : List Char) : Steady fun fuel => fieldPart min max fuel part := by
  unfold fieldPart
  cases fieldLoop min max part with
  | none => exact steady_const _
  | some loop => exact steady_map _ _ (count_steady loop.b loop.step loop.a)

theorem dow_part_steady (part : List Char) : Steady fun fuel => dowPart fuel part := by
  unfold dowPart
  cases dowLoop part with
  | none => exact steady_const _
  | some loop => exact steady_map _ _ (count_steady loop.b loop.step loop.a)

theorem field_part_ends (min max : Nat) (small : min < 2 ^ 53) (part : List Char) :
    (Halts fun fuel => fieldPart min max fuel part) ↔ ∀ loop, fieldLoop min max part = some loop → loop.Progresses := by
  unfold fieldPart
  cases found : fieldLoop min max part with
  | none => exact iff_of_true (halts_const _) fun _ none_ => by cases none_
  | some loop =>
      rw [halts_map, loop_ends loop (field_counts min max small part loop found)]
      exact ⟨fun progress _ same => Option.some.inj same ▸ progress, fun all => all loop rfl⟩

theorem dow_part_ends (part : List Char) :
    (Halts fun fuel => dowPart fuel part) ↔ ∀ loop, dowLoop part = some loop → loop.Progresses := by
  unfold dowPart
  cases found : dowLoop part with
  | none => exact iff_of_true (halts_const _) fun _ none_ => by cases none_
  | some loop =>
      rw [halts_map, loop_ends loop (dow_counts part loop found)]
      exact ⟨fun progress _ same => Option.some.inj same ▸ progress, fun all => all loop rfl⟩

section parts

variable (expand : Nat → List Char → Option (List Rat)) (steady : ∀ part, Steady fun fuel => expand fuel part)

theorem expand_cons (fuel : Nat) (part : List Char) (rest : List (List Char)) (named : part ≠ ['*']) :
    expandParts (expand fuel) (part :: rest) =
      (expand fuel part).bind fun out => (expandParts (expand fuel) rest).map fun later => later.map (out ++ ·) := by
  rw [expandParts, if_neg named]
  cases expand fuel part <;> rfl

include steady

theorem parts_steady (parts : List (List Char)) : Steady fun fuel => expandParts (expand fuel) parts := by
  induction parts with
  | nil => exact steady_const _
  | cons part rest ih =>
      by_cases wildcard : part = ['*']
      · simp only [expandParts, if_pos wildcard]
        exact steady_const _
      · simp only [expand_cons expand _ part rest wildcard]
        exact steady_bind _ _ (steady part) fun out => steady_map _ _ ih

theorem parts_end (loopOf : List Char → Option CronLoop)
    (each : ∀ part, (Halts fun fuel => expand fuel part) ↔ ∀ loop, loopOf part = some loop → loop.Progresses)
    (parts : List (List Char)) :
    (Halts fun fuel => expandParts (expand fuel) parts) ↔
      ∀ loop ∈ (parts.takeWhile (· ≠ ['*'])).filterMap loopOf, loop.Progresses := by
  induction parts with
  | nil => exact iff_of_true (halts_const _) (by simp)
  | cons part rest ih =>
      by_cases wildcard : part = ['*']
      · simp only [expandParts, if_pos wildcard]
        exact iff_of_true (halts_const _) (by simp [wildcard])
      · simp only [expand_cons expand _ part rest wildcard]
        rw [halts_bind _ _ (steady part) (fun out => steady_map _ _ (parts_steady expand steady rest)) _
          (fun out => (halts_map _ _).trans ih), each part, List.takeWhile_cons_of_pos (by simpa using wildcard)]
        cases found : loopOf part with
        | none => simp [found]
        | some loop => simp [found]

end parts

theorem field_steady (min max : Nat) (field : List Char) : Steady fun fuel => expandField fuel field min max := by
  unfold expandField
  split
  · exact steady_const _
  · exact parts_steady (fieldPart min max) (field_part_steady min max) _

theorem dow_steady (field : List Char) : Steady fun fuel => expandDow fuel field := by
  unfold expandDow
  split
  · exact steady_const _
  · exact parts_steady dowPart dow_part_steady _

theorem wildcard_loops (loopOf : List Char → Option CronLoop) : fieldLoops loopOf ['*'] = [] := by
  rw [fieldLoops, List.splitOn_eq_singleton (by decide)]
  rfl

theorem field_ends (min max : Nat) (small : min < 2 ^ 53) (field : List Char) :
    (Halts fun fuel => expandField fuel field min max) ↔ ∀ loop ∈ fieldLoops (fieldLoop min max) field, loop.Progresses := by
  unfold expandField
  split
  · rename_i wildcard
    subst wildcard
    exact iff_of_true (halts_const _) (by simp [wildcard_loops])
  · exact parts_end (fieldPart min max) (field_part_steady min max) (fieldLoop min max) (field_part_ends min max small) _

theorem dow_ends (field : List Char) : (Halts fun fuel => expandDow fuel field) ↔ ∀ loop ∈ fieldLoops dowLoop field, loop.Progresses := by
  unfold expandDow
  split
  · rename_i wildcard
    subst wildcard
    exact iff_of_true (halts_const _) (by simp [wildcard_loops])
  · exact parts_end dowPart dow_part_steady dowLoop dow_part_ends _

-- Five computations one after the other.
theorem fields_end {α : Type} (first second third fourth fifth : Nat → Option α) (result : α → α → α → α → α → CronFields)
    (steady : Steady first ∧ Steady second ∧ Steady third ∧ Steady fourth ∧ Steady fifth) :
    (Halts fun fuel => do
      let a ← first fuel
      let b ← second fuel
      let c ← third fuel
      let d ← fourth fuel
      let e ← fifth fuel
      pure (some (result a b c d e))) ↔ Halts first ∧ Halts second ∧ Halts third ∧ Halts fourth ∧ Halts fifth := by
  obtain ⟨steadyFirst, steadySecond, steadyThird, steadyFourth, steadyFifth⟩ := steady
  have last : ∀ a b c d, Steady fun fuel => (fifth fuel).bind fun e => some (some (result a b c d e)) :=
    fun a b c d => steady_bind fifth (fun e _ => some (some (result a b c d e))) steadyFifth fun e => steady_const _
  have later : ∀ a b c, Steady fun fuel => (fourth fuel).bind fun d => (fifth fuel).bind fun e => some (some (result a b c d e)) :=
    fun a b c => steady_bind fourth _ steadyFourth fun d => last a b c d
  have inner : ∀ a b, Steady fun fuel => (third fuel).bind fun c => (fourth fuel).bind fun d => (fifth fuel).bind fun e =>
      some (some (result a b c d e)) := fun a b => steady_bind third _ steadyThird fun c => later a b c
  have rest : ∀ a, Steady fun fuel => (second fuel).bind fun b => (third fuel).bind fun c => (fourth fuel).bind fun d =>
      (fifth fuel).bind fun e => some (some (result a b c d e)) := fun a => steady_bind second _ steadySecond fun b => inner a b
  refine halts_bind first _ steadyFirst rest _ fun a => ?_
  refine halts_bind second _ steadySecond (inner a) _ fun b => ?_
  refine halts_bind third _ steadyThird (later a b) _ fun c => ?_
  refine halts_bind fourth _ steadyFourth (last a b c) _ fun d => ?_
  have mapped := halts_map fifth fun e => some (result a b c d e)
  simp only [Option.map_eq_bind] at mapped
  exact mapped

theorem parse_ends (expression : String) :
    (Halts fun fuel => parseCron fuel expression) ↔ ∀ loop ∈ loopsOf expression, loop.Progresses := by
  by_cases five : ∃ min hour dom mon dow, splitSpaces (trim expression).toList = [min, hour, dom, mon, dow]
  · obtain ⟨min, hour, dom, mon, dow, five⟩ := five
    simp only [parseCron, loopsOf, five]
    rw [fields_end (fun fuel => expandField fuel min 0 59) (fun fuel => expandField fuel hour 0 23)
      (fun fuel => expandField fuel dom 1 31) (fun fuel => expandField fuel mon 1 12) (fun fuel => expandDow fuel dow)
      CronFields.mk ⟨field_steady 0 59 min, field_steady 0 23 hour, field_steady 1 31 dom, field_steady 1 12 mon, dow_steady dow⟩,
      field_ends 0 59 (by norm_num) min, field_ends 0 23 (by norm_num) hour, field_ends 1 31 (by norm_num) dom,
      field_ends 1 12 (by norm_num) mon, dow_ends dow]
    simp only [List.forall_mem_append]
  · have refused : ∀ fuel, parseCron fuel expression = some none := by
      intro fuel
      unfold parseCron
      split
      · exact absurd ⟨_, _, _, _, _, ‹_›⟩ five
      · rfl
    have none_ : loopsOf expression = [] := by
      unfold loopsOf
      split
      · exact absurd ⟨_, _, _, _, _, ‹_›⟩ five
      · rfl
    simp only [refused, none_]
    exact iff_of_true (halts_const _) (by simp)

end ending

-- The evaluation of an expression ends exactly when each loop it reaches moves on wherever it may stand.
theorem cron_ends_iff (platform : Platform) (expression timeZone : String) (after : Int) :
    (∃ fuel result, cronRun fuel platform expression timeZone after = some result) ↔
      ∀ loop ∈ loopsOf expression, loop.Progresses := by
  have ended := halts_map (fun fuel => parseCron fuel expression) fun fields : Option CronFields =>
    fields.bind fun fields =>
      scanMinutes platform fields (if trim timeZone = "" then "UTC" else trim timeZone) cronHorizon (after / 60000 * 60000 + 60000)
  rw [← parse_ends, ← ended]
  simp only [Halts, Option.isSome_iff_exists, cronRun]

def textLength (text : String) : Nat := (text.toList.map fun char : Char => if char.toNat < 0x10000 then 1 else 2).sum

-- What scheduleTriggerSchema makes of a text.
def triggerText (text : String) : Option String :=
  if 1 ≤ textLength (trim text) ∧ textLength (trim text) ≤ 120 then some (trim text) else none

theorem endless_range :
    triggerText "0-Infinity * * * *" = some "0-Infinity * * * *" ∧ triggerText "UTC" = some "UTC" ∧
      ¬∀ (platform : Platform) (expression timeZone : String) (after : Int), triggerText expression = some expression →
        triggerText timeZone = some timeZone → ∃ fuel result, cronRun fuel platform expression timeZone after = some result := by
  have expression : triggerText "0-Infinity * * * *" = some "0-Infinity * * * *" := by decide +kernel
  have zone : triggerText "UTC" = some "UTC" := by decide +kernel
  refine ⟨expression, zone, fun always => ?_⟩
  have found : loopsOf "0-Infinity * * * *" = [⟨.finite 0, .infinite false, .finite 1⟩] := by decide +kernel
  have parsed := (parse_ends "0-Infinity * * * *").mp ?_
  · rw [found] at parsed
    exact parsed _ List.mem_cons_self (.infinite false) rfl rfl rfl rfl
  · obtain ⟨fuel, result, ended⟩ := always utcMinutes "0-Infinity * * * *" "UTC" 0 expression zone
    obtain ⟨fields, reached, _⟩ := Option.map_eq_some_iff.mp ended
    exact ⟨fuel, by dsimp only; rw [reached]; rfl⟩

end Vacps
