import Mathlib.Algebra.Order.BigOperators.Group.List
import Vacps.ControlPlane.Inventory

/- mcp/schema/schedules.ts and contracts/schedule.ts: the two schemas a schedule patch passes, and what the
   patch leaves of the fields it does not name. scheduleTaskSchema has made a task a CreateTaskInput already. -/
set_option autoImplicit false

namespace Vacps.ControlPlane

open Library

inductive TriggerType where
  | cron
deriving DecidableEq, Repr

structure UpdateTrigger where
  type : Option TriggerType
  expression : Option String
  timezone : Option String
deriving DecidableEq, Repr

structure UpdateChanges where
  enabled : Option Bool
  name : Option String
  trigger : Option UpdateTrigger
  policy : Option PolicyChanges
  task : Option CreateTaskInput

structure SchedulesUpdateInput where
  schedule_id : String
  expected_revision : Option Int
  changes : UpdateChanges
  idempotency_key : Option String

section schemas

-- String#length counts UTF-16 code units.
def utf16Length (text : String) : Nat := (text.toList.map fun char => if char.toNat < 0x10000 then 1 else 2).sum

-- z.string().min(1).max(bound)
abbrev textWithin (bound : Nat) (text : String) : Prop := 1 ≤ utf16Length text ∧ utf16Length text ≤ bound

def isHexDigit (char : Char) : Bool := ('0' ≤ char && char ≤ '9') || ('a' ≤ char && char ≤ 'f') || ('A' ≤ char && char ≤ 'F')

-- The pattern of z.uuid: an RFC 9562 version and variant, or the nil or the max value.
def isUuid (text : String) : Bool :=
  let chars := text.toList
  text == "00000000-0000-0000-0000-000000000000" || text == "ffffffff-ffff-ffff-ffff-ffffffffffff" ||
    (chars.length == 36 && chars.zipIdx.all fun (char, i) =>
      if [8, 13, 18, 23].contains i then char == '-'
      else if i = 14 then '1' ≤ char && char ≤ '8'
      else if i = 19 then "89abAB".toList.contains char
      else isHexDigit char)

def isKeyChar (char : Char) : Bool := char.isAlphanum || "._:-".toList.contains char

abbrev runsWithin (runs : Int) : Prop := 0 ≤ runs ∧ runs ≤ 100

abbrev UpdateChanges.empty (changes : UpdateChanges) : Prop :=
  changes.enabled = none ∧ changes.name.isNone ∧ changes.trigger.isNone ∧ changes.policy.isNone ∧ changes.task.isNone

-- What schedulesUpdateInputSchema asks of a request of this shape.
structure SchedulesUpdateInput.Accepted (input : SchedulesUpdateInput) : Prop where
  schedule_id : isUuid input.schedule_id = true
  expected_revision : ∀ revision ∈ input.expected_revision, 1 ≤ revision ∧ revision ≤ 2147483647
  changes : ¬ input.changes.empty
  name : ∀ name ∈ input.changes.name, textWithin 120 name
  expression : ∀ expression ∈ input.changes.trigger.bind UpdateTrigger.expression, textWithin 120 expression
  timezone : ∀ timezone ∈ input.changes.trigger.bind UpdateTrigger.timezone, textWithin 120 timezone
  max_catchup_runs : ∀ runs ∈ input.changes.policy.bind PolicyChanges.max_catchup_runs, runsWithin runs
  idempotency_key : ∀ key ∈ input.idempotency_key, textWithin 128 key ∧ key.toList.all isKeyChar = true

instance (input : SchedulesUpdateInput) : Decidable input.Accepted :=
  decidable_of_iff
    (isUuid input.schedule_id = true ∧ (∀ revision ∈ input.expected_revision, 1 ≤ revision ∧ revision ≤ 2147483647) ∧
      ¬ input.changes.empty ∧ (∀ name ∈ input.changes.name, textWithin 120 name) ∧
      (∀ expression ∈ input.changes.trigger.bind UpdateTrigger.expression, textWithin 120 expression) ∧
      (∀ timezone ∈ input.changes.trigger.bind UpdateTrigger.timezone, textWithin 120 timezone) ∧
      (∀ runs ∈ input.changes.policy.bind PolicyChanges.max_catchup_runs, runsWithin runs) ∧
      ∀ key ∈ input.idempotency_key, textWithin 128 key ∧ key.toList.all isKeyChar = true)
    ⟨fun ⟨id, revision, changes, name, expression, timezone, runs, key⟩ =>
      ⟨id, revision, changes, name, expression, timezone, runs, key⟩,
      fun ⟨id, revision, changes, name, expression, timezone, runs, key⟩ =>
      ⟨id, revision, changes, name, expression, timezone, runs, key⟩⟩

-- z.string().trim().min(1).max(bound)
def trimmedText (bound : Nat) (text : String) : Option String :=
  if textWithin bound (trim text) then some (trim text) else none

-- A key that is absent stays absent; an inner schema that refuses the value refuses the object.
def optional {α β : Type} (schema : α → Option β) : Option α → Option (Option β)
  | none => some none
  | some value => (schema value).map some

-- .default(value).optional(): the default is applied when the key is absent.
def optionalDefault {α β : Type} (schema : α → Option β) (value : β) : Option α → Option (Option β)
  | none => some (some value)
  | some given => (schema given).map some

-- scheduleTriggerSchema.partial()
def partialTrigger (trigger : UpdateTrigger) : Option TriggerChanges := do
  let expression ← optional (trimmedText 120) trigger.expression
  let timezone ← optionalDefault (trimmedText 120) "UTC" trigger.timezone
  pure ⟨expression, timezone⟩

def catchupRuns (runs : Int) : Option Int := if runsWithin runs then some runs else none

-- schedulePolicySchema.partial()
def partialPolicy (policy : PolicyChanges) : Option PolicyChanges := do
  let concurrency ← optionalDefault some .forbid policy.concurrency
  let misfire ← optionalDefault some .run_once policy.misfire
  let max_catchup_runs ← optionalDefault catchupRuns 1 policy.max_catchup_runs
  pure ⟨concurrency, misfire, max_catchup_runs⟩

def patchScheduleSchema (expectedRevision : Option Int) (changes : UpdateChanges) (key : Option String) :
    Option PatchScheduleInput := do
  let expected_revision ← optional (fun revision => if 1 ≤ revision then some revision else none) expectedRevision
  let name ← optional (trimmedText 120) changes.name
  let trigger ← optional partialTrigger changes.trigger
  let policy ← optional partialPolicy changes.policy
  let idempotency_key ← optional (trimmedText 200) key
  if changes.empty then none
  else pure ⟨expected_revision, ⟨name, changes.enabled, trigger, policy, changes.task⟩, idempotency_key⟩

-- The spreads drop what is no value or an empty text.
def parseSchedulePatch (input : SchedulesUpdateInput) : Option PatchScheduleInput :=
  patchScheduleSchema input.expected_revision
    { input.changes with
      trigger := input.changes.trigger.map fun trigger =>
        ⟨trigger.type, truthy trigger.expression, truthy trigger.timezone⟩ }
    (truthy input.idempotency_key)

end schemas

-- The message is Zod's first issue where it has one.
def validationError : AppError := ⟨"validation_error", "Invalid request.", 400⟩

-- The tool vacps.schedules.update.
def schedulesUpdate (platform : Platform) (hashes : ScheduleHashes) (input : SchedulesUpdateInput) (now syncedAt : Int) :
    Service WrittenSchedule :=
  if input.Accepted then do
    let _ ← get input.schedule_id
    match parseSchedulePatch input with
    | none => .fail validationError
    | some request => patch platform hashes input.schedule_id request now syncedAt
  else .fail validationError

section texts

def UpdateChanges.texts (changes : UpdateChanges) : List String :=
  changes.name.toList ++ (changes.trigger.bind UpdateTrigger.expression).toList ++
    (changes.trigger.bind UpdateTrigger.timezone).toList

theorem trim_sublist (text : String) : (trim text).toList.Sublist text.toList := by
  rw [trim, String.toList_ofList]
  have front := List.dropWhile_sublist (p := isTrimmed) (l := text.toList)
  have back := (List.dropWhile_sublist (p := isTrimmed) (l := (text.toList.dropWhile isTrimmed).reverse)).reverse
  rw [List.reverse_reverse] at back
  exact back.trans front

theorem trim_shorter (text : String) : utf16Length (trim text) ≤ utf16Length text :=
  ((trim_sublist text).map _).sum_le_sum fun _ _ => Nat.zero_le _

theorem nonempty_length (text : String) : 1 ≤ utf16Length text ↔ text ≠ "" := by
  rw [utf16Length, Ne, ← String.toList_eq_nil_iff]
  cases chars : text.toList with
  | nil => simp
  | cons char rest =>
      simp only [List.map_cons, List.sum_cons]
      constructor
      · intro _ empty
        cases empty
      · intro _
        split <;> omega

theorem within_trimmed (bound : Nat) (text : String) (within : textWithin bound text) :
    trimmedText bound text = if trim text = "" then none else some (trim text) := by
  have shorter := (trim_shorter text).trans within.2
  by_cases blank : trim text = ""
  · rw [if_pos blank, trimmedText, if_neg]
    intro there
    exact (nonempty_length _).mp there.1 blank
  · rw [if_neg blank, trimmedText, if_pos ⟨(nonempty_length _).mpr blank, shorter⟩]

theorem within_shown (bound : Nat) (text : String) (within : textWithin bound text) : truthy (some text) = some text := by
  rw [truthy, Option.filter_some_pos]
  exact decide_eq_true ((nonempty_length text).mp within.1)

theorem key_char_kept (char : Char) (key : isKeyChar char = true) : isTrimmed char = false := by
  have code : char.val.toNat = char.toNat := rfl
  rw [isTrimmed, Bool.or_eq_false_iff]
  delta isKeyChar Char.isAlphanum Char.isAlpha Char.isUpper Char.isLower Char.isDigit at key
  simp only [Bool.or_eq_true, Bool.and_eq_true, decide_eq_true_eq, UInt32.le_iff_toNat_le, code] at key
  rcases key with letter | mark
  · simp at letter ⊢
    omega
  · have one : char = '.' ∨ char = '_' ∨ char = ':' ∨ char = '-' := by simpa using mark
    rcases one with rfl | rfl | rfl | rfl <;> decide

theorem drop_kept (chars : List Char) (kept : ∀ char ∈ chars, isTrimmed char = false) :
    chars.dropWhile isTrimmed = chars := by
  cases chars with
  | nil => rfl
  | cons char rest => rw [List.dropWhile_cons_of_neg (by simp [kept char List.mem_cons_self])]

theorem trim_kept (text : String) (kept : ∀ char ∈ text.toList, isTrimmed char = false) : trim text = text := by
  rw [trim, drop_kept _ kept, drop_kept, List.reverse_reverse, String.ofList_toList]
  intro char member
  exact kept char (List.mem_reverse.mp member)

theorem key_trimmed (key : String) (within : textWithin 128 key) (chars : key.toList.all isKeyChar = true) :
    trimmedText 200 key = some key := by
  have kept : trim key = key := trim_kept key fun char member => key_char_kept char (List.all_eq_true.mp chars char member)
  rw [within_trimmed 200 key ⟨within.1, by omega⟩, kept, if_neg ((nonempty_length key).mp within.1)]

end texts

section parsed

-- What the changes name after both schemas: the defaults fill each trigger and policy object.
def filled (changes : UpdateChanges) : ScheduleChanges where
  name := changes.name.map trim
  enabled := changes.enabled
  trigger := changes.trigger.map fun trigger =>
    ⟨trigger.expression.map trim, some ((trigger.timezone.map trim).getD "UTC")⟩
  policy := changes.policy.map fun policy =>
    ⟨some (policy.concurrency.getD .forbid), some (policy.misfire.getD .run_once), some (policy.max_catchup_runs.getD 1)⟩
  task := changes.task

theorem optional_accepts {α β : Type} (schema : α → Option β) (read : α → β) (given : Option α)
    (accepts : ∀ value ∈ given, schema value = some (read value)) : optional schema given = some (given.map read) := by
  cases given with
  | none => rfl
  | some value => rw [optional, accepts value rfl, Option.map_some, Option.map_some]

theorem optional_default_accepts {α β : Type} (schema : α → Option β) (read : α → β) (default : β) (given : Option α)
    (accepts : ∀ value ∈ given, schema value = some (read value)) :
    optionalDefault schema default given = some (some ((given.map read).getD default)) := by
  cases given with
  | none => rfl
  | some value => rw [optionalDefault, accepts value rfl, Option.map_some, Option.map_some, Option.getD_some]

theorem named_trimmed (bound : Nat) (text : String) (within : textWithin bound text) (named : trim text ≠ "") :
    trimmedText bound text = some (trim text) := by
  rw [within_trimmed bound text within, if_neg named]

theorem truthy_within (bound : Nat) (text : Option String) (within : ∀ value ∈ text, textWithin bound value) :
    truthy text = text := by
  cases text with
  | none => rfl
  | some value => exact within_shown bound value (within value rfl)

theorem partial_trigger (trigger : UpdateTrigger) (expression : ∀ value ∈ trigger.expression, textWithin 120 value)
    (timezone : ∀ value ∈ trigger.timezone, textWithin 120 value)
    (named : ∀ value ∈ trigger.expression.toList ++ trigger.timezone.toList, trim value ≠ "") :
    partialTrigger trigger =
      some ⟨trigger.expression.map trim, some ((trigger.timezone.map trim).getD "UTC")⟩ := by
  have expressions := optional_accepts (trimmedText 120) trim trigger.expression fun value member =>
    named_trimmed 120 value (expression value member)
      (named value (List.mem_append_left _ (Option.mem_toList.mpr member)))
  have timezones := optional_default_accepts (trimmedText 120) trim "UTC" trigger.timezone fun value member =>
    named_trimmed 120 value (timezone value member)
      (named value (List.mem_append_right _ (Option.mem_toList.mpr member)))
  rw [partialTrigger, expressions, timezones]
  rfl

theorem partial_policy (policy : PolicyChanges) (within : ∀ value ∈ policy.max_catchup_runs, runsWithin value) :
    partialPolicy policy =
      some ⟨some (policy.concurrency.getD .forbid), some (policy.misfire.getD .run_once),
        some (policy.max_catchup_runs.getD 1)⟩ := by
  have concurrencies := optional_default_accepts some id Concurrency.forbid policy.concurrency fun _ _ => rfl
  have misfires := optional_default_accepts some id Misfire.run_once policy.misfire fun _ _ => rfl
  have runs := optional_default_accepts catchupRuns id 1 policy.max_catchup_runs fun value member =>
    if_pos (within value member)
  rw [partialPolicy, concurrencies, misfires, runs]
  simp

-- Both schemas ask for nonempty texts, so the spreads drop nothing.
theorem spread_kept (trigger : Option UpdateTrigger)
    (expression : ∀ text ∈ trigger.bind UpdateTrigger.expression, textWithin 120 text)
    (timezone : ∀ text ∈ trigger.bind UpdateTrigger.timezone, textWithin 120 text) :
    (trigger.map fun trigger =>
      (⟨trigger.type, truthy trigger.expression, truthy trigger.timezone⟩ : UpdateTrigger)) = trigger := by
  cases trigger with
  | none => rfl
  | some trigger =>
      have expressionShown : truthy trigger.expression = trigger.expression := truthy_within 120 _ expression
      have timezoneShown : truthy trigger.timezone = trigger.timezone := truthy_within 120 _ timezone
      rw [Option.map_some, expressionShown, timezoneShown]

theorem parse_accepted (input : SchedulesUpdateInput) (accepted : input.Accepted)
    (named : ∀ text ∈ input.changes.texts, trim text ≠ "") :
    parseSchedulePatch input = some ⟨input.expected_revision, filled input.changes, input.idempotency_key⟩ := by
  obtain ⟨schedule_id, expected_revision, ⟨enabled, name, trigger, policy, task⟩, idempotency_key⟩ := input
  obtain ⟨_, revisionWithin, changed, nameWithin, expressionWithin, timezoneWithin, runsWithin, keyWithin⟩ := accepted
  have revisions := optional_accepts (fun revision : Int => if 1 ≤ revision then some revision else none) id
    expected_revision fun revision member => if_pos (revisionWithin revision member).1
  have names := optional_accepts (trimmedText 120) trim name fun value member =>
    named_trimmed 120 value (nameWithin value member) (named value (by simp [UpdateChanges.texts, Option.mem_def.mp member]))
  have triggers := optional_accepts partialTrigger
    (fun trigger => ⟨trigger.expression.map trim, some ((trigger.timezone.map trim).getD "UTC")⟩) trigger
    fun value member => by
      cases member
      exact partial_trigger value expressionWithin timezoneWithin fun text member =>
        named text (by simpa [UpdateChanges.texts] using Or.inr (List.mem_append.mp member))
  have policies := optional_accepts partialPolicy
    (fun policy => ⟨some (policy.concurrency.getD .forbid), some (policy.misfire.getD .run_once),
      some (policy.max_catchup_runs.getD 1)⟩) policy
    fun value member => by
      cases member
      exact partial_policy value runsWithin
  have keys := optional_accepts (trimmedText 200) id idempotency_key fun key member =>
    key_trimmed key (keyWithin key member).1 (keyWithin key member).2
  have keyShown := truthy_within 128 idempotency_key fun key member => (keyWithin key member).1
  have spread := spread_kept trigger expressionWithin timezoneWithin
  simp only [parseSchedulePatch, patchScheduleSchema, spread, keyShown]
  rw [revisions, names, triggers, policies, keys]
  simp only [Option.bind_eq_bind, Option.bind_some, if_neg changed]
  simp [filled]

theorem optional_taken {α β : Type} (schema : α → Option β) (given : Option α) (result : Option β)
    (taken : optional schema given = some result) (value : α) (member : value ∈ given) : schema value ≠ none := by
  intro refused
  rw [Option.mem_def.mp member, optional, refused] at taken
  cases taken

theorem optional_default_taken {α β : Type} (schema : α → Option β) (default : β) (given : Option α) (result : Option β)
    (taken : optionalDefault schema default given = some result) (value : α) (member : value ∈ given) :
    schema value ≠ none := by
  intro refused
  rw [Option.mem_def.mp member, optionalDefault, refused] at taken
  cases taken

theorem trimmed_taken (bound : Nat) (text : String) (taken : trimmedText bound text ≠ none) : trim text ≠ "" := by
  intro blank
  apply taken
  rw [trimmedText, blank, if_neg fun within : textWithin bound "" => (nonempty_length "").mp within.1 rfl]

theorem partial_trigger_named (trigger : UpdateTrigger) (taken : partialTrigger trigger ≠ none) (text : String)
    (member : trigger.expression = some text ∨ trigger.timezone = some text) : trim text ≠ "" := by
  obtain ⟨changes, accepted⟩ := Option.ne_none_iff_exists'.mp taken
  simp only [partialTrigger, Option.bind_eq_bind, Option.bind_eq_some_iff] at accepted
  obtain ⟨_, expressionTaken, _, timezoneTaken, _⟩ := accepted
  rcases member with expression | timezone
  · exact trimmed_taken 120 text (optional_taken _ _ _ expressionTaken text expression)
  · exact trimmed_taken 120 text (optional_default_taken _ _ _ _ timezoneTaken text timezone)

theorem parse_named (input : SchedulesUpdateInput) (accepted : input.Accepted) (request : PatchScheduleInput)
    (parsed : parseSchedulePatch input = some request) (text : String) (member : text ∈ input.changes.texts) :
    trim text ≠ "" := by
  simp only [parseSchedulePatch, patchScheduleSchema, spread_kept _ accepted.expression accepted.timezone,
    Option.bind_eq_bind, Option.bind_eq_some_iff] at parsed
  obtain ⟨_, _, _, nameTaken, _, triggerTaken, _⟩ := parsed
  simp only [UpdateChanges.texts, List.mem_append, Option.mem_toList, Option.bind_eq_some_iff] at member
  rcases member with (named | ⟨trigger, given, expression⟩) | ⟨trigger, given, timezone⟩
  · exact trimmed_taken 120 text (optional_taken _ _ _ nameTaken text named)
  · exact partial_trigger_named trigger (optional_taken _ _ _ triggerTaken trigger given) text (Or.inl expression)
  · exact partial_trigger_named trigger (optional_taken _ _ _ triggerTaken trigger given) text (Or.inr timezone)

theorem parse_blank (input : SchedulesUpdateInput) (accepted : input.Accepted)
    (blank : ¬ ∀ text ∈ input.changes.texts, trim text ≠ "") : parseSchedulePatch input = none := by
  cases parsed : parseSchedulePatch input with
  | none => rfl
  | some request => exact absurd (parse_named input accepted request parsed) blank

end parsed

section rows

theorem read_policy_members (json : Json) (shown : json ≠ .null) :
    readPolicy json =
      (enumMember json "concurrency" .forbid readConcurrency).bind fun concurrency =>
        (enumMember json "misfire" .run_once readMisfire).bind fun misfire =>
          (readCatchupRuns json).bind fun max_catchup_runs => some ⟨concurrency, misfire, max_catchup_runs⟩ := by
  cases json with
  | null => exact absurd rfl shown
  | bool value => rfl
  | num value => rfl
  | str value => rfl
  | arr items => rfl
  | obj members => rfl

theorem read_policy_json (policy : SchedulePolicy) (within : runsWithin policy.max_catchup_runs) :
    readPolicy (SchedulerStore.policyJson policy) = some policy := by
  obtain ⟨concurrency, misfire, max_catchup_runs⟩ := policy
  have runs : readCatchupRuns (SchedulerStore.policyJson ⟨concurrency, misfire, max_catchup_runs⟩) =
      some max_catchup_runs := by
    simp [readCatchupRuns, SchedulerStore.policyJson, Json.member, List.lookup_cons, present, Json.asInteger, within]
  have concurrencies : enumMember (SchedulerStore.policyJson ⟨concurrency, misfire, max_catchup_runs⟩) "concurrency"
      .forbid readConcurrency = some concurrency := by
    cases concurrency <;> rfl
  have misfires : enumMember (SchedulerStore.policyJson ⟨concurrency, misfire, max_catchup_runs⟩) "misfire"
      .run_once readMisfire = some misfire := by
    cases misfire <;> rfl
  rw [read_policy_members _ (by simp [SchedulerStore.policyJson]), concurrencies, misfires, runs]
  rfl

theorem read_runs_within (json : Json) (runs : Int) (read : readCatchupRuns json = some runs) : runsWithin runs := by
  rw [readCatchupRuns] at read
  split at read
  · cases read
    decide
  · exact of_decide_eq_true (Option.filter_eq_some_iff.mp read).2

theorem read_policy_within (json : Json) (policy : SchedulePolicy) (read : readPolicy json = some policy) :
    runsWithin policy.max_catchup_runs := by
  have shown : json ≠ .null := by
    intro null
    rw [null] at read
    cases read
  rw [read_policy_members json shown, Option.bind_eq_some_iff] at read
  obtain ⟨_, _, read⟩ := read
  obtain ⟨_, _, read⟩ := Option.bind_eq_some_iff.mp read
  obtain ⟨runs, taken, same⟩ := Option.bind_eq_some_iff.mp read
  cases same
  exact read_runs_within json runs taken

theorem schedule_policy_within (row : ScheduleRow) : runsWithin (toSchedule row).policy.max_catchup_runs := by
  have stored : (toSchedule row).policy = (row.policy_json.bind readPolicy).getD DEFAULT_SCHEDULE_POLICY := rfl
  rw [stored]
  cases read : row.policy_json.bind readPolicy with
  | none =>
      change runsWithin 1
      decide
  | some policy =>
      obtain ⟨json, _, parsed⟩ := Option.bind_eq_some_iff.mp read
      exact read_policy_within json policy parsed

-- The fields a patch can name.
abbrev ScheduleRecord.SameFields (a b : ScheduleRecord) : Prop :=
  a.name = b.name ∧ a.enabled = b.enabled ∧ a.task = b.task ∧ a.expression = b.expression ∧ a.timezone = b.timezone ∧
    a.policy = b.policy

theorem rewritten_fields (row : ScheduleRow) (next : ScheduleRecord) (backend : next.task.backend_id = row.backend_id)
    (within : runsWithin next.policy.max_catchup_runs) : (toSchedule (row.rewrite next)).SameFields next := by
  have policy : (toSchedule (row.rewrite next)).policy = next.policy := by
    simp only [toSchedule, ScheduleRow.rewrite, Option.bind_some, read_policy_json next.policy within, Option.getD_some]
  have task : (toSchedule (row.rewrite next)).task = next.task := by
    simp only [toSchedule, ScheduleRow.rewrite, ← backend]
  exact ⟨rfl, rfl, task, rfl, rfl, policy⟩

end rows

section runs

variable (platform : Platform) (hashes : ScheduleHashes)

def CpOp.leavesSchedules : CpOp → Bool
  | .insertSchedule _ => false
  | .updateSchedule _ _ _ => false
  | .advanceSchedule _ _ _ _ _ => false
  | .deleteSchedule _ => false
  | _ => true

theorem leaves_schedules (op : CpOp) (estate : Estate) (leaves : op.leavesSchedules = true) :
    (Estate.exec platform op estate).2.cp.schedules = estate.cp.schedules := by
  cases op with
  | insertSchedule row => cases leaves
  | updateSchedule next id revision => cases leaves
  | advanceSchedule lastRunAt next id revision token => cases leaves
  | deleteSchedule id => cases leaves
  | upsertScheduler backendId request => rw [(upsert_exec platform estate backendId request).1]
  | deleteScheduler backendId id => rw [(delete_exec platform estate backendId id).1]
  | selectSchedule id => rfl
  | selectByIdempotency backendId key => rfl
  | selectSchedules backendId enabled limit offset => rfl
  | loadUpdate key => rfl
  | storeUpdate replay => rfl
  | loadDelete key => rfl
  | storeDelete replay => rfl

theorem run_leaves_schedules {α : Type} (program : Service α) (uses : program.Uses fun op => op.leavesSchedules = true)
    (estate : Estate) : (program.runIn (Estate.exec platform) estate).2.cp.schedules = estate.cp.schedules :=
  run_in_keeps _ (Estate.exec platform) (fun after => after.cp.schedules = estate.cp.schedules)
    (fun op after leaves same => (leaves_schedules platform op after leaves).trans same) program uses estate rfl

theorem get_run (id : String) (estate : Estate) (row : ScheduleRow) (found : estate.cp.schedules.find? id = some row) :
    (get id).runIn (Estate.exec platform) estate = (.ok (toSchedule row), estate) := by
  simp [get, call, Estate.exec, CpOp.exec, found]

theorem read_leaves (op : CpOp) (leaves : op.leavesSchedules = true) : (call op).Uses fun op => op.leavesSchedules = true :=
  uses_perform _ op leaves

theorem get_leaves (id : String) : (get id).Uses fun op => op.leavesSchedules = true := by
  apply uses_bind _ _ _ (read_leaves _ rfl)
  intro row
  cases row <;> exact trivial

theorem write_revision_rest (current next : ScheduleRecord) (syncedAt : Int) (changes : Nat) :
    (if changes = 0 then (.fail (modifiedConcurrently current.id) : Service ScheduleRecord)
      else do
        let _ ← sync platform next syncedAt
        get current.id).Uses fun op => op.leavesSchedules = true := by
  split
  · exact trivial
  · have synced : (sync platform next syncedAt).Uses fun op => op.leavesSchedules = true :=
      uses_bind _ _ _ (read_leaves _ rfl) fun _ => trivial
    exact uses_bind _ _ _ synced fun _ => get_leaves current.id

theorem write_revision_row (current next : ScheduleRecord) (syncedAt : Int) (estate : Estate) (row : ScheduleRow)
    (found : estate.cp.schedules.find? current.id = some row) :
    ((writeRevision platform current next syncedAt).runIn (Estate.exec platform) estate).2.cp.schedules.find? current.id =
      some (if row.revision = current.revision then row.rewrite next else row) := by
  have named : row.id = current.id := estate.cp.schedules.find_key current.id row found
  have written : (writeRevision platform current next syncedAt).runIn (Estate.exec platform) estate =
      (if estate.cp.schedules.rows.countP (fun row => decide (row.id = current.id) && row.revision == current.revision) = 0
        then (.fail (modifiedConcurrently current.id) : Service ScheduleRecord)
        else do
          let _ ← sync platform next syncedAt
          get current.id).runIn (Estate.exec platform)
        (Estate.exec platform (.updateSchedule next current.id current.revision) estate).2 := rfl
  rw [written, run_leaves_schedules platform _ (write_revision_rest platform current next syncedAt _)]
  refine (estate.cp.schedules.find_update _ (ScheduleRow.rewrite next) (fun _ => rfl) current.id).trans ?_
  rw [found, Option.map_some]
  simp [named]

-- The row applyUpdate leaves: rewritten if the patch changes a field and the row still has the revision read.
theorem apply_update_row (current : ScheduleRecord) (changes : UpdateScheduleInput) (now syncedAt : Int) (estate : Estate)
    (row : ScheduleRow) (found : estate.cp.schedules.find? current.id = some row) :
    ((applyUpdate platform current changes now syncedAt).runIn (Estate.exec platform) estate).2.cp.schedules.find? current.id =
      some (if sameSchedule (patchedSchedule current changes) current ∨ row.revision ≠ current.revision then row
        else row.rewrite (nextRevision platform (patchedSchedule current changes) now)) := by
  rw [applyUpdate]
  by_cases same : sameSchedule (patchedSchedule current changes) current
  · rw [if_pos same, if_pos (Or.inl same)]
    exact found
  · rw [if_neg same, write_revision_row platform current _ syncedAt estate row found]
    by_cases revision : row.revision = current.revision
    · rw [if_pos revision, if_neg]
      exact fun either => either.elim same fun other => other revision
    · rw [if_neg revision, if_pos (Or.inr revision)]

def replayed (cp : CpState) (key : Option String) : Option (Replay ScheduleRecord) :=
  (truthy key).bind cp.updates.find?

theorem load_update_run (key : Option String) (estate : Estate) :
    (loadUpdate key).runIn (Estate.exec platform) estate = (.ok (replayed estate.cp key), estate) := by
  rw [loadUpdate, replayed]
  cases truthy key with
  | none => rfl
  | some key => exact Async.run_in_perform (Estate.exec platform) estate (.loadUpdate key)

theorem bind_leaves {α β : Type} (first : Service α) (rest : α → Service β)
    (leaves : ∀ value, (rest value).Uses fun op => op.leavesSchedules = true) (estate : Estate) :
    ((first >>= rest).runIn (Estate.exec platform) estate).2.cp.schedules =
      (first.runIn (Estate.exec platform) estate).2.cp.schedules := by
  rw [Async.run_in_bind]
  split
  · rename_i value after outcome
    rw [outcome]
    exact run_leaves_schedules platform (rest value) (leaves value) after
  · rename_i error after outcome
    rw [outcome]

theorem store_update_leaves (key : Option String) (result : WrittenSchedule) :
    (match truthy key with
      | none => pure result
      | some key => do
          let _ ← call (.storeUpdate ⟨key, result.requestHash, result.schedule⟩)
          pure result : Service WrittenSchedule).Uses fun op => op.leavesSchedules = true := by
  cases truthy key with
  | none => exact trivial
  | some key => exact uses_bind _ _ _ (read_leaves _ rfl) fun _ => trivial

-- A patch reaches its UPDATE if no replay answers it and both revision checks pass.
structure Reaches (cp : CpState) (row : ScheduleRow) (key : Option String) (expectedRevision : Option Int) : Prop where
  fresh : replayed cp key = none
  expected : ∀ revision ∈ expectedRevision, revision = row.revision
  stored : 0 < row.revision

theorem patch_row (id : String) (request : PatchScheduleInput) (now syncedAt : Int) (estate : Estate) (row : ScheduleRow)
    (found : estate.cp.schedules.find? id = some row) :
    let next := patchedSchedule (toSchedule row) (mergeChanges (toSchedule row) request.changes)
    ∃ after, ((patch platform hashes id request now syncedAt).runIn (Estate.exec platform) estate).2.cp.schedules.find? id =
        some after ∧
      (Reaches estate.cp row request.idempotency_key request.expected_revision ∧ ¬ sameSchedule next (toSchedule row) →
        after = row.rewrite (nextRevision platform next now)) ∧
      (¬ (Reaches estate.cp row request.idempotency_key request.expected_revision ∧ ¬ sameSchedule next (toSchedule row)) →
        after = row) := by
  intro next
  have named : row.id = id := estate.cp.schedules.find_key id row found
  subst named
  simp only [patch, Async.run_in_bind, load_update_run]
  cases replay : replayed estate.cp request.idempotency_key with
  | some cached =>
      refine ⟨row, ?_, fun both => ?_, fun _ => rfl⟩
      · dsimp only
        split <;> exact found
      · rw [both.1.fresh] at replay
        cases replay
  | none =>
      simp only [Async.run_in_bind, get_run platform row.id estate row found]
      by_cases mismatch : request.expected_revision.any (· != (toSchedule row).revision) = true
      · rw [if_pos mismatch]
        refine ⟨row, found, fun both => ?_, fun _ => rfl⟩
        obtain ⟨revision, given, differs⟩ := (Option.any_eq_true _ _).mp mismatch
        rw [both.1.expected revision given, toSchedule, if_pos both.1.stored] at differs
        simp at differs
      · rw [if_neg mismatch]
        have written := apply_update_row platform (toSchedule row) (mergeChanges (toSchedule row) request.changes) now
          syncedAt estate row found
        have left := bind_leaves platform
          (applyUpdate platform (toSchedule row) (mergeChanges (toSchedule row) request.changes) now syncedAt) _
          (fun updated => store_update_leaves request.idempotency_key
            ⟨updated, false, hashes.patch row.id request.expected_revision request.changes⟩) estate
        refine ⟨_, (congrArg (Table.find? · row.id) left).trans written, ?_, ?_⟩
        · rintro ⟨reaches, differs⟩
          have revision : row.revision = (toSchedule row).revision := by rw [toSchedule, if_pos reaches.stored]
          rw [if_neg]
          exact fun either => either.elim differs fun other => other revision
        · intro stays
          rw [if_pos]
          by_cases same : sameSchedule next (toSchedule row)
          · exact Or.inl same
          · refine Or.inr fun revision => stays ⟨⟨replay, ?_, ?_⟩, same⟩
            · intro expected given
              by_contra differs
              exact mismatch ((Option.any_eq_true _ _).mpr ⟨expected, given, by simpa [← revision] using differs⟩)
            · by_contra absent
              have first : row.revision = 1 := by simpa [toSchedule, absent] using revision
              omega

end runs

-- What a request that names only some fields is to leave alone.
structure KeepsUnnamed (changes : UpdateChanges) (before after : ScheduleRecord) : Prop where
  name : changes.name = none → after.name = before.name
  enabled : changes.enabled = none → after.enabled = before.enabled
  task : changes.task = none → after.task = before.task
  expression : changes.trigger.bind UpdateTrigger.expression = none → after.expression = before.expression
  timezone : changes.trigger.bind UpdateTrigger.timezone = none → after.timezone = before.timezone
  concurrency : changes.policy.bind PolicyChanges.concurrency = none → after.policy.concurrency = before.policy.concurrency
  misfire : changes.policy.bind PolicyChanges.misfire = none → after.policy.misfire = before.policy.misfire
  max_catchup_runs :
    changes.policy.bind PolicyChanges.max_catchup_runs = none → after.policy.max_catchup_runs = before.policy.max_catchup_runs

-- Whatever a trigger or policy object leaves out holds its default already.
structure OmitsDefaults (changes : UpdateChanges) (current : ScheduleRecord) : Prop where
  timezone : ∀ trigger ∈ changes.trigger, trigger.timezone = none → current.timezone = "UTC"
  concurrency : ∀ policy ∈ changes.policy, policy.concurrency = none → current.policy.concurrency = .forbid
  misfire : ∀ policy ∈ changes.policy, policy.misfire = none → current.policy.misfire = .run_once
  max_catchup_runs : ∀ policy ∈ changes.policy, policy.max_catchup_runs = none → current.policy.max_catchup_runs = 1

section frame

theorem keeps_all (changes : UpdateChanges) (current : ScheduleRecord) : KeepsUnnamed changes current current :=
  ⟨fun _ => rfl, fun _ => rfl, fun _ => rfl, fun _ => rfl, fun _ => rfl, fun _ => rfl, fun _ => rfl, fun _ => rfl⟩

theorem keeps_same (changes : UpdateChanges) (before after other : ScheduleRecord) (same : after.SameFields other)
    (kept : KeepsUnnamed changes before other) : KeepsUnnamed changes before after := by
  obtain ⟨name, enabled, task, expression, timezone, policy⟩ := same
  exact ⟨name ▸ kept.name, enabled ▸ kept.enabled, task ▸ kept.task, expression ▸ kept.expression,
    timezone ▸ kept.timezone, policy ▸ kept.concurrency, policy ▸ kept.misfire, policy ▸ kept.max_catchup_runs⟩

theorem same_fields_symm (a b : ScheduleRecord) (same : a.SameFields b) : b.SameFields a := by
  obtain ⟨name, enabled, task, expression, timezone, policy⟩ := same
  exact ⟨name.symm, enabled.symm, task.symm, expression.symm, timezone.symm, policy.symm⟩

theorem unnamed_task (changes : ScheduleChanges) (current : ScheduleRecord) (absent : changes.task = none)
    (owned : current.task.backend_id = current.backend_id) :
    (patchedSchedule current (mergeChanges current changes)).task = current.task := by
  simp [patchedSchedule, mergeChanges, withBackendId, absent, ← owned]

theorem patched_keeps (changes : UpdateChanges) (current : ScheduleRecord)
    (owned : current.task.backend_id = current.backend_id) :
    KeepsUnnamed changes current (patchedSchedule current (mergeChanges current (filled changes))) ↔
      OmitsDefaults changes current := by
  obtain ⟨enabled, name, trigger, policy, task⟩ := changes
  constructor
  · intro kept
    refine ⟨?_, ?_, ?_, ?_⟩
    · intro fields given absent
      cases given
      have same := kept.timezone absent
      simpa [patchedSchedule, mergeChanges, filled, absent] using same.symm
    · intro fields given absent
      cases given
      have same := kept.concurrency absent
      simpa [patchedSchedule, mergeChanges, filled, absent] using same.symm
    · intro fields given absent
      cases given
      have same := kept.misfire absent
      simpa [patchedSchedule, mergeChanges, filled, absent] using same.symm
    · intro fields given absent
      cases given
      have same := kept.max_catchup_runs absent
      simpa [patchedSchedule, mergeChanges, filled, absent] using same.symm
  · intro omits
    refine ⟨?_, ?_, ?_, ?_, ?_, ?_, ?_, ?_⟩
    · intro absent
      cases absent
      rfl
    · intro absent
      cases absent
      rfl
    · intro absent
      exact unnamed_task _ current absent owned
    · intro absent
      cases trigger with
      | none => rfl
      | some fields =>
          have none_given : fields.expression = none := absent
          simp [patchedSchedule, mergeChanges, filled, none_given]
    · intro absent
      cases trigger with
      | none => rfl
      | some fields =>
          have none_given : fields.timezone = none := absent
          simp [patchedSchedule, mergeChanges, filled, none_given, omits.timezone fields rfl none_given]
    · intro absent
      cases policy with
      | none => rfl
      | some fields =>
          have none_given : fields.concurrency = none := absent
          simp [patchedSchedule, mergeChanges, filled, none_given, omits.concurrency fields rfl none_given]
    · intro absent
      cases policy with
      | none => rfl
      | some fields =>
          have none_given : fields.misfire = none := absent
          simp [patchedSchedule, mergeChanges, filled, none_given, omits.misfire fields rfl none_given]
    · intro absent
      cases policy with
      | none => rfl
      | some fields =>
          have none_given : fields.max_catchup_runs = none := absent
          simp [patchedSchedule, mergeChanges, filled, none_given, omits.max_catchup_runs fields rfl none_given]

-- A patch that the comparison calls no change moved no unnamed field either.
theorem same_omits (changes : UpdateChanges) (current : ScheduleRecord) (owned : current.task.backend_id = current.backend_id)
    (same : sameSchedule (patchedSchedule current (mergeChanges current (filled changes))) current) :
    OmitsDefaults changes current := by
  obtain ⟨name, enabled, expression, timezone, policy, _⟩ := same
  refine (patched_keeps changes current owned).mp ⟨fun _ => name, fun _ => enabled, fun absent => ?_, fun _ => expression,
    fun _ => timezone, fun _ => ?_, fun _ => ?_, fun _ => ?_⟩
  · exact unnamed_task _ current absent owned
  · rw [policy]
  · rw [policy]
  · rw [policy]

theorem patched_policy_within (input : SchedulesUpdateInput) (accepted : input.Accepted) (current : ScheduleRecord)
    (within : runsWithin current.policy.max_catchup_runs) :
    runsWithin (patchedSchedule current (mergeChanges current (filled input.changes))).policy.max_catchup_runs := by
  have given := accepted.max_catchup_runs
  cases policy : input.changes.policy with
  | none => simpa [patchedSchedule, mergeChanges, filled, policy] using within
  | some fields =>
      rw [policy] at given
      cases runs : fields.max_catchup_runs with
      | none =>
          simp only [patchedSchedule, mergeChanges, filled, policy, runs, Option.map_some, Option.getD_some, Option.getD_none]
          decide
      | some value => simpa [patchedSchedule, mergeChanges, filled, policy, runs] using given value runs

end frame

-- An accepted request with no blank text, which no replay answers and both revision checks let through.
structure SchedulesUpdateInput.Writes (input : SchedulesUpdateInput) (cp : CpState) (row : ScheduleRow) : Prop where
  accepted : input.Accepted
  named : ∀ text ∈ input.changes.texts, trim text ≠ ""
  reaches : Reaches cp row input.idempotency_key input.expected_revision

theorem update_row (platform : Platform) (hashes : ScheduleHashes) (estate : Estate) (row : ScheduleRow)
    (input : SchedulesUpdateInput) (now syncedAt : Int) (found : estate.cp.schedules.find? input.schedule_id = some row) :
    let next := patchedSchedule (toSchedule row) (mergeChanges (toSchedule row) (filled input.changes))
    ∃ after, ((schedulesUpdate platform hashes input now syncedAt).runIn (Estate.exec platform) estate).2.cp.schedules.find?
          input.schedule_id = some after ∧
      (input.Writes estate.cp row ∧ ¬ sameSchedule next (toSchedule row) → (toSchedule after).SameFields next) ∧
      (¬ (input.Writes estate.cp row ∧ ¬ sameSchedule next (toSchedule row)) → after = row) := by
  intro next
  rw [schedulesUpdate]
  by_cases accepted : input.Accepted
  · rw [if_pos accepted]
    simp only [Async.run_in_bind, get_run platform _ estate row found]
    by_cases named : ∀ text ∈ input.changes.texts, trim text ≠ ""
    · rw [parse_accepted input accepted named]
      obtain ⟨after, left, writes, stays⟩ := patch_row platform hashes input.schedule_id
        ⟨input.expected_revision, filled input.changes, input.idempotency_key⟩ now syncedAt estate row found
      refine ⟨after, left, ?_, ?_⟩
      · rintro ⟨there, differs⟩
        rw [writes ⟨there.reaches, differs⟩]
        exact rewritten_fields row _ rfl (patched_policy_within input accepted _ (schedule_policy_within row))
      · intro none_there
        exact stays fun both => none_there ⟨⟨accepted, named, both.1⟩, both.2⟩
    · rw [parse_blank input accepted named]
      exact ⟨row, found, fun both => absurd both.1.named named, fun _ => rfl⟩
  · rw [if_neg accepted]
    exact ⟨row, found, fun both => absurd both.1.accepted accepted, fun _ => rfl⟩

-- A patch leaves the fields it does not name just in case every trigger or policy object it names leaves
-- out no field whose stored value is other than the default.
theorem unnamed_fields_kept (platform : Platform) (hashes : ScheduleHashes) (estate : Estate) (row : ScheduleRow)
    (input : SchedulesUpdateInput) (now syncedAt : Int) (found : estate.cp.schedules.find? input.schedule_id = some row) :
    (∃ after, ((schedulesUpdate platform hashes input now syncedAt).runIn (Estate.exec platform) estate).2.cp.schedules.find?
          input.schedule_id = some after ∧ KeepsUnnamed input.changes (toSchedule row) (toSchedule after)) ↔
      (input.Writes estate.cp row → OmitsDefaults input.changes (toSchedule row)) := by
  let next := patchedSchedule (toSchedule row) (mergeChanges (toSchedule row) (filled input.changes))
  obtain ⟨after, left, writes, stays⟩ := update_row platform hashes estate row input now syncedAt found
  have patched : KeepsUnnamed input.changes (toSchedule row) next ↔ OmitsDefaults input.changes (toSchedule row) :=
    patched_keeps input.changes (toSchedule row) rfl
  constructor
  · rintro ⟨again, leftAgain, kept⟩ there
    cases left.symm.trans leftAgain
    by_cases same : sameSchedule next (toSchedule row)
    · exact same_omits input.changes (toSchedule row) rfl same
    · have fields := writes ⟨there, same⟩
      exact patched.mp (keeps_same _ _ _ _ (same_fields_symm _ _ fields) kept)
  · intro omits
    refine ⟨after, left, ?_⟩
    by_cases there : input.Writes estate.cp row ∧ ¬ sameSchedule next (toSchedule row)
    · exact keeps_same _ _ _ _ (writes there) (patched.mpr (omits there.1))
    · rw [stays there]
      exact keeps_all _ _

def parisRow : ScheduleRow where
  id := "11111111-1111-4111-8111-111111111111"
  backend_id := "backend"
  name := "nightly"
  cron := "0 3 * * *"
  timezone := "Europe/Paris"
  task := SchedulerStore.nightlyTask
  enabled := false
  revision := 1
  policy_json := some (SchedulerStore.policyJson ⟨.queue, .catch_up, 5⟩)
  idempotency_key := none
  request_hash := none
  last_run_at := none
  next_run_at := none
  created_at := "1970-01-01T00:00:00.000Z"
  updated_at := "1970-01-01T00:00:00.000Z"

def parisEstate : Estate := { emptyEstate [] with cp := controlPlaneWith parisRow }

def changing (trigger : Option UpdateTrigger) (policy : Option PolicyChanges) : SchedulesUpdateInput :=
  ⟨parisRow.id, none, ⟨none, none, trigger, policy, none⟩, none⟩

-- Naming the timezone beside the expression keeps it, and a policy object that names all three fields is whole.
theorem unnamed_fields_kept_whole :
    let input := changing (some ⟨none, some "0 4 * * *", some "Europe/Paris"⟩) none
    input.Writes parisEstate.cp parisRow ∧
      ∃ after, ((schedulesUpdate utcMinutes constantHashes input 0 0).runIn (Estate.exec utcMinutes) parisEstate).2.cp.schedules.find?
          parisRow.id = some after ∧ KeepsUnnamed input.changes (toSchedule parisRow) (toSchedule after) := by
  intro input
  have named : ∀ text ∈ input.changes.texts, trim text ≠ "" := by decide
  refine ⟨⟨by decide, named, rfl, ?_, by decide⟩, ?_⟩
  · intro revision given
    cases given
  · apply (unnamed_fields_kept utcMinutes constantHashes parisEstate parisRow input 0 0 rfl).mpr
    intro _
    constructor
    · intro trigger given absent
      cases given
      cases absent
    · intro policy given
      cases given
    · intro policy given
      cases given
    · intro policy given
      cases given

-- A new expression alone moves the schedule to UTC, and one policy field resets the other two.
theorem patch_resets_unnamed :
    let expressed := changing (some ⟨none, some "0 4 * * *", none⟩) none
    let limited := changing none (some ⟨none, none, some 7⟩)
    let patched (input : SchedulesUpdateInput) :=
      (((schedulesUpdate utcMinutes constantHashes input 0 0).runIn (Estate.exec utcMinutes) parisEstate).2.cp.schedules.find?
        parisRow.id).map toSchedule
    expressed.Accepted ∧ limited.Accepted ∧
      (patched expressed).map ScheduleRecord.timezone = some "UTC" ∧
      (patched limited).map ScheduleRecord.policy = some ⟨.forbid, .run_once, 7⟩ ∧
      ∀ input ∈ [expressed, limited],
        ¬ ∃ after ∈ patched input, KeepsUnnamed input.changes (toSchedule parisRow) after := by
  intro expressed limited patched
  have zone : (patched expressed).map ScheduleRecord.timezone = some "UTC" := by decide
  have policy : (patched limited).map ScheduleRecord.policy = some ⟨.forbid, .run_once, 7⟩ := by decide
  refine ⟨by decide, by decide, zone, policy, ?_⟩
  intro input member
  rintro ⟨after, found, kept⟩
  rcases List.mem_cons.mp member with rfl | other
  · rw [Option.mem_def.mp found, Option.map_some, kept.timezone rfl] at zone
    exact absurd zone (by decide)
  · cases List.mem_singleton.mp other
    rw [Option.mem_def.mp found, Option.map_some] at policy
    have concurrency := kept.concurrency rfl
    rw [Option.some.inj policy] at concurrency
    exact absurd concurrency (by decide)

end Vacps.ControlPlane
