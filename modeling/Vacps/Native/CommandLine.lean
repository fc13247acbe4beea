import Mathlib.Algebra.Ring.Nat
import Mathlib.Data.List.Nodup
import Mathlib.Data.List.Perm.Basic
import Mathlib.Data.List.TakeWhile
import Vacps.Library.Decimal
import Vacps.Library.Utf8

/- vacps-native/src/host/command_line.cpp: the strict parser of the agent's arguments, which are bytes. -/
set_option autoImplicit false

namespace Vacps.Native.CommandLine

open Library Library.Decimal

abbrev Arg : Type := List UInt8

def text (s : String) : Arg := Utf8.utf8Code.words s.toList

structure CommandLineError where
  message : Arg
  option : Arg
deriving DecidableEq

def unknown_option (arg : Arg) : CommandLineError := ⟨text "unknown option: " ++ arg, arg⟩

def missing_value (option : Arg) : CommandLineError := ⟨text "missing value for option " ++ option, option⟩

def empty_value (option : Arg) : CommandLineError := ⟨text "empty value for option " ++ option, option⟩

def duplicate_option (option : Arg) : CommandLineError := ⟨text "duplicate option " ++ option, option⟩

def invalid_value (option raw : Arg) (reason : String) : CommandLineError :=
  ⟨text "invalid value for option " ++ option ++ text ": '" ++ raw ++ text "' (" ++ text reason ++ text ")", option⟩

inductive FromChars where
  | invalid_argument
  | result_out_of_range
  | parsed (value : Nat) (rest : Arg)

-- std::from_chars for an unsigned type up to max: digits only, and the rest is where it stops.
def from_chars (max : Nat) (raw : Arg) : FromChars :=
  let digits := raw.takeWhile decimalDigit
  if digits = [] then .invalid_argument
  else if max < digitsValue digits then .result_out_of_range
  else .parsed (digitsValue digits) (raw.dropWhile decimalDigit)

def parse_unsigned_full (max : Nat) (option raw : Arg) : Except CommandLineError Nat :=
  if raw = [] then .error (empty_value option)
  else
    match from_chars max raw with
    | .result_out_of_range => .error (invalid_value option raw "out of range")
    | .invalid_argument => .error (invalid_value option raw "invalid syntax")
    | .parsed value rest => if rest = [] then .ok value else .error (invalid_value option raw "invalid syntax")

-- The largest size_t, unsigned long long and milliseconds.
def unsignedMax : Nat := 2 ^ 64 - 1

def k_max : Nat := 2 ^ 63 - 1

def parse_milliseconds (option raw : Arg) : Except CommandLineError Nat :=
  match parse_unsigned_full unsignedMax option raw with
  | .error error => .error error
  | .ok parsed => if k_max < parsed then .error (invalid_value option raw "exceeds std::chrono::milliseconds range") else .ok parsed

def is_canonical_log_level (level : Arg) : Bool :=
  [text "trace", text "debug", text "info", text "warn", text "error", text "critical", text "off"].contains level

inductive ValueOption where
  | script
  | data_dir
  | log_level
  | ca_bundle
  | js_heap
  | js_stack
  | js_time
  | lifecycle
deriving DecidableEq, Repr

def ValueOption.name : ValueOption → Arg
  | .script => text "--script"
  | .data_dir => text "--data-dir"
  | .log_level => text "--log-level"
  | .ca_bundle => text "--ca-bundle"
  | .js_heap => text "--js-heap-limit-bytes"
  | .js_stack => text "--js-stack-limit-bytes"
  | .js_time => text "--js-time-budget-ms"
  | .lifecycle => text "--lifecycle-timeout-ms"

-- In the order of the scanning loop.
def valueOptions : List ValueOption := [.script, .data_dir, .log_level, .ca_bundle, .js_heap, .js_stack, .js_time, .lifecycle]

abbrev ValueOption.Value : ValueOption → Type
  | .script | .data_dir | .log_level | .ca_bundle => Arg
  | .js_heap | .js_stack | .js_time | .lifecycle => Nat

-- The fields of Application::Options and of its engine options that the command line sets.
structure Options where
  script_path : Arg
  data_dir : Arg
  log_level : Arg
  ca_bundle : Arg
  heap_limit_bytes : Nat
  stack_limit_bytes : Nat
  js_time_budget : Nat
  lifecycle_timeout : Nat
deriving DecidableEq

def Options.defaults : Options where
  script_path := []
  data_dir := text "data"
  log_level := text "info"
  ca_bundle := []
  heap_limit_bytes := 64 * 1024 * 1024
  stack_limit_bytes := 1 * 1024 * 1024
  js_time_budget := 30000
  lifecycle_timeout := 30000

def Options.get (options : Options) : (option : ValueOption) → option.Value
  | .script => options.script_path
  | .data_dir => options.data_dir
  | .log_level => options.log_level
  | .ca_bundle => options.ca_bundle
  | .js_heap => options.heap_limit_bytes
  | .js_stack => options.stack_limit_bytes
  | .js_time => options.js_time_budget
  | .lifecycle => options.lifecycle_timeout

def Options.put (options : Options) : (option : ValueOption) → option.Value → Options
  | .script, value => { options with script_path := value }
  | .data_dir, value => { options with data_dir := value }
  | .log_level, value => { options with log_level := value }
  | .ca_bundle, value => { options with ca_bundle := value }
  | .js_heap, value => { options with heap_limit_bytes := value }
  | .js_stack, value => { options with stack_limit_bytes := value }
  | .js_time, value => { options with js_time_budget := value }
  | .lifecycle, value => { options with lifecycle_timeout := value }

-- What argv holds behind an option, if anything.
def require_value (option : Arg) : Option Arg → Except CommandLineError Arg
  | none => .error (missing_value option)
  | some value =>
      if value = [] then .error (empty_value option)
      else if value.head? = some 0x2D then .error (missing_value option)
      else .ok value

def positive (option raw : Arg) : Except CommandLineError Nat → Except CommandLineError Nat
  | .error error => .error error
  | .ok 0 => .error (invalid_value option raw "must be greater than zero")
  | .ok n => .ok n

-- The validator of each option.
def readValue (arg : Arg) : (option : ValueOption) → Arg → Except CommandLineError option.Value
  | .script, value => .ok value
  | .data_dir, value => .ok value
  | .log_level, value =>
      if is_canonical_log_level value then .ok value
      else .error (invalid_value arg value "expected trace|debug|info|warn|error|critical|off")
  | .ca_bundle, value => .ok value
  | .js_heap, value => positive arg value (parse_unsigned_full unsignedMax arg value)
  | .js_stack, value => positive arg value (parse_unsigned_full unsignedMax arg value)
  | .js_time, value => parse_milliseconds arg value
  | .lifecycle, value => positive arg value (parse_milliseconds arg value)

inductive Flag where
  | value (option : ValueOption)
  | help
  | version
deriving DecidableEq, Repr

abbrev SeenFlags : Type := Flag → Bool

def SeenFlags.now (seen : SeenFlags) (flag : Flag) : SeenFlags := fun other => if other = flag then true else seen other

inductive CommandLineAction where
  | run
  | help
  | version
deriving DecidableEq, Repr

structure ParsedCommandLine where
  action : CommandLineAction
  options : Options
deriving DecidableEq

-- The scanning loop from an argument on.
def parseArgs : List Arg → Options → SeenFlags → Except CommandLineError (Options × SeenFlags)
  | [], options, seen => .ok (options, seen)
  | arg :: rest, options, seen =>
      if arg = [] then .error ⟨text "empty argument", []⟩
      else if arg.head? = some 0x2D ∧ 0x3D ∈ arg then .error (unknown_option arg)
      else if arg = text "--help" ∨ arg = text "-h" then
        if seen .help then .error (duplicate_option arg) else parseArgs rest options (seen.now .help)
      else if arg = text "--version" ∨ arg = text "-V" then
        if seen .version then .error (duplicate_option arg) else parseArgs rest options (seen.now .version)
      else
        match valueOptions.find? fun option => arg = option.name with
        | some option =>
            if seen (.value option) then .error (duplicate_option arg)
            else
              match rest with
              | [] => (require_value arg none).map fun _ => (options, seen)
              | next :: later =>
                  match (require_value arg (some next)).bind (readValue arg option) with
                  | .error error => .error error
                  | .ok value => parseArgs later (options.put option value) (seen.now (.value option))
        | none =>
            if arg.head? = some 0x2D then .error (unknown_option arg)
            else .error ⟨text "unexpected positional argument: " ++ arg, []⟩

-- What is checked behind the loop.
def concluded (options : Options) (seen : SeenFlags) : Except CommandLineError ParsedCommandLine :=
  let any_value_option := valueOptions.any fun option => seen (.value option)
  if seen .help && seen .version then .error ⟨text "options --help and --version cannot be combined", text "--help"⟩
  else if seen .help then
    if any_value_option then .error ⟨text "--help must be used alone", text "--help"⟩ else .ok ⟨.help, options⟩
  else if seen .version then
    if any_value_option then .error ⟨text "--version must be used alone", text "--version"⟩ else .ok ⟨.version, options⟩
  else .ok ⟨.run, options⟩

def parse_command_line (argv : List Arg) : Except CommandLineError ParsedCommandLine :=
  match argv with
  | [] => .error ⟨text "empty argv", []⟩
  | _ :: args =>
      match parseArgs args Options.defaults fun _ => false with
      | .error error => .error error
      | .ok (options, seen) => concluded options seen

section values

theorem from_chars_iff (max : Nat) (raw : Arg) (value : Nat) :
    from_chars max raw = .parsed value [] ↔ Denotes raw value ∧ value ≤ max := by
  have all : raw.dropWhile decimalDigit = [] ↔ ∀ byte ∈ raw, decimalDigit byte = true := List.dropWhile_eq_nil_iff
  constructor
  · intro read
    unfold from_chars at read
    dsimp only at read
    split_ifs at read with none_ large
    injection read with same rest
    have digits := all.mp rest
    rw [List.takeWhile_eq_self_iff.mpr digits] at none_ large same
    exact ⟨⟨none_, digits, same⟩, by omega⟩
  · rintro ⟨numeral, small⟩
    rw [from_chars, List.takeWhile_eq_self_iff.mpr numeral.digits, all.mpr numeral.digits]
    rw [if_neg numeral.some_, numeral.value, if_neg (Nat.not_lt.mpr small)]

theorem parse_unsigned_iff (max : Nat) (option raw : Arg) (value : Nat) :
    parse_unsigned_full max option raw = .ok value ↔ Denotes raw value ∧ value ≤ max := by
  rw [← from_chars_iff, parse_unsigned_full]
  by_cases empty : raw = []
  · simp [empty, from_chars]
  · rw [if_neg empty]
    cases read : from_chars max raw with
    | invalid_argument => simp
    | result_out_of_range => simp
    | parsed n rest =>
        dsimp only
        by_cases whole : rest = []
        · simp [whole]
        · simp [whole]

theorem parse_milliseconds_iff (option raw : Arg) (value : Nat) :
    parse_milliseconds option raw = .ok value ↔ Denotes raw value ∧ value ≤ k_max := by
  have within : k_max ≤ unsignedMax := by decide
  have read := parse_unsigned_iff unsignedMax option raw
  rw [parse_milliseconds]
  cases parsed : parse_unsigned_full unsignedMax option raw with
  | error error =>
      refine iff_of_false (by simp) fun both => ?_
      rw [(read value).mpr ⟨both.1, Nat.le_trans both.2 within⟩] at parsed
      cases parsed
  | ok n =>
      obtain ⟨numeral, _⟩ := (read n).mp parsed
      dsimp only
      by_cases large : k_max < n
      · rw [if_pos large]
        refine iff_of_false (by simp) fun both => ?_
        have same : n = value := numeral.value.symm.trans both.1.value
        omega
      · rw [if_neg large]
        constructor
        · intro same
          rw [← Except.ok.inj same]
          exact ⟨numeral, Nat.not_lt.mp large⟩
        · intro both
          rw [numeral.value.symm.trans both.1.value]

theorem positive_iff (option raw : Arg) (read : Except CommandLineError Nat) (value : Nat) :
    positive option raw read = .ok value ↔ read = .ok value ∧ 0 < value := by
  cases read with
  | error error => simp [positive]
  | ok n =>
      cases n with
      | zero => simp [positive]; omega
      | succ n =>
          simp only [positive, Except.ok.injEq]
          omega

def logLevels : List Arg := [text "trace", text "debug", text "info", text "warn", text "error", text "critical", text "off"]

-- The values an option can have.
def Fits : (option : ValueOption) → option.Value → Prop
  | .script, _ | .data_dir, _ | .ca_bundle, _ => True
  | .log_level, value => value ∈ logLevels
  | .js_heap, value | .js_stack, value => 0 < value ∧ value < 2 ^ 64
  | .js_time, value => value < 2 ^ 63
  | .lifecycle, value => 0 < value ∧ value < 2 ^ 63

-- The argument a value is given by.
def Spells : (option : ValueOption) → Arg → option.Value → Prop
  | .script, raw, value | .data_dir, raw, value | .log_level, raw, value | .ca_bundle, raw, value => value = raw
  | .js_heap, raw, value | .js_stack, raw, value | .js_time, raw, value | .lifecycle, raw, value => Denotes raw value

structure Admissible (option : ValueOption) (raw : Arg) (value : option.Value) : Prop where
  some_ : raw ≠ []
  undashed : raw.head? ≠ some 0x2D
  spells : Spells option raw value
  fits : Fits option value

theorem unsigned_lt (n : Nat) : n ≤ unsignedMax ↔ n < 2 ^ 64 := by
  rw [unsignedMax]
  omega

theorem rep_lt (n : Nat) : n ≤ k_max ↔ n < 2 ^ 63 := by
  rw [k_max]
  omega

theorem read_value_iff (arg : Arg) (option : ValueOption) (raw : Arg) (value : option.Value) :
    readValue arg option raw = .ok value ↔ Spells option raw value ∧ Fits option value := by
  cases option with
  | script | data_dir | ca_bundle => simp [readValue, Spells, Fits, eq_comm]
  | log_level =>
      have levels : is_canonical_log_level raw = true ↔ raw ∈ logLevels := List.contains_iff_mem
      rw [readValue]
      split_ifs with level
      · rw [levels] at level
        simp only [Spells, Fits, Except.ok.injEq]
        exact ⟨fun same => ⟨same.symm, same ▸ level⟩, fun both => both.1.symm⟩
      · rw [levels] at level
        exact iff_of_false (by simp) fun both => level (both.1 ▸ both.2)
  | js_heap | js_stack =>
      rw [readValue, positive_iff, parse_unsigned_iff, unsigned_lt]
      exact and_assoc.trans (and_congr_right fun _ => and_comm)
  | js_time =>
      rw [readValue, parse_milliseconds_iff, rep_lt]
      rfl
  | lifecycle =>
      rw [readValue, positive_iff, parse_milliseconds_iff, rep_lt]
      exact and_assoc.trans (and_congr_right fun _ => and_comm)

theorem value_iff (arg : Arg) (option : ValueOption) (raw : Arg) (value : option.Value) :
    (require_value arg (some raw)).bind (readValue arg option) = .ok value ↔ Admissible option raw value := by
  rw [require_value]
  by_cases empty : raw = []
  · rw [if_pos empty]
    exact iff_of_false (by simp [Except.bind]) fun admissible => admissible.some_ empty
  · rw [if_neg empty]
    by_cases dashed : raw.head? = some 0x2D
    · rw [if_pos dashed]
      exact iff_of_false (by simp [Except.bind]) fun admissible => admissible.undashed dashed
    · rw [if_neg dashed]
      refine (read_value_iff arg option raw value).trans ⟨fun both => ⟨empty, dashed, both.1, both.2⟩, fun admissible => ?_⟩
      exact ⟨admissible.spells, admissible.fits⟩

theorem admissible_unique (option : ValueOption) (raw : Arg) (value other : option.Value) (one : Admissible option raw value)
    (two : Admissible option raw other) : value = other := by
  have first := (value_iff [] option raw value).mpr one
  rw [(value_iff [] option raw other).mpr two] at first
  exact (Except.ok.inj first).symm

theorem get_put_same (options : Options) (option : ValueOption) (value : option.Value) :
    (options.put option value).get option = value := by
  cases option <;> rfl

theorem get_put_other (options : Options) (option other : ValueOption) (value : option.Value) (different : other ≠ option) :
    (options.put option value).get other = options.get other := by
  cases option <;> cases other <;> first | rfl | exact absurd rfl different

theorem options_eq (options others : Options) (same : ∀ option, options.get option = others.get option) : options = others := by
  obtain ⟨script, data, level, bundle, heap, stack, time, lifecycle⟩ := options
  obtain ⟨script', data', level', bundle', heap', stack', time', lifecycle'⟩ := others
  obtain rfl : script = script' := same .script
  obtain rfl : data = data' := same .data_dir
  obtain rfl : level = level' := same .log_level
  obtain rfl : bundle = bundle' := same .ca_bundle
  obtain rfl : heap = heap' := same .js_heap
  obtain rfl : stack = stack' := same .js_stack
  obtain rfl : time = time' := same .js_time
  obtain rfl : lifecycle = lifecycle' := same .lifecycle
  rfl

end values

section scanning

inductive Item where
  | setting (option : ValueOption) (raw : Arg)
  | help (arg : Arg)
  | version (arg : Arg)

def Item.args : Item → List Arg
  | .setting option raw => [option.name, raw]
  | .help arg => [arg]
  | .version arg => [arg]

def Item.flag : Item → Flag
  | .setting option _ => .value option
  | .help _ => .help
  | .version _ => .version

def helpArgs : List Arg := [text "--help", text "-h"]

def versionArgs : List Arg := [text "--version", text "-V"]

-- What the loop makes of its arguments item by item.
inductive Scan : List Item → Options → SeenFlags → Options → SeenFlags → Prop where
  | done (options : Options) (seen : SeenFlags) : Scan [] options seen options seen
  | setting (option : ValueOption) (raw : Arg) (value : option.Value) (items : List Item) (options final : Options)
      (seen flags : SeenFlags) (unseen : seen (.value option) = false) (admissible : Admissible option raw value)
      (later : Scan items (options.put option value) (seen.now (.value option)) final flags) :
      Scan (.setting option raw :: items) options seen final flags
  | help (arg : Arg) (items : List Item) (options final : Options) (seen flags : SeenFlags) (known : arg ∈ helpArgs)
      (unseen : seen .help = false) (later : Scan items options (seen.now .help) final flags) :
      Scan (.help arg :: items) options seen final flags
  | version (arg : Arg) (items : List Item) (options final : Options) (seen flags : SeenFlags) (known : arg ∈ versionArgs)
      (unseen : seen .version = false) (later : Scan items options (seen.now .version) final flags) :
      Scan (.version arg :: items) options seen final flags

theorem find_name (option : ValueOption) : (valueOptions.find? fun other => option.name = other.name) = some option := by
  cases option <;> decide

theorem name_plain (option : ValueOption) :
    option.name ≠ [] ∧ 0x3D ∉ option.name ∧ option.name ∉ helpArgs ∧ option.name ∉ versionArgs := by
  cases option <;> decide

theorem help_plain (arg : Arg) (known : arg ∈ helpArgs) : arg ≠ [] ∧ 0x3D ∉ arg := by
  revert arg
  decide

theorem version_plain (arg : Arg) (known : arg ∈ versionArgs) : arg ≠ [] ∧ 0x3D ∉ arg ∧ arg ∉ helpArgs := by
  revert arg
  decide

theorem help_iff (arg : Arg) : arg ∈ helpArgs ↔ arg = text "--help" ∨ arg = text "-h" := by simp [helpArgs]

theorem version_iff (arg : Arg) : arg ∈ versionArgs ↔ arg = text "--version" ∨ arg = text "-V" := by simp [versionArgs]

theorem scan_parses (items : List Item) (options final : Options) (seen flags : SeenFlags)
    (scan : Scan items options seen final flags) : parseArgs (items.flatMap Item.args) options seen = .ok (final, flags) := by
  induction scan with
  | done options seen => rfl
  | setting option raw value items options final seen flags unseen admissible later ih =>
      obtain ⟨some_, plain, noHelp, noVersion⟩ := name_plain option
      rw [help_iff] at noHelp
      rw [version_iff] at noVersion
      rw [List.flatMap_cons, Item.args, List.cons_append, List.singleton_append, parseArgs, if_neg some_,
        if_neg fun both => plain both.2, if_neg noHelp, if_neg noVersion, find_name]
      dsimp only
      rw [unseen, if_neg Bool.false_ne_true, (value_iff _ _ _ _).mpr admissible]
      exact ih
  | help arg items options final seen flags known unseen later ih =>
      obtain ⟨some_, plain⟩ := help_plain arg known
      rw [List.flatMap_cons, Item.args, List.singleton_append, parseArgs, if_neg some_, if_neg fun both => plain both.2,
        if_pos ((help_iff arg).mp known), unseen, if_neg Bool.false_ne_true, ih]
  | version arg items options final seen flags known unseen later ih =>
      obtain ⟨some_, plain, noHelp⟩ := version_plain arg known
      rw [help_iff] at noHelp
      rw [List.flatMap_cons, Item.args, List.singleton_append, parseArgs, if_neg some_, if_neg fun both => plain both.2,
        if_neg noHelp, if_pos ((version_iff arg).mp known), unseen, if_neg Bool.false_ne_true, ih]

theorem parses_scan (args : List Arg) (options final : Options) (seen flags : SeenFlags)
    (parsed : parseArgs args options seen = .ok (final, flags)) :
    ∃ items, args = items.flatMap Item.args ∧ Scan items options seen final flags := by
  fun_induction parseArgs args options seen with
  | case1 options seen =>
      cases parsed
      exact ⟨[], rfl, .done _ _⟩
  | case5 arg rest options seen _ _ known unseen ih =>
      obtain ⟨items, rfl, scan⟩ := ih parsed
      exact ⟨.help arg :: items, rfl, .help arg items _ _ _ _ ((help_iff arg).mpr known) (Bool.eq_false_iff.mpr unseen) scan⟩
  | case7 arg rest options seen _ _ _ known unseen ih =>
      obtain ⟨items, rfl, scan⟩ := ih parsed
      exact ⟨.version arg :: items, rfl, .version arg items _ _ _ _ ((version_iff arg).mpr known) (Bool.eq_false_iff.mpr unseen) scan⟩
  | case11 arg options seen _ _ _ _ option found unseen next later value read ih =>
      obtain ⟨items, rfl, scan⟩ := ih parsed
      have name : arg = option.name := by simpa using List.find?_some found
      rw [name]
      exact ⟨.setting option next :: items, rfl, .setting option next value items _ _ _ _ (Bool.eq_false_iff.mpr unseen)
        ((value_iff arg option next value).mp read) scan⟩
  | case2 | case3 | case4 | case6 | case8 | case9 | case10 | case12 | case13 => cases parsed

theorem now_same (seen : SeenFlags) (flag : Flag) : seen.now flag flag = true := if_pos rfl

theorem now_iff (seen : SeenFlags) (flag other : Flag) : seen.now flag other = true ↔ other = flag ∨ seen other = true := by
  by_cases same : other = flag
  · simp [SeenFlags.now, same]
  · simp [SeenFlags.now, same]

-- Every flag is given once at most, and the flags seen are those given.
theorem scan_flags (items : List Item) (options final : Options) (seen flags : SeenFlags) (scan : Scan items options seen final flags) :
    (items.map Item.flag).Nodup ∧ (∀ item ∈ items, seen item.flag = false) ∧
      ∀ flag, flags flag = true ↔ flag ∈ items.map Item.flag ∨ seen flag = true := by
  have step : ∀ (item : Item) (items : List Item) (seen flags : SeenFlags), seen item.flag = false →
      ((items.map Item.flag).Nodup ∧ (∀ other ∈ items, seen.now item.flag other.flag = false) ∧
        ∀ flag, flags flag = true ↔ flag ∈ items.map Item.flag ∨ seen.now item.flag flag = true) →
      ((item :: items).map Item.flag).Nodup ∧ (∀ other ∈ item :: items, seen other.flag = false) ∧
        ∀ flag, flags flag = true ↔ flag ∈ (item :: items).map Item.flag ∨ seen flag = true := by
    rintro item items seen flags unseen ⟨once, fresh, all⟩
    have others : ∀ other ∈ items, other.flag ≠ item.flag ∧ seen other.flag = false := by
      intro other member
      have unmarked := fresh other member
      rw [← Bool.not_eq_true, now_iff, not_or, Bool.not_eq_true] at unmarked
      exact unmarked
    refine ⟨?_, ?_, ?_⟩
    · rw [List.map_cons, List.nodup_cons, List.mem_map]
      refine ⟨?_, once⟩
      rintro ⟨other, member, same⟩
      exact (others other member).1 same
    · rw [List.forall_mem_cons]
      exact ⟨unseen, fun other member => (others other member).2⟩
    · intro flag
      rw [all, now_iff, List.map_cons, List.mem_cons]
      constructor
      · rintro (later | here | before)
        · exact .inl (.inr later)
        · exact .inl (.inl here)
        · exact .inr before
      · rintro ((here | later) | before)
        · exact .inr (.inl here)
        · exact .inl later
        · exact .inr (.inr before)
  induction scan with
  | done options seen => simp
  | setting option raw value items options final seen flags unseen admissible later ih => exact step _ items seen flags unseen ih
  | help arg items options final seen flags known unseen later ih => exact step _ items seen flags unseen ih
  | version arg items options final seen flags known unseen later ih => exact step _ items seen flags unseen ih

-- An option that is given has its value at the end, the others have kept theirs.
theorem scan_options (items : List Item) (options final : Options) (seen flags : SeenFlags) (scan : Scan items options seen final flags) :
    (∀ option raw, .setting option raw ∈ items → Admissible option raw (final.get option)) ∧
      ∀ option, .value option ∉ items.map Item.flag → final.get option = options.get option := by
  induction scan with
  | done options seen => simp
  | setting option raw value items options final seen flags unseen admissible later ih =>
      obtain ⟨given, kept⟩ := ih
      have once := (scan_flags _ _ _ _ _ later).2.1
      have still : .value option ∉ items.map Item.flag := by
        rw [List.mem_map]
        rintro ⟨item, member, same⟩
        have fresh := once item member
        rw [same, now_same] at fresh
        cases fresh
      constructor
      · intro other text member
        rcases List.mem_cons.mp member with here | behind
        · injection here with sameOption sameRaw
          subst sameOption sameRaw
          rw [kept other still, get_put_same]
          exact admissible
        · exact given other text behind
      · intro other absent
        rw [List.map_cons, List.mem_cons, not_or] at absent
        rw [kept other absent.2, get_put_other]
        intro same
        exact absent.1 (by rw [same]; rfl)
  | help arg items options final seen flags known unseen later ih =>
      refine ⟨fun option raw member => ih.1 option raw (by simpa using member), fun option absent => ih.2 option ?_⟩
      simp only [List.map_cons, List.mem_cons, not_or] at absent
      exact absent.2
  | version arg items options final seen flags known unseen later ih =>
      refine ⟨fun option raw member => ih.1 option raw (by simpa using member), fun option absent => ih.2 option ?_⟩
      simp only [List.map_cons, List.mem_cons, not_or] at absent
      exact absent.2

end scanning

section acceptance

abbrev Setting : Type := ValueOption × Arg

def settingItem (setting : Setting) : Item := .setting setting.1 setting.2

def rendered (settings : List Setting) : List Arg := settings.flatMap fun setting => [setting.1.name, setting.2]

-- The options with the values the settings give, and the defaults elsewhere.
structure Settled (settings : List Setting) (options : Options) : Prop where
  given : ∀ option raw, (option, raw) ∈ settings → Admissible option raw (options.get option)
  kept : ∀ option, option ∉ settings.map Prod.fst → options.get option = Options.defaults.get option

-- The arguments that are accepted, with what they mean. Where the settings stand plays no part in it.
inductive Accepted : List Arg → ParsedCommandLine → Prop where
  | help (arg : Arg) (known : arg ∈ helpArgs) : Accepted [arg] ⟨.help, Options.defaults⟩
  | version (arg : Arg) (known : arg ∈ versionArgs) : Accepted [arg] ⟨.version, Options.defaults⟩
  | run (settings : List Setting) (options : Options) (once : (settings.map Prod.fst).Nodup) (settled : Settled settings options) :
      Accepted (rendered settings) ⟨.run, options⟩

theorem items_rendered (settings : List Setting) : (settings.map settingItem).flatMap Item.args = rendered settings := by
  rw [List.flatMap_map]
  rfl

theorem items_flags (settings : List Setting) : (settings.map settingItem).map Item.flag = (settings.map Prod.fst).map Flag.value := by
  rw [List.map_map, List.map_map]
  rfl

theorem settings_scan (settings : List Setting) (target options : Options) (seen : SeenFlags) (once : (settings.map Prod.fst).Nodup)
    (given : ∀ option raw, (option, raw) ∈ settings → Admissible option raw (target.get option))
    (unseen : ∀ setting ∈ settings, seen (.value setting.1) = false) :
    ∃ final flags, Scan (settings.map settingItem) options seen final flags := by
  induction settings generalizing options seen with
  | nil => exact ⟨options, seen, .done options seen⟩
  | cons setting rest ih =>
      obtain ⟨option, raw⟩ := setting
      rw [List.map_cons, List.nodup_cons] at once
      rw [List.forall_mem_cons] at unseen
      have fresh : ∀ other ∈ rest, seen.now (.value option) (.value other.1) = false := by
        intro other member
        rw [← Bool.not_eq_true, now_iff, not_or, Bool.not_eq_true]
        refine ⟨fun same => once.1 ?_, unseen.2 other member⟩
        injection same with same
        exact List.mem_map.mpr ⟨other, member, same⟩
      obtain ⟨final, flags, later⟩ := ih (options.put option (target.get option)) (seen.now (.value option)) once.2
        (fun other text member => given other text (List.mem_cons_of_mem _ member)) fresh
      exact ⟨final, flags, .setting option raw _ _ _ _ _ _ unseen.1 (given option raw List.mem_cons_self) later⟩

-- Items that are all settings.
theorem items_settings (items : List Item) (plain : ∀ flag ∈ items.map Item.flag, flag ≠ .help ∧ flag ≠ .version) :
    ∃ settings : List Setting, items = settings.map settingItem := by
  induction items with
  | nil => exact ⟨[], rfl⟩
  | cons item rest ih =>
      rw [List.map_cons, List.forall_mem_cons] at plain
      obtain ⟨settings, rfl⟩ := ih plain.2
      cases item with
      | setting option raw => exact ⟨(option, raw) :: settings, rfl⟩
      | help arg => exact absurd rfl plain.1.1
      | version arg => exact absurd rfl plain.1.2

-- One flag given alone.
theorem items_alone (items : List Item) (flag : Flag) (once : (items.map Item.flag).Nodup) (given : flag ∈ items.map Item.flag)
    (alone : ∀ other ∈ items.map Item.flag, other = flag) : ∃ item, items = [item] ∧ item.flag = flag := by
  cases items with
  | nil => cases given
  | cons item rest =>
      have one := alone item.flag (by simp)
      cases rest with
      | nil => exact ⟨item, rfl, one⟩
      | cons next rest =>
          have two := alone next.flag (by simp)
          simp [one, two] at once

theorem accepts_scan (args : List Arg) (parsed : ParsedCommandLine) (accepted : Accepted args parsed) (program : Arg) :
    parse_command_line (program :: args) = .ok parsed := by
  cases accepted with
  | help arg known =>
      have scan : Scan [.help arg] Options.defaults (fun _ => false) Options.defaults _ := .help arg [] _ _ _ _ known rfl (.done _ _)
      have read := scan_parses _ _ _ _ _ scan
      rw [List.flatMap_singleton, Item.args] at read
      rw [parse_command_line, read]
      rfl
  | version arg known =>
      have scan : Scan [.version arg] Options.defaults (fun _ => false) Options.defaults _ := .version arg [] _ _ _ _ known rfl (.done _ _)
      have read := scan_parses _ _ _ _ _ scan
      rw [List.flatMap_singleton, Item.args] at read
      rw [parse_command_line, read]
      rfl
  | run settings options once settled =>
      obtain ⟨final, flags, scan⟩ := settings_scan settings options Options.defaults (fun _ => false) once settled.given fun _ _ => rfl
      have read := scan_parses _ _ _ _ _ scan
      obtain ⟨_, _, seen⟩ := scan_flags _ _ _ _ _ scan
      obtain ⟨given, kept⟩ := scan_options _ _ _ _ _ scan
      have same : final = options := by
        refine options_eq final options fun option => ?_
        by_cases member : option ∈ settings.map Prod.fst
        · obtain ⟨⟨_, raw⟩, inside, rfl⟩ := List.mem_map.mp member
          exact admissible_unique _ raw _ _ (given _ raw (List.mem_map.mpr ⟨_, inside, rfl⟩)) (settled.given _ raw inside)
        · rw [settled.kept option member]
          refine kept option fun flagged => member ?_
          rw [items_flags, List.mem_map] at flagged
          obtain ⟨other, inside, same⟩ := flagged
          injection same with same
          rwa [← same]
      have plain : flags .help = false ∧ flags .version = false := by
        rw [← Bool.not_eq_true, ← Bool.not_eq_true, seen, seen, items_flags]
        simp
      rw [items_rendered] at read
      rw [parse_command_line, read, same]
      simp [concluded, plain]

theorem concluded_cases (options : Options) (seen : SeenFlags) (parsed : ParsedCommandLine)
    (ended : concluded options seen = .ok parsed) :
    (parsed = ⟨.help, options⟩ ∧ seen .help = true ∧ ∀ flag, seen flag = true → flag = .help) ∨
      (parsed = ⟨.version, options⟩ ∧ seen .version = true ∧ ∀ flag, seen flag = true → flag = .version) ∨
      (parsed = ⟨.run, options⟩ ∧ ∀ flag, seen flag = true → flag ≠ .help ∧ flag ≠ .version) := by
  have listed : ∀ option, option ∈ valueOptions := by
    intro option
    cases option <;> decide
  unfold concluded at ended
  dsimp only at ended
  split_ifs at ended with both help any version any
  · rw [List.any_eq_true] at any
    refine .inl ⟨(Except.ok.inj ended).symm, help, fun flag given => ?_⟩
    cases flag with
    | value option => exact absurd ⟨option, listed option, given⟩ any
    | help => rfl
    | version => exact absurd (by rw [help, given]; rfl) both
  · rw [List.any_eq_true] at any
    refine .inr (.inl ⟨(Except.ok.inj ended).symm, version, fun flag given => ?_⟩)
    cases flag with
    | value option => exact absurd ⟨option, listed option, given⟩ any
    | help => exact absurd given help
    | version => rfl
  · refine .inr (.inr ⟨(Except.ok.inj ended).symm, fun flag given => ⟨?_, ?_⟩⟩)
    · rintro rfl
      exact help given
    · rintro rfl
      exact version given

theorem scan_accepted (items : List Item) (final : Options) (seen : SeenFlags) (parsed : ParsedCommandLine)
    (scan : Scan items Options.defaults (fun _ => false) final seen) (ended : concluded final seen = .ok parsed) :
    Accepted (items.flatMap Item.args) parsed := by
  obtain ⟨once, _, flagged⟩ := scan_flags _ _ _ _ _ scan
  have flags : ∀ flag, flag ∈ items.map Item.flag ↔ seen flag = true := by
    intro flag
    rw [flagged]
    simp
  rcases concluded_cases final seen parsed ended with ⟨rfl, given, alone⟩ | ⟨rfl, given, alone⟩ | ⟨rfl, plain⟩
  · obtain ⟨item, rfl, kind⟩ := items_alone items .help once ((flags _).mpr given) fun flag member => alone flag ((flags flag).mp member)
    cases scan with
    | help arg _ _ _ _ _ known _ later =>
        cases later
        exact .help arg known
    | setting => cases kind
    | version => cases kind
  · obtain ⟨item, rfl, kind⟩ := items_alone items .version once ((flags _).mpr given) fun flag member => alone flag ((flags flag).mp member)
    cases scan with
    | version arg _ _ _ _ _ known _ later =>
        cases later
        exact .version arg known
    | setting => cases kind
    | help => cases kind
  · obtain ⟨settings, rfl⟩ := items_settings items fun flag member => plain flag ((flags flag).mp member)
    obtain ⟨admissible, kept⟩ := scan_options _ _ _ _ _ scan
    rw [items_flags] at once kept
    rw [items_rendered]
    refine .run settings final (List.Nodup.of_map _ once) ⟨fun option raw member => ?_, fun option absent => kept option ?_⟩
    · exact admissible option raw (List.mem_map.mpr ⟨_, member, rfl⟩)
    · rw [List.mem_map]
      rintro ⟨other, member, same⟩
      injection same with same
      exact absent (by rwa [← same])

theorem parse_accepts (argv : List Arg) (parsed : ParsedCommandLine) :
    parse_command_line argv = .ok parsed ↔ ∃ program args, argv = program :: args ∧ Accepted args parsed := by
  constructor
  · intro read
    cases argv with
    | nil => cases read
    | cons program args =>
        rw [parse_command_line] at read
        cases looped : parseArgs args Options.defaults fun _ => false with
        | error error =>
            rw [looped] at read
            cases read
        | ok result =>
            obtain ⟨final, seen⟩ := result
            rw [looped] at read
            obtain ⟨items, rfl, scan⟩ := parses_scan args Options.defaults final _ seen looped
            exact ⟨program, _, rfl, scan_accepted items final seen parsed scan read⟩
  · rintro ⟨program, args, rfl, accepted⟩
    exact accepts_scan args parsed accepted program

theorem name_injective (option other : ValueOption) (same : option.name = other.name) : option = other := by
  have found := find_name option
  rw [same, find_name other] at found
  exact (Option.some.inj found).symm

theorem rendered_injective (settings others : List Setting) (same : rendered settings = rendered others) : settings = others := by
  induction settings generalizing others with
  | nil =>
      cases others with
      | nil => rfl
      | cons other rest => cases same
  | cons setting rest ih =>
      cases others with
      | nil => cases same
      | cons other more =>
          injection same with name tail
          injection tail with raw later
          rw [ih more later, Prod.ext (name_injective _ _ name) raw]

theorem rendered_accepted (settings : List Setting) (parsed : ParsedCommandLine) :
    Accepted (rendered settings) parsed ↔
      parsed.action = .run ∧ (settings.map Prod.fst).Nodup ∧ Settled settings parsed.options := by
  constructor
  · intro accepted
    have pairs : ∀ arg, rendered settings ≠ [arg] := by
      intro arg same
      cases settings with
      | nil => cases same
      | cons setting rest => cases same
    generalize shown : rendered settings = args at accepted
    cases accepted with
    | help arg known => exact absurd shown (pairs arg)
    | version arg known => exact absurd shown (pairs arg)
    | run others options once settled =>
        rw [rendered_injective settings others shown]
        exact ⟨rfl, once, settled⟩
  · rintro ⟨runs, once, settled⟩
    obtain ⟨action, options⟩ := parsed
    dsimp only at runs settled
    rw [runs]
    exact .run settings options once settled

theorem settled_perm (settings others : List Setting) (order : settings.Perm others) (options : Options) (settled : Settled settings options) :
    Settled others options := by
  refine ⟨fun option raw member => settled.given option raw (order.mem_iff.mpr member), fun option absent => settled.kept option ?_⟩
  rwa [(order.map Prod.fst).mem_iff]

theorem accepted_perm (settings others : List Setting) (order : settings.Perm others) (parsed : ParsedCommandLine) :
    Accepted (rendered settings) parsed ↔ Accepted (rendered others) parsed := by
  rw [rendered_accepted, rendered_accepted, (order.map Prod.fst).nodup_iff]
  refine and_congr_right fun _ => and_congr_right fun _ => ⟨?_, ?_⟩
  · exact settled_perm settings others order parsed.options
  · exact settled_perm others settings order.symm parsed.options

end acceptance

section roundTrip

abbrev Assignment : Type := List ((option : ValueOption) × option.Value)

def spell : (option : ValueOption) → option.Value → Arg
  | .script, value | .data_dir, value | .log_level, value | .ca_bundle, value => value
  | .js_heap, value | .js_stack, value | .js_time, value | .lifecycle, value => numeral value

def spelled (assignment : Assignment) : List Setting := assignment.map fun entry => (entry.1, spell entry.1 entry.2)

-- The values an option can be given: a text that is not empty and starts with no dash, a level, or a number in its range.
def Assignable : (option : ValueOption) → option.Value → Prop
  | .script, value | .data_dir, value | .ca_bundle, value => value ≠ [] ∧ value.head? ≠ some 0x2D
  | .log_level, value => value ∈ logLevels
  | .js_heap, value | .js_stack, value => 0 < value ∧ value < 2 ^ 64
  | .js_time, value => value < 2 ^ 63
  | .lifecycle, value => 0 < value ∧ value < 2 ^ 63

theorem spelled_admissible (option : ValueOption) (value : option.Value) (assignable : Assignable option value) :
    Admissible option (spell option value) value := by
  have number : ∀ n : Nat, numeral n ≠ [] ∧ (numeral n).head? ≠ some 0x2D := by
    intro n
    exact ⟨(numeral_reads n).some_, numeral_unsigned _ _ (numeral_reads n) _ (by decide)⟩
  cases option with
  | script | data_dir | ca_bundle => exact ⟨assignable.1, assignable.2, rfl, trivial⟩
  | log_level =>
      have plain : ∀ level ∈ logLevels, level ≠ [] ∧ level.head? ≠ some 0x2D := by decide
      obtain ⟨some_, undashed⟩ := plain value assignable
      exact ⟨some_, undashed, rfl, assignable⟩
  | js_heap | js_stack | js_time | lifecycle => exact ⟨(number value).1, (number value).2, numeral_reads value, assignable⟩

def assigned (assignment : Assignment) : Options := assignment.foldr (fun entry options => options.put entry.1 entry.2) Options.defaults

theorem assigned_get (assignment : Assignment) (once : (assignment.map Sigma.fst).Nodup) :
    (∀ entry ∈ assignment, (assigned assignment).get entry.1 = entry.2) ∧
      ∀ option, option ∉ assignment.map Sigma.fst → (assigned assignment).get option = Options.defaults.get option := by
  induction assignment with
  | nil => simp [assigned]
  | cons entry rest ih =>
      rw [List.map_cons, List.nodup_cons] at once
      obtain ⟨given, kept⟩ := ih once.2
      constructor
      · rw [List.forall_mem_cons]
        refine ⟨get_put_same _ _ _, fun other member => ?_⟩
        refine (get_put_other _ _ _ _ ?_).trans (given other member)
        intro same
        exact once.1 (List.mem_map.mpr ⟨other, member, same⟩)
      · intro option absent
        rw [List.map_cons, List.mem_cons, not_or] at absent
        exact (get_put_other _ _ _ _ absent.1).trans (kept option absent.2)

theorem spelled_settled (assignment : Assignment) (once : (assignment.map Sigma.fst).Nodup)
    (assignable : ∀ entry ∈ assignment, Assignable entry.1 entry.2) : Settled (spelled assignment) (assigned assignment) := by
  obtain ⟨given, kept⟩ := assigned_get assignment once
  constructor
  · intro option raw member
    obtain ⟨entry, inside, same⟩ := List.mem_map.mp member
    injection same with option_ raw_
    subst option_ raw_
    rw [given entry inside]
    exact spelled_admissible _ _ (assignable entry inside)
  · intro option absent
    refine kept option fun member => absent ?_
    rwa [spelled, List.map_map]

end roundTrip

-- Values assigned to options are read back from their rendering in any order, and what is accepted is a help or version
-- alone or settings of distinct options with admissible values, wherever they stand.
theorem command_line_exact :
    (∀ (program : Arg) (assignment : Assignment), (assignment.map Sigma.fst).Nodup →
      (∀ entry ∈ assignment, Assignable entry.1 entry.2) →
        ∃ options, parse_command_line (program :: rendered (spelled assignment)) = .ok ⟨.run, options⟩ ∧
          (∀ entry ∈ assignment, options.get entry.1 = entry.2) ∧
          ∀ option, option ∉ assignment.map Sigma.fst → options.get option = Options.defaults.get option) ∧
      (∀ argv parsed, parse_command_line argv = .ok parsed ↔ ∃ program args, argv = program :: args ∧ Accepted args parsed) ∧
      ∀ (program : Arg) (settings others : List Setting), settings.Perm others →
        ∀ parsed, parse_command_line (program :: rendered settings) = .ok parsed ↔
          parse_command_line (program :: rendered others) = .ok parsed := by
  have accepts : ∀ program args parsed, parse_command_line (program :: args) = .ok parsed ↔ Accepted args parsed := by
    intro program args parsed
    rw [parse_accepts]
    constructor
    · rintro ⟨_, _, same, accepted⟩
      rwa [(List.cons.inj same).2]
    · intro accepted
      exact ⟨program, args, rfl, accepted⟩
  refine ⟨?_, parse_accepts, ?_⟩
  · intro program assignment once assignable
    obtain ⟨given, kept⟩ := assigned_get assignment once
    refine ⟨assigned assignment, (accepts _ _ _).mpr (.run _ _ ?_ (spelled_settled assignment once assignable)), given, kept⟩
    rwa [spelled, List.map_map]
  · intro program settings others order parsed
    rw [accepts, accepts, accepted_perm settings others order]

def heapAndLevel : Assignment := [⟨.js_heap, (5 : Nat)⟩, ⟨.log_level, text "debug"⟩]

theorem command_line_settings :
    ∃ options, parse_command_line (text "vacps-agent" :: rendered (spelled heapAndLevel)) = .ok ⟨.run, options⟩ ∧
      options.heap_limit_bytes = 5 ∧ options.log_level = text "debug" ∧ options.data_dir = text "data" := by
  have fits : ∀ entry ∈ heapAndLevel, Assignable entry.1 entry.2 := by
    rw [heapAndLevel, List.forall_mem_cons, List.forall_mem_singleton]
    exact ⟨⟨by decide, by decide⟩, show text "debug" ∈ logLevels by decide⟩
  obtain ⟨options, read, given, kept⟩ := command_line_exact.1 (text "vacps-agent") heapAndLevel (by decide) fits
  rw [heapAndLevel, List.forall_mem_cons, List.forall_mem_singleton] at given
  exact ⟨options, read, given.1, given.2, kept .data_dir (by decide)⟩

end Vacps.Native.CommandLine
