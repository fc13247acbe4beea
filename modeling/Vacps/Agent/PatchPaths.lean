import Vacps.Agent.Files
import Vacps.Library.Async
import Vacps.Library.Segments

/- script/src/util/absolute-path.ts and resolve-under-workspace.ts on strings, and applyPatch as the calls of
   vacps:fs it makes. -/
set_option autoImplicit false

namespace Vacps.PatchPaths

open Library Library.Utf16 Files

section paths

-- parts.length === 0 ? '/' : `/${parts.join('/')}`
def pathText (parts : Path) : Units := if parts = [] then [slash] else slash :: [slash].intercalate parts

def normalizeAbsolutePath (filePath : Units) : Units := pathText ((filePath.splitOn slash).foldl normalizeStep [])

def requireAbsolutePath (filePath : Units) : Except RuntimeError Units :=
  if filePath = [] then .error (invalidPath "path is required.")
  else if filePath.head? ≠ some slash then .error (invalidPath "path must be absolute.")
  else if 0 ∈ filePath then .error (invalidPath "path contains a null byte.")
  else .ok (normalizeAbsolutePath filePath)

def joined (root filePath : Units) : Units := if root = [slash] then slash :: filePath else root ++ slash :: filePath

def underRoot (root resolved : Units) : Bool :=
  root = [slash] || resolved = root || (root ++ [slash]).isPrefixOf resolved

def resolveUnderWorkspace (workspace filePath : Units) : Except RuntimeError Units :=
  if filePath = [] then .error (invalidPath "path is required.")
  else if 0 ∈ filePath then .error (invalidPath "path contains a null byte.")
  else do
    let root ← requireAbsolutePath workspace
    let resolved ←
      if filePath.head? = some slash then requireAbsolutePath filePath
      else if units ".." ∈ filePath.splitOn slash then .error (invalidPath "relative path must not contain \"..\".")
      else .ok (normalizeAbsolutePath (joined root filePath))
    if underRoot root resolved then .ok resolved else .error (invalidPath "path escapes workspace.")

-- lastIndexOf is -1 without a separator and 0 with one in front only; both give the root.
def dirname (path : Units) : Units := if beforeLast slash path = [] then [slash] else beforeLast slash path

end paths

inductive FsCall where
  | exists_ (path : Units)
  | mkdir (path : Units)
  | openRead (path : Units)
  | openWrite (path : Units)
  | read (path : Units) (maxBytes : Nat)
  | write (path : Units) (bytes : List UInt8)
  | close (path : Units)
  | remove (path : Units)
  -- fatalUtf8Decoder is shared by the whole module and keeps a state of its own.
  | decode (bytes : List UInt8)

abbrev FsCall.Result : FsCall → Type
  | .exists_ _ => Bool
  | .read _ _ => List UInt8
  | .decode _ => Units
  | _ => Unit

structure Locals where
  backups : List (Units × Option Units)
  results : List FileResult

-- What a program of the module does, with the locals of applyPatch that outlive what it throws.
abbrev Patching (α : Type) : Type := ExceptT Thrown (StateT Locals (Async FsCall FsCall.Result Thrown)) α

def ask (call : FsCall) : Patching call.Result := fun locals => do
  let answer ← (Async.perform call).attempt
  pure (answer, locals)

def raise {α : Type} (error : RuntimeError) : Patching α := throw (.runtime error)

-- try … finally
def finally_ {α : Type} (body : Patching α) (cleanup : Patching Unit) : Patching α := fun locals => do
  let (ended, after) ← body locals
  let (cleaned, last) ← cleanup after
  match cleaned with
  | .ok _ => pure (ended, last)
  | .error error => pure (.error error, last)

-- Map#set: a path set before keeps its place.
def setBackup (backups : List (Units × Option Units)) (path : Units) (text : Option Units) :
    List (Units × Option Units) :=
  if (backups.lookup path).isSome then backups.map fun backup => if backup.1 = path then (path, text) else backup
  else backups ++ [(path, text)]

def backUp (path : Units) (text : Option Units) : Patching Unit :=
  modify fun locals => { locals with backups := setBackup locals.backups path text }

def pushResult (result : FileResult) : Patching Unit :=
  modify fun locals => { locals with results := locals.results ++ [result] }

def readWholeBytesFile (path : Units) (maxBytes : Nat) : Patching (List UInt8) := do
  ask (.openRead path)
  finally_
    (do
      let bytes ← ask (.read path (maxBytes + 1))
      if maxBytes < bytes.length then raise (fileTooLargeError maxBytes)
      pure bytes)
    (ask (.close path))

-- decodeWholeFileUtf8 answers whatever the decoder throws with an error of its own.
def decodeWholeFileUtf8 (bytes : List UInt8) : Patching Units :=
  tryCatch (ask (.decode bytes)) fun _ =>
    raise (runtimeError "File content is not valid UTF-8." "invalid_encoding" 409)

def readTextFile (path : Units) (maxBytes : Nat) : Patching Units := do
  let bytes ← readWholeBytesFile path maxBytes
  decodeWholeFileUtf8 bytes

def writeTextFile (path : Units) (content : Units) : Patching Unit := do
  ask (.openWrite path)
  finally_ (ask (.write path (encode content))) (ask (.close path))

structure Planned extends PatchOperation where
  absolute : Units

section patch

variable (sha256Hex : Units → String)

def workspaceOf (input : ApplyPatchInput) : Except RuntimeError Units :=
  match input.workspacePath.filter (· ≠ []) with
  | some workspacePath => requireAbsolutePath workspacePath
  | none => .ok (units "/tmp")

def planUnder (workspace : Units) (operation : PatchOperation) : Except RuntimeError Planned := do
  let absolute ← resolveUnderWorkspace workspace operation.path
  pure { operation with absolute := absolute }

def plan (input : ApplyPatchInput) : Except RuntimeError (List Planned) := do
  let workspace ← workspaceOf input
  let operations := parsePatch input.patch
  if operations = [] then .error (runtimeError "Patch contained no operations." "invalid_patch" 400)
  else operations.mapM (planUnder workspace)

def applyOperation (dryRun : Bool) (op : Planned) : Patching Unit :=
  match op.action with
  | .add text => do
      if ← ask (.exists_ op.absolute) then raise (pathError "Cannot add existing file " op.path "file_exists" 409)
      if !dryRun then
        ask (.mkdir (dirname op.absolute))
        writeTextFile op.absolute text
        backUp op.absolute none
      pushResult ⟨op.path, .add, dryRun, none, none⟩
  | .delete => do
      if !(← ask (.exists_ op.absolute)) then
        raise (pathError "Cannot delete missing file " op.path "path_not_found" 404)
      let before ← readTextFile op.absolute WHOLE_FILE_MAX_BYTES
      if !dryRun then
        backUp op.absolute (some before)
        ask (.remove op.absolute)
      pushResult ⟨op.path, .delete, dryRun, none, none⟩
  | .update hunks => do
      if !(← ask (.exists_ op.absolute)) then
        raise (pathError "Cannot update missing file " op.path "path_not_found" 404)
      let before ← readTextFile op.absolute WHOLE_FILE_MAX_BYTES
      match applyHunks before hunks with
      | .error error => raise error
      | .ok after =>
          if WHOLE_FILE_MAX_BYTES < (encode after).length then raise (fileTooLargeError WHOLE_FILE_MAX_BYTES)
          if !dryRun then
            backUp op.absolute (some before)
            writeTextFile op.absolute after
          pushResult ⟨op.path, .update, dryRun, some (sha256Hex before), some (sha256Hex after)⟩

def applyOperations (dryRun : Bool) : List Planned → Patching Unit
  | [] => pure ()
  | op :: rest => do
      applyOperation sha256Hex dryRun op
      applyOperations dryRun rest

-- Best effort: what a step throws is dropped.
def rollback : List (Units × Option Units) → Patching Unit
  | [] => pure ()
  | (path, content) :: rest => do
      tryCatch (match content with
        | none => ask (.remove path)
        | some text => writeTextFile path text) fun _ => pure ()
      rollback rest

def applyPlanned (input : ApplyPatchInput) (planned : List Planned) : Patching PatchResult := do
  tryCatch (applyOperations sha256Hex (dryRunOf input) planned) fun error => do
    if atomicOf input && !dryRunOf input then rollback (← get).backups
    throw error
  pure ⟨!dryRunOf input, dryRunOf input, atomicOf input, (← get).results⟩

def applyPatch (input : ApplyPatchInput) : Async FsCall FsCall.Result Thrown PatchResult :=
  match plan input with
  | .error error => .fail (.runtime error)
  | .ok planned => do
      match ← applyPlanned sha256Hex input planned ⟨[], []⟩ with
      | (.ok result, _) => pure result
      | (.error error, _) => .fail error

end patch

section names

-- What normalizeAbsolutePath leaves of a path: no name is empty, a dot or two, or has a separator in it.
def Clean (name : Units) : Prop := name ≠ [] ∧ name ≠ units "." ∧ name ≠ units ".." ∧ slash ∉ name

def CleanPath (names : Path) : Prop := ∀ name ∈ names, Clean name

theorem clean_plain (names : Path) (clean : CleanPath names) : ∀ name ∈ names, slash ∉ name :=
  fun name member => (clean name member).2.2.2

theorem clean_front (names front : Path) (clean : CleanPath names) (under : front <+: names) : CleanPath front :=
  fun name member => clean name (under.subset member)

theorem normalize_step_clean (parts : Path) (name : Units) (clean : CleanPath parts) (plain : slash ∉ name) :
    CleanPath (normalizeStep parts name) := by
  unfold normalizeStep
  split
  · exact clean
  · split
    · exact clean_front parts _ clean (List.dropLast_prefix parts)
    · rename_i kept other
      intro part member
      rcases List.mem_append.mp member with old | new
      · exact clean part old
      · rw [List.mem_singleton] at new
        subst new
        exact ⟨fun empty => kept (Or.inl empty), fun dot => kept (Or.inr dot), other, plain⟩

theorem normalize_clean (segments parts : Path) (clean : CleanPath parts) (plain : ∀ name ∈ segments, slash ∉ name) :
    CleanPath (segments.foldl normalizeStep parts) := by
  induction segments generalizing parts with
  | nil => exact clean
  | cons name rest ih =>
      exact ih _ (normalize_step_clean parts name clean (plain name List.mem_cons_self))
        fun other member => plain other (List.mem_cons_of_mem _ member)

theorem normalize_names (names parts : Path) (clean : CleanPath names) :
    names.foldl normalizeStep parts = parts ++ names := by
  induction names generalizing parts with
  | nil => simp
  | cons name rest ih =>
      obtain ⟨some_, dot, dots, plain⟩ := clean name List.mem_cons_self
      have step : normalizeStep parts name = parts ++ [name] := by
        simp [normalizeStep, some_, dot, dots]
      rw [List.foldl_cons, step, ih _ fun other member => clean other (List.mem_cons_of_mem _ member)]
      simp

theorem normalize_step_from (parts : Path) (name part : Units) (member : part ∈ normalizeStep parts name) :
    part ∈ parts ∨ part = name := by
  unfold normalizeStep at member
  split at member
  · exact Or.inl member
  · split at member
    · exact Or.inl (List.mem_of_mem_dropLast member)
    · simpa using member

theorem normalize_from (segments parts : Path) (part : Units) (member : part ∈ segments.foldl normalizeStep parts) :
    part ∈ parts ∨ part ∈ segments := by
  induction segments generalizing parts with
  | nil => exact Or.inl member
  | cons name rest ih =>
      rcases ih _ member with here | later
      · rcases normalize_step_from parts name part here with old | rfl
        · exact Or.inl old
        · exact Or.inr List.mem_cons_self
      · exact Or.inr (List.mem_cons_of_mem _ later)

theorem absolute_clean (filePath : Units) : CleanPath (Files.normalizeAbsolutePath filePath) :=
  normalize_clean _ [] (by simp [CleanPath]) fun name member => split_plain slash filePath name member

end names

section texts

theorem path_text_root : pathText [] = [slash] := rfl

theorem path_text_rooted (names : Path) (some_ : names ≠ []) : pathText names = rooted slash names := by
  rw [pathText, if_neg some_, rooted_join slash names some_]

theorem path_text_cases (names : Path) :
    (names = [] ∧ pathText names = [slash]) ∨ (names ≠ [] ∧ pathText names = rooted slash names) := by
  by_cases empty : names = []
  · exact Or.inl ⟨empty, by rw [empty, path_text_root]⟩
  · exact Or.inr ⟨empty, path_text_rooted names empty⟩

theorem path_text_starts (names : Path) : ∃ rest, pathText names = slash :: rest := by
  by_cases empty : names = []
  · exact ⟨[], by rw [empty, path_text_root]⟩
  · exact ⟨_, by rw [pathText, if_neg empty]⟩

theorem root_rooted (names : Path) (clean : CleanPath names) : rooted slash names ≠ [slash] := by
  intro same
  cases names with
  | nil => cases same
  | cons name rest =>
      rw [rooted_cons, List.cons.injEq, List.append_eq_nil_iff] at same
      exact (clean name List.mem_cons_self).1 same.2.1

theorem path_text_is_root (names : Path) (clean : CleanPath names) : pathText names = [slash] ↔ names = [] := by
  rcases path_text_cases names with ⟨empty, here⟩ | ⟨some_, here⟩
  · exact ⟨fun _ => empty, fun _ => here⟩
  · rw [here]
    exact ⟨fun same => absurd same (root_rooted names clean), fun same => absurd same some_⟩

theorem path_text_injective (first second : Path) (cleanFirst : CleanPath first) (cleanSecond : CleanPath second)
    (same : pathText first = pathText second) : first = second := by
  by_cases empty : first = []
  · rw [empty, path_text_root] at same
    rw [empty, (path_text_is_root second cleanSecond).mp same.symm]
  · have other : second ≠ [] := by
      intro root
      rw [root, path_text_root] at same
      exact empty ((path_text_is_root first cleanFirst).mp same)
    rw [path_text_rooted first empty, path_text_rooted second other] at same
    exact rooted_injective slash first second (clean_plain first cleanFirst) (clean_plain second cleanSecond) same

theorem split_path_text (names : Path) (clean : CleanPath names) :
    ((pathText names).splitOn slash).foldl normalizeStep [] = names := by
  rcases path_text_cases names with ⟨empty, here⟩ | ⟨some_, here⟩
  · rw [here, empty]
    rfl
  · have parts := split_rooted slash [] names (clean_plain names clean) (by simp)
    rw [List.nil_append] at parts
    rw [here, parts, List.foldl_cons, normalize_names names _ clean]
    rfl

theorem normalize_again (names : Path) (clean : CleanPath names) : normalizeAbsolutePath (pathText names) = pathText names := by
  rw [normalizeAbsolutePath, split_path_text names clean]

theorem text_units (names : Path) (unit : UInt16) (inside : unit ∈ pathText names) :
    unit = slash ∨ ∃ name ∈ names, unit ∈ name := by
  rcases path_text_cases names with ⟨_, here⟩ | ⟨_, here⟩
  · rw [here, List.mem_singleton] at inside
    exact Or.inl inside
  · rw [here, rooted, List.mem_flatMap] at inside
    obtain ⟨name, member, within⟩ := inside
    rcases List.mem_cons.mp within with same | deeper
    · exact Or.inl same
    · exact Or.inr ⟨name, member, deeper⟩

theorem normalized_units (filePath : Units) (unit : UInt16) (inside : unit ∈ normalizeAbsolutePath filePath) :
    unit = slash ∨ unit ∈ filePath := by
  rcases text_units _ unit inside with same | ⟨name, member, within⟩
  · exact Or.inl same
  · rcases normalize_from _ [] name member with none_ | segment
    · cases none_
    · exact Or.inr (split_inside slash filePath name segment unit within)

-- A path once accepted is accepted again, as it is.
theorem require_again (names : Path) (clean : CleanPath names) (whole : 0 ∉ pathText names) :
    requireAbsolutePath (pathText names) = .ok (pathText names) := by
  obtain ⟨rest, starts⟩ := path_text_starts names
  rw [requireAbsolutePath, if_neg (by rw [starts]; simp), if_neg (by rw [starts]; simp), if_neg whole,
    normalize_again names clean]

theorem require_ok (filePath root : Units) (accepted : requireAbsolutePath filePath = .ok root) :
    ∃ names, CleanPath names ∧ 0 ∉ pathText names ∧ root = pathText names ∧
      Files.requireAbsolutePath filePath = .ok names := by
  unfold requireAbsolutePath at accepted
  split at accepted
  · cases accepted
  · split at accepted
    · cases accepted
    · split at accepted
      · cases accepted
      · rename_i some_ absolute whole
        cases accepted
        refine ⟨Files.normalizeAbsolutePath filePath, absolute_clean filePath, ?_, rfl, ?_⟩
        · intro inside
          rcases normalized_units filePath 0 inside with same | within
          · exact absurd same (by decide)
          · exact whole within
        · rw [Files.requireAbsolutePath, if_neg some_, if_neg absolute, if_neg whole]

end texts

section resolved

variable (root : Path) (clean : CleanPath root)

include clean

theorem joined_names (filePath : Units) :
    (joined (pathText root) filePath).splitOn slash = [] :: (root ++ filePath.splitOn slash) := by
  unfold joined
  by_cases empty : root = []
  · rw [if_pos ((path_text_is_root root clean).mpr empty), empty, split_cons, List.nil_append]
  · rw [if_neg fun same => empty ((path_text_is_root root clean).mp same), path_text_rooted root empty,
      List.splitOn_append_cons_self]
    have parts := split_rooted slash [] root (clean_plain root clean) (by simp)
    rw [List.nil_append] at parts
    rw [parts]
    rfl

theorem normalize_joined (filePath : Units) :
    normalizeAbsolutePath (joined (pathText root) filePath) =
      pathText ((filePath.splitOn slash).foldl normalizeStep root) := by
  rw [normalizeAbsolutePath, joined_names root clean, List.foldl_cons, List.foldl_append, normalize_names root _ clean]
  rfl

theorem under_root (names : Path) (cleanNames : CleanPath names) :
    underRoot (pathText root) (pathText names) = true ↔ root <+: names := by
  simp only [underRoot, Bool.or_eq_true, decide_eq_true_iff, List.isPrefixOf_iff_prefix]
  by_cases empty : root = []
  · simp [empty, path_text_root]
  · have same : pathText names = pathText root ↔ names = root :=
      ⟨path_text_injective names root cleanNames clean, fun same => by rw [same]⟩
    rw [path_text_is_root root clean, same, path_text_rooted root empty]
    rcases path_text_cases names with ⟨none_, here⟩ | ⟨some_, here⟩
    · subst none_
      have short : ¬rooted slash root ++ [slash] <+: [slash] := by
        intro start
        have bound := start.length_le
        cases root with
        | nil => exact empty rfl
        | cons name rest => simp at bound
      simp [here, short, empty, Ne.symm empty]
    · rw [here, rooted_below slash root names (clean_plain root clean) (clean_plain names cleanNames)]
      by_cases equal : names = root
      · simp [equal]
      · simp [equal, empty, Ne.symm equal]

-- The text that is resolved is the one the names are resolved to.
theorem resolve_names (whole : 0 ∉ pathText root) (filePath : Units) :
    resolveUnderWorkspace (pathText root) filePath =
      (Files.resolveUnderWorkspace root filePath).map pathText := by
  unfold resolveUnderWorkspace Files.resolveUnderWorkspace
  split
  · rfl
  · split
    · rfl
    · rename_i some_ plain
      rw [require_again root clean whole]
      have checked : ∀ names, CleanPath names →
          (if underRoot (pathText root) (pathText names) then .ok (pathText names)
            else .error (invalidPath "path escapes workspace.") : Except RuntimeError Units) =
          (if root <+: names then .ok names else .error (invalidPath "path escapes workspace.") : Except RuntimeError Path).map
            pathText := by
        intro names cleanNames
        by_cases under : root <+: names
        · rw [if_pos ((under_root root clean names cleanNames).mpr under), if_pos under]
          rfl
        · rw [if_neg fun holds => under ((under_root root clean names cleanNames).mp holds), if_neg under]
          rfl
      by_cases absolute : filePath.head? = some slash
      · have accepted : requireAbsolutePath filePath = .ok (pathText (Files.normalizeAbsolutePath filePath)) := by
          rw [requireAbsolutePath, if_neg some_, if_neg (not_not_intro absolute), if_neg plain]
          rfl
        have acceptedNames : Files.requireAbsolutePath filePath = .ok (Files.normalizeAbsolutePath filePath) := by
          rw [Files.requireAbsolutePath, if_neg some_, if_neg (not_not_intro absolute), if_neg plain]
        simp only [bind, Except.bind, if_pos absolute, accepted, acceptedNames]
        exact checked _ (absolute_clean filePath)
      · simp only [bind, Except.bind, if_neg absolute]
        split
        · rfl
        · rw [normalize_joined root clean]
          exact checked _ (normalize_clean _ root clean fun name member => split_plain slash filePath name member)

example : resolveUnderWorkspace (units "/work/") (units "a//./b") = .ok (units "/work/a/b") := by decide +kernel

example : resolveUnderWorkspace (units "/work") (units "/working/a") = .error (invalidPath "path escapes workspace.") := by
  decide +kernel

end resolved

section confined

-- A normalized absolute path: no segment is empty, a dot or two.
def NormalPath (path : Units) : Prop :=
  path = [slash] ∨ ∃ rest, path = slash :: rest ∧
    ∀ segment ∈ rest.splitOn slash, segment ≠ [] ∧ segment ≠ units "." ∧ segment ≠ units ".."

def Below (root path : Units) : Prop := root ≠ [] ∧ (root = [slash] ∨ path = root ∨ root ++ [slash] <+: path)

-- mkdir is recursive: it makes the missing directories above its path as well.
def FsCall.Touches : FsCall → Units → Prop
  | .mkdir path, touched => Below touched path
  | .exists_ path, touched => touched = path
  | .openRead path, touched => touched = path
  | .openWrite path, touched => touched = path
  | .read path _, touched => touched = path
  | .write path _, touched => touched = path
  | .close path, touched => touched = path
  | .remove path, touched => touched = path
  | .decode _, _ => False

def FsCall.makesDirectories : FsCall → Bool
  | .mkdir _ => true
  | _ => false

-- The directories above the root are made for it.
def Confined (root : Units) (call : FsCall) : Prop :=
  ∀ path, call.Touches path → NormalPath path ∧ (Below root path ∨ call.makesDirectories = true ∧ Below path root)

-- The path strings a patch may hold for a file under the root.
def Acceptable (root filePath : Units) : Prop :=
  filePath ≠ [] ∧ 0 ∉ filePath ∧
    if filePath.head? = some slash then Below root (normalizeAbsolutePath filePath) else units ".." ∉ filePath.splitOn slash

theorem normal_path_text (names : Path) (clean : CleanPath names) : NormalPath (pathText names) := by
  rcases path_text_cases names with ⟨_, here⟩ | ⟨some_, here⟩
  · exact Or.inl here
  · cases names with
    | nil => exact absurd rfl some_
    | cons name rest =>
        refine Or.inr ⟨name ++ rooted slash rest, here, ?_⟩
        have whole := (clean name List.mem_cons_self).2.2.2
        rw [split_rooted slash name rest (fun other member => clean_plain _ clean other (List.mem_cons_of_mem _ member)) whole]
        intro segment member
        obtain ⟨nonempty, dot, dots, _⟩ := clean segment member
        exact ⟨nonempty, dot, dots⟩

theorem path_text_some (names : Path) : pathText names ≠ [] := by
  obtain ⟨rest, starts⟩ := path_text_starts names
  rw [starts]
  simp

theorem below_text (root names : Path) (clean : CleanPath root) (cleanNames : CleanPath names) :
    Below (pathText root) (pathText names) ↔ root <+: names := by
  rw [← under_root root clean names cleanNames, underRoot]
  simp only [Below, Bool.or_eq_true, decide_eq_true_iff, List.isPrefixOf_iff_prefix, or_assoc]
  exact ⟨fun below => below.2, fun below => ⟨path_text_some root, below⟩⟩

-- What stands above a path, stands there by its names.
theorem above_text (above : Units) (names : Path) (clean : CleanPath names) (below : Below above (pathText names)) :
    ∃ front, front <+: names ∧ above = pathText front := by
  obtain ⟨some_, rfl | same | start⟩ := below
  · exact ⟨[], List.nil_prefix, rfl⟩
  · exact ⟨names, List.prefix_rfl, same.symm⟩
  · rcases path_text_cases names with ⟨_, here⟩ | ⟨_, here⟩
    · rw [here] at start
      have bound := start.length_le
      rw [List.length_append, List.length_singleton] at bound
      exact absurd (List.eq_nil_of_length_eq_zero (by omega)) some_
    · obtain ⟨front, under, rfl⟩ := rooted_cut slash above names (clean_plain names clean) (here ▸ start)
      have front_some : front ≠ [] := by
        rintro rfl
        exact some_ rfl
      exact ⟨front, under, (path_text_rooted front front_some).symm⟩

theorem dirname_text (names : Path) (clean : CleanPath names) : dirname (pathText names) = pathText names.dropLast := by
  rcases List.eq_nil_or_concat names with rfl | ⟨front, last, rfl⟩
  · rfl
  · rw [List.concat_eq_append] at clean ⊢
    have plain := (clean last (by simp)).2.2.2
    have before : beforeLast slash (pathText (front ++ [last])) = rooted slash front := by
      rw [path_text_rooted _ (by simp), rooted_append, rooted_cons, rooted_nil, List.append_nil,
        before_last slash _ last plain]
    rw [dirname, before, List.dropLast_concat]
    rcases path_text_cases front with ⟨empty, here⟩ | ⟨some_, here⟩
    · rw [here, empty, rooted_nil, if_pos rfl]
    · rw [here, if_neg fun none_ => some_ (rooted_empty slash front none_)]

theorem names_placed (root : Path) (clean : CleanPath root) (filePath : Units) (names : Path)
    (resolves : Files.resolveUnderWorkspace root filePath = .ok names) : CleanPath names ∧ root <+: names := by
  have passed : ∀ found, CleanPath found →
      (if root <+: found then .ok found else .error (invalidPath "path escapes workspace.") : Except RuntimeError Path) = .ok names →
      CleanPath names ∧ root <+: names := by
    intro found cleanFound accepted
    split at accepted
    · rename_i under
      cases accepted
      exact ⟨cleanFound, under⟩
    · cases accepted
  unfold Files.resolveUnderWorkspace at resolves
  split at resolves
  · cases resolves
  · split at resolves
    · cases resolves
    · rename_i some_ whole
      by_cases absolute : filePath.head? = some slash
      · have accepted : Files.requireAbsolutePath filePath = .ok (Files.normalizeAbsolutePath filePath) := by
          rw [Files.requireAbsolutePath, if_neg some_, if_neg (not_not_intro absolute), if_neg whole]
        simp only [bind, Except.bind, if_pos absolute, accepted] at resolves
        exact passed _ (absolute_clean filePath) resolves
      · simp only [bind, Except.bind, if_neg absolute] at resolves
        split at resolves
        · cases resolves
        · exact passed _ (normalize_clean _ root clean fun name member => split_plain slash filePath name member) resolves

-- A place at or below the root.
def Placed (root : Path) (path : Units) : Prop := ∃ names, CleanPath names ∧ root <+: names ∧ path = pathText names

theorem resolve_placed (root : Path) (clean : CleanPath root) (whole : 0 ∉ pathText root) (filePath resolved : Units)
    (resolves : resolveUnderWorkspace (pathText root) filePath = .ok resolved) : Placed root resolved := by
  rw [resolve_names root clean whole] at resolves
  cases found : Files.resolveUnderWorkspace root filePath with
  | error error =>
      rw [found] at resolves
      cases resolves
  | ok names =>
      rw [found] at resolves
      cases resolves
      obtain ⟨cleanNames, under⟩ := names_placed root clean filePath names found
      exact ⟨names, cleanNames, under, rfl⟩

theorem resolve_acceptable (root : Path) (clean : CleanPath root) (whole : 0 ∉ pathText root) (filePath resolved : Units)
    (resolves : resolveUnderWorkspace (pathText root) filePath = .ok resolved) : Acceptable (pathText root) filePath := by
  have placed := resolve_placed root clean whole filePath resolved resolves
  unfold resolveUnderWorkspace at resolves
  split at resolves
  · cases resolves
  · split at resolves
    · cases resolves
    · rename_i some_ plain
      refine ⟨some_, plain, ?_⟩
      rw [require_again root clean whole] at resolves
      by_cases absolute : filePath.head? = some slash
      · have accepted : requireAbsolutePath filePath = .ok (normalizeAbsolutePath filePath) := by
          rw [requireAbsolutePath, if_neg some_, if_neg (not_not_intro absolute), if_neg plain]
        simp only [bind, Except.bind, if_pos absolute, accepted] at resolves
        rw [if_pos absolute]
        split at resolves
        · rename_i under
          exact (below_text root _ clean (absolute_clean filePath)).mpr
            ((under_root root clean _ (absolute_clean filePath)).mp under)
        · cases resolves
      · simp only [bind, Except.bind, if_neg absolute] at resolves
        rw [if_neg absolute]
        split at resolves
        · cases resolves
        · assumption

theorem placed_confined (root : Path) (clean : CleanPath root) (path touched : Units) (placed : Placed root path)
    (here : touched = path) : NormalPath touched ∧ Below (pathText root) touched := by
  obtain ⟨names, cleanNames, under, rfl⟩ := placed
  rw [here]
  exact ⟨normal_path_text names cleanNames, (below_text root names clean cleanNames).mpr under⟩

-- The parent of a place under the root, and all that stands above it.
theorem parent_confined (root : Path) (clean : CleanPath root) (path : Units) (placed : Placed root path) :
    Confined (pathText root) (.mkdir (dirname path)) := by
  obtain ⟨names, cleanNames, under, rfl⟩ := placed
  intro touched below
  have shorter := List.dropLast_prefix names
  change Below touched (dirname (pathText names)) at below
  rw [dirname_text names cleanNames] at below
  obtain ⟨front, above, rfl⟩ := above_text touched names.dropLast (clean_front names _ cleanNames shorter) below
  have cleanFront := clean_front names front cleanNames (above.trans shorter)
  refine ⟨normal_path_text front cleanFront, ?_⟩
  rcases List.prefix_or_prefix_of_prefix under (above.trans shorter) with deeper | higher
  · exact Or.inl ((below_text root front clean cleanFront).mpr deeper)
  · exact Or.inr ⟨rfl, (below_text front root cleanFront clean).mpr higher⟩

end confined

section programs

variable (root : Path)

def Kept (locals : Locals) : Prop := ∀ backup ∈ locals.backups, Placed root backup.1

-- The program makes confined calls only, and it notes backups of places under the root only.
def Keeps {α : Type} (program : Patching α) : Prop :=
  ∀ locals, Kept root locals →
    (program locals).UsesThen (Confined (pathText root)) fun ended => ∀ result after, ended = .ok (result, after) → Kept root after

variable {α β : Type}

theorem keeps_pure (value : α) : Keeps root (pure value : Patching α) := by
  intro locals kept result after same
  cases same
  exact kept

theorem keeps_throw (error : Thrown) : Keeps root (throw error : Patching α) := by
  intro locals kept result after same
  cases same
  exact kept

theorem keeps_raise (error : RuntimeError) : Keeps root (raise error : Patching α) := keeps_throw root _

theorem keeps_get : Keeps root (get : Patching Locals) := by
  intro locals kept result after same
  cases same
  exact kept

theorem keeps_bind (program : Patching α) (continue_ : α → Patching β) (first : Keeps root program)
    (later : ∀ value, Keeps root (continue_ value)) : Keeps root (program >>= continue_) := by
  intro locals kept
  refine uses_then_bind _ _ _ (program locals) _ (first locals kept) ?_ ?_
  · rintro ⟨ended, after⟩ holds
    have still := holds ended after rfl
    cases ended with
    | ok value => exact later value after still
    | error error =>
        intro result last same
        cases same
        exact still
  · intro error _ result after same
    cases same

theorem keeps_ask (call : FsCall) (confined : Confined (pathText root) call) : Keeps root (ask call) := by
  intro locals kept
  refine uses_then_bind _ _ _ _ _ (uses_then_asked _ call confined (fun _ => True) fun _ => trivial) ?_ ?_
  · intro answer _ result after same
    cases same
    exact kept
  · intro error _ result after same
    cases same

theorem keeps_catch (program : Patching α) (handler : Thrown → Patching α) (first : Keeps root program)
    (handled : ∀ error, Keeps root (handler error)) : Keeps root (tryCatch program handler) := by
  intro locals kept
  refine uses_then_bind _ _ _ (program locals) _ (first locals kept) ?_ ?_
  · rintro ⟨ended, after⟩ holds
    have still := holds ended after rfl
    cases ended with
    | ok value =>
        intro result last same
        cases same
        exact still
    | error error => exact handled error after still
  · intro error _ result after same
    cases same

theorem keeps_finally (body : Patching α) (cleanup : Patching Unit) (first : Keeps root body) (last : Keeps root cleanup) :
    Keeps root (finally_ body cleanup) := by
  intro locals kept
  refine uses_then_bind _ _ _ (body locals) _ (first locals kept) ?_ ?_
  · rintro ⟨ended, after⟩ holds
    refine uses_then_bind _ _ _ (cleanup after) _ (last after (holds ended after rfl)) ?_ ?_
    · rintro ⟨cleaned, final⟩ cleans
      have still := cleans cleaned final rfl
      cases cleaned with
      | ok _ =>
          intro result end_ same
          cases same
          exact still
      | error error =>
          intro result end_ same
          cases same
          exact still
    · intro error _ result after same
      cases same
  · intro error _ result after same
    cases same

theorem keeps_modify (change : Locals → Locals) (keeps : ∀ locals, Kept root locals → Kept root (change locals)) :
    Keeps root (modify change : Patching Unit) := by
  intro locals kept result after same
  cases same
  exact keeps locals kept

theorem keeps_stop (error : RuntimeError) (continue_ : α → Patching β) : Keeps root (raise error >>= continue_) := by
  intro locals kept result after same
  cases same
  exact kept

end programs

section patches

variable (root : Path) (clean : CleanPath root) (sha256Hex : Units → String)

theorem keeps_back_up (path : Units) (text : Option Units) (placed : Placed root path) : Keeps root (backUp path text) := by
  refine keeps_modify root _ fun locals kept backup member => ?_
  change backup ∈ setBackup locals.backups path text at member
  unfold setBackup at member
  split at member
  · obtain ⟨old, inside, rfl⟩ := List.mem_map.mp member
    split
    · exact placed
    · exact kept old inside
  · rcases List.mem_append.mp member with old | new
    · exact kept backup old
    · rw [List.mem_singleton] at new
      subst new
      exact placed

theorem keeps_push (result : FileResult) : Keeps root (pushResult result) :=
  keeps_modify root _ fun _ kept => kept

include clean

theorem keeps_at (path : Units) (placed : Placed root path) (call : FsCall)
    (own : ∀ touched, call.Touches touched → touched = path) : Keeps root (ask call) := by
  refine keeps_ask root call fun touched touches => ?_
  obtain ⟨normal, below⟩ := placed_confined root clean path touched placed (own touched touches)
  exact ⟨normal, Or.inl below⟩

theorem keeps_read (path : Units) (placed : Placed root path) (maxBytes : Nat) : Keeps root (readTextFile path maxBytes) := by
  have bytes : Keeps root (readWholeBytesFile path maxBytes) := by
    refine keeps_bind root _ _ (keeps_at root clean path placed (.openRead path) fun _ same => same) fun _ => ?_
    refine keeps_finally root _ _ ?_ (keeps_at root clean path placed (.close path) fun _ same => same)
    refine keeps_bind root _ _ (keeps_at root clean path placed (.read path (maxBytes + 1)) fun _ same => same) fun found => ?_
    split
    · exact keeps_stop root _ _
    · exact keeps_pure root found
  refine keeps_bind root _ _ bytes fun found => ?_
  refine keeps_catch root _ _ (keeps_ask root (.decode found) ?_) fun _ => keeps_raise root _
  intro touched none_
  exact none_.elim

theorem keeps_write (path : Units) (placed : Placed root path) (content : Units) : Keeps root (writeTextFile path content) := by
  refine keeps_bind root _ _ (keeps_at root clean path placed (.openWrite path) fun _ same => same) fun _ => ?_
  exact keeps_finally root _ _ (keeps_at root clean path placed (.write path (encode content)) fun _ same => same)
    (keeps_at root clean path placed (.close path) fun _ same => same)

theorem keeps_operation (dryRun : Bool) (op : Planned) (placed : Placed root op.absolute) :
    Keeps root (applyOperation sha256Hex dryRun op) := by
  obtain ⟨⟨path, action⟩, absolute⟩ := op
  have present := keeps_at root clean absolute placed (.exists_ absolute) fun _ same => same
  have reads := keeps_read root clean absolute placed WHOLE_FILE_MAX_BYTES
  cases action with
  | add text =>
      refine keeps_bind root _ _ present fun found => ?_
      cases found with
      | true => exact keeps_stop root _ _
      | false =>
          cases dryRun with
          | true => exact keeps_push root _
          | false =>
              refine keeps_bind root _ _ (keeps_ask root _ (parent_confined root clean absolute placed)) fun _ => ?_
              refine keeps_bind root _ _ (keeps_write root clean absolute placed text) fun _ => ?_
              exact keeps_bind root _ _ (keeps_back_up root absolute none placed) fun _ => keeps_push root _
  | delete =>
      refine keeps_bind root _ _ present fun found => ?_
      cases found with
      | false => exact keeps_stop root _ _
      | true =>
          refine keeps_bind root _ _ reads fun before => ?_
          cases dryRun with
          | true => exact keeps_push root _
          | false =>
              refine keeps_bind root _ _ (keeps_back_up root absolute (some before) placed) fun _ => ?_
              exact keeps_bind root _ _ (keeps_at root clean absolute placed (.remove absolute) fun _ same => same)
                fun _ => keeps_push root _
  | update hunks =>
      refine keeps_bind root _ _ present fun found => ?_
      cases found with
      | false => exact keeps_stop root _ _
      | true =>
          refine keeps_bind root _ _ reads fun before => ?_
          cases applyHunks before hunks with
          | error error => exact keeps_raise root error
          | ok after =>
              by_cases large : WHOLE_FILE_MAX_BYTES < (encode after).length
              · simp only [if_pos large]
                exact keeps_stop root _ _
              · simp only [if_neg large]
                cases dryRun with
                | true => exact keeps_push root _
                | false =>
                    refine keeps_bind root _ _ (keeps_back_up root absolute (some before) placed) fun _ => ?_
                    exact keeps_bind root _ _ (keeps_write root clean absolute placed after) fun _ => keeps_push root _

theorem keeps_operations (dryRun : Bool) (planned : List Planned) (placed : ∀ op ∈ planned, Placed root op.absolute) :
    Keeps root (applyOperations sha256Hex dryRun planned) := by
  induction planned with
  | nil => exact keeps_pure root ()
  | cons op rest ih =>
      exact keeps_bind root _ _ (keeps_operation root clean sha256Hex dryRun op (placed op List.mem_cons_self))
        fun _ => ih fun other member => placed other (List.mem_cons_of_mem _ member)

theorem keeps_rollback (backups : List (Units × Option Units)) (placed : ∀ backup ∈ backups, Placed root backup.1) :
    Keeps root (rollback backups) := by
  induction backups with
  | nil => exact keeps_pure root ()
  | cons backup rest ih =>
      obtain ⟨path, content⟩ := backup
      have here := placed (path, content) List.mem_cons_self
      refine keeps_bind root _ _ (keeps_catch root _ _ ?_ fun _ => keeps_pure root ()) fun _ =>
        ih fun other member => placed other (List.mem_cons_of_mem _ member)
      cases content with
      | none => exact keeps_at root clean path here (.remove path) fun _ same => same
      | some text => exact keeps_write root clean path here text

theorem keeps_planned (input : ApplyPatchInput) (planned : List Planned) (placed : ∀ op ∈ planned, Placed root op.absolute) :
    Keeps root (applyPlanned sha256Hex input planned) := by
  refine keeps_bind root _ _ (keeps_catch root _ _ (keeps_operations root clean sha256Hex _ planned placed) ?_) ?_
  · intro error
    split
    · intro locals kept
      exact keeps_bind root _ _ (keeps_rollback root clean locals.backups kept) (fun _ => keeps_throw root error) locals kept
    · exact keeps_throw root error
  · intro _
    exact keeps_bind root _ _ (keeps_get root) fun _ => keeps_pure root _

theorem plan_placed (whole : 0 ∉ pathText root) (operations : List PatchOperation) (planned : List Planned)
    (plans : operations.mapM (planUnder (pathText root)) = .ok planned) :
    (∀ op ∈ planned, Placed root op.absolute) ∧ ∀ operation ∈ operations, Acceptable (pathText root) operation.path := by
  induction operations generalizing planned with
  | nil =>
      cases plans
      simp
  | cons operation rest ih =>
      rw [List.mapM_cons] at plans
      cases resolves : resolveUnderWorkspace (pathText root) operation.path with
      | error error =>
          simp only [planUnder, resolves, bind, Except.bind] at plans
          cases plans
      | ok resolved =>
          cases later : rest.mapM (planUnder (pathText root)) with
          | error error =>
              simp only [planUnder, resolves, later, bind, Except.bind, pure, Except.pure] at plans
              cases plans
          | ok others =>
              simp only [planUnder, resolves, later, bind, Except.bind, pure, Except.pure, Except.ok.injEq] at plans
              subst plans
              obtain ⟨placed, acceptable⟩ := ih others later
              refine ⟨?_, ?_⟩
              · intro op member
                rcases List.mem_cons.mp member with rfl | member
                · exact resolve_placed root clean whole operation.path resolved resolves
                · exact placed op member
              · intro other member
                rcases List.mem_cons.mp member with rfl | member
                · exact resolve_acceptable root clean whole other.path resolved resolves
                · exact acceptable other member

end patches

theorem workspace_names (input : ApplyPatchInput) (root : Units) (workspace : workspaceOf input = .ok root) :
    ∃ names, CleanPath names ∧ 0 ∉ pathText names ∧ root = pathText names := by
  unfold workspaceOf at workspace
  cases given : input.workspacePath.filter (· ≠ []) with
  | some workspacePath =>
      rw [given] at workspace
      obtain ⟨names, clean, whole, same, _⟩ := require_ok workspacePath root workspace
      exact ⟨names, clean, whole, same⟩
  | none =>
      rw [given] at workspace
      cases workspace
      refine ⟨[units "tmp"], ?_, by decide, by decide⟩
      intro name member
      rw [List.mem_singleton] at member
      subst member
      exact ⟨by decide, by decide, by decide, by decide⟩

-- What comes before the first effect either refuses the patch or places all of its paths.
theorem plan_cases (input : ApplyPatchInput) (root : Path) (clean : CleanPath root) (whole : 0 ∉ pathText root)
    (workspace : workspaceOf input = .ok (pathText root)) :
    (∃ error, plan input = .error error) ∨
      ∃ planned, plan input = .ok planned ∧ (∀ op ∈ planned, Placed root op.absolute) ∧
        ∀ operation ∈ parsePatch input.patch, Acceptable (pathText root) operation.path := by
  cases plans : plan input with
  | error error => exact Or.inl ⟨error, rfl⟩
  | ok planned =>
      refine Or.inr ⟨planned, rfl, ?_⟩
      simp only [plan, workspace, bind, Except.bind] at plans
      split at plans
      · cases plans
      · exact plan_placed root clean whole (parsePatch input.patch) planned plans

-- Every call of a patch stays where it may: at or below the normalized workspace, on normalized paths, with
-- the workspace's own parents made for it; and a patch with any other path in it makes no call at all.
theorem patch_confined (sha256Hex : Units → String) (input : ApplyPatchInput) :
    (∀ root, workspaceOf input = .ok root →
      (applyPatch sha256Hex input).Uses (Confined root) ∧
      ∀ operation ∈ parsePatch input.patch, ¬Acceptable root operation.path →
        ∃ error, applyPatch sha256Hex input = .fail (.runtime error)) ∧
      ∀ error, workspaceOf input = .error error → applyPatch sha256Hex input = .fail (.runtime error) := by
  refine ⟨?_, ?_⟩
  · intro root workspace
    obtain ⟨names, clean, whole, rfl⟩ := workspace_names input root workspace
    rcases plan_cases input names clean whole workspace with ⟨error, refused⟩ | ⟨planned, plans, placed, acceptable⟩
    · have fails : applyPatch sha256Hex input = .fail (.runtime error) := by
        rw [applyPatch, refused]
      rw [fails]
      exact ⟨trivial, fun _ _ _ => ⟨error, rfl⟩⟩
    · refine ⟨?_, fun operation member other => absurd (acceptable operation member) other⟩
      simp only [applyPatch, plans]
      refine uses_bind _ _ _ (uses_then_uses _ _ _ (keeps_planned names clean sha256Hex input planned placed ⟨[], []⟩ ?_)) ?_
      · intro backup member
        cases member
      · rintro ⟨ended, after⟩
        cases ended <;> exact trivial
  · intro error workspace
    have refused : plan input = .error error := by
      simp only [plan, workspace, bind, Except.bind]
    rw [applyPatch, refused]

end Vacps.PatchPaths
