import Mathlib.Data.List.Basic
import Vacps.Library.FileTree
import Vacps.Library.Throwing
import Vacps.Library.Utf16

/- script/src/runtime/files.ts: applyPatch over a tree of files and directories. A normalized absolute path
   is kept as its names, the bytes of a file as a list, and the n-th call of vacps:fs may meet a fault. -/
set_option autoImplicit false

namespace Vacps.Files

open Library Library.Utf16

abbrev Path : Type := List Units

abbrev Tree : Type := FileTree Units (List UInt8)

structure RuntimeError where
  message : Units
  code : String
  statusCode : Nat
  extra : Option (String × Nat)
deriving DecidableEq

inductive Thrown where
  | runtime (error : RuntimeError)
  -- What vacps:fs throws.
  | native (operation : String)
deriving DecidableEq

def runtimeError (message code : String) (statusCode : Nat) : RuntimeError := ⟨units message, code, statusCode, none⟩

def invalidPath (message : String) : RuntimeError := runtimeError message "invalid_path" 400

section paths

def slash : UInt16 := 47

def normalizeStep (parts : Path) (name : Units) : Path :=
  if name = [] ∨ name = units "." then parts
  else if name = units ".." then parts.dropLast
  else parts ++ [name]

def normalizeAbsolutePath (filePath : Units) : Path := (filePath.splitOn slash).foldl normalizeStep []

def requireAbsolutePath (filePath : Units) : Except RuntimeError Path :=
  if filePath = [] then .error (invalidPath "path is required.")
  else if filePath.head? ≠ some slash then .error (invalidPath "path must be absolute.")
  else if 0 ∈ filePath then .error (invalidPath "path contains a null byte.")
  else .ok (normalizeAbsolutePath filePath)

-- The root is normalized already, so joining it to a relative path prepends its names.
def resolveUnderWorkspace (root : Path) (filePath : Units) : Except RuntimeError Path :=
  if filePath = [] then .error (invalidPath "path is required.")
  else if 0 ∈ filePath then .error (invalidPath "path contains a null byte.")
  else do
    let resolved ←
      if filePath.head? = some slash then requireAbsolutePath filePath
      else if units ".." ∈ filePath.splitOn slash then .error (invalidPath "relative path must not contain \"..\".")
      else .ok ((filePath.splitOn slash).foldl normalizeStep root)
    if root <+: resolved then .ok resolved else .error (invalidPath "path escapes workspace.")

end paths

section patches

inductive Action where
  | add (content : Units)
  | update (hunks : List (List Units))
  | delete

structure PatchOperation where
  path : Units
  action : Action

-- String#trim on code units.
def isTrimmed (unit : UInt16) : Bool :=
  [9, 10, 11, 12, 13, 32, 0xA0, 0x1680, 0x2028, 0x2029, 0x202F, 0x205F, 0x3000, 0xFEFF].contains unit.toNat ||
    (0x2000 ≤ unit.toNat && unit.toNat ≤ 0x200A)

def trim (text : Units) : Units := ((text.dropWhile isTrimmed).reverse.dropWhile isTrimmed).reverse

def newline : UInt16 := 10

-- patch.replace(/\r\n/g, '\n')
def unixLines : Units → Units
  | [] => []
  | [unit] => [unit]
  | unit :: next :: rest =>
      if unit = 13 ∧ next = newline then newline :: unixLines rest else unit :: unixLines (next :: rest)

def startsWith (row : Units) (text : String) : Bool := (units text).isPrefixOf row

def after (row : Units) (text : String) : Units := row.drop (units text).length

def join (lines : List Units) : Units := List.intercalate [newline] lines

def hunksOf : Option (List Units) → List Units → List (List Units)
  | current, [] => current.toList
  | current, row :: rest =>
      if startsWith row "@@" then current.toList ++ hunksOf (some []) rest
      else hunksOf (current.map (· ++ [row])) rest

-- The rows of an operation, up to the next line that starts like a header.
def rowsOf (rest : List Units) : List Units := rest.takeWhile fun row => !startsWith row "*** "

-- The rows an inner loop has read are no headers, so going on after the header passes over them.
def parseLines : List Units → List PatchOperation
  | [] => []
  | line :: rest =>
      if startsWith line "*** Add File: " then
        ⟨trim (after line "*** Add File: "),
          .add (join ((rowsOf rest).map fun row => if startsWith row "+" then row.drop 1 else row))⟩ :: parseLines rest
      else if startsWith line "*** Delete File: " then
        ⟨trim (after line "*** Delete File: "), .delete⟩ :: parseLines rest
      else if startsWith line "*** Update File: " then
        ⟨trim (after line "*** Update File: "), .update (hunksOf none (rowsOf rest))⟩ :: parseLines rest
      else parseLines rest

def parsePatch (patch : Units) : List PatchOperation := parseLines ((unixLines patch).splitOn newline)

def oldLines (hunk : List Units) : List Units :=
  (hunk.filter fun row => startsWith row "-" || startsWith row " ").map (·.drop 1)

def newLines (hunk : List Units) : List Units :=
  (hunk.filter fun row => startsWith row "+" || startsWith row " ").map (·.drop 1)

-- Occurrences that do not overlap: after one, its other units are skipped.
def countFrom (needle : Units) : Nat → Units → Nat
  | _, [] => 0
  | 0, unit :: rest =>
      if needle.isPrefixOf (unit :: rest) then countFrom needle (needle.length - 1) rest + 1 else countFrom needle 0 rest
  | skip + 1, _ :: rest => countFrom needle skip rest

def countOccurrences (text needle : Units) : Nat := if needle = [] then 0 else countFrom needle 0 text

def splitFirst (needle : Units) : Units → Option (Units × Units)
  | [] => if needle = [] then some ([], []) else none
  | unit :: rest =>
      if needle.isPrefixOf (unit :: rest) then some ([], (unit :: rest).drop needle.length)
      else (splitFirst needle rest).map fun (before, behind) => (unit :: before, behind)

-- String#replace reads $$, $&, $` and $' in the replacement.
def substitution (matched before behind : Units) : Units → Units
  | [] => []
  | [unit] => [unit]
  | unit :: next :: rest =>
      if unit ≠ 36 then unit :: substitution matched before behind (next :: rest)
      else if next = 36 then 36 :: substitution matched before behind rest
      else if next = 38 then matched ++ substitution matched before behind rest
      else if next = 96 then before ++ substitution matched before behind rest
      else if next = 39 then behind ++ substitution matched before behind rest
      else unit :: substitution matched before behind (next :: rest)

def replaceFirst (text old new : Units) : Units :=
  match splitFirst old text with
  | none => text
  | some (before, behind) => before ++ substitution old before behind new ++ behind

def patchConflict (message : String) : RuntimeError := runtimeError message "patch_conflict" 409

def applyHunk (text : Units) (hunk : List Units) : Except RuntimeError Units :=
  let oldBlock := join (oldLines hunk)
  let newBlock := join (newLines hunk)
  if oldBlock = [] then .error (patchConflict "Patch hunk old block is empty.")
  else
    let found := countOccurrences text oldBlock
    if found = 0 then .error (patchConflict "Patch hunk did not match file content.")
    else if 1 < found then
      .error { patchConflict "Patch hunk matched multiple locations in file content." with extra := some ("match_count", found) }
    else .ok (replaceFirst text oldBlock newBlock)

def applyHunks (original : Units) (hunks : List (List Units)) : Except RuntimeError Units := hunks.foldlM applyHunk original

end patches

inductive OperationKind where
  | add
  | update
  | delete
deriving DecidableEq, Repr

structure FileResult where
  path : Units
  operation : OperationKind
  dry_run : Bool
  before_sha256 : Option String
  after_sha256 : Option String
deriving DecidableEq

-- One call of vacps:fs can fail before it has done anything or when it is part of the way.
inductive Fault where
  | refused
  | partway (done : Nat)
deriving DecidableEq, Repr

-- The tree and the module's shared decoder, with the two locals of applyPatch that its catch clause and its
-- result read.
structure PatchState where
  tree : Tree
  bomSeen : Bool
  calls : Nat
  backups : List (Path × Option Units)
  results : List FileResult

abbrev Patching (α : Type) : Type := EStateM Thrown PatchState α

def WHOLE_FILE_MAX_BYTES : Nat := 16 * 1024 * 1024

def fileTooLargeError (maxBytes : Nat) : RuntimeError :=
  ⟨units ("File exceeds the maximum size of " ++ toString maxBytes ++ " bytes."), "file_too_large", 413,
    some ("max_bytes", maxBytes)⟩

section calls

variable (faults : Nat → Option Fault)

def PatchState.called (state : PatchState) : PatchState := { state with calls := state.calls + 1 }

def exists_ (path : Path) : Patching Bool := fun state =>
  match faults state.calls with
  | some _ => .error (.native "exists") state.called
  | none => .ok (state.tree.node path).isSome state.called

def mkdir (path : Path) : Patching Unit := fun state =>
  if state.tree.Free path then
    match faults state.calls with
    | some .refused => .error (.native "mkdir") state.called
    | some (.partway made) =>
        .error (.native "mkdir") { state.called with tree := state.tree.makeDirectories (path.take made) }
    | none => .ok () { state.called with tree := state.tree.makeDirectories path }
  else .error (.native "mkdir") state.called

-- O_WRONLY | O_CREAT | O_TRUNC
def openWrite (path : Path) : Patching Unit := fun state =>
  if writable : state.tree.Writable path then
    match faults state.calls with
    | some .refused => .error (.native "open") state.called
    | some (.partway _) => .error (.native "open") { state.called with tree := state.tree.write path [] writable }
    | none => .ok () { state.called with tree := state.tree.write path [] writable }
  else .error (.native "open") state.called

def writeBytes (path : Path) (bytes : List UInt8) : Patching Unit := fun state =>
  if writable : state.tree.Writable path then
    match faults state.calls with
    | some .refused => .error (.native "write") state.called
    | some (.partway done) =>
        .error (.native "write") { state.called with tree := state.tree.write path (bytes.take done) writable }
    | none => .ok () { state.called with tree := state.tree.write path bytes writable }
  else .error (.native "write") state.called

def openRead (path : Path) : Patching Unit := fun state =>
  match faults state.calls, state.tree.node path with
  | none, some _ => .ok () state.called
  | _, _ => .error (.native "open") state.called

def readBytes (path : Path) (maxBytes : Nat) : Patching (List UInt8) := fun state =>
  match faults state.calls, state.tree.node path with
  | none, some (.file bytes) => .ok (bytes.take maxBytes) state.called
  | _, _ => .error (.native "read") state.called

def close : Patching Unit := fun state =>
  match faults state.calls with
  | some _ => .error (.native "close") state.called
  | none => .ok () state.called

-- std::filesystem::remove: a missing path is no error, and an empty directory goes too.
def removed (tree : Tree) (path : Path) : Option Tree :=
  match here : tree.node path with
  | none => some tree
  | some (.file content) =>
      some (tree.remove path
        (by
          intro root
          rw [root, FileTree.node, tree.root] at here
          cases here)
        (fun name => tree.no_child path name (by simp [here])))
  | some .directory =>
      if empty : path ≠ [] ∧ tree.hasChildren path = false then
        some (tree.remove path empty.1 (tree.childless path empty.2))
      else none

def remove (path : Path) : Patching Unit := fun state =>
  match faults state.calls, removed state.tree path with
  | none, some tree => .ok () { state.called with tree := tree }
  | _, _ => .error (.native "remove") state.called

def raise {α : Type} (error : RuntimeError) : Patching α := throw (.runtime error)

def lift {α : Type} : Except RuntimeError α → Patching α
  | .ok value => pure value
  | .error error => raise error

def byteOrderMark : List UInt8 := [0xEF, 0xBB, 0xBF]

-- The native decoder drops a byte order mark in the first text it ever decodes and in none after it.
def content (bomSeen : Bool) (bytes : List UInt8) : List UInt8 :=
  if !bomSeen && byteOrderMark.isPrefixOf bytes then bytes.drop 3 else bytes

def decodeWholeFileUtf8 (bytes : List UInt8) : Patching Units := fun state =>
  match decode (content state.bomSeen bytes) with
  | some text => .ok text { state with bomSeen := true }
  | none =>
      .error (.runtime (runtimeError "File content is not valid UTF-8." "invalid_encoding" 409))
        { state with bomSeen := true }

def readWholeBytesFile (path : Path) (maxBytes : Nat) : Patching (List UInt8) := do
  openRead faults path
  ensure
    (do
      let bytes ← readBytes faults path (maxBytes + 1)
      if maxBytes < bytes.length then raise (fileTooLargeError maxBytes)
      pure bytes)
    (close faults)

def readTextFile (path : Path) (maxBytes : Nat) : Patching Units := do
  let bytes ← readWholeBytesFile faults path maxBytes
  decodeWholeFileUtf8 bytes

def writeTextFile (path : Path) (text : Units) : Patching Unit := do
  openWrite faults path
  ensure (writeBytes faults path (encode text)) (close faults)

end calls

structure Planned extends PatchOperation where
  absolute : Path

structure ApplyPatchInput where
  patch : Units
  workspacePath : Option Units
  dryRun : Option Bool
  atomic : Option Bool

structure PatchResult where
  applied : Bool
  dry_run : Bool
  atomic : Bool
  files : List FileResult

def planUnder (workspace : Path) (operation : PatchOperation) : Except RuntimeError Planned := do
  let absolute ← resolveUnderWorkspace workspace operation.path
  pure { operation with absolute := absolute }

-- What comes before the first effect.
def plan (input : ApplyPatchInput) : Except RuntimeError (List Planned) := do
  let workspace ← match input.workspacePath.filter (· ≠ []) with
    | some workspacePath => requireAbsolutePath workspacePath
    | none => .ok [units "tmp"]
  let operations := parsePatch input.patch
  if operations = [] then .error (runtimeError "Patch contained no operations." "invalid_patch" 400)
  else operations.mapM (planUnder workspace)

section patch

variable (sha256Hex : Units → String) (faults undoFaults : Nat → Option Fault)

-- Map#set: a path set before keeps its place.
def setBackup (backups : List (Path × Option Units)) (path : Path) (text : Option Units) : List (Path × Option Units) :=
  if (backups.lookup path).isSome then backups.map fun backup => if backup.1 = path then (path, text) else backup
  else backups ++ [(path, text)]

def backUp (path : Path) (text : Option Units) : Patching Unit :=
  modify fun state => { state with backups := setBackup state.backups path text }

def pushResult (result : FileResult) : Patching Unit := modify fun state => { state with results := state.results ++ [result] }

def pathError (message : String) (path : Units) (code : String) (statusCode : Nat) : RuntimeError :=
  ⟨units message ++ path, code, statusCode, none⟩

def applyOperation (dryRun : Bool) (op : Planned) : Patching Unit :=
  match op.action with
  | .add text => do
      if ← exists_ faults op.absolute then raise (pathError "Cannot add existing file " op.path "file_exists" 409)
      if !dryRun then
        mkdir faults op.absolute.dropLast
        writeTextFile faults op.absolute text
        backUp op.absolute none
      pushResult ⟨op.path, .add, dryRun, none, none⟩
  | .delete => do
      if !(← exists_ faults op.absolute) then
        raise (pathError "Cannot delete missing file " op.path "path_not_found" 404)
      let before ← readTextFile faults op.absolute WHOLE_FILE_MAX_BYTES
      if !dryRun then
        backUp op.absolute (some before)
        remove faults op.absolute
      pushResult ⟨op.path, .delete, dryRun, none, none⟩
  | .update hunks => do
      if !(← exists_ faults op.absolute) then
        raise (pathError "Cannot update missing file " op.path "path_not_found" 404)
      let before ← readTextFile faults op.absolute WHOLE_FILE_MAX_BYTES
      let after ← lift (applyHunks before hunks)
      if WHOLE_FILE_MAX_BYTES < (encode after).length then raise (fileTooLargeError WHOLE_FILE_MAX_BYTES)
      if !dryRun then
        backUp op.absolute (some before)
        writeTextFile faults op.absolute after
      pushResult ⟨op.path, .update, dryRun, some (sha256Hex before), some (sha256Hex after)⟩

def applyOperations (dryRun : Bool) : List Planned → Patching Unit
  | [] => pure ()
  | op :: rest => do
      applyOperation sha256Hex faults dryRun op
      applyOperations dryRun rest

def undo (backup : Path × Option Units) : Patching Unit :=
  match backup.2 with
  | none => remove undoFaults backup.1
  | some text => writeTextFile undoFaults backup.1 text

-- What a failed undo step throws is dropped.
def rollback : List (Path × Option Units) → PatchState → PatchState
  | [], state => state
  | backup :: rest, state =>
      match undo undoFaults backup state with
      | .ok _ after => rollback rest after
      | .error _ after => rollback rest after

def dryRunOf (input : ApplyPatchInput) : Bool := input.dryRun.getD false

def atomicOf (input : ApplyPatchInput) : Bool := input.atomic.getD true

def applyPatch (input : ApplyPatchInput) : Patching PatchResult := fun state =>
  match plan input with
  | .error error => .error (.runtime error) state
  | .ok planned =>
      match applyOperations sha256Hex faults (dryRunOf input) planned { state with backups := [], results := [] } with
      | .ok _ after => .ok ⟨!dryRunOf input, dryRunOf input, atomicOf input, after.results⟩ after
      | .error error thrown =>
          if atomicOf input && !dryRunOf input then .error error (rollback undoFaults thrown.backups thrown)
          else .error error thrown

end patch

end Vacps.Files
