import Vacps.Agent.FilesEdit
import Vacps.Agent.PatchPaths

/- script/src/runtime/files.ts: filesMove over fs.cpp's remove_path and rename_path. The destination is removed
   before the rename, so what the removal took is gone when a later step fails. -/
set_option autoImplicit false

namespace Vacps.Files

open Library Library.Utf16

structure FilesMoveInput where
  from_ : Units
  to_ : Units
  overwrite : Option Bool
  expectedSha256 : Option Units

def FilesMoveInput.overwrites (input : FilesMoveInput) : Bool := input.overwrite.getD false

structure MoveResult where
  from_ : Path
  to_ : Path
deriving DecidableEq

def isFile : Node (List UInt8) → Bool
  | .file _ => true
  | .directory => false

section moves

-- An entry a fault partway leaves in remove_all is spared.
variable (sha256Hex : List UInt8 → Units) (faults : Nat → Option Fault) (spared : Path → Bool)

-- Whether FileStat's type is 'file'.
def statFile (path : Path) : Patching Bool := fun state =>
  match faults state.calls, state.tree.node path with
  | none, some node => .ok (isFile node) state.called
  | _, _ => .error (.native "stat") state.called

def pathMissing (path : Path) : RuntimeError := pathError "Path not found: " (PatchPaths.pathText path) "path_not_found" 404

def statFound (path : Path) : Patching Bool := fun state =>
  match statFile faults path state with
  | .ok file after => .ok file after
  | .error _ after => .error (.runtime (pathMissing path)) after

-- What remove_all leaves below its path.
def leaves : Option Fault → Path → Bool
  | none => fun _ => false
  | some .refused => fun _ => true
  | some (.partway _) => spared

def removeAll (path : Path) : Patching Unit := fun state =>
  let after := { state.called with tree := state.tree.prune path (leaves spared (faults state.calls)) }
  -- The root itself cannot go.
  if faults state.calls = none ∧ path ≠ [] then .ok () after else .error (.native "remove") after

-- What rename(2) may put in the place of what is there.
def replaceable (tree : Tree) (destination : Path) : Node (List UInt8) → Bool
  | .file _ => (tree.node destination).any isFile
  | .directory => tree.node destination = some .directory && !tree.hasChildren destination

def renamed (tree : Tree) (source destination : Path) (replace : Bool) : Option Tree :=
  match tree.node source with
  | none => none
  | some node =>
      if source = destination then if replace then some tree else none
      else if outside : source <+: destination then none
      else if apart : destination <+: source then none
      else if parent : tree.node destination.dropLast = some .directory then
        if tree.node destination = none ∨ (replace = true ∧ replaceable tree destination node = true) then
          some (tree.move source destination outside apart parent)
        else none
      else none

def rename (source destination : Path) (replace : Bool) : Patching Unit := fun state =>
  match faults state.calls, renamed state.tree source destination replace with
  | none, some tree => .ok () { state.called with tree := tree }
  | _, _ => .error (.native "rename") state.called

def truthy (hash : Option Units) : Bool := hash.any fun expected => expected ≠ []

def checkSource (expectedSha256 : Option Units) (path : Path) : Editing Unit := do
  if !(← call (exists_ faults path)) then call (raise (pathMissing path))
  let file ← call (statFound faults path)
  if file && truthy expectedSha256 then
    let current ← call (readWholeBytesFile faults path WHOLE_FILE_MAX_BYTES)
    if expectedSha256.any fun expected => normalizeHash expected ≠ sha256Hex current then
      throw (.versionConflict (runtimeError "The file changed after it was read." "file_version_conflict" 409)
        (sha256Hex current))

def checkDestination (overwrite : Bool) (path : Path) : Patching Unit := do
  if !overwrite then
    if ← exists_ faults path then raise (runtimeError "Destination already exists." "path_exists" 409)

def makeParent (parent : Path) : Patching Unit := do
  if parent ≠ [] then mkdir faults parent

def makeRoom (overwrite : Bool) (path : Path) : Patching Unit := do
  if overwrite then
    if ← exists_ faults path then removeAll faults spared path

def moveTo (source destination : Path) (overwrite : Bool) : Patching Unit := do
  makeParent faults destination.dropLast
  makeRoom faults spared overwrite destination
  rename faults source destination overwrite

def filesMove (input : FilesMoveInput) : Editing MoveResult := do
  let source ← call (lift (requireAbsolutePath input.from_))
  let destination ← call (lift (requireAbsolutePath input.to_))
  checkSource sha256Hex faults input.expectedSha256 source
  call (checkDestination faults input.overwrites destination)
  call (moveTo faults spared source destination input.overwrites)
  pure ⟨source, destination⟩

end moves

section conditions

def SameBelow (path : Path) (tree after : Tree) : Prop := ∀ below, after.node (path ++ below) = tree.node (path ++ below)

-- All that was at or below the source is below the destination, and there only.
def Moved (source destination : Path) (tree after : Tree) : Prop :=
  ∀ below, after.node (destination ++ below) = tree.node (source ++ below) ∧ after.node (source ++ below) = none

-- How far mkdir gets.
def furthest : Option Fault → Path → Path
  | none, path => path
  | some .refused, _ => []
  | some (.partway made), path => path.take made

def madeTo (tree : Tree) (fault : Option Fault) (parent : Path) : Path := if tree.Free parent then furthest fault parent else []

-- A directory that mkdir makes above the destination lies in the source.
def MakesInside (tree : Tree) (fault : Option Fault) (source destination : Path) : Prop :=
  ∃ made, made <+: madeTo tree fault destination.dropLast ∧ source <+: made ∧ tree.node made = none

def afterParent (parent : Path) (calls : Nat) : Nat := if parent = [] then calls else calls + 1

def Related (source destination : Path) : Prop := source <+: destination ∨ destination <+: source

variable (sha256Hex : List UInt8 → Units) (faults : Nat → Option Fault) (spared : Path → Bool)

-- The removal below the destination loses an entry.
def RemovalTakes (tree : Tree) (fault : Option Fault) (destination : Path) : Prop :=
  ∃ below, tree.node (destination ++ below) ≠ none ∧
    tree.stays destination (leaves spared fault) (destination ++ below) = false

-- The destination is removed, and then the removal does not finish or the rename fails; the look is the call
-- of exists before the removal.
structure RemovesThenFails (tree : Tree) (calls look : Nat) (source destination : Path) (overwrite : Bool) : Prop where
  overwrites : overwrite = true
  parent : destination.dropLast = [] ∨ faults calls = none
  looked : faults look = none
  takes : RemovalTakes spared tree (faults (look + 1)) destination
  fails : faults (look + 1) ≠ none ∨ Related source destination ∨ faults (look + 2) ≠ none

-- A whole file that can be read.
def Readable (tree : Tree) (path : Path) (maxBytes : Nat) (bytes : List UInt8) : Prop :=
  tree.node path = some (.file bytes) ∧ bytes.length ≤ maxBytes

def versioned (expectedSha256 : Option Units) (tree : Tree) (source : Path) : Bool :=
  (tree.node source).any isFile && truthy expectedSha256

-- exists and stat, and the three calls of a whole read.
def sourceCalls (expectedSha256 : Option Units) (tree : Tree) (source : Path) : Nat :=
  if versioned expectedSha256 tree source then 5 else 2

structure SourceChecked (expectedSha256 : Option Units) (state : PatchState) (source : Path) : Prop where
  there : state.tree.node source ≠ none
  version : versioned expectedSha256 state.tree source = true → ∃ bytes,
    Readable state.tree source WHOLE_FILE_MAX_BYTES bytes ∧
      (expectedSha256.any fun expected => normalizeHash expected ≠ sha256Hex bytes) = false
  answered : ∀ call < sourceCalls expectedSha256 state.tree source, faults (state.calls + call) = none

def DestinationChecked (overwrite : Bool) (tree : Tree) (calls : Nat) (destination : Path) : Prop :=
  overwrite = false → faults calls = none ∧ tree.node destination = none

-- Which moves are careful with what they name, once their checks have passed.
def Careful (tree : Tree) (calls : Nat) (source destination : Path) (overwrite : Bool) : Prop :=
  ¬ MakesInside tree (faults calls) source destination ∧
    ¬ RemovesThenFails faults spared tree calls (afterParent destination.dropLast calls) source destination overwrite

-- The calls made before the first effect.
def checkCalls (input : FilesMoveInput) (tree : Tree) (source : Path) : Nat :=
  sourceCalls input.expectedSha256 tree source + if input.overwrites then 0 else 1

def CarefulMove (input : FilesMoveInput) (state : PatchState) : Prop :=
  ∀ source destination, requireAbsolutePath input.from_ = .ok source → requireAbsolutePath input.to_ = .ok destination →
    SourceChecked sha256Hex faults input.expectedSha256 state source →
    DestinationChecked faults input.overwrites state.tree
      (state.calls + sourceCalls input.expectedSha256 state.tree source) destination →
    Careful faults spared state.tree (state.calls + checkCalls input state.tree source) source destination input.overwrites

def KeepsNamed (input : FilesMoveInput) (tree after : Tree) : Prop :=
  ∀ text ∈ [input.from_, input.to_], ∀ path, requireAbsolutePath text = .ok path → SameBelow path tree after

def Arrived (input : FilesMoveInput) (tree after : Tree) : Prop :=
  ∀ source destination, requireAbsolutePath input.from_ = .ok source → requireAbsolutePath input.to_ = .ok destination →
    Moved source destination tree after

def LosesNothing (input : FilesMoveInput) (state : PatchState) : Prop :=
  ∀ error after, filesMove sha256Hex faults spared input state = .error error after →
    KeepsNamed input state.tree after.tree

end conditions

section trees

-- The tree with the directories made down to the path, as far as the destination can tell.
structure Grew (destination made : Path) (tree after : Tree) : Prop where
  nodes : ∀ other, after.node other = if other <+: made then some .directory else tree.node other
  stays : ∀ spared other, after.stays destination spared other = tree.stays destination spared other

theorem grew_refl (destination : Path) (tree : Tree) : Grew destination [] tree tree where
  nodes := by
    intro other
    by_cases root : other <+: []
    · rw [if_pos root, List.prefix_nil.mp root]
      exact tree.root
    · rw [if_neg root]
  stays := fun _ _ => rfl

theorem grew_make (destination made : Path) (tree : Tree) (higher : made <+: destination.dropLast) :
    Grew destination made tree (tree.makeDirectories made) where
  nodes := tree.node_make made
  stays := fun spared other => tree.stays_make made destination spared other higher

-- What is at or below the destination has directories all the way down to its parent.
theorem parents_there (tree : Tree) (destination below above : Path) (there : tree.node (destination ++ below) ≠ none)
    (higher : above <+: destination.dropLast) : tree.node above = some .directory := by
  obtain ⟨rest, same⟩ := higher
  by_cases root : destination = []
  · rw [root, List.dropLast_nil, List.append_eq_nil_iff] at same
    rw [same.1]
    exact tree.root
  · obtain ⟨node, found⟩ := Option.ne_none_iff_exists'.mp there
    refine tree.above_directory above (rest ++ [destination.getLast root] ++ below) node ?_ (by simp)
    rw [← List.append_assoc, ← List.append_assoc, same, List.dropLast_append_getLast root]
    exact found

theorem parents_free (tree : Tree) (destination below : Path) (there : tree.node (destination ++ below) ≠ none) :
    tree.Free destination.dropLast := by
  intro above member content file
  rw [parents_there tree destination below above there ((List.mem_inits _ _).mp member)] at file
  cases file

theorem furthest_above (fault : Option Fault) (path : Path) : furthest fault path <+: path := by
  cases fault with
  | none => exact List.prefix_refl path
  | some fault =>
      cases fault with
      | refused => exact List.nil_prefix
      | partway made => exact List.take_prefix made path

theorem made_above (tree : Tree) (fault : Option Fault) (parent : Path) : madeTo tree fault parent <+: parent := by
  rw [madeTo]
  split
  · exact furthest_above fault parent
  · exact List.nil_prefix

-- The directories made were missing or there already.
theorem made_open (tree : Tree) (fault : Option Fault) (parent above : Path) (within : above <+: madeTo tree fault parent) :
    tree.node above = none ∨ tree.node above = some .directory := by
  rw [madeTo] at within
  split at within
  · rename_i free
    have open_ := free above ((List.mem_inits _ _).mpr (within.trans (furthest_above fault parent)))
    cases here : tree.node above with
    | none => exact Or.inl rfl
    | some node =>
        cases node with
        | file content => exact absurd here (open_ content)
        | directory => exact Or.inr rfl
  · rw [List.prefix_nil.mp within]
    exact Or.inr tree.root

theorem above_short (destination below : Path) (within : destination ++ below <+: destination.dropLast) :
    destination ++ below = [] := by
  have lengths := within.length_le
  rw [List.length_append, List.length_dropLast] at lengths
  have root : destination = [] := List.length_eq_zero_iff.mp (by omega)
  rw [root] at within ⊢
  exact List.prefix_nil.mp within

theorem grew_destination (fault : Option Fault) (destination : Path) (tree after : Tree)
    (grew : Grew destination (madeTo tree fault destination.dropLast) tree after) : SameBelow destination tree after := by
  intro below
  rw [grew.nodes]
  by_cases within : destination ++ below <+: madeTo tree fault destination.dropLast
  · rw [if_pos within, above_short destination below (within.trans (made_above tree fault _))]
    exact tree.root.symm
  · rw [if_neg within]

theorem grew_source (fault : Option Fault) (source destination : Path) (tree after : Tree)
    (grew : Grew destination (madeTo tree fault destination.dropLast) tree after) :
    SameBelow source tree after ↔ ¬ MakesInside tree fault source destination := by
  constructor
  · rintro same ⟨made, within, ⟨below, rfl⟩, missing⟩
    have here := same below
    rw [grew.nodes, if_pos within, missing] at here
    cases here
  · intro outside below
    rw [grew.nodes]
    by_cases within : source ++ below <+: madeTo tree fault destination.dropLast
    · rw [if_pos within]
      rcases made_open tree fault _ _ within with missing | there
      · exact absurd ⟨_, within, List.prefix_append _ _, missing⟩ outside
      · exact there.symm
    · rw [if_neg within]

theorem makes_nothing (tree : Tree) (fault : Option Fault) (source destination : Path)
    (there : tree.node destination ≠ none) : ¬ MakesInside tree fault source destination := by
  rintro ⟨made, within, _, missing⟩
  rw [← List.append_nil destination] at there
  rw [parents_there tree destination [] made there (within.trans (made_above tree fault _))] at missing
  cases missing

-- A removal that takes nothing leaves the whole tree.
theorem takes_iff (spared : Path → Bool) (tree : Tree) (fault : Option Fault) (destination : Path) :
    SameBelow destination tree (tree.prune destination (leaves spared fault)) ↔
      ¬ RemovalTakes spared tree fault destination := by
  constructor
  · rintro same ⟨below, there, gone⟩
    have here := same below
    rw [FileTree.node_prune, gone] at here
    exact there here.symm
  · intro keeps below
    rw [FileTree.node_prune]
    cases stays : tree.stays destination (leaves spared fault) (destination ++ below) with
    | true => rfl
    | false =>
        cases here : tree.node (destination ++ below) with
        | none => rfl
        | some node => exact absurd ⟨below, by simp [here], stays⟩ keeps

theorem takes_elsewhere (spared : Path → Bool) (tree : Tree) (fault : Option Fault) (destination path : Path)
    (keeps : SameBelow destination tree (tree.prune destination (leaves spared fault))) :
    SameBelow path tree (tree.prune destination (leaves spared fault)) := by
  intro below
  by_cases inside : destination <+: path ++ below
  · obtain ⟨rest, same⟩ := inside
    rw [← same]
    exact keeps rest
  · rw [FileTree.node_prune, if_pos (by simp [FileTree.stays, inside])]

theorem removal_there (spared : Path → Bool) (tree : Tree) (fault : Option Fault) (destination : Path)
    (takes : RemovalTakes spared tree fault destination) : tree.node destination ≠ none := by
  obtain ⟨below, there, _⟩ := takes
  by_cases here : below = []
  · rw [here, List.append_nil] at there
    exact there
  · obtain ⟨node, found⟩ := Option.ne_none_iff_exists'.mp there
    rw [tree.above_directory destination below node found here]
    exact Option.some_ne_none _

theorem removal_grew (spared : Path → Bool) (fault made : Option Fault) (destination : Path) (tree after : Tree)
    (grew : Grew destination (madeTo tree made destination.dropLast) tree after) :
    RemovalTakes spared after fault destination ↔ RemovalTakes spared tree fault destination := by
  have same := grew_destination made destination tree after grew
  constructor
  · rintro ⟨below, there, gone⟩
    exact ⟨below, same below ▸ there, grew.stays _ _ ▸ gone⟩
  · rintro ⟨below, there, gone⟩
    exact ⟨below, (same below).symm ▸ there, (grew.stays _ _).symm ▸ gone⟩

theorem inside_related (tree : Tree) (fault : Option Fault) (source destination : Path)
    (makes : MakesInside tree fault source destination) : Related source destination := by
  obtain ⟨made, within, below, _⟩ := makes
  exact Or.inl ((below.trans (within.trans (made_above tree fault _))).trans (List.dropLast_prefix destination))

theorem renamed_iff (tree : Tree) (source destination : Path) (replace : Bool) (missing : tree.node destination = none)
    (parent : tree.node destination.dropLast = some .directory) :
    renamed tree source destination replace ≠ none ↔ tree.node source ≠ none ∧ ¬ Related source destination := by
  rw [renamed, Related, not_or]
  cases here : tree.node source with
  | none => simp
  | some node =>
      have apart : source ≠ destination := by
        rintro rfl
        rw [missing] at here
        cases here
      by_cases outside : source <+: destination
      · simp [apart, outside]
      · by_cases above : destination <+: source
        · simp [apart, outside, above]
        · simp [apart, outside, above, parent, missing]

theorem unrelated_below (source destination below : Path) (apart : ¬ Related source destination) :
    ¬ destination <+: source ++ below := by
  intro within
  rcases List.prefix_or_prefix_of_prefix within (List.prefix_append source below) with above | under
  · exact apart (Or.inr above)
  · exact apart (Or.inl under)

theorem renamed_moves (tree after : Tree) (source destination : Path) (replace : Bool) (missing : tree.node destination = none)
    (renames : renamed tree source destination replace = some after) :
    ¬ Related source destination ∧ Moved source destination tree after := by
  rw [renamed] at renames
  cases here : tree.node source with
  | none =>
      rw [here] at renames
      cases renames
  | some node =>
      have differs : source ≠ destination := by
        rintro rfl
        rw [missing] at here
        cases here
      simp only [here, if_neg differs, missing, true_or, if_true, Option.dite_none_left_eq_some,
        Option.dite_none_right_eq_some] at renames
      obtain ⟨outside, apart, parent, moves⟩ := renames
      have unrelated : ¬ Related source destination := not_or.mpr ⟨outside, apart⟩
      refine ⟨unrelated, fun below => ?_⟩
      rw [← Option.some.inj moves, FileTree.node_move, FileTree.node_move, if_pos (List.prefix_append _ _), List.drop_left,
        if_neg (unrelated_below source destination below unrelated), if_pos (List.prefix_append _ _)]
      exact ⟨rfl, rfl⟩

theorem moved_before (source destination : Path) (tree middle after : Tree) (same : SameBelow source tree middle)
    (moved : Moved source destination middle after) : Moved source destination tree after := by
  intro below
  rw [← same below]
  exact moved below

end trees

section stages

variable (faults : Nat → Option Fault) (spared : Path → Bool)

theorem make_parent_ends (destination : Path) (state : PatchState) :
    Ends (makeParent faults destination.dropLast) state
      (fun _ after => (destination.dropLast = [] ∨ faults state.calls = none) ∧
        after.calls = afterParent destination.dropLast state.calls ∧
        Grew destination (madeTo state.tree (faults state.calls) destination.dropLast) state.tree after.tree ∧
        after.tree.node destination.dropLast = some .directory)
      fun _ after => destination.dropLast ≠ [] ∧ (faults state.calls ≠ none ∨ ¬ state.tree.Free destination.dropLast) ∧
        Grew destination (madeTo state.tree (faults state.calls) destination.dropLast) state.tree after.tree := by
  by_cases root : destination.dropLast = []
  · rw [makeParent, if_neg (not_not.mpr root)]
    have nowhere := List.prefix_nil.mp (root ▸ made_above state.tree (faults state.calls) destination.dropLast)
    refine ⟨Or.inl root, by rw [afterParent, if_pos root], ?_, ?_⟩
    · rw [root, nowhere]
      exact grew_refl destination state.tree
    · rw [root]
      exact state.tree.root
  · rw [makeParent, if_pos root]
    unfold Ends mkdir
    by_cases free : state.tree.Free destination.dropLast
    · rw [if_pos free, madeTo, if_pos free]
      cases faulty : faults state.calls with
      | none =>
          refine ⟨Or.inr rfl, by rw [afterParent, if_neg root]; rfl, grew_make _ _ _ (List.prefix_refl _), ?_⟩
          change (state.tree.makeDirectories destination.dropLast).node destination.dropLast = some .directory
          rw [FileTree.node_make, if_pos (List.prefix_refl _)]
      | some fault =>
          cases fault with
          | refused => exact ⟨root, Or.inl (Option.some_ne_none _), grew_refl destination state.tree⟩
          | partway made =>
              exact ⟨root, Or.inl (Option.some_ne_none _), grew_make _ _ _ (List.take_prefix made _)⟩
    · rw [if_neg free, madeTo, if_neg free]
      exact ⟨root, Or.inr free, grew_refl destination state.tree⟩

theorem make_room_ends (overwrite : Bool) (path : Path) (state : PatchState) :
    Ends (makeRoom faults spared overwrite path) state
      (fun _ after => (after.tree = state.tree ∧ (overwrite = true → state.tree.node path = none)) ∨
        (overwrite = true ∧ faults state.calls = none ∧ faults (state.calls + 1) = none ∧ state.tree.node path ≠ none ∧
          path ≠ [] ∧ after.calls = state.calls + 2 ∧
          after.tree = state.tree.prune path (leaves spared (faults (state.calls + 1)))))
      fun _ after => (after.tree = state.tree ∧ faults state.calls ≠ none) ∨
        (overwrite = true ∧ faults state.calls = none ∧ state.tree.node path ≠ none ∧
          (faults (state.calls + 1) ≠ none ∨ path = []) ∧
          after.tree = state.tree.prune path (leaves spared (faults (state.calls + 1)))) := by
  cases overwrite with
  | false => exact Or.inl ⟨rfl, fun wants => by cases wants⟩
  | true =>
      apply ends_bind _ _ _ fun found after => faults state.calls = none ∧ after = state.called ∧
        found = (state.tree.node path).isSome
      · unfold Ends exists_
        cases faulty : faults state.calls with
        | none => exact ⟨rfl, rfl, rfl⟩
        | some fault => exact Or.inl ⟨rfl, Option.some_ne_none _⟩
      · rintro found _ ⟨answered, rfl, looked⟩
        cases found with
        | false => exact Or.inl ⟨rfl, fun _ => by simpa using looked.symm⟩
        | true =>
            have there : state.tree.node path ≠ none := by
              rw [← Option.isSome_iff_ne_none]
              exact looked.symm
            change Ends (removeAll faults spared path) state.called _ _
            unfold Ends removeAll
            by_cases clean : faults state.called.calls = none ∧ path ≠ []
            · rw [if_pos clean]
              exact Or.inr ⟨rfl, answered, clean.1, there, clean.2, rfl, rfl⟩
            · rw [if_neg clean]
              exact Or.inr ⟨rfl, answered, there, (not_and_or.mp clean).imp id not_not.mp, rfl⟩

theorem rename_ends (source destination : Path) (replace : Bool) (state : PatchState) :
    Ends (rename faults source destination replace) state
      (fun _ after => faults state.calls = none ∧ renamed state.tree source destination replace = some after.tree)
      fun _ after => after.tree = state.tree ∧
        (faults state.calls ≠ none ∨ renamed state.tree source destination replace = none) := by
  unfold Ends rename
  cases faults state.calls with
  | some fault => exact ⟨rfl, Or.inl (Option.some_ne_none _)⟩
  | none =>
      cases renamed state.tree source destination replace with
      | none => exact ⟨rfl, Or.inr rfl⟩
      | some tree => exact ⟨rfl, rfl⟩

theorem below_trans (path : Path) (first middle last : Tree) (before : SameBelow path first middle) :
    SameBelow path middle last ↔ SameBelow path first last := by
  constructor
  · intro later below
    rw [later below, before below]
  · intro later below
    rw [later below, before below]

theorem grown_careful (source destination : Path) (overwrite : Bool) (state after : PatchState)
    (grew : Grew destination (madeTo state.tree (faults state.calls) destination.dropLast) state.tree after.tree)
    (harmless : ¬ RemovesThenFails faults spared state.tree state.calls (afterParent destination.dropLast state.calls)
      source destination overwrite) :
    (SameBelow source state.tree after.tree ∧ SameBelow destination state.tree after.tree) ↔
      Careful faults spared state.tree state.calls source destination overwrite := by
  rw [Careful, grew_source _ source _ _ _ grew, and_iff_left harmless, and_iff_left (grew_destination _ _ _ _ grew)]

theorem pruned_keeps (made fault : Option Fault) (source destination : Path) (tree middle : Tree)
    (grew : Grew destination (madeTo tree made destination.dropLast) tree middle)
    (outside : ¬ MakesInside tree made source destination) :
    (SameBelow source tree (middle.prune destination (leaves spared fault)) ∧
      SameBelow destination tree (middle.prune destination (leaves spared fault))) ↔
      ¬ RemovalTakes spared tree fault destination := by
  have sources := (grew_source _ source _ _ _ grew).mpr outside
  have destinations := grew_destination _ _ _ _ grew
  rw [← below_trans source _ _ _ sources, ← below_trans destination _ _ _ destinations, takes_iff,
    removal_grew _ _ _ _ _ _ grew]
  refine and_iff_right_of_imp fun keeps => ?_
  rw [← removal_grew _ _ _ _ _ _ grew, ← takes_iff] at keeps
  exact takes_elsewhere _ _ _ _ _ keeps

theorem move_to_ends (source destination : Path) (overwrite : Bool) (state : PatchState)
    (there : state.tree.node source ≠ none) (free : overwrite = false → state.tree.node destination = none) :
    Ends (moveTo faults spared source destination overwrite) state
      (fun _ after => Careful faults spared state.tree state.calls source destination overwrite ∧
        Moved source destination state.tree after.tree)
      fun _ after => (SameBelow source state.tree after.tree ∧ SameBelow destination state.tree after.tree) ↔
        Careful faults spared state.tree state.calls source destination overwrite := by
  have grown := grown_careful faults spared source destination overwrite state
  refine ends_bind _ _ _ _ _ _ (ends_mono _ _ _ _ _ _ (make_parent_ends faults destination state)
    (fun _ _ made => made) ?_) ?_
  · rintro _ after ⟨some_, failed, grew⟩
    apply grown after grew
    intro removes
    obtain ⟨below, here, _⟩ := removes.takes
    rcases failed with faulty | blocked
    · exact faulty (removes.parent.resolve_left some_)
    · exact blocked (parents_free state.tree destination below here)
  rintro _ mid ⟨ready, counted, grew, parent⟩
  have named := grew_destination _ _ _ _ grew
  have here : mid.tree.node destination = state.tree.node destination := by simpa using named []
  -- What stands at the destination has its parents, so mkdir made nothing.
  have kept : mid.tree.node destination ≠ none → ¬ MakesInside state.tree (faults state.calls) source destination :=
    fun standing => makes_nothing _ _ _ _ (here ▸ standing)
  have pruned : ∀ after : PatchState, mid.tree.node destination ≠ none →
      after.tree = mid.tree.prune destination (leaves spared (faults (mid.calls + 1))) →
      ((SameBelow source state.tree after.tree ∧ SameBelow destination state.tree after.tree) ↔
        ¬ RemovalTakes spared state.tree (faults (mid.calls + 1)) destination) :=
    fun after standing same => same ▸ pruned_keeps spared _ _ source _ _ _ grew (kept standing)
  refine ends_bind _ _ _ _ _ _ (ends_mono _ _ _ _ _ _ (make_room_ends faults spared overwrite destination mid)
    (fun _ _ room => room) ?_) ?_
  · rintro _ after (⟨same, faulty⟩ | ⟨wants, looked, standing, failed, same⟩)
    · apply grown after (same ▸ grew)
      intro removes
      exact faulty (counted ▸ removes.looked)
    · rw [pruned after standing same, Careful, and_iff_right (kept standing), not_iff_not]
      refine ⟨fun takes => ⟨wants, ready, counted ▸ looked, counted ▸ takes, ?_⟩,
        fun removes => counted ▸ removes.takes⟩
      refine failed.imp (fun faulty => counted ▸ faulty) fun root => Or.inl (Or.inr ?_)
      rw [root]
      exact List.nil_prefix
  rintro _ room (⟨same, empty⟩ | ⟨wants, looked, removed, standing, some_, counts, same⟩)
  · have missing : mid.tree.node destination = none := by
      cases overwrite with
      | false => rw [here, free rfl]
      | true => exact empty rfl
    have harmless : ¬ RemovesThenFails faults spared state.tree state.calls (afterParent destination.dropLast state.calls)
        source destination overwrite := fun removes => removal_there _ _ _ _ removes.takes (here ▸ missing)
    refine ends_mono _ _ _ _ _ _ (rename_ends faults source destination overwrite room) ?_ ?_
    · rintro _ after ⟨_, renames⟩
      rw [same] at renames
      obtain ⟨apart, moved⟩ := renamed_moves _ _ _ _ _ missing renames
      have outside : ¬ MakesInside state.tree (faults state.calls) source destination :=
        fun makes => apart (inside_related _ _ _ _ makes)
      exact ⟨⟨outside, harmless⟩, moved_before _ _ _ _ _ ((grew_source _ source _ _ _ grew).mpr outside) moved⟩
    · rintro _ after ⟨left, _⟩
      exact grown after (left ▸ same ▸ grew) harmless
  · have gone : room.tree.node destination = none := by
      rw [same, FileTree.node_prune, removed]
      simp [FileTree.stays, leaves, some_]
    have outside : ∀ path, ¬ destination <+: path → room.tree.node path = mid.tree.node path := by
      intro path apart
      rw [same, FileTree.node_prune, if_pos (by simp [FileTree.stays, apart])]
    have higher : room.tree.node destination.dropLast = some .directory := by
      rw [outside _ fun within => some_ (by simpa using above_short destination [] (by simpa using within)), parent]
    refine ends_mono _ _ _ _ _ _ (rename_ends faults source destination overwrite room) ?_ ?_
    · rintro _ after ⟨answered, renames⟩
      obtain ⟨apart, moved⟩ := renamed_moves _ _ _ _ _ gone renames
      refine ⟨⟨kept standing, fun removes => ?_⟩, moved_before _ _ _ room.tree _ (fun below => ?_) moved⟩
      · rcases removes.fails with faulty | related | faulty
        · exact faulty (counted ▸ removed)
        · exact apart related
        · exact faulty (counted ▸ counts ▸ answered)
      · rw [outside _ (unrelated_below source destination below apart)]
        exact (grew_source _ source _ _ _ grew).mpr (kept standing) below
    · rintro _ after ⟨left, failed⟩
      rw [pruned after standing (left.trans same), Careful, and_iff_right (kept standing), not_iff_not]
      refine ⟨fun takes => ⟨wants, ready, counted ▸ looked, counted ▸ takes, Or.inr ?_⟩,
        fun removes => counted ▸ removes.takes⟩
      rcases failed with faulty | stuck
      · exact Or.inr (counted ▸ counts ▸ faulty)
      · by_contra clear
        rw [not_or] at clear
        have renames := (renamed_iff room.tree source destination overwrite gone higher).mpr ⟨?_, clear.1⟩
        · exact renames stuck
        · rw [outside source fun above => clear.1 (Or.inr above), grew.nodes]
          split
          · exact Option.some_ne_none _
          · exact there

end stages

section checks

variable (sha256Hex : List UInt8 → Units) (faults : Nat → Option Fault) (spared : Path → Bool)

def PatchState.after (state : PatchState) (calls : Nat) : PatchState := { state with calls := state.calls + calls }

theorem call_ends {α : Type} (program : Patching α) (state : PatchState) (done : α → PatchState → Prop)
    (left : PatchState → Prop) (ends : Ends program state done fun _ after => left after) :
    Ends (call program) state done fun _ after => left after := by
  unfold Ends at ends ⊢
  cases outcome : program state with
  | ok value after =>
      have called : call program state = .ok value after := by
        change EStateM.adaptExcept EditThrown.thrown program state = .ok value after
        rw [EStateM.adaptExcept, outcome]
      rw [outcome] at ends
      rw [called]
      exact ends
  | error error after =>
      have called : call program state = .error (.thrown error) after := by
        change EStateM.adaptExcept EditThrown.thrown program state = .error (.thrown error) after
        rw [EStateM.adaptExcept, outcome]
      rw [outcome] at ends
      rw [called]
      exact ends

theorem exists_answers (path : Path) (state : PatchState) :
    Ends (exists_ faults path) state
      (fun found after => faults state.calls = none ∧ after = state.after 1 ∧ found = (state.tree.node path).isSome)
      fun _ after => after.tree = state.tree ∧ faults state.calls ≠ none := by
  unfold Ends exists_
  cases faults state.calls with
  | none => exact ⟨rfl, rfl, rfl⟩
  | some fault => exact ⟨rfl, Option.some_ne_none _⟩

theorem stat_answers (path : Path) (state : PatchState) :
    Ends (statFound faults path) state
      (fun file after => faults state.calls = none ∧ after = state.after 1 ∧ file = (state.tree.node path).any isFile)
      fun _ after => after.tree = state.tree ∧ (faults state.calls ≠ none ∨ state.tree.node path = none) := by
  unfold Ends statFound statFile
  cases faults state.calls with
  | some fault => exact ⟨rfl, Or.inl (Option.some_ne_none _)⟩
  | none =>
      cases state.tree.node path with
      | none => exact ⟨rfl, Or.inr rfl⟩
      | some node => exact ⟨rfl, rfl, rfl⟩

theorem open_answers (path : Path) (state : PatchState) :
    Ends (openRead faults path) state (fun _ after => faults state.calls = none ∧ after = state.after 1)
      fun _ after => after.tree = state.tree ∧ (faults state.calls ≠ none ∨ state.tree.node path = none) := by
  unfold Ends openRead
  cases faults state.calls with
  | some fault => exact ⟨rfl, Or.inl (Option.some_ne_none _)⟩
  | none =>
      cases state.tree.node path with
      | none => exact ⟨rfl, Or.inr rfl⟩
      | some node => exact ⟨rfl, rfl⟩

theorem close_answers (state : PatchState) :
    Ends (close faults) state (fun _ after => faults state.calls = none ∧ after = state.after 1)
      fun _ after => after.tree = state.tree ∧ faults state.calls ≠ none := by
  unfold Ends close
  cases faults state.calls with
  | none => exact ⟨rfl, rfl⟩
  | some fault => exact ⟨rfl, Option.some_ne_none _⟩

theorem bytes_answers (path : Path) (maxBytes : Nat) (state : PatchState) :
    Ends (do
        let bytes ← readBytes faults path (maxBytes + 1)
        if maxBytes < bytes.length then raise (fileTooLargeError maxBytes)
        pure bytes) state
      (fun bytes after => faults state.calls = none ∧ after = state.after 1 ∧ Readable state.tree path maxBytes bytes)
      fun _ after => after = state.after 1 ∧
        (faults state.calls ≠ none ∨ ∀ bytes, ¬ Readable state.tree path maxBytes bytes) := by
  apply ends_bind _ _ _ fun bytes after => faults state.calls = none ∧ after = state.after 1 ∧
    ∃ whole, state.tree.node path = some (.file whole) ∧ bytes = whole.take (maxBytes + 1)
  · unfold Ends readBytes
    cases faults state.calls with
    | some fault => exact ⟨rfl, Or.inl (Option.some_ne_none _)⟩
    | none =>
        cases here : state.tree.node path with
        | none => exact ⟨rfl, Or.inr fun bytes readable => by simp [Readable, here] at readable⟩
        | some node =>
            cases node with
            | directory => exact ⟨rfl, Or.inr fun bytes readable => by simp [Readable, here] at readable⟩
            | file whole => exact ⟨rfl, rfl, whole, rfl, rfl⟩
  · rintro bytes _ ⟨answered, rfl, whole, here, taken⟩
    by_cases large : maxBytes < bytes.length
    · simp only [if_pos large, raise_bind]
      refine raise_ends _ _ _ _ ⟨rfl, Or.inr ?_⟩
      rintro other ⟨also, small⟩
      rw [here] at also
      obtain rfl : whole = other := Node.file.inj (Option.some.inj also)
      rw [taken, List.length_take] at large
      omega
    · simp only [if_neg large]
      rw [taken, List.length_take] at large
      have all : bytes = whole := by rw [taken, List.take_of_length_le (by omega)]
      exact ⟨answered, rfl, all ▸ here, by rw [all]; omega⟩

theorem read_answers (path : Path) (maxBytes : Nat) (state : PatchState) :
    Ends (readWholeBytesFile faults path maxBytes) state
      (fun bytes after => (∀ call < 3, faults (state.calls + call) = none) ∧ after = state.after 3 ∧
        Readable state.tree path maxBytes bytes)
      fun _ after => after.tree = state.tree ∧
        ((∃ call < 3, faults (state.calls + call) ≠ none) ∨ ∀ bytes, ¬ Readable state.tree path maxBytes bytes) := by
  refine ends_bind _ _ _ _ _ _ (ends_mono _ _ _ _ _ _ (open_answers faults path state) (fun _ _ opened => opened) ?_) ?_
  · rintro _ after ⟨same, faulty | missing⟩
    · exact ⟨same, Or.inl ⟨0, by omega, faulty⟩⟩
    · exact ⟨same, Or.inr fun bytes readable => by simp [Readable, missing] at readable⟩
  rintro _ _ ⟨opened, rfl⟩
  apply ends_ensure
  refine ends_mono _ _ _ _ _ _ (bytes_answers faults path maxBytes (state.after 1)) ?_ ?_
  · rintro bytes _ ⟨read, rfl, readable⟩
    refine ends_mono _ _ _ _ _ _ (close_answers faults _) ?_ ?_
    · rintro _ _ ⟨closed, rfl⟩
      refine ⟨fun call small => ?_, rfl, readable⟩
      obtain rfl | rfl | rfl : call = 0 ∨ call = 1 ∨ call = 2 := by omega
      · exact opened
      · exact read
      · exact closed
    · rintro _ after ⟨same, faulty⟩
      exact ⟨same, Or.inl ⟨2, by omega, faulty⟩⟩
  · rintro _ _ ⟨rfl, failed⟩
    have whole : (∃ call < 3, faults (state.calls + call) ≠ none) ∨ ∀ bytes, ¬ Readable state.tree path maxBytes bytes :=
      failed.imp (fun faulty => ⟨1, by omega, faulty⟩) id
    refine ends_mono _ _ _ _ _ _ (close_answers faults _) ?_ ?_
    · rintro _ _ ⟨_, rfl⟩
      exact ⟨rfl, whole⟩
    · rintro _ after ⟨same, _⟩
      exact ⟨same, whole⟩

theorem check_source_ends (expectedSha256 : Option Units) (source : Path) (state : PatchState) :
    Ends (checkSource sha256Hex faults expectedSha256 source) state
      (fun _ after => SourceChecked sha256Hex faults expectedSha256 state source ∧
        after = state.after (sourceCalls expectedSha256 state.tree source))
      fun _ after => after.tree = state.tree ∧ ¬ SourceChecked sha256Hex faults expectedSha256 state source := by
  have faulty : ∀ call < 2, faults (state.calls + call) ≠ none →
      ¬ SourceChecked sha256Hex faults expectedSha256 state source := by
    intro call small fails checked
    refine fails (checked.answered call ?_)
    rw [sourceCalls]
    split <;> omega
  refine ends_bind _ _ _ _ _ _ (call_ends _ _ _ _ (ends_mono _ _ _ _ _ _ (exists_answers faults source state)
    (fun _ _ answered => answered) ?_)) ?_
  · rintro _ after ⟨same, fails⟩
    exact ⟨same, faulty 0 (by omega) fails⟩
  rintro found _ ⟨looked, rfl, there⟩
  cases found with
  | false =>
      refine ⟨rfl, fun checked => ?_⟩
      exact checked.there (by simpa using there.symm)
  | true =>
      have standing : state.tree.node source ≠ none := by
        rw [← Option.isSome_iff_ne_none]
        exact there.symm
      simp only [Bool.not_true, Bool.false_eq_true, if_false]
      refine ends_bind _ _ _ _ _ _ (call_ends _ _ _ _ (ends_mono _ _ _ _ _ _ (stat_answers faults source (state.after 1))
        (fun _ _ answered => answered) ?_)) ?_
      · rintro _ after ⟨same, fails | missing⟩
        · exact ⟨same, faulty 1 (by omega) fails⟩
        · exact absurd missing standing
      rintro file _ ⟨statted, rfl, kind⟩
      have answered : ∀ call < 2, faults (state.calls + call) = none := by
        intro call small
        obtain rfl | rfl : call = 0 ∨ call = 1 := by omega
        · exact looked
        · exact statted
      have wants : (file && truthy expectedSha256) = versioned expectedSha256 state.tree source := by
        rw [kind]
        rfl
      rw [wants, sourceCalls]
      cases hashed : versioned expectedSha256 state.tree source with
      | false =>
          refine ⟨⟨standing, fun also => ?_, ?_⟩, rfl⟩
          · rw [hashed] at also
            cases also
          · rw [sourceCalls, hashed]
            exact answered
      | true =>
          have counted : sourceCalls expectedSha256 state.tree source = 5 := by
            rw [sourceCalls, hashed]
            rfl
          refine ends_bind _ _ _ _ _ _ (call_ends _ _ _ _ (ends_mono _ _ _ _ _ _
            (read_answers faults source WHOLE_FILE_MAX_BYTES ((state.after 1).after 1)) (fun _ _ read => read) ?_)) ?_
          · rintro _ after ⟨same, ⟨call, small, fails⟩ | unreadable⟩
            · refine ⟨same, fun checked => fails ?_⟩
              have there_ := checked.answered (2 + call) (by omega)
              rw [← Nat.add_assoc] at there_
              exact there_
            · refine ⟨same, fun checked => ?_⟩
              obtain ⟨bytes, readable, _⟩ := checked.version hashed
              exact unreadable bytes readable
          · rintro bytes _ ⟨read, rfl, readable⟩
            cases differs : expectedSha256.any fun expected => normalizeHash expected ≠ sha256Hex bytes with
            | true =>
                refine ⟨rfl, fun checked => ?_⟩
                obtain ⟨other, also, same⟩ := checked.version hashed
                obtain rfl : bytes = other := Node.file.inj (Option.some.inj (readable.1.symm.trans also.1))
                rw [differs] at same
                cases same
            | false =>
                refine ⟨⟨standing, fun _ => ⟨bytes, readable, differs⟩, ?_⟩, rfl⟩
                intro call small
                rw [counted] at small
                by_cases early : call < 2
                · exact answered call early
                · have late := read (call - 2) (by omega)
                  have place : ((state.after 1).after 1).calls + (call - 2) = state.calls + call := by
                    change state.calls + 1 + 1 + (call - 2) = state.calls + call
                    omega
                  rw [place] at late
                  exact late

theorem check_destination_ends (overwrite : Bool) (destination : Path) (state : PatchState) :
    Ends (checkDestination faults overwrite destination) state
      (fun _ after => DestinationChecked faults overwrite state.tree state.calls destination ∧
        after = state.after (if overwrite then 0 else 1))
      fun _ after => after.tree = state.tree ∧ ¬ DestinationChecked faults overwrite state.tree state.calls destination := by
  cases overwrite with
  | true => exact ⟨fun kept => absurd kept (by simp), rfl⟩
  | false =>
      refine ends_bind _ _ _ _ _ _ (ends_mono _ _ _ _ _ _ (exists_answers faults destination state)
        (fun _ _ answered => answered) ?_) ?_
      · rintro _ after ⟨same, faulty⟩
        exact ⟨same, fun checked => faulty (checked rfl).1⟩
      · rintro found _ ⟨answered, rfl, looked⟩
        cases found with
        | true =>
            refine ⟨rfl, fun checked => ?_⟩
            rw [(checked rfl).2] at looked
            cases looked
        | false => exact ⟨fun _ => ⟨answered, by simpa using looked.symm⟩, rfl⟩

theorem named_same (input : FilesMoveInput) (tree after : Tree) (same : after = tree) : KeepsNamed input tree after := by
  intro text _ path _ below
  rw [same]

theorem files_move_ends (input : FilesMoveInput) (state : PatchState) :
    Ends (filesMove sha256Hex faults spared input) state
      (fun _ after => CarefulMove sha256Hex faults spared input state ∧ Arrived input state.tree after.tree)
      fun _ after => KeepsNamed input state.tree after.tree ↔ CarefulMove sha256Hex faults spared input state := by
  have refused : ∀ after : PatchState, after.tree = state.tree → CarefulMove sha256Hex faults spared input state →
      (KeepsNamed input state.tree after.tree ↔ CarefulMove sha256Hex faults spared input state) :=
    fun after same careful => iff_of_true (named_same input _ _ same) careful
  cases located : requireAbsolutePath input.from_ with
  | error error =>
      rw [filesMove, located]
      refine refused state rfl ?_
      intro source destination found
      rw [located] at found
      cases found
  | ok source =>
  cases placed : requireAbsolutePath input.to_ with
  | error error =>
      rw [filesMove, located, placed]
      refine refused state rfl ?_
      intro source destination _ found
      rw [placed] at found
      cases found
  | ok destination =>
  have unchecked : ∀ passes : Prop, ¬ passes → (SourceChecked sha256Hex faults input.expectedSha256 state source →
      DestinationChecked faults input.overwrites state.tree
        (state.calls + sourceCalls input.expectedSha256 state.tree source) destination → passes) →
      CarefulMove sha256Hex faults spared input state := by
    intro passes fails implied source_ destination_ found also first second
    rw [located] at found
    rw [placed] at also
    cases found
    cases also
    exact absurd (implied first second) fails
  rw [filesMove, located, placed]
  change Ends (do
    checkSource sha256Hex faults input.expectedSha256 source
    call (checkDestination faults input.overwrites destination)
    call (moveTo faults spared source destination input.overwrites)
    pure (MoveResult.mk source destination)) state _ _
  refine ends_bind _ _ _ _ _ _ (ends_mono _ _ _ _ _ _
    (check_source_ends sha256Hex faults input.expectedSha256 source state) (fun _ _ checked => checked) ?_) ?_
  · rintro _ after ⟨same, fails⟩
    exact refused after same (unchecked _ fails fun first _ => first)
  rintro _ _ ⟨first, rfl⟩
  refine ends_bind _ _ _ _ _ _ (call_ends _ _ _ _ (ends_mono _ _ _ _ _ _
    (check_destination_ends faults input.overwrites destination _) (fun _ _ checked => checked) ?_)) ?_
  · rintro _ after ⟨same, fails⟩
    exact refused after same (unchecked _ fails fun _ second => second)
  rintro _ _ ⟨second, rfl⟩
  have exactly : CarefulMove sha256Hex faults spared input state ↔
      Careful faults spared state.tree (state.calls + checkCalls input state.tree source) source destination
        input.overwrites := by
    constructor
    · intro careful
      exact careful source destination located placed first second
    · intro careful source_ destination_ found also _ _
      rw [located] at found
      rw [placed] at also
      cases found
      cases also
      exact careful
  have named : ∀ after : Tree, KeepsNamed input state.tree after ↔
      (SameBelow source state.tree after ∧ SameBelow destination state.tree after) := by
    intro after
    simp [KeepsNamed, located, placed]
  refine ends_bind _ _ _ (fun _ after => CarefulMove sha256Hex faults spared input state ∧ Arrived input state.tree after.tree)
    _ _ (call_ends _ _ _ _ (ends_mono _ _ _ _ _ _ (move_to_ends faults spared source destination input.overwrites _
      first.there fun kept => (second kept).2) ?_ ?_)) fun _ last arrived => ends_pure _ last _ _ arrived
  · rintro _ after ⟨careful, moved⟩
    refine ⟨exactly.mpr (Nat.add_assoc _ _ _ ▸ careful), fun source_ destination_ found also => ?_⟩
    rw [located] at found
    rw [placed] at also
    cases found
    cases also
    exact moved
  · intro _ after iff
    rw [named, exactly, checkCalls, ← Nat.add_assoc]
    exact iff

theorem move_arrives (input : FilesMoveInput) (state after : PatchState) (result : MoveResult)
    (returned : filesMove sha256Hex faults spared input state = .ok result after) : Arrived input state.tree after.tree :=
  (ends_returned _ _ _ _ _ _ (files_move_ends sha256Hex faults spared input state) returned).2

-- A move that fails loses nothing, unless mkdir makes a directory inside the source, or the destination goes before the
-- removal or the rename fails.
theorem failed_move_iff (input : FilesMoveInput) (state : PatchState) :
    LosesNothing sha256Hex faults spared input state ↔ CarefulMove sha256Hex faults spared input state := by
  have ends := files_move_ends sha256Hex faults spared input state
  unfold Ends at ends
  rw [LosesNothing]
  cases outcome : filesMove sha256Hex faults spared input state with
  | ok result after =>
      rw [outcome] at ends
      exact iff_of_true (fun error last threw => by cases threw) ends.1
  | error error after =>
      rw [outcome] at ends
      refine Iff.trans ⟨fun keeps => keeps error after rfl, ?_⟩ ends
      rintro keeps _ _ ⟨⟩
      exact keeps

def namesAbove (path : Path) (text : Units) : Bool :=
  match requireAbsolutePath text with
  | .error _ => false
  | .ok named => decide (named <+: path)

-- The move fails and what is at the path, in or below what it names, is another.
def lostAt (input : FilesMoveInput) (state : PatchState) (path : Path) : Bool :=
  match filesMove sha256Hex faults spared input state with
  | .ok _ _ => false
  | .error _ after => [input.from_, input.to_].any (namesAbove path) && after.tree.node path != state.tree.node path

theorem lost_at (input : FilesMoveInput) (state : PatchState) (path : Path)
    (lost : lostAt sha256Hex faults spared input state path = true) : ¬ LosesNothing sha256Hex faults spared input state := by
  intro keeps
  rw [lostAt] at lost
  cases outcome : filesMove sha256Hex faults spared input state with
  | ok result after =>
      rw [outcome] at lost
      cases lost
  | error error after =>
      rw [outcome] at lost
      rw [Bool.and_eq_true, List.any_eq_true] at lost
      obtain ⟨⟨text, member, above⟩, differs⟩ := lost
      rw [namesAbove] at above
      cases named : requireAbsolutePath text with
      | error refusal =>
          rw [named] at above
          cases above
      | ok front =>
          rw [named] at above
          obtain ⟨below, rfl⟩ := of_decide_eq_true above
          have same := keeps error after outcome text member front named below
          rw [same] at differs
          simp at differs

-- A path moved over itself, over the directory it is in, and over a file when rename(2) fails; a directory moved over a
-- file of its own, and to a place inside itself that is not there yet.
theorem failed_move_loses :
    let state := freshWith [("a", one), ("b", one)]
    let crossing : Nat → Option Fault := fun call => if call = 5 then some .refused else none
    ∀ case ∈ [("/tmp/a", "/tmp/a", true, noFaults), ("/tmp/a", "/tmp", true, noFaults), ("/tmp/a", "/tmp/b", true, crossing),
        ("/tmp", "/tmp/a", true, noFaults), ("/tmp", "/tmp/c/d", false, noFaults)],
      ¬ LosesNothing (fun _ => []) case.2.2.2 (fun _ => false) ⟨units case.1, units case.2.1, some case.2.2.1, none⟩
        state := by
  intro state crossing case member
  simp only [List.mem_cons, List.not_mem_nil, or_false] at member
  rcases member with rfl | rfl | rfl | rfl | rfl
  · exact lost_at _ _ _ _ _ (inWorkspace "a") (by decide)
  · exact lost_at _ _ _ _ _ (inWorkspace "a") (by decide)
  · exact lost_at _ _ _ _ _ (inWorkspace "b") (by decide)
  · exact lost_at _ _ _ _ _ (inWorkspace "a") (by decide)
  · exact lost_at _ _ _ _ _ (inWorkspace "c") (by decide)

end checks

end Vacps.Files
