import Vacps.Agent.Files

/- What one operation of a patch can do: it checks its target first, and only then changes the tree. -/
set_option autoImplicit false

namespace Vacps.Files

open Library Library.Utf16

inductive Change where
  | create (text : Units)
  | erase (before : Units)
  | rewrite (before after : Units)

section changes

variable (sha256Hex : Units → String) (faults : Nat → Option Fault)

-- The part of applyOperation a dry run does.
def checkOperation (op : Planned) : Patching Change :=
  match op.action with
  | .add text => do
      if ← exists_ faults op.absolute then raise (pathError "Cannot add existing file " op.path "file_exists" 409)
      pure (.create text)
  | .delete => do
      if !(← exists_ faults op.absolute) then
        raise (pathError "Cannot delete missing file " op.path "path_not_found" 404)
      let before ← readTextFile faults op.absolute WHOLE_FILE_MAX_BYTES
      pure (.erase before)
  | .update hunks => do
      if !(← exists_ faults op.absolute) then
        raise (pathError "Cannot update missing file " op.path "path_not_found" 404)
      let before ← readTextFile faults op.absolute WHOLE_FILE_MAX_BYTES
      let after ← lift (applyHunks before hunks)
      if WHOLE_FILE_MAX_BYTES < (encode after).length then raise (fileTooLargeError WHOLE_FILE_MAX_BYTES)
      pure (.rewrite before after)

def makeChange (path : Path) : Change → Patching Unit
  | .create text => do
      mkdir faults path.dropLast
      writeTextFile faults path text
      backUp path none
  | .erase before => do
      backUp path (some before)
      remove faults path
  | .rewrite before after => do
      backUp path (some before)
      writeTextFile faults path after

def Change.report (path : Units) (dryRun : Bool) : Change → FileResult
  | .create _ => ⟨path, .add, dryRun, none, none⟩
  | .erase _ => ⟨path, .delete, dryRun, none, none⟩
  | .rewrite before after => ⟨path, .update, dryRun, some (sha256Hex before), some (sha256Hex after)⟩

@[simp] theorem raise_bind {α β : Type} (error : RuntimeError) (continue_ : α → Patching β) :
    (raise error : Patching α) >>= continue_ = raise error := rfl

@[simp] theorem raise_map {α β : Type} (error : RuntimeError) (read : α → β) :
    read <$> (raise error : Patching α) = raise error := rfl

theorem apply_operation_eq (dryRun : Bool) (op : Planned) :
    applyOperation sha256Hex faults dryRun op = (do
      let change ← checkOperation faults op
      if !dryRun then makeChange faults op.absolute change
      pushResult (change.report sha256Hex op.path dryRun)) := by
  obtain ⟨⟨path, action⟩, absolute⟩ := op
  cases action with
  | add text =>
      simp only [applyOperation, checkOperation, bind_assoc]
      apply bind_congr
      intro there
      cases there <;> cases dryRun <;> simp [makeChange, Change.report]
  | delete =>
      simp only [applyOperation, checkOperation, bind_assoc]
      apply bind_congr
      intro there
      cases there with
      | false => simp
      | true =>
          simp only [Bool.not_true, Bool.false_eq_true, if_false, pure_bind, bind_assoc]
          apply bind_congr
          intro before
          cases dryRun <;> simp [makeChange, Change.report]
  | update hunks =>
      simp only [applyOperation, checkOperation, bind_assoc]
      apply bind_congr
      intro there
      cases there with
      | false => simp
      | true =>
          simp only [Bool.not_true, Bool.false_eq_true, if_false, bind_assoc]
          apply bind_congr
          intro before
          apply bind_congr
          intro after
          by_cases large : WHOLE_FILE_MAX_BYTES < (encode after).length
          · simp [large]
          · cases dryRun <;> simp [large, makeChange, Change.report]

end changes

section specs

variable (faults : Nat → Option Fault)

-- Nothing but the counter of calls and the decoder has moved.
structure Quiet (state after : PatchState) : Prop where
  tree : after.tree = state.tree
  backups : after.backups = state.backups
  results : after.results = state.results
  decoder : state.bomSeen = true → after.bomSeen = true

theorem quiet_called (state : PatchState) : Quiet state state.called := ⟨rfl, rfl, rfl, fun seen => seen⟩

theorem quiet_trans (first middle last : PatchState) (before : Quiet first middle) (later : Quiet middle last) :
    Quiet first last :=
  ⟨later.tree.trans before.tree, later.backups.trans before.backups, later.results.trans before.results,
    fun seen => later.decoder (before.decoder seen)⟩

theorem exists_ends (path : Path) (state : PatchState) :
    Ends (exists_ faults path) state (fun found after => after = state.called ∧ found = (state.tree.node path).isSome)
      fun _ after => Quiet state after := by
  unfold Ends exists_
  cases faults state.calls with
  | none => exact ⟨rfl, rfl⟩
  | some fault => exact quiet_called state

theorem raise_ends {α : Type} (error : RuntimeError) (state : PatchState) (done : α → PatchState → Prop)
    (thrown : Thrown → PatchState → Prop) (here : thrown (.runtime error) state) :
    Ends (raise error : Patching α) state done thrown := here

theorem close_ends (state : PatchState) :
    Ends (close faults) state (fun _ after => after = state.called) fun _ after => after = state.called := by
  unfold Ends close
  cases faults state.calls <;> exact rfl

theorem content_kept (bomSeen : Bool) (bytes : List UInt8) (whole : ¬ (bomSeen = false ∧ byteOrderMark <+: bytes)) :
    content bomSeen bytes = bytes := by
  rw [content, if_neg]
  intro dropped
  rw [Bool.and_eq_true, Bool.not_eq_true', List.isPrefixOf_iff_prefix] at dropped
  exact whole dropped

-- What a read of the whole file decodes.
def Reads (state : PatchState) (path : Path) (text : Units) : Prop :=
  ∃ bytes, state.tree.node path = some (.file bytes) ∧ bytes.length ≤ WHOLE_FILE_MAX_BYTES ∧
    decode (content state.bomSeen bytes) = some text

theorem open_read_ends (path : Path) (state : PatchState) :
    Ends (openRead faults path) state (fun _ after => after = state.called) fun _ after => after = state.called := by
  unfold Ends openRead
  cases faults state.calls <;> cases state.tree.node path <;> exact rfl

theorem read_bytes_ends (path : Path) (maxBytes : Nat) (state : PatchState) :
    Ends (readBytes faults path maxBytes) state
      (fun bytes after => after = state.called ∧
        ∃ whole, state.tree.node path = some (.file whole) ∧ bytes = whole.take maxBytes)
      fun _ after => after = state.called := by
  unfold Ends readBytes
  cases faults state.calls with
  | some fault => exact rfl
  | none =>
      cases here : state.tree.node path with
      | none => exact rfl
      | some node =>
          cases node with
          | directory => exact rfl
          | file whole => exact ⟨rfl, whole, rfl, rfl⟩

theorem read_whole_ends (path : Path) (maxBytes : Nat) (state : PatchState) :
    Ends (readWholeBytesFile faults path maxBytes) state
      (fun bytes after => Quiet state after ∧ after.bomSeen = state.bomSeen ∧
        state.tree.node path = some (.file bytes) ∧ bytes.length ≤ maxBytes)
      fun _ after => Quiet state after := by
  have closes : ∀ after : PatchState, Quiet state after → Ends (close faults) after (fun _ last => Quiet state last)
      fun _ last => Quiet state last := by
    intro after quiet
    refine ends_mono _ _ _ _ _ _ (close_ends faults after) ?_ ?_ <;> rintro _ last rfl <;>
      exact quiet_trans _ _ _ quiet (quiet_called after)
  apply ends_bind _ _ _ (fun _ after => after = state.called)
  · refine ends_mono _ _ _ _ _ _ (open_read_ends faults path state) (fun _ _ same => same) ?_
    rintro _ _ rfl
    exact quiet_called state
  · rintro _ _ rfl
    have quiet : Quiet state state.called.called :=
      quiet_trans _ _ _ (quiet_called state) (quiet_called state.called)
    apply ends_ensure
    refine ends_bind _ _ _ _ _ _
      (ends_mono _ _ _ _ _ _ (read_bytes_ends faults path (maxBytes + 1) state.called) (fun _ _ same => same) ?_) ?_
    · rintro _ _ rfl
      exact closes _ quiet
    · rintro bytes _ ⟨rfl, whole, found, taken⟩
      by_cases large : maxBytes < bytes.length
      · simp only [if_pos large, raise_bind]
        exact raise_ends _ _ _ _ (closes _ quiet)
      · simp only [if_neg large]
        apply ends_pure
        have all : bytes = whole := by
          rw [taken, List.length_take] at large
          rw [taken, List.take_of_length_le (by omega)]
        refine ends_mono _ _ _ _ _ _ (close_ends faults _) ?_ ?_
        · rintro _ _ rfl
          exact ⟨quiet_trans _ _ _ quiet (quiet_called _), rfl, all ▸ found, by omega⟩
        · rintro _ _ rfl
          exact quiet_trans _ _ _ quiet (quiet_called _)

theorem read_text_ends (path : Path) (state : PatchState) :
    Ends (readTextFile faults path WHOLE_FILE_MAX_BYTES) state
      (fun text after => Quiet state after ∧ after.bomSeen = true ∧ Reads state path text)
      fun _ after => Quiet state after := by
  apply ends_bind _ _ _ _ _ _ (read_whole_ends faults path WHOLE_FILE_MAX_BYTES state)
  rintro bytes after ⟨quiet, same, found, small⟩
  unfold Ends decodeWholeFileUtf8
  cases decoded : decode (content after.bomSeen bytes) with
  | none => exact ⟨quiet.tree, quiet.backups, quiet.results, fun _ => rfl⟩
  | some text => exact ⟨⟨quiet.tree, quiet.backups, quiet.results, fun _ => rfl⟩, rfl, bytes, found, small, same ▸ decoded⟩

-- What a check that passes has seen.
def Checked (state : PatchState) (op : Planned) : Change → Prop
  | .create text => op.action = .add text ∧ state.tree.node op.absolute = none
  | .erase before => op.action = .delete ∧ Reads state op.absolute before
  | .rewrite before after => ∃ hunks, op.action = .update hunks ∧ Reads state op.absolute before ∧
      applyHunks before hunks = .ok after ∧ (encode after).length ≤ WHOLE_FILE_MAX_BYTES

def Change.reads : Change → Bool
  | .create _ => false
  | _ => true

theorem check_ends (op : Planned) (state : PatchState) :
    Ends (checkOperation faults op) state
      (fun change after => Quiet state after ∧ Checked state op change ∧ after.bomSeen = (state.bomSeen || change.reads))
      fun _ after => Quiet state after := by
  obtain ⟨⟨path, action⟩, absolute⟩ := op
  have looked := exists_ends faults absolute state
  cases action with
  | add text =>
      refine ends_bind _ _ _ _ _ _ looked ?_
      rintro found _ ⟨rfl, there⟩
      cases found with
      | true => exact quiet_called state
      | false =>
          have absent : state.tree.node absolute = none := by simpa using there.symm
          exact ⟨quiet_called state, ⟨rfl, absent⟩, by simp [Change.reads, PatchState.called]⟩
  | delete =>
      refine ends_bind _ _ _ _ _ _ looked ?_
      rintro found _ ⟨rfl, _⟩
      cases found with
      | false => exact quiet_called state
      | true =>
          have read := read_text_ends faults absolute state.called
          refine ends_bind _ _ _ _ _ _ (ends_mono _ _ _ _ _ _ read (fun _ _ same => same) ?_) ?_
          · exact fun _ after quiet => quiet_trans _ _ _ (quiet_called state) quiet
          · rintro before after ⟨quiet, seen, reads⟩
            exact ⟨quiet_trans _ _ _ (quiet_called state) quiet, ⟨rfl, reads⟩, by simp [seen, Change.reads]⟩
  | update hunks =>
      refine ends_bind _ _ _ _ _ _ looked ?_
      rintro found _ ⟨rfl, _⟩
      cases found with
      | false => exact quiet_called state
      | true =>
          have read := read_text_ends faults absolute state.called
          refine ends_bind _ _ _ _ _ _ (ends_mono _ _ _ _ _ _ read (fun _ _ same => same) ?_) ?_
          · exact fun _ after quiet => quiet_trans _ _ _ (quiet_called state) quiet
          · rintro before after ⟨quiet, seen, reads⟩
            have whole := quiet_trans _ _ _ (quiet_called state) quiet
            cases applied : applyHunks before hunks with
            | error error => exact whole
            | ok text =>
                by_cases large : WHOLE_FILE_MAX_BYTES < (encode text).length
                · simp only [lift, pure_bind, if_pos large, raise_bind]
                  exact whole
                · simp only [lift, pure_bind, if_neg large]
                  exact ⟨whole, ⟨hunks, rfl, reads, applied, by omega⟩, by simp [seen, Change.reads]⟩

-- The undo log and the decoder are as they were.
structure Kept (state after : PatchState) : Prop where
  backups : after.backups = state.backups
  bomSeen : after.bomSeen = state.bomSeen
  results : after.results = state.results

theorem kept_trans (first middle last : PatchState) (before : Kept first middle) (later : Kept middle last) :
    Kept first last :=
  ⟨later.backups.trans before.backups, later.bomSeen.trans before.bomSeen, later.results.trans before.results⟩

-- Missing directories down to the path may have been made; whatever was there stays.
def Grown (path : Path) (tree after : Tree) : Prop :=
  ∀ other, after.node other = tree.node other ∨
    (tree.node other = none ∧ after.node other = some .directory ∧ other <+: path)

theorem make_grows (tree : Tree) (path made : Path) (free : tree.Free path) (above : made <+: path) :
    Grown path tree (tree.makeDirectories made) := by
  intro other
  rw [FileTree.node_make]
  by_cases within : other <+: made
  · rw [if_pos within]
    have open_ := free other ((List.mem_inits _ _).mpr (within.trans above))
    cases here : tree.node other with
    | none => exact Or.inr ⟨rfl, rfl, within.trans above⟩
    | some node =>
        cases node with
        | file content => exact absurd here (open_ content)
        | directory => exact Or.inl rfl
  · rw [if_neg within]
    exact Or.inl rfl

theorem mkdir_ends (path : Path) (state : PatchState) :
    Ends (mkdir faults path) state
      (fun _ after => Kept state after ∧ Grown path state.tree after.tree ∧ after.tree.node path = some .directory)
      fun _ after => Kept state after ∧ Grown path state.tree after.tree := by
  unfold Ends mkdir
  by_cases free : state.tree.Free path
  · rw [if_pos free]
    cases faults state.calls with
    | none =>
        refine ⟨⟨rfl, rfl, rfl⟩, make_grows state.tree path path free (List.prefix_refl path), ?_⟩
        change (state.tree.makeDirectories path).node path = some .directory
        rw [FileTree.node_make, if_pos (List.prefix_refl path)]
    | some fault =>
        cases fault with
        | refused => exact ⟨⟨rfl, rfl, rfl⟩, fun _ => Or.inl rfl⟩
        | partway made => exact ⟨⟨rfl, rfl, rfl⟩, make_grows state.tree path _ free (List.take_prefix made path)⟩
  · rw [if_neg free]
    exact ⟨⟨rfl, rfl, rfl⟩, fun _ => Or.inl rfl⟩

-- At the path there is a file with these bytes; the rest of the tree stays.
structure Puts (path : Path) (bytes : List UInt8) (state after : PatchState) : Prop where
  kept : Kept state after
  writable : state.tree.Writable path
  here : after.tree.node path = some (.file bytes)
  others : ∀ other, other ≠ path → after.tree.node other = state.tree.node other

theorem puts_write (path : Path) (bytes : List UInt8) (state : PatchState) (writable : state.tree.Writable path) :
    Puts path bytes state { state.called with tree := state.tree.write path bytes writable } where
  kept := ⟨rfl, rfl, rfl⟩
  writable := writable
  here := by
    change (state.tree.write path bytes writable).node path = _
    rw [FileTree.node_write, if_pos rfl]
  others := by
    intro other apart
    change (state.tree.write path bytes writable).node other = _
    rw [FileTree.node_write, if_neg apart]

theorem puts_puts (path : Path) (first later : List UInt8) (state middle after : PatchState)
    (before : Puts path first state middle) (again : Puts path later middle after) : Puts path later state after where
  kept := kept_trans _ _ _ before.kept again.kept
  writable := before.writable
  here := again.here
  others := fun other apart => (again.others other apart).trans (before.others other apart)

theorem puts_called (path : Path) (bytes : List UInt8) (state after : PatchState) (puts : Puts path bytes state after) :
    Puts path bytes state after.called := ⟨⟨puts.kept.backups, puts.kept.bomSeen, puts.kept.results⟩, puts.writable, puts.here, puts.others⟩

-- A write that fails has left the tree alone or some file at the path.
def Spoils (path : Path) (state after : PatchState) : Prop :=
  (Kept state after ∧ after.tree = state.tree) ∨ ∃ bytes, Puts path bytes state after

theorem open_write_ends (path : Path) (state : PatchState) :
    Ends (openWrite faults path) state (fun _ after => Puts path [] state after) fun _ after => Spoils path state after := by
  unfold Ends openWrite
  by_cases writable : state.tree.Writable path
  · rw [dif_pos writable]
    cases faults state.calls with
    | none => exact puts_write path [] state writable
    | some fault =>
        cases fault with
        | refused => exact Or.inl ⟨⟨rfl, rfl, rfl⟩, rfl⟩
        | partway done => exact Or.inr ⟨[], puts_write path [] state writable⟩
  · rw [dif_neg writable]
    exact Or.inl ⟨⟨rfl, rfl, rfl⟩, rfl⟩

theorem write_bytes_ends (path : Path) (bytes : List UInt8) (state : PatchState) :
    Ends (writeBytes faults path bytes) state (fun _ after => Puts path bytes state after)
      fun _ after => Spoils path state after := by
  unfold Ends writeBytes
  by_cases writable : state.tree.Writable path
  · rw [dif_pos writable]
    cases faults state.calls with
    | none => exact puts_write path bytes state writable
    | some fault =>
        cases fault with
        | refused => exact Or.inl ⟨⟨rfl, rfl, rfl⟩, rfl⟩
        | partway done => exact Or.inr ⟨_, puts_write path (bytes.take done) state writable⟩
  · rw [dif_neg writable]
    exact Or.inl ⟨⟨rfl, rfl, rfl⟩, rfl⟩

theorem write_text_ends (path : Path) (text : Units) (state : PatchState) :
    Ends (writeTextFile faults path text) state (fun _ after => Puts path (encode text) state after)
      fun _ after => Spoils path state after := by
  refine ends_bind _ _ _ _ _ _ (open_write_ends faults path state) ?_
  intro _ opened truncated
  apply ends_ensure
  have closes : ∀ bytes after, Puts path bytes opened after →
      Ends (close faults) after (fun _ last => Puts path bytes state last) fun _ last => Puts path bytes state last := by
    intro bytes after puts
    have whole := puts_called path bytes state after (puts_puts path _ _ _ _ _ truncated puts)
    refine ends_mono _ _ _ _ _ _ (close_ends faults after) ?_ ?_ <;> rintro _ _ rfl <;> exact whole
  refine ends_mono _ _ _ _ _ _ (write_bytes_ends faults path (encode text) opened) ?_ ?_
  · intro _ after puts
    exact ends_mono _ _ _ _ _ _ (closes _ after puts) (fun _ _ here => here) fun _ _ here => Or.inr ⟨_, here⟩
  · rintro _ after (⟨kept, same⟩ | ⟨bytes, puts⟩)
    · have still : Puts path [] state after.called :=
        ⟨kept_trans _ _ _ truncated.kept ⟨kept.backups, kept.bomSeen, kept.results⟩, truncated.writable,
          by rw [PatchState.called, same]; exact truncated.here,
          fun other apart => by rw [PatchState.called, same]; exact truncated.others other apart⟩
      refine ends_mono _ _ _ _ _ _ (close_ends faults after) ?_ ?_ <;> rintro _ _ rfl <;> exact Or.inr ⟨[], still⟩
    · refine ends_mono _ _ _ _ _ _ (closes bytes after puts) ?_ ?_ <;> exact fun _ _ here => Or.inr ⟨bytes, here⟩

-- The node at the path is gone unless it was a directory; the rest of the tree stays.
structure Drops (path : Path) (state after : PatchState) : Prop where
  kept : Kept state after
  here : state.tree.node path ≠ some .directory → after.tree.node path = none
  others : ∀ other, other ≠ path → after.tree.node other = state.tree.node other

theorem removed_drops (tree after : Tree) (path : Path) (gone : removed tree path = some after) :
    (tree.node path ≠ some .directory → after.node path = none) ∧
      ∀ other, other ≠ path → after.node other = tree.node other := by
  rw [removed] at gone
  split at gone
  · rename_i absent
    cases gone
    exact ⟨fun _ => absent, fun _ _ => rfl⟩
  · cases gone
    refine ⟨fun _ => ?_, fun other apart => ?_⟩
    · rw [FileTree.node_remove, if_pos rfl]
    · rw [FileTree.node_remove, if_neg apart]
  · rename_i directory
    split at gone
    · cases gone
      refine ⟨fun differs => absurd directory differs, fun other apart => ?_⟩
      rw [FileTree.node_remove, if_neg apart]
    · cases gone

theorem remove_ends (path : Path) (state : PatchState) :
    Ends (remove faults path) state (fun _ after => Drops path state after)
      fun _ after => Kept state after ∧ after.tree = state.tree := by
  unfold Ends remove
  cases faults state.calls with
  | some fault => exact ⟨⟨rfl, rfl, rfl⟩, rfl⟩
  | none =>
      cases gone : removed state.tree path with
      | none => exact ⟨⟨rfl, rfl, rfl⟩, rfl⟩
      | some tree =>
          obtain ⟨here, others⟩ := removed_drops state.tree tree path gone
          exact ⟨⟨rfl, rfl, rfl⟩, here, others⟩

end specs

section effects

variable (faults : Nat → Option Fault)

-- The rest of the tree stays, but for directories made above the path where there was nothing.
def Around (path : Path) (tree after : Tree) : Prop :=
  ∀ other, other ≠ path → after.node other = tree.node other ∨
    (tree.node other = none ∧ after.node other = some .directory ∧ other <+: path)

structure Altered (path : Path) (state after : PatchState) : Prop where
  bomSeen : after.bomSeen = state.bomSeen
  others : Around path state.tree after.tree

theorem around_directory (path : Path) (tree after : Tree) (around : Around path tree after)
    (target : tree.node path ≠ some .directory) (other : Path) (directory : tree.node other = some .directory) :
    after.node other = some .directory := by
  have apart : other ≠ path := by
    rintro rfl
    exact target directory
  rcases around other apart with still | ⟨absent, _, _⟩
  · rw [still, directory]
  · rw [absent] at directory
    cases directory

theorem around_file (path : Path) (tree after : Tree) (around : Around path tree after) (other : Path) (apart : other ≠ path)
    (bytes : List UInt8) (file : tree.node other = some (.file bytes)) : after.node other = some (.file bytes) := by
  rcases around other apart with still | ⟨absent, _, _⟩
  · rw [still, file]
  · rw [absent] at file
    cases file

theorem puts_altered (path : Path) (bytes : List UInt8) (state after : PatchState) (puts : Puts path bytes state after) :
    Altered path state after := ⟨puts.kept.bomSeen, fun other apart => Or.inl (puts.others other apart)⟩

theorem grown_around (path : Path) (tree after : Tree) (grown : Grown path.dropLast tree after) : Around path tree after := by
  intro other _
  rcases grown other with still | ⟨absent, made, above⟩
  · exact Or.inl still
  · exact Or.inr ⟨absent, made, above.trans (List.dropLast_prefix path)⟩

theorem grown_altered (path : Path) (state middle after : PatchState) (same : middle.bomSeen = state.bomSeen)
    (grown : Around path state.tree middle.tree) (altered : Altered path middle after) : Altered path state after := by
  refine ⟨altered.bomSeen.trans same, fun other apart => ?_⟩
  rcases altered.others other apart with still | ⟨absent, made, above⟩
  · rcases grown other apart with before | ⟨missing, made, above⟩
    · exact Or.inl (still.trans before)
    · exact Or.inr ⟨missing, still.trans made, above⟩
  · rcases grown other apart with before | ⟨missing, directory, _⟩
    · exact Or.inr ⟨before ▸ absent, made, above⟩
    · rw [absent] at directory
      cases directory

def PatchState.logged (state : PatchState) (path : Path) (text : Option Units) : PatchState :=
  { state with backups := setBackup state.backups path text }

theorem back_up_ends (path : Path) (text : Option Units) (state : PatchState) (thrown : Thrown → PatchState → Prop) :
    Ends (backUp path text) state (fun _ after => after = state.logged path text) thrown := rfl

theorem create_ends (path : Path) (text : Units) (result : FileResult) (state : PatchState) :
    Ends (do makeChange faults path (.create text); pushResult result) state
      (fun _ after => Altered path state after ∧ after.backups = setBackup state.backups path none ∧ path ≠ [] ∧
        after.tree.node path.dropLast = some .directory ∧ ∃ bytes, after.tree.node path = some (.file bytes))
      fun _ after => Altered path state after ∧ after.backups = state.backups := by
  simp only [makeChange, bind_assoc]
  refine ends_bind _ _ _ _ _ _ (ends_mono _ _ _ _ _ _ (mkdir_ends faults path.dropLast state) (fun _ _ here => here) ?_) ?_
  · rintro _ after ⟨kept, grown⟩
    exact ⟨⟨kept.bomSeen, grown_around path _ _ grown⟩, kept.backups⟩
  · rintro _ middle ⟨kept, made, parent⟩
    have grown := grown_around path _ _ made
    refine ends_bind _ _ _ _ _ _ (ends_mono _ _ _ _ _ _ (write_text_ends faults path text middle) (fun _ _ here => here) ?_) ?_
    · rintro _ after (⟨still, same⟩ | ⟨bytes, puts⟩)
      · refine ⟨⟨still.bomSeen.trans kept.bomSeen, ?_⟩, still.backups.trans kept.backups⟩
        rw [same]
        exact grown
      · exact ⟨grown_altered path _ _ _ kept.bomSeen grown (puts_altered path bytes _ _ puts),
          puts.kept.backups.trans kept.backups⟩
    · intro _ after puts
      have altered := grown_altered path _ _ _ kept.bomSeen grown (puts_altered path _ _ _ puts)
      have logged : after.backups = state.backups := puts.kept.backups.trans kept.backups
      have nonroot := puts.writable.1
      have apart : path.dropLast ≠ path := by
        intro same
        have shorter := congrArg List.length same
        rw [List.length_dropLast] at shorter
        have positive := List.length_pos_iff.mpr nonroot
        omega
      refine ⟨⟨altered.bomSeen, altered.others⟩, congrArg (setBackup · path none) logged, nonroot, ?_, _, puts.here⟩
      exact (puts.others path.dropLast apart).trans parent

theorem erase_ends (path : Path) (before : Units) (result : FileResult) (state : PatchState) :
    Ends (do makeChange faults path (.erase before); pushResult result) state
      (fun _ after => Altered path state after ∧ after.backups = setBackup state.backups path (some before))
      fun _ after => Altered path state after ∧ after.backups = setBackup state.backups path (some before) := by
  simp only [makeChange, bind_assoc]
  refine ends_bind _ _ _ _ _ _ (back_up_ends path (some before) state _) ?_
  rintro _ _ rfl
  refine ends_bind _ _ _ _ _ _ (ends_mono _ _ _ _ _ _ (remove_ends faults path _) (fun _ _ here => here) ?_) ?_
  · rintro _ after ⟨kept, same⟩
    exact ⟨⟨kept.bomSeen, fun other _ => Or.inl (congrArg (FileTree.node · other) same)⟩, kept.backups⟩
  · intro _ after drops
    exact ⟨⟨drops.kept.bomSeen, fun other apart => Or.inl (drops.others other apart)⟩, drops.kept.backups⟩

theorem rewrite_ends (path : Path) (before text : Units) (result : FileResult) (state : PatchState) :
    Ends (do makeChange faults path (.rewrite before text); pushResult result) state
      (fun _ after => Altered path state after ∧ after.backups = setBackup state.backups path (some before))
      fun _ after => Altered path state after ∧ after.backups = setBackup state.backups path (some before) := by
  simp only [makeChange, bind_assoc]
  refine ends_bind _ _ _ _ _ _ (back_up_ends path (some before) state _) ?_
  rintro _ _ rfl
  refine ends_bind _ _ _ _ _ _ (ends_mono _ _ _ _ _ _ (write_text_ends faults path text _) (fun _ _ here => here) ?_) ?_
  · rintro _ after (⟨kept, same⟩ | ⟨bytes, puts⟩)
    · exact ⟨⟨kept.bomSeen, fun other _ => Or.inl (congrArg (FileTree.node · other) same)⟩, kept.backups⟩
    · exact ⟨⟨puts.kept.bomSeen, fun other apart => Or.inl (puts.others other apart)⟩, puts.kept.backups⟩
  · intro _ after puts
    exact ⟨⟨puts.kept.bomSeen, fun other apart => Or.inl (puts.others other apart)⟩, puts.kept.backups⟩

end effects

section fault_free

theorem file_parent (tree : Tree) (path : Path) (bytes : List UInt8) (file : tree.node path = some (.file bytes)) :
    path ≠ [] ∧ tree.node path.dropLast = some .directory := by
  have nonroot : path ≠ [] := by
    rintro rfl
    rw [FileTree.node, tree.root] at file
    cases file
  refine ⟨nonroot, tree.above_directory path.dropLast [path.getLast nonroot] (.file bytes) ?_ (by simp)⟩
  rw [List.dropLast_append_getLast]
  exact file

def noFaults : Nat → Option Fault := fun _ => none

theorem puts_writable (path : Path) (bytes : List UInt8) (state after : PatchState) (puts : Puts path bytes state after) :
    after.tree.Writable path := by
  obtain ⟨nonroot, parent⟩ := file_parent after.tree path bytes puts.here
  refine ⟨nonroot, parent, ?_⟩
  rw [puts.here]
  exact fun directory => by cases directory

theorem write_text_done (path : Path) (text : Units) (state : PatchState) (writable : state.tree.Writable path) :
    ∃ after, writeTextFile noFaults path text state = .ok () after ∧ Puts path (encode text) state after := by
  have opened : openWrite noFaults path state =
      .ok () { state.called with tree := state.tree.write path [] writable } := by
    rw [openWrite, dif_pos writable]
    rfl
  have truncated := puts_write path [] state writable
  have again := puts_writable path [] _ _ truncated
  have written := puts_write path (encode text) _ again
  refine ⟨_, ?_, puts_called _ _ _ _ (puts_puts path _ _ _ _ _ truncated written)⟩
  rw [writeTextFile, bind_done _ _ _ _ _ opened, ensure, writeBytes, dif_pos again]
  rfl

theorem write_text_refused (path : Path) (text : Units) (state : PatchState) (refused : ¬ state.tree.Writable path) :
    writeTextFile noFaults path text state = .error (.native "open") state.called := by
  have opened : openWrite noFaults path state = .error (.native "open") state.called := by
    rw [openWrite, dif_neg refused]
  rw [writeTextFile, bind_thrown _ _ _ _ _ opened]

theorem remove_file (path : Path) (state : PatchState) (bytes : List UInt8)
    (file : state.tree.node path = some (.file bytes)) :
    ∃ after, remove noFaults path state = .ok () after ∧ Kept state after ∧ after.tree.node path = none ∧
      ∀ other, other ≠ path → after.tree.node other = state.tree.node other := by
  cases gone : removed state.tree path with
  | none =>
      rw [removed] at gone
      split at gone
      · cases gone
      · cases gone
      · rename_i directory
        rw [directory] at file
        cases file
  | some tree =>
      obtain ⟨here, others⟩ := removed_drops state.tree tree path gone
      refine ⟨{ state.called with tree := tree }, ?_, ⟨rfl, rfl, rfl⟩, here ?_, others⟩
      · rw [remove, gone]
        rfl
      · rw [file]
        exact fun directory => by cases directory

end fault_free

section processes

def inWorkspace (name : String) : Path := [units "tmp", units name]

def withFile (tree : Tree) (file : String × List UInt8) : Tree :=
  if writable : tree.Writable (inWorkspace file.1) then tree.write (inWorkspace file.1) file.2 writable else tree

-- A process that has decoded nothing yet, with these files in /tmp.
def freshWith (files : List (String × List UInt8)) : PatchState :=
  ⟨files.foldl withFile (FileTree.bare.makeDirectories [units "tmp"]), false, 0, [], []⟩

def patching (text : String) : ApplyPatchInput := ⟨units text, none, none, none⟩

def plannedBy (input : ApplyPatchInput) : List Planned :=
  match plan input with
  | .ok planned => planned
  | .error _ => []

def one : List UInt8 := [111, 110, 101, 10]

end processes

end Vacps.Files
