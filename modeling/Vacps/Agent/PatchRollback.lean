import Vacps.Agent.PatchSteps

/- The undo log of applyPatch against the tree the patch found, over any list of operations and any faults. -/
set_option autoImplicit false

namespace Vacps.Files

open Library Library.Utf16

section log

variable (sha256Hex : Units → String) (faults : Nat → Option Fault)

-- An operation with the state it ran in.
abbrev Entry : Type := Planned × PatchState

-- The operations the loop gets to.
def reached : List Planned → PatchState → List Entry
  | [], _ => []
  | op :: rest, state =>
      (op, state) ::
        match applyOperation sha256Hex faults false op state with
        | .ok _ after => reached rest after
        | .error _ _ => []

-- A delete or update backs its target up once its checks have passed, an add when it has ended well.
def backsUp (entry : Entry) : Bool :=
  match checkOperation faults entry.1 entry.2 with
  | .error _ _ => false
  | .ok (.create _) _ =>
      match applyOperation sha256Hex faults false entry.1 entry.2 with
      | .ok _ _ => true
      | .error _ _ => false
  | .ok _ _ => true

def lastBackup (path : Path) (log : List Entry) : Option Entry :=
  (log.filter fun entry => decide (entry.1.absolute = path) && backsUp sha256Hex faults entry).getLast?

theorem last_backup_concat (path : Path) (log : List Entry) (entry : Entry) :
    lastBackup sha256Hex faults path (log ++ [entry]) =
      if entry.1.absolute = path ∧ backsUp sha256Hex faults entry = true then some entry
      else lastBackup sha256Hex faults path log := by
  rw [lastBackup, List.filter_append]
  by_cases taken : entry.1.absolute = path ∧ backsUp sha256Hex faults entry = true
  · rw [if_pos taken, List.filter_cons_of_pos (by simpa using taken), List.filter_nil, List.getLast?_concat]
  · rw [if_neg taken, List.filter_cons_of_neg (by simpa using taken), List.filter_nil, List.append_nil]
    rfl

theorem last_backup_mem (path : Path) (log : List Entry) (entry : Entry)
    (last : lastBackup sha256Hex faults path log = some entry) :
    entry ∈ log ∧ entry.1.absolute = path ∧ backsUp sha256Hex faults entry = true := by
  have member := List.mem_filter.mp (List.mem_of_getLast? last)
  exact ⟨member.1, by simpa using member.2⟩

-- What the undo log is to hold for a path backed up in the state.
def backedValue (state : PatchState) (path : Path) : Option (Option Units) :=
  match state.tree.node path with
  | none => some none
  | some (.file bytes) => (decode (content state.bomSeen bytes)).map some
  | some .directory => none

theorem reads_value (state : PatchState) (path : Path) (text : Units) (reads : Reads state path text) :
    backedValue state path = some (some text) := by
  obtain ⟨bytes, found, _, decoded⟩ := reads
  rw [backedValue, found]
  exact congrArg (Option.map some) decoded

theorem absent_value (state : PatchState) (path : Path) (absent : state.tree.node path = none) :
    backedValue state path = some none := by
  rw [backedValue, absent]

-- What no operation undoes: directories stay, and so do the files found until the decoder is first used.
structure Sane (before state : PatchState) : Prop where
  directories : ∀ path, before.tree.node path = some .directory → state.tree.node path = some .directory
  fresh : state.bomSeen = false → ∀ path bytes, before.tree.node path = some (.file bytes) →
    state.tree.node path = some (.file bytes)

structure Logged (before : PatchState) (log : List Entry) (state : PatchState) : Prop where
  backups : ∀ path, state.backups.lookup path =
    (lastBackup sha256Hex faults path log).bind fun entry => backedValue entry.2 path
  keys : (state.backups.map Prod.fst).Nodup
  parents : ∀ path text, state.backups.lookup path = some text → path ≠ [] ∧ state.tree.node path.dropLast = some .directory
  added : ∀ path, state.backups.lookup path = some none → ∃ bytes, state.tree.node path = some (.file bytes)
  sane : Sane before state
  entries : ∀ entry ∈ log, Sane before entry.2

theorem lookup_map_set (backups : List (Path × Option Units)) (path other : Path) (text : Option Units) :
    (backups.map fun backup => if backup.1 = path then (path, text) else backup).lookup other =
      if other = path ∧ (backups.lookup path).isSome then some text else backups.lookup other := by
  induction backups with
  | nil => simp
  | cons backup rest ih =>
      obtain ⟨here, held⟩ := backup
      rw [List.map_cons]
      by_cases same : here = path
      · subst same
        rw [if_pos rfl, List.lookup_cons, List.lookup_cons, List.lookup_cons]
        by_cases found : other = here
        · simp [found]
        · have differs : (other == here) = false := by simpa using found
          rw [differs]
          simp only [ih]
          simp [found]
      · rw [if_neg same, List.lookup_cons, List.lookup_cons, List.lookup_cons]
        have apart : (path == here) = false := by simpa using fun eq : path = here => same eq.symm
        rw [apart]
        by_cases found : other = here
        · have elsewhere : other ≠ path := fun eq => same (found.symm.trans eq)
          simp [found, same]
        · have differs : (other == here) = false := by simpa using found
          rw [differs]
          exact ih

theorem lookup_set (backups : List (Path × Option Units)) (path other : Path) (text : Option Units) :
    (setBackup backups path text).lookup other = if other = path then some text else backups.lookup other := by
  rw [setBackup]
  by_cases held : (backups.lookup path).isSome = true
  · rw [if_pos held, lookup_map_set]
    simp [held]
  · rw [if_neg held, List.lookup_append, List.lookup_cons]
    by_cases same : other = path
    · have absent : backups.lookup path = none := Option.not_isSome_iff_eq_none.mp held
      simp [same, absent]
    · have differs : (other == path) = false := by simpa using same
      simp [differs, same]

theorem keys_set (backups : List (Path × Option Units)) (path : Path) (text : Option Units)
    (keys : (backups.map Prod.fst).Nodup) : ((setBackup backups path text).map Prod.fst).Nodup := by
  rw [setBackup]
  by_cases held : (backups.lookup path).isSome = true
  · rw [if_pos held, List.map_map]
    have same : (Prod.fst ∘ fun backup : Path × Option Units => if backup.1 = path then (path, text) else backup) = Prod.fst := by
      funext backup
      by_cases here : backup.1 = path <;> simp [here]
    rw [same]
    exact keys
  · rw [if_neg held, List.map_append, List.nodup_append]
    refine ⟨keys, by simp, ?_⟩
    intro other member last there same
    cases List.mem_singleton.mp there
    have absent : backups.lookup path = none := Option.not_isSome_iff_eq_none.mp held
    obtain ⟨backup, stored, key⟩ := List.mem_map.mp member
    have apart := List.lookup_eq_none_iff.mp absent backup stored
    rw [bne_iff_ne] at apart
    exact apart (same ▸ key).symm

end log

section steps

variable (sha256Hex : Units → String) (faults : Nat → Option Fault) (before : PatchState) (log : List Entry)
  (op : Planned) (state after : PatchState)

-- An operation that leaves the undo log alone and its target too, unless that was missing.
theorem logged_quiet (logged : Logged sha256Hex faults before log state)
    (skipped : backsUp sha256Hex faults (op, state) = false) (same : after.backups = state.backups)
    (decoder : after.bomSeen = false → state.bomSeen = false)
    (directories : ∀ path, state.tree.node path = some .directory → after.tree.node path = some .directory)
    (files : ∀ path bytes, state.tree.node path = some (.file bytes) → after.tree.node path = some (.file bytes)) :
    Logged sha256Hex faults before (log ++ [(op, state)]) after where
  backups := by
    intro path
    rw [same, logged.backups, last_backup_concat, if_neg]
    exact fun taken => absurd taken.2 (by simp [skipped])
  keys := by
    rw [same]
    exact logged.keys
  parents := by
    intro path text held
    rw [same] at held
    obtain ⟨nonroot, parent⟩ := logged.parents path text held
    exact ⟨nonroot, directories _ parent⟩
  added := by
    intro path held
    rw [same] at held
    obtain ⟨bytes, file⟩ := logged.added path held
    exact ⟨bytes, files path bytes file⟩
  sane := ⟨fun path found => directories path (logged.sane.directories path found),
    fun unseen path bytes found => files path bytes (logged.sane.fresh (decoder unseen) path bytes found)⟩
  entries := by
    intro entry member
    rcases List.mem_append.mp member with earlier | here
    · exact logged.entries entry earlier
    · rw [List.mem_singleton.mp here]
      exact logged.sane

theorem logged_backed (logged : Logged sha256Hex faults before log state)
    (taken : backsUp sha256Hex faults (op, state) = true) (text : Option Units)
    (value : backedValue state op.absolute = some text)
    (same : after.backups = setBackup state.backups op.absolute text)
    (around : Around op.absolute state.tree after.tree)
    (parent : op.absolute ≠ [] ∧ after.tree.node op.absolute.dropLast = some .directory)
    (added : text = none → ∃ bytes, after.tree.node op.absolute = some (.file bytes))
    (decoder : after.bomSeen = false → state.bomSeen = false ∧ state.tree.node op.absolute = none) :
    Logged sha256Hex faults before (log ++ [(op, state)]) after := by
  have target : state.tree.node op.absolute ≠ some .directory := by
    intro directory
    rw [backedValue, directory] at value
    cases value
  have directories := around_directory op.absolute state.tree after.tree around target
  refine ⟨?_, ?_, ?_, ?_, ⟨?_, ?_⟩, ?_⟩
  · intro path
    rw [same, lookup_set, last_backup_concat]
    by_cases here : path = op.absolute
    · subst here
      rw [if_pos rfl, if_pos ⟨rfl, taken⟩]
      exact value.symm
    · rw [if_neg here, if_neg fun both => here both.1.symm]
      exact logged.backups path
  · rw [same]
    exact keys_set _ _ _ logged.keys
  · intro path held found
    rw [same, lookup_set] at found
    by_cases here : path = op.absolute
    · rw [here]
      exact parent
    · rw [if_neg here] at found
      obtain ⟨nonroot, above⟩ := logged.parents path held found
      exact ⟨nonroot, directories _ above⟩
  · intro path found
    rw [same, lookup_set] at found
    by_cases here : path = op.absolute
    · rw [if_pos here] at found
      rw [here]
      exact added (Option.some.inj found)
    · rw [if_neg here] at found
      obtain ⟨bytes, file⟩ := logged.added path found
      exact ⟨bytes, around_file _ _ _ around path here bytes file⟩
  · exact fun path found => directories path (logged.sane.directories path found)
  · intro unseen path bytes found
    obtain ⟨fresh, absent⟩ := decoder unseen
    have file := logged.sane.fresh fresh path bytes found
    refine around_file _ _ _ around path ?_ bytes file
    rintro rfl
    rw [absent] at file
    cases file
  · intro entry member
    rcases List.mem_append.mp member with earlier | here
    · exact logged.entries entry earlier
    · rw [List.mem_singleton.mp here]
      exact logged.sane

end steps

section loop

variable (sha256Hex : Units → String) (faults : Nat → Option Fault)

-- A delete or an update past its checks.
theorem logged_read (before : PatchState) (log : List Entry) (op : Planned) (state middle after : PatchState)
    (logged : Logged sha256Hex faults before log state) (taken : backsUp sha256Hex faults (op, state) = true) (text : Units)
    (reads : Reads state op.absolute text) (quiet : Quiet state middle) (seen : middle.bomSeen = true)
    (altered : Altered op.absolute middle after)
    (same : after.backups = setBackup middle.backups op.absolute (some text)) :
    Logged sha256Hex faults before (log ++ [(op, state)]) after := by
  have around : Around op.absolute state.tree after.tree := quiet.tree ▸ altered.others
  obtain ⟨bytes, file, _⟩ := id reads
  obtain ⟨nonroot, parent⟩ := file_parent state.tree op.absolute bytes file
  apply logged_backed sha256Hex faults before log op state after logged taken (some text)
  · exact reads_value state op.absolute text reads
  · rw [same, quiet.backups]
  · exact around
  · refine ⟨nonroot, around_directory op.absolute state.tree after.tree around ?_ _ parent⟩
    rw [file]
    exact fun directory => by cases directory
  · exact fun absent => by cases absent
  · intro unseen
    rw [altered.bomSeen, seen] at unseen
    cases unseen

-- One operation, whether it ends well or throws.
theorem step_logged (before : PatchState) (log : List Entry) (op : Planned) (state : PatchState)
    (logged : Logged sha256Hex faults before log state) :
    Ends (applyOperation sha256Hex faults false op) state
      (fun _ after => Logged sha256Hex faults before (log ++ [(op, state)]) after)
      fun _ after => Logged sha256Hex faults before (log ++ [(op, state)]) after := by
  have seen := check_ends faults op state
  unfold Ends at seen
  have whole := apply_operation_eq sha256Hex faults false op
  cases checked : checkOperation faults op state with
  | error error after =>
      rw [checked] at seen
      have threw : applyOperation sha256Hex faults false op state = .error error after := by
        rw [whole]
        exact bind_thrown _ _ _ _ _ checked
      unfold Ends
      rw [threw]
      apply logged_quiet sha256Hex faults before log op state after logged
      · rw [backsUp, checked]
      · exact seen.backups
      · exact fun unseen => Bool.eq_false_iff.mpr fun before_ => Bool.eq_false_iff.mp unseen (seen.decoder before_)
      · intro path found
        rw [seen.tree, found]
      · intro path bytes found
        rw [seen.tree, found]
  | ok change middle =>
      rw [checked] at seen
      obtain ⟨quiet, passed, decoder⟩ := seen
      have runs : applyOperation sha256Hex faults false op state =
          (do makeChange faults op.absolute change; pushResult (change.report sha256Hex op.path false)) middle := by
        rw [whole]
        exact bind_done _ _ _ _ _ checked
      cases change with
      | create text =>
          have ends := create_ends faults op.absolute text (Change.report sha256Hex op.path false (.create text)) middle
          unfold Ends at ends ⊢
          rw [runs]
          cases outcome : (do
            makeChange faults op.absolute (.create text)
            pushResult (Change.report sha256Hex op.path false (.create text))) middle with
          | ok value after =>
              rw [outcome] at ends
              obtain ⟨altered, same, nonroot, parent, file⟩ := ends
              have taken : backsUp sha256Hex faults (op, state) = true := by
                rw [backsUp, checked]
                simp only [runs, outcome]
              apply logged_backed sha256Hex faults before log op state after logged taken none
              · exact absent_value state op.absolute passed.2
              · rw [same, quiet.backups]
              · rw [← quiet.tree]
                exact altered.others
              · exact ⟨nonroot, parent⟩
              · exact fun _ => file
              · intro unseen
                rw [altered.bomSeen, decoder] at unseen
                exact ⟨(Bool.or_eq_false_iff.mp unseen).1, passed.2⟩
          | error error after =>
              rw [outcome] at ends
              obtain ⟨altered, same⟩ := ends
              have around : Around op.absolute state.tree after.tree := quiet.tree ▸ altered.others
              have target : state.tree.node op.absolute ≠ some .directory := by
                rw [passed.2]
                exact fun directory => by cases directory
              apply logged_quiet sha256Hex faults before log op state after logged
              · rw [backsUp, checked]
                simp only [runs, outcome]
              · rw [same, quiet.backups]
              · intro unseen
                rw [altered.bomSeen, decoder] at unseen
                exact (Bool.or_eq_false_iff.mp unseen).1
              · exact around_directory op.absolute state.tree after.tree around target
              · intro path bytes file
                refine around_file op.absolute state.tree after.tree around path ?_ bytes file
                rintro rfl
                rw [passed.2] at file
                cases file
      | erase held =>
          have ends := erase_ends faults op.absolute held (Change.report sha256Hex op.path false (.erase held)) middle
          have taken : backsUp sha256Hex faults (op, state) = true := by rw [backsUp, checked]
          unfold Ends
          rw [runs]
          refine ends_mono _ _ _ _ _ _ ends ?_ ?_ <;> rintro _ after ⟨altered, same⟩ <;>
            exact logged_read sha256Hex faults before log op state middle after logged taken held passed.2 quiet
              (by rw [decoder]; simp [Change.reads]) altered same
      | rewrite held text =>
          have ends := rewrite_ends faults op.absolute held text (Change.report sha256Hex op.path false (.rewrite held text)) middle
          have taken : backsUp sha256Hex faults (op, state) = true := by rw [backsUp, checked]
          obtain ⟨_, _, reads, _⟩ := passed
          unfold Ends
          rw [runs]
          refine ends_mono _ _ _ _ _ _ ends ?_ ?_ <;> rintro _ after ⟨altered, same⟩ <;>
            exact logged_read sha256Hex faults before log op state middle after logged taken held reads quiet
              (by rw [decoder]; simp [Change.reads]) altered same

theorem loop_logged (before : PatchState) (ops : List Planned) (log : List Entry) (state : PatchState)
    (logged : Logged sha256Hex faults before log state) :
    Ends (applyOperations sha256Hex faults false ops) state (fun _ _ => True)
      fun _ after => Logged sha256Hex faults before (log ++ reached sha256Hex faults ops state) after := by
  induction ops generalizing log state with
  | nil => exact trivial
  | cons op rest ih =>
      have step := step_logged sha256Hex faults before log op state logged
      unfold Ends at step ⊢
      rw [applyOperations, reached]
      cases outcome : applyOperation sha256Hex faults false op state with
      | error error after =>
          rw [outcome] at step
          rw [bind_thrown _ _ _ _ _ outcome]
          exact step
      | ok value after =>
          rw [outcome] at step
          rw [bind_done _ _ _ _ _ outcome]
          have later := ih (log ++ [(op, state)]) after step
          rw [List.append_assoc, List.singleton_append] at later
          exact later

end loop

section undoing

-- What the rollback makes of a path: what its undo log holds, unless the path is a directory by now.
def undone (held : Option (Option Units)) (node : Option (Node (List UInt8))) : Option (Node (List UInt8)) :=
  match held, node with
  | none, node => node
  | some none, _ => none
  | some (some _), some .directory => some .directory
  | some (some text), _ => some (.file (encode text))

structure Undoable (backups : List (Path × Option Units)) (state : PatchState) : Prop where
  keys : (backups.map Prod.fst).Nodup
  parents : ∀ backup ∈ backups, backup.1 ≠ [] ∧ state.tree.node backup.1.dropLast = some .directory
  added : ∀ backup ∈ backups, backup.2 = none → ∃ bytes, state.tree.node backup.1 = some (.file bytes)

theorem undo_run (backup : Path × Option Units) (rest : List (Path × Option Units)) (state : PatchState)
    (undoable : Undoable (backup :: rest) state) :
    ∃ after, rollback noFaults (backup :: rest) state = rollback noFaults rest after ∧
      after.tree.node backup.1 = undone (some backup.2) (state.tree.node backup.1) ∧
      ∀ other, other ≠ backup.1 → after.tree.node other = state.tree.node other := by
  obtain ⟨path, held⟩ := backup
  cases held with
  | none =>
      obtain ⟨bytes, file⟩ := undoable.added _ List.mem_cons_self rfl
      obtain ⟨after, ran, _, here, others⟩ := remove_file path state bytes file
      have step : undo noFaults (path, none) state = .ok () after := ran
      refine ⟨after, ?_, here, others⟩
      rw [rollback, step]
  | some text =>
      obtain ⟨nonroot, parent⟩ := undoable.parents _ List.mem_cons_self
      by_cases directory : state.tree.node path = some .directory
      · have refused : ¬ state.tree.Writable path := fun writable => writable.2.2 directory
        have step : undo noFaults (path, some text) state = .error (.native "open") state.called :=
          write_text_refused path text state refused
        refine ⟨state.called, ?_, ?_, fun _ _ => rfl⟩
        · rw [rollback, step]
        · dsimp only
          rw [directory]
          exact directory
      · obtain ⟨after, ran, puts⟩ := write_text_done path text state ⟨nonroot, parent, directory⟩
        have step : undo noFaults (path, some text) state = .ok () after := ran
        refine ⟨after, ?_, ?_, puts.others⟩
        · rw [rollback, step]
        · rw [puts.here]
          cases here : state.tree.node path with
          | none => rfl
          | some node =>
              cases node with
              | file bytes => rfl
              | directory => exact absurd here directory

theorem rollback_nodes (backups : List (Path × Option Units)) (state : PatchState) (undoable : Undoable backups state)
    (path : Path) :
    (rollback noFaults backups state).tree.node path = undone (backups.lookup path) (state.tree.node path) := by
  induction backups generalizing state with
  | nil => rfl
  | cons backup rest ih =>
      obtain ⟨after, ran, here, others⟩ := undo_run backup rest state undoable
      obtain ⟨fresh, keys⟩ := List.nodup_cons.mp undoable.keys
      have apart : ∀ other ∈ rest, other.1 ≠ backup.1 := fun other member same =>
        fresh (same ▸ List.mem_map_of_mem member)
      have later : Undoable rest after := by
        refine ⟨keys, ?_, ?_⟩
        · intro other member
          obtain ⟨nonroot, parent⟩ := undoable.parents other (List.mem_cons_of_mem _ member)
          refine ⟨nonroot, ?_⟩
          by_cases same : other.1.dropLast = backup.1
          · rw [same] at parent
            rw [same, here, parent]
            cases held : backup.2 with
            | none =>
                obtain ⟨bytes, file⟩ := undoable.added backup List.mem_cons_self held
                rw [parent] at file
                cases file
            | some text => rfl
          · rw [others _ same, parent]
        · intro other member absent
          obtain ⟨bytes, file⟩ := undoable.added other (List.mem_cons_of_mem _ member) absent
          exact ⟨bytes, (others _ (apart other member)).trans file⟩
      rw [ran, ih after later, List.lookup_cons]
      by_cases same : path = backup.1
      · have gone : rest.lookup path = none := by
          rw [List.lookup_eq_none_iff]
          intro other member
          rw [bne_iff_ne]
          exact fun again => apart other member (again.symm.trans same)
        have found : (path == backup.1) = true := by simpa using same
        rw [gone, found]
        exact (congrArg after.tree.node same).trans (here.trans (by rw [same]))
      · have differs : (path == backup.1) = false := by simpa using same
        rw [others path same, differs]

end undoing

section restored

variable (sha256Hex : Units → String) (faults : Nat → Option Fault)

theorem backs_up_value (entry : Entry) (taken : backsUp sha256Hex faults entry = true) :
    ∃ text, backedValue entry.2 entry.1.absolute = some text := by
  have seen := check_ends faults entry.1 entry.2
  unfold Ends at seen
  rw [backsUp] at taken
  cases checked : checkOperation faults entry.1 entry.2 with
  | error error after =>
      rw [checked] at taken
      cases taken
  | ok change after =>
      rw [checked] at seen
      obtain ⟨_, passed, _⟩ := seen
      cases change with
      | create text => exact ⟨none, absent_value _ _ passed.2⟩
      | erase held => exact ⟨some held, reads_value _ _ _ passed.2⟩
      | rewrite held text =>
          obtain ⟨_, _, reads, _⟩ := passed
          exact ⟨some held, reads_value _ _ _ reads⟩

-- The decoder drops a byte order mark when it reads the file in this state.
def dropsMark (state : PatchState) (path : Path) : Prop :=
  state.bomSeen = false ∧ ∃ bytes, state.tree.node path = some (.file bytes) ∧ byteOrderMark <+: bytes

-- The state the loop ends in, whether it throws or not.
def loopLeaves (ops : List Planned) (state : PatchState) : PatchState :=
  match applyOperations sha256Hex faults false ops state with
  | .ok _ after => after
  | .error _ after => after

structure Restorable (start : PatchState) (ops : List Planned) (path : Path) : Prop where
  -- No add has had to make the path a directory.
  directory : (loopLeaves sha256Hex faults ops start).tree.node path = some .directory →
    start.tree.node path = some .directory
  -- The last operation that backed the path up found it as it was before the call and read all of it.
  backed : ∀ entry, lastBackup sha256Hex faults path (reached sha256Hex faults ops start) = some entry →
    entry.2.tree.node path = start.tree.node path ∧ ¬ dropsMark entry.2 path
  -- A path none has backed up has not been written by an add that then failed.
  untouched : lastBackup sha256Hex faults path (reached sha256Hex faults ops start) = none →
    (loopLeaves sha256Hex faults ops start).tree.node path = start.tree.node path

theorem content_whole (state : PatchState) (path : Path) (bytes : List UInt8)
    (file : state.tree.node path = some (.file bytes)) (whole : ¬ dropsMark state path) :
    content state.bomSeen bytes = bytes := by
  apply content_kept
  rintro ⟨unseen, mark⟩
  exact whole ⟨unseen, bytes, file, mark⟩

theorem mark_shortens (bytes : List UInt8) (mark : byteOrderMark <+: bytes) : bytes.drop 3 ≠ bytes := by
  intro same
  have long := mark.length_le
  have short := congrArg List.length same
  rw [List.length_drop] at short
  have three : byteOrderMark.length = 3 := rfl
  omega

theorem value_absent (state : PatchState) (path : Path) (value : backedValue state path = some none) :
    state.tree.node path = none := by
  rw [backedValue] at value
  split at value
  · assumption
  · simp at value
  · cases value

theorem value_text (state : PatchState) (path : Path) (text : Units) (value : backedValue state path = some (some text)) :
    ∃ bytes, state.tree.node path = some (.file bytes) ∧ encode text = content state.bomSeen bytes := by
  rw [backedValue] at value
  split at value
  · cases value
  · rename_i bytes file
    obtain ⟨read, decoded, same⟩ := Option.map_eq_some_iff.mp value
    cases same
    exact ⟨bytes, file, encode_decode _ _ decoded⟩
  · cases value

theorem restored_iff (start thrown : PatchState) (ops : List Planned) (path : Path)
    (left : loopLeaves sha256Hex faults ops start = thrown)
    (logged : Logged sha256Hex faults start (reached sha256Hex faults ops start) thrown) :
    undone (thrown.backups.lookup path) (thrown.tree.node path) = start.tree.node path ↔
      Restorable sha256Hex faults start ops path := by
  have held := logged.backups path
  cases last : lastBackup sha256Hex faults path (reached sha256Hex faults ops start) with
  | none =>
      rw [last, Option.bind_none] at held
      rw [held]
      constructor
      · intro same
        have still : thrown.tree.node path = start.tree.node path := same
        refine ⟨?_, fun entry found => ?_, fun _ => ?_⟩
        · rw [left, still]
          exact fun directory => directory
        · rw [last] at found
          cases found
        · rw [left, still]
      · intro restorable
        have still := restorable.untouched last
        rw [left] at still
        exact still
  | some entry =>
      obtain ⟨member, target, taken⟩ := last_backup_mem sha256Hex faults path _ entry last
      obtain ⟨value, backed⟩ := backs_up_value sha256Hex faults entry taken
      rw [target] at backed
      rw [last, Option.bind_some, backed] at held
      rw [held]
      have sane := logged.entries entry member
      have only : ∀ other, lastBackup sha256Hex faults path (reached sha256Hex faults ops start) = some other → other = entry := by
        intro other found
        exact Option.some.inj (found.symm.trans last)
      cases value with
      | none =>
          have absent := value_absent entry.2 path backed
          obtain ⟨bytes, file⟩ := logged.added path held
          constructor
          · intro same
            refine ⟨fun directory => ?_, fun other found => ?_, fun found => ?_⟩
            · rw [left, file] at directory
              cases directory
            · rw [only other found]
              refine ⟨absent.trans same, ?_⟩
              rintro ⟨_, held, found, _⟩
              rw [absent] at found
              cases found
            · rw [last] at found
              cases found
          · intro restorable
            exact absent.symm.trans (restorable.backed entry last).1
      | some text =>
          obtain ⟨bytes, file, encoded⟩ := value_text entry.2 path text backed
          have unlisted : start.tree.node path ≠ some .directory := by
            intro directory
            rw [sane.directories path directory] at file
            cases file
          constructor
          · intro same
            have written : start.tree.node path = some (.file (content entry.2.bomSeen bytes)) := by
              rw [← encoded, ← same]
              cases there : thrown.tree.node path with
              | none => rfl
              | some node =>
                  cases node with
                  | file other => rfl
                  | directory =>
                      rw [there] at same
                      exact absurd same.symm unlisted
            have whole : ¬ dropsMark entry.2 path := by
              rintro ⟨unseen, read, found, mark⟩
              cases (Option.some.inj (file.symm.trans found))
              have fresh := sane.fresh unseen path _ written
              rw [file, content, unseen, List.isPrefixOf_iff_prefix.mpr mark] at fresh
              exact mark_shortens bytes mark (Node.file.inj (Option.some.inj fresh)).symm
            refine ⟨fun directory => ?_, fun other found => ?_, fun found => ?_⟩
            · rw [left] at directory
              rw [directory] at same
              exact same.symm
            · rw [only other found]
              refine ⟨?_, whole⟩
              rw [written, content_whole entry.2 path bytes file whole, file]
            · rw [last] at found
              cases found
          · intro restorable
            obtain ⟨found, whole⟩ := restorable.backed entry last
            rw [content_whole entry.2 path bytes file whole] at encoded
            cases there : thrown.tree.node path with
            | none => exact (congrArg (fun held => some (Node.file held)) encoded).trans (file.symm.trans found)
            | some node =>
                cases node with
                | file other => exact (congrArg (fun held => some (Node.file held)) encoded).trans (file.symm.trans found)
                | directory => exact absurd (restorable.directory (left.symm ▸ there)) unlisted

theorem logged_start (state : PatchState) (empty : state.backups = []) : Logged sha256Hex faults state [] state where
  backups := by
    intro path
    rw [empty]
    rfl
  keys := by
    rw [empty]
    exact List.nodup_nil
  parents := by
    intro path text held
    rw [empty] at held
    cases held
  added := by
    intro path held
    rw [empty] at held
    cases held
  sane := ⟨fun _ found => found, fun _ _ _ found => found⟩
  entries := by
    intro entry member
    cases member

theorem logged_undoable (start thrown : PatchState) (log : List Entry)
    (logged : Logged sha256Hex faults start log thrown) : Undoable thrown.backups thrown := by
  have found : ∀ backup ∈ thrown.backups, thrown.backups.lookup backup.1 = some backup.2 := by
    intro backup member
    obtain ⟨first, later, split⟩ := List.append_of_mem member
    have keys := logged.keys
    rw [split] at keys ⊢
    rw [List.map_append, List.nodup_append] at keys
    refine List.lookup_eq_some_iff.mpr ⟨first, later, rfl, fun other there => ?_⟩
    rw [bne_iff_ne]
    exact (keys.2.2 other.1 (List.mem_map_of_mem there) backup.1 (by simp)).symm
  refine ⟨logged.keys, ?_, ?_⟩
  · intro backup member
    exact logged.parents backup.1 backup.2 (found backup member)
  · intro backup member absent
    exact logged.added backup.1 (absent ▸ found backup member)

end restored

-- The state applyPatch starts its loop in.
def PatchState.begun (state : PatchState) : PatchState := { state with backups := [], results := [] }

-- A patch that throws leaves each path it names as it was just in case the path's own undo entry is right.
-- Without a plan there is no effect.
theorem rollback_complete (sha256Hex : Units → String) (faults : Nat → Option Fault) (input : ApplyPatchInput)
    (atomic : atomicOf input = true) (wet : dryRunOf input = false) (state after : PatchState) (error : Thrown)
    (threw : applyPatch sha256Hex faults noFaults input state = .error error after) :
    match plan input with
    | .error _ => after = state
    | .ok planned =>
        (∀ op ∈ planned, after.tree.node op.absolute = state.tree.node op.absolute) ↔
          ∀ op ∈ planned, Restorable sha256Hex faults state.begun planned op.absolute := by
  rw [applyPatch] at threw
  cases planning : plan input with
  | error refusal =>
      rw [planning] at threw
      injection threw with _ same
      exact same.symm
  | ok planned =>
      rw [planning, wet, atomic] at threw
      have looped := loop_logged sha256Hex faults state.begun planned [] state.begun
        (logged_start sha256Hex faults state.begun rfl)
      unfold Ends at looped
      dsimp only at threw ⊢
      cases outcome : applyOperations sha256Hex faults false planned state.begun with
      | ok value last =>
          rw [PatchState.begun] at outcome
          rw [outcome] at threw
          cases threw
      | error thrownError thrown =>
          rw [outcome] at looped
          have left : loopLeaves sha256Hex faults planned state.begun = thrown := by rw [loopLeaves, outcome]
          rw [PatchState.begun] at outcome
          rw [outcome] at threw
          injection threw with _ rolled
          have nodes := rollback_nodes thrown.backups thrown (logged_undoable sha256Hex faults _ _ _ looped)
          have each : ∀ op ∈ planned, after.tree.node op.absolute = state.tree.node op.absolute ↔
              Restorable sha256Hex faults state.begun planned op.absolute := by
            intro op _
            rw [← rolled, nodes]
            exact restored_iff sha256Hex faults state.begun thrown planned op.absolute left looped
          constructor
          · intro same op member
            exact (each op member).mp (same op member)
          · intro restorable op member
            exact (each op member).mpr (restorable op member)

def leftBy {α : Type} : EStateM.Result Thrown PatchState α → PatchState
  | .ok _ after => after
  | .error _ after => after

def threw {α : Type} : EStateM.Result Thrown PatchState α → Bool
  | .ok _ _ => false
  | .error _ _ => true

def applied (faults : Nat → Option Fault) (text : String) (state : PatchState) :
    EStateM.Result Thrown PatchState PatchResult :=
  applyPatch Utf16.text faults noFaults (patching text) state

abbrev restored (faults : Nat → Option Fault) (text : String) (state : PatchState) : Prop :=
  ∀ op ∈ plannedBy (patching text), (leftBy (applied faults text state)).tree.node op.absolute = state.tree.node op.absolute

theorem rollback_complete_update :
    let text := "*** Update File: a\n@@\n-one\n+two\n*** Delete File: b"
    let state := freshWith [("a", one)]
    threw (applied noFaults text state) = true ∧
      ∀ op ∈ plannedBy (patching text), Restorable Utf16.text noFaults state.begun (plannedBy (patching text)) op.absolute := by
  intro text state
  have failed : threw (applied noFaults text state) = true := by decide +kernel
  have same : restored noFaults text state := by decide +kernel
  refine ⟨failed, ?_⟩
  cases outcome : applied noFaults text state with
  | ok value after =>
      rw [outcome] at failed
      cases failed
  | error error after =>
      have complete := rollback_complete Utf16.text noFaults (patching text) rfl rfl state after error outcome
      rw [restored, outcome] at same
      rw [plannedBy] at same ⊢
      cases planning : plan (patching text) with
      | error refusal =>
          intro op member
          cases member
      | ok planned =>
          rw [planning] at same complete
          exact complete.mp same

-- The rollback leaves a path that was added and then deleted, one deleted and then added, one updated twice, one whose
-- add failed in its write, and a file whose byte order mark the process's first decode dropped.
theorem rollback_incomplete :
    let added := "*** Add File: a\n+two\n"
    let deleted := "*** Delete File: a\n"
    let updated := "*** Update File: a\n@@\n-one\n+two\n"
    let again := "*** Update File: a\n@@\n-two\n+six\n"
    let missing := "*** Delete File: b"
    let inWrite : Nat → Option Fault := fun call => if call = 3 then some (.partway 1) else none
    ∀ case ∈ [(noFaults, added ++ deleted ++ missing, freshWith []), (noFaults, deleted ++ added ++ missing, freshWith [("a", one)]),
        (noFaults, updated ++ again ++ missing, freshWith [("a", one)]), (inWrite, added, freshWith []),
        (noFaults, updated ++ missing, freshWith [("a", byteOrderMark ++ one)])],
      threw (applied case.1 case.2.1 case.2.2) = true ∧ ¬ restored case.1 case.2.1 case.2.2 := by
  decide +kernel

end Vacps.Files
