import Vacps.Agent.PatchSteps

/- A dry run of applyPatch against the real run. The dry run looks at the tree as it stands, the real run at
   what its earlier operations have left. -/
set_option autoImplicit false

namespace Vacps.Files

open Library Library.Utf16

def Action.kind : Action → OperationKind
  | .add _ => .add
  | .update _ => .update
  | .delete => .delete

def Planned.kind (op : Planned) : OperationKind := op.action.kind

section passes

theorem reads_file (state : PatchState) (path : Path) (text : Units) (reads : Reads state path text) :
    ∃ bytes, state.tree.node path = some (.file bytes) := by
  obtain ⟨bytes, file, _⟩ := reads
  exact ⟨bytes, file⟩

theorem read_text_done (path : Path) (state : PatchState) (text : Units) (reads : Reads state path text) :
    ∃ after, readTextFile noFaults path WHOLE_FILE_MAX_BYTES state = .ok text after := by
  obtain ⟨bytes, file, small, decoded⟩ := reads
  have opened : openRead noFaults path state = .ok () state.called := by
    rw [openRead, file]
    rfl
  have taken : readBytes noFaults path (WHOLE_FILE_MAX_BYTES + 1) state.called = .ok bytes state.called.called := by
    have there : state.called.tree.node path = some (.file bytes) := file
    have all : bytes.take (WHOLE_FILE_MAX_BYTES + 1) = bytes := List.take_of_length_le (by omega)
    have ran : readBytes noFaults path (WHOLE_FILE_MAX_BYTES + 1) state.called =
        .ok (bytes.take (WHOLE_FILE_MAX_BYTES + 1)) state.called.called := by
      rw [readBytes, there]
      rfl
    rw [all] at ran
    exact ran
  have whole : readWholeBytesFile noFaults path WHOLE_FILE_MAX_BYTES state = .ok bytes state.called.called.called := by
    rw [readWholeBytesFile, bind_done _ _ _ _ _ opened, ensure, bind_done _ _ _ _ _ taken, if_neg (by omega)]
    rfl
  refine ⟨{ state.called.called.called with bomSeen := true }, ?_⟩
  rw [readTextFile, bind_done _ _ _ _ _ whole, decodeWholeFileUtf8]
  have same : decode (content state.called.called.called.bomSeen bytes) = some text := decoded
  rw [same]

-- Without faults a check passes just in case what it asks for is there.
theorem check_done (op : Planned) (state : PatchState) (change : Change) (passes : Checked state op change) :
    ∃ after, checkOperation noFaults op state = .ok change after := by
  obtain ⟨⟨path, action⟩, absolute⟩ := op
  cases change with
  | create text =>
      obtain ⟨same, absent⟩ := passes
      cases same
      have looked : exists_ noFaults absolute state = .ok false state.called := by
        have gone : state.tree.node absolute = none := absent
        rw [exists_, gone]
        rfl
      exact ⟨state.called, bind_done _ _ _ _ _ looked⟩
  | erase before =>
      obtain ⟨same, reads⟩ := passes
      cases same
      obtain ⟨bytes, file, _⟩ := id reads
      have looked : exists_ noFaults absolute state = .ok true state.called := by
        have there : state.tree.node absolute = some (.file bytes) := file
        rw [exists_, there]
        rfl
      obtain ⟨after, read⟩ := read_text_done absolute state.called before reads
      refine ⟨after, (bind_done _ _ _ _ _ looked).trans ?_⟩
      exact bind_done _ _ _ _ _ read
  | rewrite before text =>
      obtain ⟨hunks, same, reads, applied, small⟩ := passes
      cases same
      obtain ⟨bytes, file, _⟩ := id reads
      have looked : exists_ noFaults absolute state = .ok true state.called := by
        have there : state.tree.node absolute = some (.file bytes) := file
        rw [exists_, there]
        rfl
      obtain ⟨after, read⟩ := read_text_done absolute state.called before reads
      refine ⟨after, (bind_done _ _ _ _ _ looked).trans ((bind_done _ _ _ _ _ read).trans ?_)⟩
      rw [applied, lift, pure_bind, if_neg (by omega)]
      rfl

theorem check_failed (op : Planned) (state : PatchState) (fails : ∀ change, ¬ Checked state op change) :
    ∃ error after, checkOperation noFaults op state = .error error after := by
  have seen := check_ends noFaults op state
  unfold Ends at seen
  cases checked : checkOperation noFaults op state with
  | error error after => exact ⟨error, after, rfl⟩
  | ok change after =>
      rw [checked] at seen
      exact absurd seen.2.1 (fails change)

-- What a change leaves at its path.
def Change.leaves : Change → Option (Node (List UInt8))
  | .create text => some (.file (encode text))
  | .erase _ => none
  | .rewrite _ text => some (.file (encode text))

structure Changed (path : Path) (change : Change) (state after : PatchState) : Prop where
  around : Around path state.tree after.tree
  here : after.tree.node path = change.leaves
  bomSeen : after.bomSeen = state.bomSeen
  results : after.results = state.results

theorem create_done (path : Path) (text : Units) (state : PatchState) (free : state.tree.Free path.dropLast)
    (absent : state.tree.node path = none) :
    ∃ after, makeChange noFaults path (.create text) state = .ok () after ∧ Changed path (.create text) state after := by
  have nonroot : path ≠ [] := by
    rintro rfl
    rw [FileTree.node, state.tree.root] at absent
    cases absent
  have made : mkdir noFaults path.dropLast state =
      .ok () { state.called with tree := state.tree.makeDirectories path.dropLast } := by
    rw [mkdir, if_pos free]
    rfl
  have grown := grown_around path _ _ (make_grows state.tree _ _ free (List.prefix_refl path.dropLast))
  have beyond : ¬ path <+: path.dropLast := by
    intro within
    have shorter := within.length_le
    rw [List.length_dropLast] at shorter
    have positive := List.length_pos_iff.mpr nonroot
    omega
  have writable : (state.tree.makeDirectories path.dropLast).Writable path := by
    refine ⟨nonroot, ?_, ?_⟩
    · rw [FileTree.node_make, if_pos (List.prefix_refl _)]
    · rw [FileTree.node_make, if_neg beyond, absent]
      exact fun directory => by cases directory
  obtain ⟨after, wrote, puts⟩ := write_text_done path text
    { state.called with tree := state.tree.makeDirectories path.dropLast } writable
  refine ⟨after.logged path none, ?_, ?_, puts.here, puts.kept.bomSeen, puts.kept.results⟩
  · simp only [makeChange]
    rw [bind_done _ _ _ _ _ made, bind_done _ _ _ _ _ wrote]
    rfl
  · intro other apart
    rw [show (after.logged path none).tree = after.tree from rfl, puts.others other apart]
    exact grown other apart

theorem read_done (path : Path) (change : Change) (state : PatchState) (text : Units)
    (held : ∃ bytes, state.tree.node path = some (.file bytes))
    (same : change = .erase text ∨ ∃ after, change = .rewrite text after) :
    ∃ after, makeChange noFaults path change state = .ok () after ∧ Changed path change state after := by
  obtain ⟨bytes, file⟩ := held
  obtain ⟨nonroot, parent⟩ := file_parent state.tree path bytes file
  rcases same with rfl | ⟨next, rfl⟩
  · obtain ⟨after, ran, kept, here, others⟩ := remove_file path (state.logged path (some text)) bytes file
    refine ⟨after, ?_, fun other apart => Or.inl (others other apart), here, kept.bomSeen, kept.results⟩
    rw [← ran]
    rfl
  · have writable : state.tree.Writable path := by
      refine ⟨nonroot, parent, ?_⟩
      rw [file]
      exact fun directory => by cases directory
    obtain ⟨after, wrote, puts⟩ := write_text_done path next (state.logged path (some text)) writable
    refine ⟨after, ?_, fun other apart => Or.inl (puts.others other apart), puts.here, puts.kept.bomSeen, puts.kept.results⟩
    rw [← wrote]
    rfl

end passes

section operations

variable (sha256Hex : Units → String)

theorem operation_fails (dryRun : Bool) (op : Planned) (state : PatchState) (fails : ∀ change, ¬ Checked state op change) :
    ∃ error after, applyOperation sha256Hex noFaults dryRun op state = .error error after := by
  obtain ⟨error, after, failed⟩ := check_failed op state fails
  refine ⟨error, after, ?_⟩
  rw [apply_operation_eq, bind_thrown _ _ _ _ _ failed]

theorem check_passes (op : Planned) (state : PatchState) (change : Change) (passes : Checked state op change) :
    ∃ after, checkOperation noFaults op state = .ok change after ∧ Quiet state after ∧
      after.bomSeen = (state.bomSeen || change.reads) := by
  obtain ⟨after, checked⟩ := check_done op state change passes
  have seen := check_ends noFaults op state
  unfold Ends at seen
  rw [checked] at seen
  exact ⟨after, checked, seen.1, seen.2.2⟩

theorem dry_passes (op : Planned) (state : PatchState) (change : Change) (passes : Checked state op change) :
    ∃ after, applyOperation sha256Hex noFaults true op state = .ok () after ∧ after.tree = state.tree ∧
      after.bomSeen = (state.bomSeen || change.reads) ∧
      after.results = state.results ++ [change.report sha256Hex op.path true] := by
  obtain ⟨after, checked, quiet, decoder⟩ := check_passes op state change passes
  refine ⟨{ after with results := after.results ++ [change.report sha256Hex op.path true] }, ?_, quiet.tree, decoder, ?_⟩
  · rw [apply_operation_eq, bind_done _ _ _ _ _ checked]
    rfl
  · exact congrArg (· ++ _) quiet.results

theorem wet_passes (op : Planned) (state : PatchState) (change : Change) (passes : Checked state op change)
    (free : op.kind = .add → state.tree.Free op.absolute.dropLast) :
    ∃ after, applyOperation sha256Hex noFaults false op state = .ok () after ∧
      Around op.absolute state.tree after.tree ∧ after.tree.node op.absolute = change.leaves ∧
      after.bomSeen = (state.bomSeen || change.reads) ∧
      after.results = state.results ++ [change.report sha256Hex op.path false] := by
  obtain ⟨middle, checked, quiet, decoder⟩ := check_passes op state change passes
  have made : ∃ after, makeChange noFaults op.absolute change middle = .ok () after ∧
      Changed op.absolute change middle after := by
    cases change with
    | create text =>
        obtain ⟨action, absent⟩ := passes
        have adds : op.kind = .add := by rw [Planned.kind, action, Action.kind]
        exact create_done op.absolute text middle (quiet.tree ▸ free adds) (quiet.tree ▸ absent)
    | erase before => exact read_done op.absolute _ middle before (quiet.tree ▸ reads_file _ _ _ passes.2) (Or.inl rfl)
    | rewrite before text =>
        obtain ⟨_, _, reads, _⟩ := passes
        exact read_done op.absolute _ middle before (quiet.tree ▸ reads_file _ _ _ reads) (Or.inr ⟨text, rfl⟩)
  obtain ⟨after, ran, changed⟩ := made
  refine ⟨{ after with results := after.results ++ [change.report sha256Hex op.path false] }, ?_,
    quiet.tree ▸ changed.around, changed.here, changed.bomSeen.trans decoder, ?_⟩
  · rw [apply_operation_eq, bind_done _ _ _ _ _ checked, Bool.not_false, if_pos rfl, bind_done _ _ _ _ _ ran]
    rfl
  · exact congrArg (· ++ _) (changed.results.trans quiet.results)

end operations

section independence

def holdsFile (tree : Tree) (path : Path) : Bool :=
  match tree.node path with
  | some (.file _) => true
  | _ => false

theorem holds_file (tree : Tree) (path : Path) : holdsFile tree path = true ↔ ∃ bytes, tree.node path = some (.file bytes) := by
  rw [holdsFile]
  cases tree.node path with
  | none => simp
  | some node => cases node <;> simp

-- The operation meets the earlier ones in a way the dry run sees too.
structure Fits (tree : Tree) (earlier : List Planned) (op : Planned) : Prop where
  -- It does not share a path with one, unless that is an update and this is none.
  path : ∀ first ∈ earlier, first.absolute = op.absolute → first.kind = .update ∧ op.kind ≠ .update
  -- An add is not put under the path of an earlier one nor in the place of a directory an earlier one makes.
  beside : op.kind = .add → ∀ first ∈ earlier, first.kind = .add →
    ¬ first.absolute <+: op.absolute ∧ (op.absolute <+: first.absolute → tree.node op.absolute ≠ none)
  -- An add is not put under a file, unless an earlier operation deletes that.
  above : op.kind = .add → ∀ parent ∈ op.absolute.dropLast.inits, holdsFile tree parent = true →
    ∃ first ∈ earlier, first.kind = .delete ∧ first.absolute = parent

def Independent (tree : Tree) : List Planned → List Planned → Prop
  | _, [] => True
  | earlier, op :: rest => Fits tree earlier op ∧ Independent tree (op :: earlier) rest

set_option synthInstance.maxSize 512 in
instance (tree : Tree) (earlier : List Planned) (op : Planned) : Decidable (Fits tree earlier op) :=
  decidable_of_iff
    ((∀ first ∈ earlier, first.absolute = op.absolute → first.kind = .update ∧ op.kind ≠ .update) ∧
      (op.kind = .add → ∀ first ∈ earlier, first.kind = .add →
        ¬ first.absolute <+: op.absolute ∧ (op.absolute <+: first.absolute → tree.node op.absolute ≠ none)) ∧
      (op.kind = .add → ∀ parent ∈ op.absolute.dropLast.inits, holdsFile tree parent = true →
        ∃ first ∈ earlier, first.kind = .delete ∧ first.absolute = parent))
    ⟨fun ⟨path, beside, above⟩ => ⟨path, beside, above⟩, fun fits => ⟨fits.path, fits.beside, fits.above⟩⟩

instance decideIndependent (tree : Tree) : ∀ earlier ops, Decidable (Independent tree earlier ops)
  | _, [] => inferInstanceAs (Decidable True)
  | earlier, op :: rest =>
      have := decideIndependent tree (op :: earlier) rest
      inferInstanceAs (Decidable (Fits tree earlier op ∧ Independent tree (op :: earlier) rest))

def marked (tree : Tree) (path : Path) : Bool :=
  match tree.node path with
  | some (.file bytes) => byteOrderMark.isPrefixOf bytes
  | _ => false

theorem unmarked_content (tree : Tree) (path : Path) (bytes : List UInt8) (unmarked : marked tree path = false)
    (file : tree.node path = some (.file bytes)) (bomSeen : Bool) : content bomSeen bytes = bytes := by
  apply content_kept
  rintro ⟨_, mark⟩
  rw [marked, file] at unmarked
  dsimp only at unmarked
  rw [List.isPrefixOf_iff_prefix.mpr mark] at unmarked
  cases unmarked

def reported (result : FileResult) : FileResult := { result with dry_run := false }

-- The two runs after the earlier operations, all of which passed in both.
structure Coupled (tree : Tree) (earlier : List Planned) (dry wet : PatchState) : Prop where
  still : dry.tree = tree
  untouched : ∀ path, (∀ first ∈ earlier, first.absolute ≠ path) → wet.tree.node path = tree.node path ∨
    (tree.node path = none ∧ wet.tree.node path = some .directory ∧
      ∃ first ∈ earlier, first.kind = .add ∧ path <+: first.absolute)
  updated : ∀ first ∈ earlier, first.kind = .update →
    (∃ text, wet.tree.node first.absolute = some (.file (encode text)) ∧ (encode text).length ≤ WHOLE_FILE_MAX_BYTES) ∨
      ∃ other ∈ earlier, other.kind = .delete ∧ other.absolute = first.absolute
  deleted : ∀ first ∈ earlier, first.kind = .delete → holdsFile wet.tree first.absolute = false
  found : ∀ first ∈ earlier, first.kind = .update → dry.bomSeen = true ∧ wet.bomSeen = true ∧
    ∃ text, Reads dry first.absolute text
  report : dry.results.map reported = wet.results.map reported

section steps

variable (tree : Tree) (earlier : List Planned) (op : Planned) (dry wet : PatchState)

def Change.kind : Change → OperationKind
  | .create _ => .add
  | .erase _ => .delete
  | .rewrite _ _ => .update

theorem checked_kind (state : PatchState) (change : Change) (passes : Checked state op change) : op.kind = change.kind := by
  cases change with
  | create text =>
      obtain ⟨action, _⟩ := passes
      rw [Planned.kind, action, Action.kind, Change.kind]
  | erase before =>
      obtain ⟨action, _⟩ := passes
      rw [Planned.kind, action, Action.kind, Change.kind]
  | rewrite before after =>
      obtain ⟨hunks, action, _⟩ := passes
      rw [Planned.kind, action, Action.kind, Change.kind]

theorem kind_update (change : Change) (kind : change.kind = .update) : ∃ before after, change = .rewrite before after := by
  cases change with
  | create text => cases kind
  | erase before => cases kind
  | rewrite before after => exact ⟨before, after, rfl⟩

theorem reads_once (state : PatchState) (path : Path) (first later : Units) (reads : Reads state path first)
    (again : Reads state path later) : later = first := by
  obtain ⟨bytes, file, _, decoded⟩ := reads
  obtain ⟨same, found, _, another⟩ := again
  cases Option.some.inj (file.symm.trans found)
  exact Option.some.inj (another.symm.trans decoded)

theorem unchecked_add (text : Units) (state : PatchState) (action : op.action = .add text)
    (there : state.tree.node op.absolute ≠ none) : ∀ change, ¬ Checked state op change := by
  intro change passes
  have adds : op.kind = .add := by rw [Planned.kind, action, Action.kind]
  have kind := adds.symm.trans (checked_kind op state change passes)
  cases change with
  | create other => exact there passes.2
  | erase before => cases kind
  | rewrite before other => cases kind

theorem unchecked_read (state : PatchState) (kind : op.kind ≠ .add) (unread : ∀ text, ¬ Reads state op.absolute text) :
    ∀ change, ¬ Checked state op change := by
  intro change passes
  cases change with
  | create text => exact kind (checked_kind op state _ passes)
  | erase before => exact unread before passes.2
  | rewrite before after =>
      obtain ⟨_, _, reads, _⟩ := passes
      exact unread before reads

-- An update the operation comes after has left its path alone since.
theorem updated_before (coupled : Coupled tree earlier dry wet) (fits : Fits tree earlier op) (first : Planned)
    (member : first ∈ earlier) (same : first.absolute = op.absolute) :
    ∃ text, wet.tree.node op.absolute = some (.file (encode text)) ∧ (encode text).length ≤ WHOLE_FILE_MAX_BYTES := by
  rw [← same]
  rcases coupled.updated first member (fits.path first member same).1 with held | ⟨other, there, deletes, path⟩
  · exact held
  · have updates := (fits.path other there (path.trans same)).1
    rw [deletes] at updates
    cases updates

theorem add_agrees (coupled : Coupled tree earlier dry wet) (fits : Fits tree earlier op) (text : Units)
    (action : op.action = .add text) :
    (Checked dry op (.create text) ∧ Checked wet op (.create text) ∧ wet.tree.Free op.absolute.dropLast) ∨
      ((∀ change, ¬ Checked dry op change) ∧ ∀ change, ¬ Checked wet op change) := by
  have adds : op.kind = .add := by rw [Planned.kind, action, Action.kind]
  by_cases first : ∃ first ∈ earlier, first.absolute = op.absolute
  · obtain ⟨first, member, same⟩ := first
    obtain ⟨_, _, text, reads⟩ := coupled.found first member (fits.path first member same).1
    obtain ⟨bytes, file⟩ := reads_file _ _ _ reads
    obtain ⟨again, held, _⟩ := updated_before tree earlier op dry wet coupled fits first member same
    right
    constructor
    · apply unchecked_add op _ dry action
      rw [← same, file]
      exact fun absent => by cases absent
    · apply unchecked_add op _ wet action
      rw [held]
      exact fun absent => by cases absent
  · have fresh : ∀ first ∈ earlier, first.absolute ≠ op.absolute := by
      intro other member same
      exact first ⟨other, member, same⟩
    have same : wet.tree.node op.absolute = tree.node op.absolute := by
      rcases coupled.untouched op.absolute fresh with same | ⟨absent, _, other, member, kind, above⟩
      · exact same
      · exact absurd absent ((fits.beside adds other member kind).2 above)
    cases here : tree.node op.absolute with
    | some node =>
        right
        constructor
        · apply unchecked_add op _ dry action
          rw [coupled.still, here]
          exact fun absent => by cases absent
        · apply unchecked_add op _ wet action
          rw [same, here]
          exact fun absent => by cases absent
    | none =>
        left
        refine ⟨⟨action, coupled.still ▸ here⟩, ⟨action, same.trans here⟩, ?_⟩
        intro parent member bytes file
        by_cases touched : ∃ first ∈ earlier, first.absolute = parent
        · obtain ⟨other, there, path⟩ := touched
          have deletes : ∃ first ∈ earlier, first.kind = .delete ∧ first.absolute = parent := by
            cases kind : other.kind with
            | add =>
                have within : parent <+: op.absolute :=
                  ((List.mem_inits _ _).mp member).trans (List.dropLast_prefix op.absolute)
                exact absurd (path ▸ within) (fits.beside adds other there kind).1
            | update =>
                obtain ⟨_, _, text, reads⟩ := coupled.found other there kind
                obtain ⟨found, read⟩ := reads_file _ _ _ reads
                rw [coupled.still, path] at read
                exact fits.above adds parent member ((holds_file tree parent).mpr ⟨found, read⟩)
            | delete => exact ⟨other, there, kind, path⟩
          obtain ⟨gone, listed, kind, at_⟩ := deletes
          have empty := coupled.deleted gone listed kind
          rw [at_, (holds_file wet.tree parent).mpr ⟨bytes, file⟩] at empty
          cases empty
        · rcases coupled.untouched parent fun first there path => touched ⟨first, there, path⟩ with still | ⟨_, made, _⟩
          · rw [still] at file
            obtain ⟨gone, listed, _, at_⟩ := fits.above adds parent member ((holds_file tree parent).mpr ⟨bytes, file⟩)
            exact touched ⟨gone, listed, at_⟩
          · rw [made] at file
            cases file

theorem decode_whole (bomSeen : Bool) (bytes : List UInt8) (text : Units) (decoded : decode (content bomSeen bytes) = some text) :
    ∃ whole, decode bytes = some whole := by
  by_cases dropped : bomSeen = false ∧ byteOrderMark <+: bytes
  · obtain ⟨unseen, rest, split⟩ := dropped
    have tail : content bomSeen bytes = rest := by
      rw [content, unseen, ← split]
      rfl
    rw [tail] at decoded
    rw [← split]
    exact decode_append byteOrderMark rest [0xFEFF] text (by decide +kernel) decoded
  · rw [content_kept bomSeen bytes dropped] at decoded
    exact ⟨text, decoded⟩

-- The text may differ after an update, when the operation makes no use of it.
theorem read_agrees (coupled : Coupled tree earlier dry wet) (fits : Fits tree earlier op)
    (decoder : dry.bomSeen = wet.bomSeen ∨ marked tree op.absolute = false) :
    (∃ text later, Reads dry op.absolute text ∧ Reads wet op.absolute later ∧ (op.kind = .update → later = text)) ∨
      ((∀ text, ¬ Reads dry op.absolute text) ∧ ∀ text, ¬ Reads wet op.absolute text) := by
  by_cases first : ∃ first ∈ earlier, first.absolute = op.absolute
  · obtain ⟨first, member, same⟩ := first
    obtain ⟨updates, reads_not⟩ := fits.path first member same
    obtain ⟨_, seen, text, reads⟩ := coupled.found first member updates
    obtain ⟨again, held, small⟩ := updated_before tree earlier op dry wet coupled fits first member same
    obtain ⟨later, decoded⟩ := decode_encode again
    left
    refine ⟨text, later, same ▸ reads, ⟨_, held, small, ?_⟩, fun kind => absurd kind reads_not⟩
    rw [seen]
    exact decoded
  · have fresh : ∀ first ∈ earlier, first.absolute ≠ op.absolute := by
      intro other member same
      exact first ⟨other, member, same⟩
    rcases coupled.untouched op.absolute fresh with same | ⟨absent, made, _⟩
    · have alike : ∀ text, Reads dry op.absolute text ↔ Reads wet op.absolute text := by
        intro text
        unfold Reads
        rw [same, coupled.still]
        rcases decoder with flag | unmarked
        · rw [flag]
        · constructor <;> rintro ⟨bytes, file, small, decoded⟩ <;> refine ⟨bytes, file, small, ?_⟩ <;>
            rw [unmarked_content tree _ bytes unmarked file] at decoded ⊢ <;> exact decoded
      by_cases readable : ∃ text, Reads dry op.absolute text
      · obtain ⟨text, reads⟩ := readable
        exact Or.inl ⟨text, text, reads, (alike text).mp reads, fun _ => rfl⟩
      · right
        constructor
        · exact fun text reads => readable ⟨text, reads⟩
        · exact fun text reads => readable ⟨text, (alike text).mpr reads⟩
    · right
      constructor
      · intro text reads
        obtain ⟨bytes, file⟩ := reads_file _ _ _ reads
        rw [coupled.still, absent] at file
        cases file
      · intro text reads
        obtain ⟨bytes, file⟩ := reads_file _ _ _ reads
        rw [made] at file
        cases file

-- The changes the two runs make of one operation.
structure Alike (sha256Hex : Units → String) (dryChange wetChange : Change) : Prop where
  seen : Checked dry op dryChange
  met : Checked wet op wetChange
  free : op.kind = .add → wet.tree.Free op.absolute.dropLast
  report : reported (dryChange.report sha256Hex op.path true) = reported (wetChange.report sha256Hex op.path false)

theorem change_agrees (sha256Hex : Units → String) (coupled : Coupled tree earlier dry wet) (fits : Fits tree earlier op)
    (decoder : dry.bomSeen = wet.bomSeen ∨ marked tree op.absolute = false) :
    (∃ dryChange wetChange, Alike op dry wet sha256Hex dryChange wetChange) ∨
      ((∀ change, ¬ Checked dry op change) ∧ ∀ change, ¬ Checked wet op change) := by
  have read := read_agrees tree earlier op dry wet coupled fits decoder
  cases action : op.action with
  | add text =>
      rcases add_agrees tree earlier op dry wet coupled fits text action with ⟨seen, met, free⟩ | fails
      · exact Or.inl ⟨_, _, seen, met, fun _ => free, rfl⟩
      · exact Or.inr fails
  | delete =>
      have kind : op.kind = .delete := by rw [Planned.kind, action, Action.kind]
      have reads_not : op.kind ≠ .add := by simp [kind]
      rcases read with ⟨text, later, seen, met, _⟩ | ⟨unseen, unmet⟩
      · exact Or.inl ⟨.erase text, .erase later, ⟨action, seen⟩, ⟨action, met⟩, fun adds => absurd adds reads_not, rfl⟩
      · exact Or.inr ⟨unchecked_read op dry reads_not unseen, unchecked_read op wet reads_not unmet⟩
  | update hunks =>
      have kind : op.kind = .update := by rw [Planned.kind, action, Action.kind]
      have reads_not : op.kind ≠ .add := by simp [kind]
      rcases read with ⟨text, later, seen, met, same⟩ | ⟨unseen, unmet⟩
      · cases same kind
        by_cases applies : ∃ after, applyHunks text hunks = .ok after ∧ (encode after).length ≤ WHOLE_FILE_MAX_BYTES
        · obtain ⟨after, applied, small⟩ := applies
          exact Or.inl ⟨.rewrite text after, .rewrite text after, ⟨hunks, action, seen, applied, small⟩,
            ⟨hunks, action, met, applied, small⟩, fun adds => absurd adds reads_not, rfl⟩
        · have refused : ∀ state, Reads state op.absolute text → ∀ change, ¬ Checked state op change := by
            intro state reads change passes
            obtain ⟨before, after, rfl⟩ := kind_update change ((checked_kind op state change passes).symm.trans kind)
            obtain ⟨others, given, again, applied, small⟩ := passes
            rw [action] at given
            cases given
            cases reads_once state op.absolute text before reads again
            exact applies ⟨after, applied, small⟩
          exact Or.inr ⟨refused dry seen, refused wet met⟩
      · exact Or.inr ⟨unchecked_read op dry reads_not unseen, unchecked_read op wet reads_not unmet⟩

theorem checked_file (state : PatchState) (change : Change) (passes : Checked state op change) (kind : op.kind ≠ .add) :
    holdsFile state.tree op.absolute = true := by
  cases change with
  | create text => exact absurd (checked_kind op state _ passes) kind
  | erase before => exact (holds_file _ _).mpr (reads_file _ _ _ passes.2)
  | rewrite before after =>
      obtain ⟨_, _, reads, _⟩ := passes
      exact (holds_file _ _).mpr (reads_file _ _ _ reads)

theorem coupled_next (coupled : Coupled tree earlier dry wet) (fits : Fits tree earlier op) (dryAfter wetAfter : PatchState)
    (dryChange wetChange : Change) (seen : Checked dry op dryChange) (met : Checked wet op wetChange)
    (still : dryAfter.tree = dry.tree) (around : Around op.absolute wet.tree wetAfter.tree)
    (here : wetAfter.tree.node op.absolute = wetChange.leaves)
    (dryDecoder : dryAfter.bomSeen = (dry.bomSeen || dryChange.reads))
    (wetDecoder : wetAfter.bomSeen = (wet.bomSeen || wetChange.reads))
    (report : dryAfter.results.map reported = wetAfter.results.map reported) :
    Coupled tree (op :: earlier) dryAfter wetAfter where
  still := still.trans coupled.still
  untouched := by
    intro path fresh
    have before := coupled.untouched path fun first member => fresh first (List.mem_cons_of_mem _ member)
    rcases around path (fresh op List.mem_cons_self).symm with same | ⟨absent, made, above⟩
    · rw [same]
      rcases before with still | ⟨missing, directory, first, member, kind, within⟩
      · exact Or.inl still
      · exact Or.inr ⟨missing, directory, first, List.mem_cons_of_mem _ member, kind, within⟩
    · rcases before with still | ⟨_, directory, _⟩
      · refine Or.inr ⟨still ▸ absent, made, op, List.mem_cons_self, ?_, above⟩
        by_contra kind
        obtain ⟨bytes, file⟩ := (holds_file _ _).mp (checked_file op wet wetChange met kind)
        obtain ⟨below, split⟩ := above
        have proper : below ≠ [] := by
          rintro rfl
          exact fresh op List.mem_cons_self (split.symm.trans (List.append_nil path))
        rw [← split] at file
        rw [wet.tree.above_directory path below _ file proper] at absent
        cases absent
      · rw [directory] at absent
        cases absent
  updated := by
    intro first member kind
    rcases List.mem_cons.mp member with rfl | before
    · obtain ⟨before, after, rfl⟩ := kind_update wetChange ((checked_kind _ _ _ met).symm.trans kind)
      obtain ⟨_, _, _, _, small⟩ := met
      exact Or.inl ⟨after, here, small⟩
    · by_cases same : first.absolute = op.absolute
      · right
        refine ⟨op, List.mem_cons_self, ?_, same.symm⟩
        cases action : op.kind with
        | update => exact absurd action (fits.path first before same).2
        | delete => rfl
        | add =>
            obtain ⟨text, held, _⟩ := updated_before tree earlier op dry wet coupled fits first before same
            have creates := action.symm.trans (checked_kind op wet wetChange met)
            cases wetChange with
            | create other =>
                rw [met.2] at held
                cases held
            | erase text => cases creates
            | rewrite text after => cases creates
      · rcases coupled.updated first before kind with ⟨text, held, small⟩ | ⟨other, there, deletes, path⟩
        · exact Or.inl ⟨text, around_file op.absolute _ _ around first.absolute same _ held, small⟩
        · exact Or.inr ⟨other, List.mem_cons_of_mem _ there, deletes, path⟩
  deleted := by
    intro first member kind
    rw [Bool.eq_false_iff]
    intro holds
    obtain ⟨bytes, file⟩ := (holds_file _ _).mp holds
    rcases List.mem_cons.mp member with rfl | before
    · have erases := kind.symm.trans (checked_kind first wet wetChange met)
      cases wetChange with
      | create text => cases erases
      | erase text =>
          rw [here] at file
          cases file
      | rewrite text after => cases erases
    · have apart : first.absolute ≠ op.absolute := by
        intro same
        have updates := (fits.path first before same).1
        rw [kind] at updates
        cases updates
      have gone := coupled.deleted first before kind
      rcases around first.absolute apart with same | ⟨_, made, _⟩
      · rw [same] at file
        rw [(holds_file _ _).mpr ⟨bytes, file⟩] at gone
        cases gone
      · rw [made] at file
        cases file
  found := by
    intro first member kind
    rcases List.mem_cons.mp member with rfl | before
    · obtain ⟨_, _, rfl⟩ := kind_update wetChange ((checked_kind _ _ _ met).symm.trans kind)
      obtain ⟨text, after, rfl⟩ := kind_update dryChange ((checked_kind _ _ _ seen).symm.trans kind)
      have dryFlag : dryAfter.bomSeen = true := dryDecoder.trans (Bool.or_true _)
      obtain ⟨_, _, ⟨bytes, file, small, decoded⟩, _⟩ := seen
      obtain ⟨whole, again⟩ := decode_whole _ bytes text decoded
      refine ⟨dryFlag, wetDecoder.trans (Bool.or_true _), whole, bytes, still ▸ file, small, ?_⟩
      rw [dryFlag]
      exact again
    · obtain ⟨dryFlag, wetFlag, text, bytes, file, small, decoded⟩ := coupled.found first before kind
      refine ⟨by simp [dryDecoder, dryFlag], by simp [wetDecoder, wetFlag], text, bytes, still ▸ file, small, ?_⟩
      have flag : dryAfter.bomSeen = dry.bomSeen := by simp [dryDecoder, dryFlag]
      rw [flag]
      exact decoded
  report := report

theorem reads_alike (dryChange wetChange : Change) (seen : Checked dry op dryChange) (met : Checked wet op wetChange) :
    dryChange.reads = wetChange.reads := by
  have same : dryChange.kind = wetChange.kind := (checked_kind op dry _ seen).symm.trans (checked_kind op wet _ met)
  cases dryChange <;> cases wetChange <;> first | rfl | cases same

-- Either both runs refuse the operation or both go on, and then they are coupled again.
theorem operation_agrees (sha256Hex : Units → String) (coupled : Coupled tree earlier dry wet) (fits : Fits tree earlier op)
    (decoder : dry.bomSeen = wet.bomSeen ∨ marked tree op.absolute = false) :
    (∃ dryAfter wetAfter, applyOperation sha256Hex noFaults true op dry = .ok () dryAfter ∧
        applyOperation sha256Hex noFaults false op wet = .ok () wetAfter ∧ Coupled tree (op :: earlier) dryAfter wetAfter ∧
        (dry.bomSeen = wet.bomSeen → dryAfter.bomSeen = wetAfter.bomSeen)) ∨
      ((∃ error after, applyOperation sha256Hex noFaults true op dry = .error error after) ∧
        ∃ error after, applyOperation sha256Hex noFaults false op wet = .error error after) := by
  rcases change_agrees tree earlier op dry wet sha256Hex coupled fits decoder with ⟨dryChange, wetChange, alike⟩ | ⟨unseen, unmet⟩
  · left
    obtain ⟨dryAfter, dryRan, still, dryDecoder, dryResults⟩ := dry_passes sha256Hex op dry dryChange alike.seen
    obtain ⟨wetAfter, wetRan, around, here, wetDecoder, wetResults⟩ :=
      wet_passes sha256Hex op wet wetChange alike.met alike.free
    have report : dryAfter.results.map reported = wetAfter.results.map reported := by
      rw [dryResults, wetResults, List.map_append, List.map_append, coupled.report, List.map_singleton, alike.report,
        List.map_singleton]
    refine ⟨dryAfter, wetAfter, dryRan, wetRan, ?_, ?_⟩
    · exact coupled_next tree earlier op dry wet coupled fits dryAfter wetAfter dryChange wetChange alike.seen alike.met
        still around here dryDecoder wetDecoder report
    · intro same
      rw [dryDecoder, wetDecoder, same, reads_alike op dry wet dryChange wetChange alike.seen alike.met]
  · exact Or.inr ⟨operation_fails sha256Hex true op dry unseen, operation_fails sha256Hex false op wet unmet⟩

end steps

-- Over the whole list, each operation against those before it.
theorem operations_agree (sha256Hex : Units → String) (tree : Tree) (ops : List Planned) (earlier : List Planned)
    (dry wet : PatchState) (coupled : Coupled tree earlier dry wet) (independent : Independent tree earlier ops)
    (decoder : dry.bomSeen = wet.bomSeen ∨ ∀ op ∈ ops, marked tree op.absolute = false) :
    (∃ dryAfter wetAfter, applyOperations sha256Hex noFaults true ops dry = .ok () dryAfter ∧
        applyOperations sha256Hex noFaults false ops wet = .ok () wetAfter ∧
        dryAfter.results.map reported = wetAfter.results.map reported) ∨
      ((∃ error after, applyOperations sha256Hex noFaults true ops dry = .error error after) ∧
        ∃ error after, applyOperations sha256Hex noFaults false ops wet = .error error after) := by
  induction ops generalizing earlier dry wet with
  | nil => exact Or.inl ⟨dry, wet, rfl, rfl, coupled.report⟩
  | cons op rest ih =>
      obtain ⟨fits, later⟩ := independent
      have here : dry.bomSeen = wet.bomSeen ∨ marked tree op.absolute = false := decoder.imp_right fun all => all op List.mem_cons_self
      rcases operation_agrees tree earlier op dry wet sha256Hex coupled fits here with
        ⟨dryAfter, wetAfter, dryRan, wetRan, next, flags⟩ | ⟨⟨error, after, dryFailed⟩, other, left_, wetFailed⟩
      · have unmarked : dryAfter.bomSeen = wetAfter.bomSeen ∨ ∀ op ∈ rest, marked tree op.absolute = false :=
          decoder.imp flags fun all other member => all other (List.mem_cons_of_mem _ member)
        simp only [applyOperations]
        rw [bind_done _ _ _ _ _ dryRan, bind_done _ _ _ _ _ wetRan]
        exact ih (op :: earlier) dryAfter wetAfter next later unmarked
      · right
        simp only [applyOperations]
        exact ⟨⟨error, after, bind_thrown _ _ _ _ _ dryFailed⟩, other, left_, bind_thrown _ _ _ _ _ wetFailed⟩

theorem coupled_start (dry wet : PatchState) (same : wet.tree = dry.tree) :
    Coupled dry.tree [] { dry with backups := [], results := [] } { wet with backups := [], results := [] } where
  still := rfl
  untouched := by
    intro path _
    left
    exact congrArg (FileTree.node · path) same
  updated := by
    intro first member
    cases member
  deleted := by
    intro first member
    cases member
  found := by
    intro first member
    cases member
  report := rfl

end independence

-- Both refuse, or both succeed with the same operations and hashes.
def Agree : EStateM.Result Thrown PatchState PatchResult → EStateM.Result Thrown PatchState PatchResult → Prop
  | .ok dry _, .ok wet _ => dry.files.map reported = wet.files.map reported
  | .error _ _, .error _ _ => True
  | _, _ => False

instance : ∀ dry wet : EStateM.Result Thrown PatchState PatchResult, Decidable (Agree dry wet)
  | .ok dry _, .ok wet _ => inferInstanceAs (Decidable (dry.files.map reported = wet.files.map reported))
  | .error _ _, .error _ _ => inferInstanceAs (Decidable True)
  | .ok _ _, .error _ _ => inferInstanceAs (Decidable False)
  | .error _ _, .ok _ _ => inferInstanceAs (Decidable False)

def dryly (input : ApplyPatchInput) : ApplyPatchInput := { input with dryRun := some true }

def really (input : ApplyPatchInput) : ApplyPatchInput := { input with dryRun := some false }

-- Where the decoder has the same state in both processes, or meets no byte order mark in a file the patch names.
theorem dry_run_predicts (sha256Hex : Units → String) (undoFaults : Nat → Option Fault) (input : ApplyPatchInput)
    (dry wet : PatchState) (same : wet.tree = dry.tree)
    (independent : ∀ planned, plan input = .ok planned → Independent dry.tree [] planned)
    (decoder : dry.bomSeen = wet.bomSeen ∨ ∀ planned, plan input = .ok planned → ∀ op ∈ planned, marked dry.tree op.absolute = false) :
    Agree (applyPatch sha256Hex noFaults undoFaults (dryly input) dry)
      (applyPatch sha256Hex noFaults undoFaults (really input) wet) := by
  have dryPlan : plan (dryly input) = plan input := rfl
  have wetPlan : plan (really input) = plan input := rfl
  rw [applyPatch, applyPatch, dryPlan, wetPlan]
  cases planning : plan input with
  | error refusal => trivial
  | ok planned =>
      have unmarked : dry.bomSeen = wet.bomSeen ∨ ∀ op ∈ planned, marked dry.tree op.absolute = false :=
        decoder.imp_right fun all => all planned planning
      rcases operations_agree sha256Hex dry.tree planned [] _ _ (coupled_start dry wet same) (independent planned planning)
        unmarked with ⟨dryAfter, wetAfter, dryRan, wetRan, report⟩ | ⟨⟨error, after, dryFailed⟩, other, thrown, wetFailed⟩
      · have dryly_true : dryRunOf (dryly input) = true := rfl
        have really_false : dryRunOf (really input) = false := rfl
        dsimp only
        rw [dryly_true, really_false, dryRan, wetRan]
        exact report
      · have dryly_true : dryRunOf (dryly input) = true := rfl
        have really_false : dryRunOf (really input) = false := rfl
        dsimp only
        rw [dryly_true, really_false, dryFailed, wetFailed]
        dsimp only
        split <;> split <;> trivial

theorem dry_run_predicts_all :
    let input := patching "*** Update File: a\n@@\n-one\n+two\n*** Delete File: a\n*** Add File: b/c\n+six\n*** Delete File: d"
    let state := freshWith [("a", one), ("d", one)]
    Agree (applyPatch Utf16.text noFaults noFaults (dryly input) state)
      (applyPatch Utf16.text noFaults noFaults (really input) { state with bomSeen := true }) := by
  intro input state
  have independent : Independent state.tree [] (plannedBy input) := by decide +kernel
  have unmarked : ∀ op ∈ plannedBy input, marked state.tree op.absolute = false := by decide +kernel
  apply dry_run_predicts Utf16.text noFaults input state { state with bomSeen := true } rfl
  · intro planned planning
    rw [plannedBy, planning] at independent
    exact independent
  · right
    intro planned planning
    rw [plannedBy, planning] at unmarked
    exact unmarked

-- A file added and then updated, added twice, updated twice or deleted and then added, one added in place of a directory
-- that an earlier add made or under a file, and a byte order mark that only the first decode drops.
theorem dry_run_misses :
    let added := "*** Add File: a\n+one\n"
    let deleted := "*** Delete File: a\n"
    let updated := "*** Update File: a\n@@\n-one\n+two\n"
    let below := "*** Add File: a/b\n+one\n"
    ∀ case ∈ [(added ++ updated, freshWith [], false), (added ++ added, freshWith [], false),
        (updated ++ updated, freshWith [("a", one)], false), (deleted ++ added, freshWith [("a", one)], false),
        (below ++ added, freshWith [], false), (below, freshWith [("a", one)], false),
        (updated, freshWith [("a", byteOrderMark ++ one)], true)],
      ¬ Agree (applyPatch Utf16.text noFaults noFaults (dryly (patching case.1)) case.2.1)
        (applyPatch Utf16.text noFaults noFaults (really (patching case.1)) { case.2.1 with bomSeen := case.2.2 }) := by
  decide +kernel

end Vacps.Files
