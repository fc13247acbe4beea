import Mathlib.Data.List.Infix

/- Trees of files and directories under paths of names. Whatever is in a tree is in a directory. -/
set_option autoImplicit false

namespace Library

inductive Node (β : Type) where
  | file (content : β)
  | directory
deriving DecidableEq

-- An entry shadows the later ones under its path.
structure FileTree (σ β : Type) [DecidableEq σ] where
  entries : List (List σ × Node β)
  root : entries.lookup [] = some .directory
  closed : ∀ path name node, entries.lookup (path ++ [name]) = some node → entries.lookup path = some .directory

namespace FileTree

variable {σ β : Type} [DecidableEq σ]

def node (tree : FileTree σ β) (path : List σ) : Option (Node β) := tree.entries.lookup path

def bare : FileTree σ β where
  entries := [([], .directory)]
  root := rfl
  closed := by
    intro path name node found
    have longer : (path ++ [name] == []) = false := by simp
    rw [List.lookup_cons, longer] at found
    cases found

theorem lookup_all (paths : List (List σ)) (node : Node β) (path : List σ) :
    (paths.map fun here => (here, node)).lookup path = if path ∈ paths then some node else none := by
  induction paths with
  | nil => rfl
  | cons here rest ih =>
      rw [List.map_cons, List.lookup_cons]
      by_cases same : path = here
      · simp [same]
      · have differs : (path == here) = false := by simpa using same
        rw [differs, ih]
        simp [same]

theorem lookup_filter (entries : List (List σ × Node β)) (keeps : List σ → Bool) (path : List σ) :
    (entries.filter fun entry => keeps entry.1).lookup path = if keeps path then entries.lookup path else none := by
  induction entries with
  | nil => simp
  | cons entry rest ih =>
      obtain ⟨here, node⟩ := entry
      rw [List.lookup_cons]
      cases kept : keeps here with
      | true =>
          rw [List.filter_cons_of_pos (by simpa using kept), List.lookup_cons, ih]
          cases same : path == here with
          | true =>
              rw [show path = here by simpa using same, kept]
              rfl
          | false => rfl
      | false =>
          rw [List.filter_cons_of_neg (by simpa using kept), ih]
          cases same : path == here with
          | true =>
              rw [show path = here by simpa using same, kept]
              rfl
          | false => rfl

-- What stands above a node is a directory.
theorem above_directory (tree : FileTree σ β) (path below : List σ) (node : Node β)
    (found : tree.node (path ++ below) = some node) (proper : below ≠ []) : tree.node path = some .directory := by
  induction below using List.reverseRecOn generalizing node with
  | nil => exact absurd rfl proper
  | append_singleton init last ih =>
      rw [← List.append_assoc] at found
      have parent := tree.closed (path ++ init) last node found
      by_cases empty : init = []
      · rw [empty, List.append_nil] at parent
        exact parent
      · exact ih .directory parent empty

-- A file can be written at the path.
def Writable (tree : FileTree σ β) (path : List σ) : Prop :=
  path ≠ [] ∧ tree.node path.dropLast = some .directory ∧ tree.node path ≠ some .directory

instance [DecidableEq β] (tree : FileTree σ β) (path : List σ) : Decidable (tree.Writable path) := by
  unfold Writable
  infer_instance

theorem no_child (tree : FileTree σ β) (path : List σ) (name : σ) (absent : tree.node path ≠ some .directory) :
    tree.node (path ++ [name]) = none := by
  cases there : tree.node (path ++ [name]) with
  | none => rfl
  | some node => exact absurd (tree.closed path name node there) absent

def write (tree : FileTree σ β) (path : List σ) (content : β) (writable : tree.Writable path) : FileTree σ β where
  entries := (path, .file content) :: tree.entries
  root := by
    have differs : ([] == path) = false := by simpa using writable.1.symm
    rw [List.lookup_cons, differs]
    exact tree.root
  closed := by
    intro parent name node found
    have apart : parent ≠ path := by
      intro same
      have child := tree.no_child path name writable.2.2
      rw [same, List.lookup_cons] at found
      have longer : (path ++ [name] == path) = false := by simp
      rw [longer] at found
      rw [FileTree.node] at child
      rw [child] at found
      cases found
    have differs : (parent == path) = false := by simpa using apart
    rw [List.lookup_cons, differs]
    rw [List.lookup_cons] at found
    cases here : parent ++ [name] == path with
    | true =>
        have same : parent ++ [name] = path := by simpa using here
        have above := writable.2.1
        rw [← same, List.dropLast_concat] at above
        exact above
    | false =>
        rw [here] at found
        exact tree.closed parent name node found

theorem node_write (tree : FileTree σ β) (path : List σ) (content : β) (writable : tree.Writable path) (other : List σ) :
    (tree.write path content writable).node other = if other = path then some (.file content) else tree.node other := by
  rw [node, write, List.lookup_cons]
  by_cases same : other = path
  · simp [same]
  · have differs : (other == path) = false := by simpa using same
    rw [differs, if_neg same]
    rfl

-- Every directory down to the path can be there.
def Free (tree : FileTree σ β) (path : List σ) : Prop := ∀ above ∈ path.inits, ∀ content, tree.node above ≠ some (.file content)

instance [DecidableEq β] (tree : FileTree σ β) (path : List σ) : Decidable (tree.Free path) :=
  decidable_of_iff (∀ above ∈ path.inits, (tree.node above = none ∨ tree.node above = some .directory)) (by
    unfold Free
    constructor
    · intro open_ above member content file
      rcases open_ above member with absent | directory
      · rw [absent] at file
        cases file
      · rw [directory] at file
        cases file
    · intro free above member
      cases here : tree.node above with
      | none => exact Or.inl rfl
      | some node =>
          cases node with
          | file content => exact absurd here (free above member content)
          | directory => exact Or.inr rfl)

def makeDirectories (tree : FileTree σ β) (path : List σ) : FileTree σ β where
  entries := path.inits.map (fun above => (above, .directory)) ++ tree.entries
  root := by
    rw [List.lookup_append, lookup_all, if_pos (by simp)]
    rfl
  closed := by
    intro parent name node found
    rw [List.lookup_append, lookup_all] at found ⊢
    by_cases above : parent ∈ path.inits
    · rw [if_pos above]
      rfl
    · have beyond : parent ++ [name] ∉ path.inits := by
        intro within
        rw [List.mem_inits] at within above
        exact above ((List.prefix_append parent [name]).trans within)
      rw [if_neg beyond] at found
      rw [if_neg above]
      exact tree.closed parent name node found

theorem node_make (tree : FileTree σ β) (path other : List σ) :
    (tree.makeDirectories path).node other = if other <+: path then some .directory else tree.node other := by
  rw [node, makeDirectories, List.lookup_append, lookup_all]
  by_cases above : other <+: path
  · rw [if_pos above, if_pos ((List.mem_inits _ _).mpr above)]
    rfl
  · rw [if_neg above, if_neg fun within => above ((List.mem_inits _ _).mp within)]
    rfl

def hasChildren (tree : FileTree σ β) (path : List σ) : Bool :=
  tree.entries.any fun entry => decide (entry.1 ≠ []) && decide (entry.1.dropLast = path)

theorem childless (tree : FileTree σ β) (path : List σ) (none_there : tree.hasChildren path = false) (name : σ) :
    tree.node (path ++ [name]) = none := by
  rw [node, List.lookup_eq_none_iff]
  intro entry member
  simp only [hasChildren, List.any_eq_false] at none_there
  have apart := none_there entry member
  simp only [Bool.and_eq_true, decide_eq_true_eq, not_and] at apart
  rw [bne_iff_ne]
  intro same
  exact apart (by simp [← same]) (by simp [← same])

def remove (tree : FileTree σ β) (path : List σ) (nonroot : path ≠ []) (leaf : ∀ name, tree.node (path ++ [name]) = none) :
    FileTree σ β where
  entries := tree.entries.filter fun entry => decide (entry.1 ≠ path)
  root := by
    rw [lookup_filter _ fun here => decide (here ≠ path), if_pos (decide_eq_true nonroot.symm)]
    exact tree.root
  closed := by
    intro parent name node found
    rw [lookup_filter _ fun here => decide (here ≠ path)] at found ⊢
    simp only [decide_eq_true_eq] at found ⊢
    by_cases gone : parent ++ [name] = path
    · rw [if_neg fun apart => apart gone] at found
      cases found
    · rw [if_pos gone] at found
      have apart : parent ≠ path := by
        intro same
        have absent := leaf name
        rw [FileTree.node, ← same] at absent
        rw [absent] at found
        cases found
      rw [if_pos apart]
      exact tree.closed parent name node found

theorem node_remove (tree : FileTree σ β) (path : List σ) (nonroot : path ≠ [])
    (leaf : ∀ name, tree.node (path ++ [name]) = none) (other : List σ) :
    (tree.remove path nonroot leaf).node other = if other = path then none else tree.node other := by
  rw [node, remove, lookup_filter _ fun here => decide (here ≠ path)]
  by_cases same : other = path
  · rw [if_pos same, if_neg (by simpa using same)]
  · rw [if_neg same, if_pos (decide_eq_true same)]
    rfl

-- What stays when all below the path goes but the spared entries and what is above them.
def stays (tree : FileTree σ β) (path : List σ) (spared : List σ → Bool) (other : List σ) : Bool :=
  decide (other = []) || !decide (path <+: other) ||
    tree.entries.any fun entry => spared entry.1 && decide (other <+: entry.1)

theorem stays_above (tree : FileTree σ β) (path : List σ) (spared : List σ → Bool) (parent other : List σ)
    (above : parent <+: other) (there : tree.stays path spared other = true) : tree.stays path spared parent = true := by
  simp only [stays, Bool.or_eq_true, decide_eq_true_eq, Bool.not_eq_true', decide_eq_false_iff_not, List.any_eq_true,
    Bool.and_eq_true] at there ⊢
  rcases there with (root | outside) | ⟨entry, member, kept, below⟩
  · rw [root, List.prefix_nil] at above
    exact Or.inl (Or.inl above)
  · exact Or.inl (Or.inr fun inside => outside (inside.trans above))
  · exact Or.inr ⟨entry, member, kept, above.trans below⟩

-- Directories made above the path spare nothing below it.
theorem stays_make (tree : FileTree σ β) (made path : List σ) (spared : List σ → Bool) (other : List σ)
    (higher : made <+: path.dropLast) : (tree.makeDirectories made).stays path spared other = tree.stays path spared other := by
  rw [Bool.eq_iff_iff]
  simp only [stays, Bool.or_eq_true, decide_eq_true_eq, Bool.not_eq_true', decide_eq_false_iff_not, List.any_eq_true,
    Bool.and_eq_true]
  refine or_congr_right' ?_
  intro inside
  rw [not_or, not_not] at inside
  constructor
  · rintro ⟨entry, member, kept, below⟩
    rcases List.mem_append.mp member with new | old
    · obtain ⟨above, within, rfl⟩ := List.mem_map.mp new
      have short := ((inside.2.trans below).trans ((List.mem_inits _ _).mp within)).trans higher
      have root : path = [] := by
        have lengths := short.length_le
        rw [List.length_dropLast] at lengths
        exact List.length_eq_zero_iff.mp (by omega)
      rw [root, List.dropLast_nil, List.prefix_nil] at higher
      rw [higher, List.mem_inits, List.prefix_nil] at within
      rw [within, List.prefix_nil] at below
      exact absurd below inside.1
    · exact ⟨entry, old, kept, below⟩
  · rintro ⟨entry, member, kept, below⟩
    exact ⟨entry, List.mem_append_right _ member, kept, below⟩

def prune (tree : FileTree σ β) (path : List σ) (spared : List σ → Bool) : FileTree σ β where
  entries := tree.entries.filter fun entry => tree.stays path spared entry.1
  root := by
    rw [lookup_filter, if_pos (by simp [stays])]
    exact tree.root
  closed := by
    intro parent name node found
    rw [lookup_filter] at found ⊢
    cases there : tree.stays path spared (parent ++ [name]) with
    | true =>
        rw [if_pos there] at found
        rw [if_pos (tree.stays_above path spared parent _ (List.prefix_append parent [name]) there)]
        exact tree.closed parent name node found
    | false =>
        rw [there] at found
        cases found

theorem node_prune (tree : FileTree σ β) (path : List σ) (spared : List σ → Bool) (other : List σ) :
    (tree.prune path spared).node other = if tree.stays path spared other then tree.node other else none :=
  lookup_filter tree.entries (tree.stays path spared) other

-- The entries below the source under the names they get below the target.
def relocated (entries : List (List σ × Node β)) (source target : List σ) : List (List σ × Node β) :=
  (entries.filter fun entry => decide (source <+: entry.1)).map fun entry =>
    (target ++ entry.1.drop source.length, entry.2)

theorem lookup_relocated (entries : List (List σ × Node β)) (source target path : List σ) :
    (relocated entries source target).lookup path =
      if target <+: path then entries.lookup (source ++ path.drop target.length) else none := by
  induction entries with
  | nil => simp [relocated]
  | cons entry rest ih =>
      obtain ⟨here, node⟩ := entry
      rw [List.lookup_cons]
      by_cases inside : source <+: here
      · obtain ⟨below, rfl⟩ := inside
        rw [relocated, List.filter_cons_of_pos (by simp), List.map_cons, List.drop_left, List.lookup_cons]
        rw [relocated] at ih
        by_cases same : path = target ++ below
        · simp [same]
        · have differs : (path == target ++ below) = false := by simpa using same
          rw [differs, ih]
          by_cases under : target <+: path
          · obtain ⟨rest_, rfl⟩ := under
            have apart : (source ++ rest_ == source ++ below) = false := by simpa using same
            rw [List.drop_left, apart]
          · rw [if_neg under, if_neg under]
      · rw [relocated, List.filter_cons_of_neg (by simpa using inside)]
        rw [relocated] at ih
        rw [ih]
        have apart : (source ++ path.drop target.length == here) = false := by
          rw [beq_eq_false_iff_ne]
          rintro rfl
          exact inside (List.prefix_append _ _)
        rw [apart]

-- What neither the source nor the target has below it.
def besides (source target other : List σ) : Bool := !decide (source <+: other) && !decide (target <+: other)

theorem lookup_moved (entries : List (List σ × Node β)) (source target path : List σ) :
    (relocated entries source target ++ entries.filter fun entry => besides source target entry.1).lookup path =
      if target <+: path then entries.lookup (source ++ path.drop target.length)
      else if source <+: path then none else entries.lookup path := by
  rw [List.lookup_append, lookup_relocated, lookup_filter, besides]
  by_cases inside : target <+: path
  · simp [inside]
  · by_cases leaving : source <+: path <;> simp [inside, leaving]

-- The source and all below it are moved to the target; what was there is gone.
def move (tree : FileTree σ β) (source target : List σ) (outside : ¬ source <+: target) (apart : ¬ target <+: source)
    (parent : tree.node target.dropLast = some .directory) : FileTree σ β where
  entries := relocated tree.entries source target ++ tree.entries.filter fun entry => besides source target entry.1
  root := by
    have source_some : ¬ source <+: [] := by
      rw [List.prefix_nil]
      rintro rfl
      exact outside List.nil_prefix
    have target_some : ¬ target <+: [] := by
      rw [List.prefix_nil]
      rintro rfl
      exact apart List.nil_prefix
    rw [lookup_moved, if_neg target_some, if_neg source_some]
    exact tree.root
  closed := by
    intro above name node found
    rw [lookup_moved] at found ⊢
    by_cases inside : target <+: above
    · obtain ⟨below, rfl⟩ := inside
      rw [List.append_assoc, if_pos (List.prefix_append _ _), List.drop_left, ← List.append_assoc] at found
      rw [if_pos (List.prefix_append _ _), List.drop_left]
      exact tree.closed (source ++ below) name node found
    · rw [if_neg inside]
      by_cases there : target <+: above ++ [name]
      · have same : target = above ++ [name] := (List.prefix_concat_iff.mp there).resolve_right inside
        rw [same, List.dropLast_concat] at parent
        have staying : ¬ source <+: above := fun leaving => outside (same ▸ leaving.trans (List.prefix_append _ _))
        rw [if_neg staying]
        exact parent
      · rw [if_neg there] at found
        by_cases leaving : source <+: above ++ [name]
        · rw [if_pos leaving] at found
          cases found
        · rw [if_neg leaving] at found
          rw [if_neg fun higher => leaving (higher.trans (List.prefix_append _ _))]
          exact tree.closed above name node found

theorem node_move (tree : FileTree σ β) (source target : List σ) (outside : ¬ source <+: target) (apart : ¬ target <+: source)
    (parent : tree.node target.dropLast = some .directory) (path : List σ) :
    (tree.move source target outside apart parent).node path =
      if target <+: path then tree.node (source ++ path.drop target.length)
      else if source <+: path then none else tree.node path :=
  lookup_moved tree.entries source target path

end FileTree

end Library
