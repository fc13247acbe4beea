import Mathlib.Data.List.Nodup
import Mathlib.Tactic.Tauto

/- Tables of rows under a unique key, in insertion order. -/
set_option autoImplicit false

namespace Library

structure Table (κ ρ : Type) (key : ρ → κ) where
  rows : List ρ
  unique : (rows.map key).Nodup

namespace Table

variable {κ ρ : Type} [DecidableEq κ] {key : ρ → κ}

def find? (table : Table κ ρ key) (k : κ) : Option ρ := table.rows.find? fun row => decide (key row = k)

def empty : Table κ ρ key := ⟨[], List.nodup_nil⟩

theorem find_none_iff (table : Table κ ρ key) (k : κ) : table.find? k = none ↔ k ∉ table.rows.map key := by
  simp [find?]

def insert (table : Table κ ρ key) (row : ρ) (fresh : table.find? (key row) = none) : Table κ ρ key where
  rows := table.rows ++ [row]
  unique := by
    have absent := (table.find_none_iff (key row)).mp fresh
    rw [List.map_append, List.nodup_append]
    refine ⟨table.unique, List.nodup_singleton _, ?_⟩
    intro a before b last same
    rw [List.map_singleton, List.mem_singleton] at last
    exact absent (last ▸ same ▸ before)

def update (table : Table κ ρ key) (selects : ρ → Bool) (change : ρ → ρ) (keeps : ∀ row, key (change row) = key row) :
    Table κ ρ key where
  rows := table.rows.map fun row => if selects row then change row else row
  unique := by
    have same : ∀ row, key (if selects row then change row else row) = key row := by
      intro row
      split
      · exact keeps row
      · rfl
    simpa only [List.map_map, Function.comp_def, same] using table.unique

def delete (table : Table κ ρ key) (selects : ρ → Bool) : Table κ ρ key where
  rows := table.rows.filter fun row => !selects row
  unique := table.unique.sublist (List.filter_sublist.map key)

theorem find_mem (table : Table κ ρ key) (k : κ) (row : ρ) (found : table.find? k = some row) : row ∈ table.rows :=
  List.mem_of_find?_eq_some found

theorem find_key (table : Table κ ρ key) (k : κ) (row : ρ) (found : table.find? k = some row) : key row = k := by
  have selected := List.find?_some (p := fun row => decide (key row = k)) found
  exact of_decide_eq_true selected

theorem find_of_mem (table : Table κ ρ key) (row : ρ) (member : row ∈ table.rows) : table.find? (key row) = some row := by
  obtain ⟨rows, unique⟩ := table
  simp only [find?]
  induction rows with
  | nil => cases member
  | cons first rest ih =>
      obtain ⟨absent, restUnique⟩ := List.nodup_cons.mp unique
      by_cases same : key first = key row
      · rcases List.mem_cons.mp member with here | later
        · rw [here, List.find?_cons_of_pos (by simp)]
        · exact absurd (same ▸ List.mem_map_of_mem later) absent
      · have later : row ∈ rest := (List.mem_cons.mp member).resolve_left fun here => same (here ▸ rfl)
        rw [List.find?_cons_of_neg (by simpa using same)]
        exact ih restUnique later

theorem find_iff (table : Table κ ρ key) (k : κ) (row : ρ) :
    table.find? k = some row ↔ row ∈ table.rows ∧ key row = k := by
  refine ⟨fun found => ⟨table.find_mem k row found, table.find_key k row found⟩, ?_⟩
  intro stored
  exact stored.2 ▸ table.find_of_mem row stored.1

theorem find_insert (table : Table κ ρ key) (row : ρ) (fresh : table.find? (key row) = none) (k : κ) :
    (table.insert row fresh).find? k = if key row = k then some row else table.find? k := by
  simp only [find?, Table.insert, List.find?_append]
  by_cases same : key row = k
  · subst same
    rw [find?] at fresh
    simp [fresh]
  · simp [same]

theorem find_delete (table : Table κ ρ key) (k other : κ) :
    (table.delete fun row => decide (key row = k)).find? other = if k = other then none else table.find? other := by
  simp only [find?, delete, List.find?_filter]
  by_cases same : k = other
  · subst same
    simp
  · rw [if_neg same]
    congr 1
    funext row
    by_cases here : key row = other
    · simp [here, Ne.symm same]
    · simp [here]

-- A DELETE by any test leaves the row under a key unless the test takes it.
theorem find_remaining (table : Table κ ρ key) (selects : ρ → Bool) (k : κ) :
    (table.delete selects).find? k = (table.find? k).filter fun row => !selects row := by
  refine Option.ext ?_
  intro row
  have stays : row ∈ (table.delete selects).rows ↔ row ∈ table.rows ∧ selects row = false := by
    simp only [delete, List.mem_filter, Bool.not_eq_true']
  rw [find_iff, stays, Option.filter_eq_some_iff, find_iff]
  simp only [Bool.not_eq_true']
  tauto

theorem find_update (table : Table κ ρ key) (selects : ρ → Bool) (change : ρ → ρ)
    (keeps : ∀ row, key (change row) = key row) (k : κ) :
    (table.update selects change keeps).find? k =
      (table.find? k).map fun row => if selects row then change row else row := by
  have same : ∀ row, key (if selects row then change row else row) = key row := by
    intro row
    split
    · exact keeps row
    · rfl
  simp only [find?, update, List.find?_map, Function.comp_def, same]

-- What the change does not touch is as it was in the row found.
theorem map_find_update {β : Type} (table : Table κ ρ key) (selects : ρ → Bool) (change : ρ → ρ)
    (keeps : ∀ row, key (change row) = key row) (k : κ) (read : ρ → β) (same : ∀ row, read (change row) = read row) :
    ((table.update selects change keeps).find? k).map read = (table.find? k).map read := by
  rw [find_update, Option.map_map]
  congr 1
  funext row
  simp only [Function.comp_apply]
  split
  · exact same row
  · rfl

omit [DecidableEq κ] in
theorem update_unselected (table : Table κ ρ key) (selects : ρ → Bool) (change : ρ → ρ)
    (keeps : ∀ row, key (change row) = key row) (unselected : table.rows.countP selects = 0) :
    table.update selects change keeps = table := by
  obtain ⟨rows, unique⟩ := table
  have same : rows.map (fun row => if selects row then change row else row) = rows := by
    calc rows.map (fun row => if selects row then change row else row) = rows.map id := by
          refine List.map_congr_left ?_
          intro row member
          rw [if_neg (List.countP_eq_zero.mp unselected row member)]
          rfl
      _ = rows := List.map_id rows
  simp only [update, same]

-- A statement that selects by key and one more test touches the row under that key or none.
theorem count_selected (table : Table κ ρ key) (k : κ) (test : ρ → Bool) :
    table.rows.countP (fun row => decide (key row = k) && test row) = (table.find? k).toList.countP test := by
  obtain ⟨rows, unique⟩ := table
  simp only [find?]
  induction rows with
  | nil => rfl
  | cons first rest ih =>
      obtain ⟨absent, restUnique⟩ := List.nodup_cons.mp unique
      by_cases same : key first = k
      · have others : rest.countP (fun row => decide (key row = k) && test row) = 0 := by
          rw [List.countP_eq_zero]
          intro row later
          have different : key row ≠ k := fun again => absent (same.trans again.symm ▸ List.mem_map_of_mem later)
          simp [different]
        rw [List.countP_cons, others, List.find?_cons_of_pos (by simpa using same)]
        simp [same, List.countP_cons]
      · rw [List.countP_cons, List.find?_cons_of_neg (by simpa using same)]
        simpa [same] using ih restUnique

-- A row in the place of the one under its key, or behind all rows when there is none.
def put (table : Table κ ρ key) (row : ρ) : Table κ ρ key :=
  if fresh : table.find? (key row) = none then table.insert row fresh
  else
    table.update (fun old => decide (key old = key row)) (fun old => if key old = key row then row else old) fun old => by
      split
      · exact Eq.symm ‹_›
      · rfl

theorem find_put (table : Table κ ρ key) (row : ρ) (k : κ) :
    (table.put row).find? k = if key row = k then some row else table.find? k := by
  unfold put
  split
  · exact table.find_insert row _ k
  · rename_i present
    rw [find_update]
    by_cases same : key row = k
    · subst same
      obtain ⟨old, found⟩ := Option.ne_none_iff_exists'.mp present
      have here := table.find_key _ old found
      rw [found, Option.map_some, if_pos rfl, if_pos (by simpa using here), if_pos here]
    · rw [if_neg same]
      cases found : table.find? k with
      | none => rfl
      | some old =>
          have here := table.find_key _ old found
          rw [Option.map_some, if_neg (by simpa [here] using Ne.symm same)]

theorem put_length (table : Table κ ρ key) (row : ρ) :
    (table.put row).rows.length = if table.find? (key row) = none then table.rows.length + 1 else table.rows.length := by
  unfold put
  split
  · exact List.length_append
  · exact List.length_map _

theorem mem_put (table : Table κ ρ key) (row other : ρ) :
    other ∈ (table.put row).rows ↔ other = row ∨ (other ∈ table.rows ∧ key other ≠ key row) := by
  have stored : ∀ (any : Table κ ρ key), other ∈ any.rows ↔ any.find? (key other) = some other := by
    intro any
    exact ⟨any.find_of_mem other, any.find_mem _ other⟩
  rw [stored, stored, find_put]
  by_cases same : key row = key other
  · rw [if_pos same]
    refine ⟨fun here => Or.inl (Option.some.inj here).symm, ?_⟩
    rintro (here | ⟨_, different⟩)
    · rw [here]
    · exact absurd same.symm different
  · rw [if_neg same]
    refine ⟨fun here => Or.inr ⟨here, Ne.symm same⟩, ?_⟩
    rintro (here | ⟨found, _⟩)
    · exact absurd (here ▸ rfl) same
    · exact found

theorem put_fresh (table : Table κ ρ key) (row : ρ) (fresh : table.find? (key row) = none) :
    (table.put row).rows = table.rows ++ [row] := by
  unfold put
  rw [dif_pos fresh]
  rfl

-- A column that the new row has from the old one stays.
theorem put_column {β : Type} (table : Table κ ρ key) (row old : ρ) (found : table.find? (key row) = some old) (column : ρ → β)
    (same : column row = column old) : (table.put row).rows.map column = table.rows.map column := by
  unfold put
  rw [dif_neg (by rw [found]; exact Option.some_ne_none old)]
  simp only [update, List.map_map]
  refine List.map_congr_left fun other member => ?_
  by_cases here : key other = key row
  · have old_here : other = old := by
      have again := table.find_of_mem other member
      rw [here, found] at again
      exact (Option.some.inj again).symm
    simp only [Function.comp_apply, here, decide_true, if_true]
    rw [same, old_here]
  · simp only [Function.comp_apply, here, decide_false, Bool.false_eq_true, if_false]

omit [DecidableEq κ] in
theorem delete_shorter (table : Table κ ρ key) (selects : ρ → Bool) (row : ρ) (member : row ∈ table.rows) (selected : selects row = true) :
    (table.delete selects).rows.length < table.rows.length :=
  List.length_filter_lt_length_iff_exists.mpr ⟨row, member, by simp [selected]⟩

end Table

end Library
