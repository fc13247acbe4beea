import Mathlib.Data.List.Lex
import Mathlib.Data.List.Sort
import Mathlib.Data.Rat.Floor
import Vacps.ControlPlane.ScheduleService
import Vacps.Library.Base64
import Vacps.Library.JsonText

/- mcp/server.ts: encodeQueryCursor and decodeQueryCursor. A cursor carries the offset and a fingerprint of the
   filters, whose keys are sorted and whose values are printed as they are. -/
set_option autoImplicit false

namespace Vacps.Cursors

open Library Library.Utf16 Library.JsonText
open ControlPlane (AppError)

-- The members of an object in the order JavaScript lists them.
structure JsObject (V : Type) where
  members : List (Units × V)
  distinct : (members.map Prod.fst).Nodup

inductive FilterValue where
  | text (value : Units)
  | flag (value : Bool)
  | labels (labels : JsObject Units)

-- The filters are named by the server, by names without the sign that ends them in the fingerprint.
structure QueryFilters extends JsObject FilterValue where
  named : ∀ member ∈ members, 61 ∉ member.1

inductive CursorThrown where
  | app (error : AppError) (details : Option (Units × Value))
  -- What atob, JSON.parse or the property read throws.
  | platform (name : String)

section server

-- JSON.stringify(query[k] ?? null)
def valueText : Option FilterValue → Units
  | none => units "null"
  | some (.text value) => quote value
  | some (.flag value) => units (toString value)
  | some (.labels labels) => objectText (labels.members.map fun label => (label.1, quote label.2))

-- Array#sort without a comparison goes by code units.
def inOrder (first second : Units) : Prop := first.map UInt16.toNat ≤ second.map UInt16.toNat

instance : DecidableRel inOrder := fun first second => inferInstanceAs (Decidable (first.map UInt16.toNat ≤ second.map UInt16.toNat))

def sortedKeys (query : QueryFilters) : List Units := (query.members.map Prod.fst).insertionSort inOrder

def filterText (filter : Units × Option FilterValue) : Units := filter.1 ++ 61 :: valueText filter.2

def joinedFilters (filters : List (Units × Option FilterValue)) : Units := [38].intercalate (filters.map filterText)

def stableQueryKey (query : QueryFilters) : Units :=
  joinedFilters ((sortedKeys query).map fun key => (key, query.members.lookup key))

def cursorText (offset : Nat) (query : QueryFilters) : Units :=
  objectText [(units "o", naturalText offset), (units "q", quote (stableQueryKey query))]

def encodeQueryCursor (offset : Nat) (query : QueryFilters) : String :=
  String.ofList (Base64.encodeUrl (encode (cursorText offset query)))

def invalidCursor : CursorThrown := .app ⟨"validation_error", "Invalid cursor.", 400⟩ none

def cursorQueryMismatch : AppError :=
  ⟨"cursor_query_mismatch", "Cursor does not match the current list filters. Restart pagination from the first page.", 400⟩

def cursorUnbound : AppError :=
  ⟨"cursor_query_mismatch", "Cursor is missing query binding for filtered list. Restart pagination.", 400⟩

def property (name : String) : Value → Option Value
  | .object members => members.reverse.lookup (units name)
  | _ => none

def isText (expected : Units) : Value → Bool
  | .string text => decide (text = expected)
  | _ => false

def checkBinding (offset : Rat) (expected : Units) (query : QueryFilters) : Option Value → Except CursorThrown Nat
  | some bound =>
      if isText expected bound then .ok offset.floor.toNat else .error (.app cursorQueryMismatch (some (expected, bound)))
  | none => if query.members.isEmpty then .ok offset.floor.toNat else .error (.app cursorUnbound none)

def checkCursor (decoded : Value) (query : QueryFilters) : Except CursorThrown Nat :=
  match property "o" decoded with
  | some (.number offset) =>
      if offset < 0 then .error invalidCursor else checkBinding offset (stableQueryKey query) query (property "q" decoded)
  | _ => .error invalidCursor

def decodeQueryCursor (cursor : String) (query : QueryFilters) : Except CursorThrown Nat :=
  let padded := cursor.toList.map Base64.standard
  match Base64.atob (padded ++ List.replicate ((4 - padded.length % 4) % 4) '=') with
  | none => .error (.platform "InvalidCharacterError")
  | some bytes =>
      match parse (utf16Code.words (Utf8.repaired bytes)) with
      | none => .error (.platform "SyntaxError")
      | some .null => .error (.platform "TypeError")
      | some decoded => checkCursor decoded query

end server

section filters

-- The same map, whatever the order of its labels.
def SameFilter : Option FilterValue → Option FilterValue → Prop
  | some (.labels first), some (.labels second) => ∀ name, first.members.lookup name = second.members.lookup name
  | first, second => first = second

def SameFilters (first second : QueryFilters) : Prop :=
  ∀ key, SameFilter (first.members.lookup key) (second.members.lookup key)

-- A cursor for the one query is good for the other just when they are the same maps.
def Binds (first second : QueryFilters) : Prop :=
  ∀ offset, (SameFilters first second → decodeQueryCursor (encodeQueryCursor offset first) second = .ok offset) ∧
    (¬ SameFilters first second → ∃ details,
      decodeQueryCursor (encodeQueryCursor offset first) second = .error (.app cursorQueryMismatch details))

end filters

section reading

def valueOf : Option FilterValue → Value
  | none => .null
  | some (.text value) => .string value
  | some (.flag value) => .bool value
  | some (.labels labels) => .object (labels.members.map fun label => (label.1, .string label.2))

def fuelFor : Option FilterValue → Nat
  | some (.labels labels) => labels.members.length + 2
  | _ => 1

theorem value_injective (first second : Option FilterValue) (same : valueOf first = valueOf second) : first = second := by
  have labelled : Function.Injective fun label : Units × Units => (label.1, Value.string label.2) := by
    intro one other equal
    exact Prod.ext (Prod.mk.inj equal).1 (Value.string.inj (Prod.mk.inj equal).2)
  rcases first with _ | (_ | _ | ⟨members, distinct⟩) <;> rcases second with _ | (_ | _ | ⟨others, apart⟩) <;>
    try cases same
  · rfl
  · rfl
  · rfl
  · have equal := List.map_injective_iff.mpr labelled (Value.object.inj same)
    cases equal
    rfl

theorem read_value_text (filter : Option FilterValue) (fuel : Nat) (rest : Units) (enough : fuelFor filter ≤ fuel) :
    readValue fuel (valueText filter ++ rest) = some (valueOf filter, rest) := by
  obtain ⟨less, rfl⟩ : ∃ less, fuel = less + 1 := by
    refine ⟨fuel - 1, ?_⟩
    rcases filter with _ | (_ | _ | labels) <;> simp only [fuelFor] at enough <;> omega
  rcases filter with _ | (value | value | labels)
  · exact read_null_value less rest
  · exact read_string_value less value rest
  · exact read_bool_value less value rest
  · refine read_object_value 1 _ _ rest less ?_ ?_
    · rw [List.forall₂_map_left_iff, List.forall₂_map_right_iff, List.forall₂_same]
      intro label _
      refine ⟨rfl, fun fuel rest enough _ => ?_⟩
      obtain ⟨inner, rfl⟩ : ∃ inner, fuel = inner + 1 := ⟨fuel - 1, by omega⟩
      exact read_string_value inner label.2 rest
    · rw [List.length_map]
      simp only [fuelFor] at enough
      omega

theorem until_sign (key rest : Units) (plain : 61 ∉ key) : (key ++ 61 :: rest).takeWhile (fun unit => unit ≠ 61) = key := by
  rw [List.takeWhile_append_of_pos, List.takeWhile_cons_of_neg (by simp), List.append_nil]
  intro unit member
  rw [decide_eq_true_eq]
  rintro rfl
  exact plain member

theorem joined_cons (filter : Units × Option FilterValue) (rest : List (Units × Option FilterValue)) :
    joinedFilters (filter :: rest) =
      filter.1 ++ 61 :: (valueText filter.2 ++ if rest = [] then [] else 38 :: joinedFilters rest) := by
  cases rest with
  | nil => simp [joinedFilters, filterText]
  | cons second others =>
      rw [joinedFilters, List.map_cons, List.map_cons, List.intercalate_cons_cons, ← List.map_cons]
      simp [joinedFilters, filterText]

-- The fingerprint can be read back: a name ends at its first sign, and a value is followed by the next name or nothing.
theorem joined_injective (first second : List (Units × Option FilterValue)) (named : ∀ filter ∈ first, 61 ∉ filter.1)
    (namedToo : ∀ filter ∈ second, 61 ∉ filter.1) (same : joinedFilters first = joinedFilters second) : first = second := by
  induction first generalizing second with
  | nil =>
      cases second with
      | nil => rfl
      | cons filter rest =>
          rw [joined_cons] at same
          simp [joinedFilters] at same
  | cons filter rest ih =>
      cases second with
      | nil =>
          rw [joined_cons] at same
          simp [joinedFilters] at same
      | cons other others =>
          rw [joined_cons, joined_cons] at same
          have keys := congrArg (List.takeWhile fun unit => unit ≠ 61) same
          rw [until_sign _ _ (named filter (by simp)), until_sign _ _ (namedToo other (by simp))] at keys
          rw [keys] at same
          have values := (List.cons.inj (List.append_cancel_left same)).2
          have read := congrArg (readValue (max (fuelFor filter.2) (fuelFor other.2))) values
          rw [read_value_text _ _ _ (le_max_left _ _), read_value_text _ _ _ (le_max_right _ _)] at read
          obtain ⟨sameValue, tails⟩ := Prod.mk.inj (Option.some.inj read)
          have equal : filter = other := Prod.ext keys (value_injective _ _ sameValue)
          have later : rest = others := by
            by_cases none_ : rest = [] <;> by_cases noneToo : others = []
            · rw [none_, noneToo]
            · rw [if_pos none_, if_neg noneToo] at tails
              cases tails
            · rw [if_neg none_, if_pos noneToo] at tails
              cases tails
            · rw [if_neg none_, if_neg noneToo] at tails
              exact ih others (fun filter member => named filter (by simp [member]))
                (fun filter member => namedToo filter (by simp [member])) (List.cons.inj tails).2
          rw [equal, later]

theorem sort_pairwise (keys : List Units) : (keys.insertionSort inOrder).Pairwise inOrder := by
  have : Std.Total inOrder := ⟨fun first second => le_total (first.map UInt16.toNat) (second.map UInt16.toNat)⟩
  have : IsTrans Units inOrder := ⟨fun _ _ _ before behind => le_trans before behind⟩
  exact List.pairwise_insertionSort _ _

-- The sorted keys do not depend on the order they came in.
theorem sort_unique (first second : List Units) (perm : first.Perm second) :
    first.insertionSort inOrder = second.insertionSort inOrder := by
  have sorted : (first.insertionSort inOrder).Perm (second.insertionSort inOrder) :=
    (List.perm_insertionSort _ _).trans (perm.trans (List.perm_insertionSort _ _).symm)
  refine sorted.eq_of_pairwise ?_ (sort_pairwise first) (sort_pairwise second)
  intro one other _ _ before behind
  exact List.map_injective_iff.mpr (fun _ _ => UInt16.toNat_inj.mp) (le_antisymm before behind)

theorem key_listed {V : Type} (members : List (Units × V)) (key : Units) :
    key ∈ members.map Prod.fst ↔ members.lookup key ≠ none := by
  rw [Ne, List.lookup_eq_none_iff]
  simp only [List.mem_map, bne_iff_ne, ne_eq, not_forall, not_not]
  constructor
  · rintro ⟨member, inside, rfl⟩
    exact ⟨member, inside, rfl⟩
  · rintro ⟨member, inside, rfl⟩
    exact ⟨member, inside, rfl⟩

-- Two lists of members that look up the same have the same keys.
theorem keys_perm {V : Type} (first second : List (Units × V)) (distinct : (first.map Prod.fst).Nodup)
    (distinctToo : (second.map Prod.fst).Nodup) (same : ∀ key, first.lookup key = none ↔ second.lookup key = none) :
    (first.map Prod.fst).Perm (second.map Prod.fst) := by
  rw [List.perm_ext_iff_of_nodup distinct distinctToo]
  intro key
  rw [key_listed, key_listed, Ne, Ne, same]

theorem sorted_perm (query : QueryFilters) : (sortedKeys query).Perm (query.members.map Prod.fst) := List.perm_insertionSort _ _

theorem lookup_listed (query : QueryFilters) (key : Units) : key ∈ sortedKeys query ↔ query.members.lookup key ≠ none := by
  rw [(sorted_perm query).mem_iff, key_listed]

theorem sorted_same (first second : QueryFilters) (same : ∀ key, first.members.lookup key = second.members.lookup key) :
    sortedKeys first = sortedKeys second :=
  sort_unique _ _ (keys_perm _ _ first.distinct second.distinct fun key => by rw [same])

theorem key_iff (first second : QueryFilters) :
    stableQueryKey first = stableQueryKey second ↔ ∀ key, first.members.lookup key = second.members.lookup key := by
  constructor
  · intro same key
    have named : ∀ query : QueryFilters, ∀ filter ∈ (sortedKeys query).map fun key => (key, query.members.lookup key),
        61 ∉ filter.1 := by
      intro query filter member
      obtain ⟨key, inside, rfl⟩ := List.mem_map.mp member
      obtain ⟨found, listed, rfl⟩ := List.mem_map.mp ((sorted_perm query).mem_iff.mp inside)
      exact query.named found listed
    have filters := joined_injective _ _ (named first) (named second) same
    have keys : sortedKeys first = sortedKeys second := by
      have firsts := congrArg (List.map Prod.fst) filters
      rw [List.map_map, List.map_map] at firsts
      exact (List.map_id _).symm.trans (firsts.trans (List.map_id _))
    by_cases listed : key ∈ sortedKeys first
    · rw [keys, List.map_inj_left] at filters
      exact (Prod.mk.inj (filters key (keys ▸ listed))).2
    · have absent := listed
      rw [keys, lookup_listed, not_not] at absent
      rw [lookup_listed, not_not] at listed
      rw [listed, absent]
  · intro same
    rw [stableQueryKey, stableQueryKey, sorted_same first second same]
    simp only [same]

end reading

section cursors

theorem parse_cursor (offset : Nat) (query : QueryFilters) :
    parse (cursorText offset query) =
      some (.object [(units "o", .number offset), (units "q", .string (stableQueryKey query))]) := by
  have each : List.Forall₂ (PrintsMember 1) [(units "o", naturalText offset), (units "q", quote (stableQueryKey query))]
      [(units "o", .number offset), (units "q", .string (stableQueryKey query))] := by
    refine .cons ⟨rfl, ?_⟩ (.cons ⟨rfl, ?_⟩ .nil)
    · intro fuel rest enough closes
      obtain ⟨less, rfl⟩ : ∃ less, fuel = less + 1 := ⟨fuel - 1, by omega⟩
      exact read_natural_value less offset rest closes
    · intro fuel rest enough _
      obtain ⟨less, rfl⟩ : ∃ less, fuel = less + 1 := ⟨fuel - 1, by omega⟩
      exact read_string_value less _ rest
  have read := read_object_value 1 _ _ [] (2 * (cursorText offset query).length + 1) each (by
    have long : 2 ≤ (cursorText offset query).length := by simp [cursorText, objectText]
    simp only [List.length_cons, List.length_nil]
    omega)
  rw [List.append_nil] at read
  rw [parse, cursorText] at *
  rw [read]
  rfl

theorem cursor_unmarked (letters : List Char) (more : Units) (same : utf16Code.words letters = 123 :: more) :
    ¬ Utf8.byteOrderMark <+: Utf8.utf8Code.words letters := by
  intro marked
  cases letters with
  | nil => cases same
  | cons letter rest =>
      have mark : Utf8.utf8Code.first (Utf8.utf8Code.words (letter :: rest)) = some (Char.ofNat 0xFEFF) :=
        (Utf8.utf8Code.first_iff _ _).mpr marked
      rw [Code.words_cons, Code.first_word] at mark
      rw [Option.some.inj mark] at same
      exact absurd (List.cons.inj same).1 (by decide)

-- What the decoder sees of a cursor of its own.
theorem decode_own (offset : Nat) (first second : QueryFilters) :
    decodeQueryCursor (encodeQueryCursor offset first) second =
      checkCursor (.object [(units "o", .number offset), (units "q", .string (stableQueryKey first))]) second := by
  have whole : Whole (cursorText offset first) := by
    refine whole_object _ fun member listed => ?_
    rcases List.mem_pair.mp listed with rfl | rfl
    · exact whole_natural offset
    · exact whole_quote _
  obtain ⟨letters, spelled⟩ := whole
  have unmarked := cursor_unmarked letters _ spelled.symm
  have bytes : Utf8.repaired (encode (cursorText offset first)) = letters := by
    rw [spelled, encode_words, Utf8.repaired_words letters unmarked]
  have read := Base64.atob_padded (encode (cursorText offset first))
  have length : ((Base64.encodeUrl (encode (cursorText offset first))).map Base64.standard).length =
      (Base64.encodeUrl (encode (cursorText offset first))).length := List.length_map _
  rw [decodeQueryCursor, encodeQueryCursor, String.toList_ofList]
  simp only [length, read]
  rw [bytes, ← spelled, parse_cursor]

theorem decode_encode (offset : Nat) (first second : QueryFilters) :
    decodeQueryCursor (encodeQueryCursor offset first) second =
      if stableQueryKey first = stableQueryKey second then .ok offset
      else .error (.app cursorQueryMismatch (some (stableQueryKey second, .string (stableQueryKey first)))) := by
  have names : (units "o" == units "q") = false := by decide
  have positive : ¬ (offset : Rat) < 0 := not_lt.mpr (Nat.cast_nonneg offset)
  have whole : (offset : Rat).floor.toNat = offset := by
    rw [← Int.cast_natCast, Rat.floor_intCast, Int.toNat_natCast]
  rw [decode_own, checkCursor, property, property]
  simp only [List.reverse_cons, List.reverse_nil, List.nil_append, List.singleton_append, List.lookup_cons, names,
    BEq.rfl, if_neg positive, checkBinding, isText, decide_eq_true_eq, whole]

-- A cursor is bound to its query up to the order of the keys, but not up to the order of a filter's labels.
theorem cursor_binds_iff (first second : QueryFilters) :
    Binds first second ↔ (SameFilters first second → ∀ key, first.members.lookup key = second.members.lookup key) := by
  have reflexive : (∀ key, first.members.lookup key = second.members.lookup key) → SameFilters first second := by
    intro same key
    rw [same key]
    rcases second.members.lookup key with _ | (_ | _ | labels) <;> first | rfl | exact fun _ => rfl
  constructor
  · intro binds alike
    have decoded := (binds 0).1 alike
    rw [decode_encode] at decoded
    split at decoded
    · rename_i same
      exact (key_iff first second).mp same
    · cases decoded
  · intro ordered offset
    rw [decode_encode]
    constructor
    · intro alike
      exact if_pos ((key_iff first second).mpr (ordered alike))
    · intro differ
      exact ⟨some (stableQueryKey second, .string (stableQueryKey first)), if_neg fun same =>
        differ (reflexive ((key_iff first second).mp same))⟩

def labelled (labels : JsObject Units) : QueryFilters where
  members := [(units "labels", .labels labels)]
  distinct := List.nodup_singleton _
  named := by
    intro member listed
    have plain : 61 ∉ units "labels" := by decide
    rw [List.mem_singleton.mp listed]
    exact plain

def suiteFirst : JsObject Units := ⟨[(units "suite", units "api"), (units "purpose", units "smoke")], by decide⟩

def purposeFirst : JsObject Units := ⟨[(units "purpose", units "smoke"), (units "suite", units "api")], by decide⟩

theorem labels_swapped : SameFilters (labelled suiteFirst) (labelled purposeFirst) := by
  intro key
  rw [labelled, labelled, List.lookup_cons, List.lookup_cons]
  cases key == units "labels" with
  | false => rfl
  | true =>
      intro name
      have apart : (units "suite" == units "purpose") = false := by decide
      rw [suiteFirst, purposeFirst]
      simp only [List.lookup_cons]
      cases suite : name == units "suite" with
      | true =>
          rw [beq_iff_eq.mp suite, apart]
      | false => cases name == units "purpose" <;> rfl

-- The same two labels in another order are another query to the cursor.
theorem swapped_labels_mismatch : ¬ Binds (labelled suiteFirst) (labelled purposeFirst) := by
  intro binds
  have decoded := (binds 50).1 labels_swapped
  rw [decode_encode] at decoded
  split at decoded
  · rename_i same
    have found := (key_iff _ _).mp same (units "labels")
    have equal : suiteFirst.members = purposeFirst.members :=
      congrArg JsObject.members (FilterValue.labels.inj (Option.some.inj found))
    exact absurd equal (by decide)
  · cases decoded

end cursors

end Vacps.Cursors
