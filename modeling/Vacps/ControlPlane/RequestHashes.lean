import Vacps.Contracts.NumberText
import Vacps.ControlPlane.QueryCursor

/- stableStringify and the request hashes over it: its copies in task-service.ts, in schedule-service.ts and in the
   agent's runtime/idempotency.ts. -/
set_option autoImplicit false

namespace Vacps.RequestHashes

open Library Library.Utf16 Library.JsonText
open Cursors (inOrder)

section sources

-- Object.keys(record).sort(), each key with record[key].
def sortedMembers {V : Type} (record : List (Units × V)) : List (Units × V) :=
  ((record.map Prod.fst).insertionSort inOrder).filterMap fun key => (record.lookup key).map fun value => (key, value)

variable (sha256Hex : List UInt8 → String)

namespace Tasks

def stableStringify : Value → Units
  | .null => units "null"
  | .bool value => units (toString value)
  | .number value => numberText value
  | .string text => quote text
  | .array items => arrayText (items.map stableStringify)
  | .object record => objectText (sortedMembers (record.map fun member => (member.1, stableStringify member.2)))
decreasing_by
  · exact item_smaller _ _ ‹_›
  · exact member_smaller _ _ ‹_›

def hashOpaque (value : Value) : String := "sha256:" ++ sha256Hex (encode (stableStringify value))

end Tasks

namespace Schedules

def stableStringify : Value → Units
  | .null => units "null"
  | .bool value => units (toString value)
  | .number value => numberText value
  | .string text => quote text
  | .array items => arrayText (items.map stableStringify)
  | .object record => objectText (sortedMembers (record.map fun member => (member.1, stableStringify member.2)))
decreasing_by
  · exact item_smaller _ _ ‹_›
  · exact member_smaller _ _ ‹_›

def hashOpaque (value : Value) : String := "sha256:" ++ sha256Hex (encode (stableStringify value))

end Schedules

namespace Idempotency

def stableStringify : Value → Units
  | .null => units "null"
  | .bool value => units (toString value)
  | .number value => numberText value
  | .string text => quote text
  | .array items => arrayText (items.map stableStringify)
  | .object record => objectText (sortedMembers (record.map fun member => (member.1, stableStringify member.2)))
decreasing_by
  · exact item_smaller _ _ ‹_›
  · exact member_smaller _ _ ‹_›

def hashRequest (payload : Value) : String := "sha256:" ++ sha256Hex (encode (stableStringify payload))

end Idempotency

end sources

section values

-- Numbers are doubles, and an object has a key once.
inductive IsJson : Value → Prop where
  | null : IsJson .null
  | bool (value : Bool) : IsJson (.bool value)
  | number (value : Rat) (double : IsDouble value) : IsJson (.number value)
  | string (text : Units) : IsJson (.string text)
  | array (items : List Value) (each : ∀ item ∈ items, IsJson item) : IsJson (.array items)
  | object (record : List (Units × Value)) (distinct : (record.map Prod.fst).Nodup)
      (each : ∀ member ∈ record, IsJson member.2) : IsJson (.object record)

structure Json where
  value : Value
  json : IsJson value

-- Equal as JSON values: an array item by item, an object key by key.
inductive Same : Value → Value → Prop where
  | null : Same .null .null
  | bool (value : Bool) : Same (.bool value) (.bool value)
  | number (value : Rat) : Same (.number value) (.number value)
  | string (text : Units) : Same (.string text) (.string text)
  | array (first second : List Value) (size : first.length = second.length)
      (each : ∀ (i : Nat) (one other : Value), first[i]? = some one → second[i]? = some other → Same one other) :
      Same (.array first) (.array second)
  | object (first second : List (Units × Value)) (keys : ∀ key, first.lookup key = none ↔ second.lookup key = none)
      (each : ∀ key one other, first.lookup key = some one → second.lookup key = some other → Same one other) :
      Same (.object first) (.object second)

end values

section members

variable {V W : Type}

theorem lookup_mapped (record : List (Units × V)) (print : V → W) (key : Units) :
    (record.map fun member => (member.1, print member.2)).lookup key = (record.lookup key).map print := by
  induction record with
  | nil => rfl
  | cons member rest ih =>
      rw [List.map_cons, List.lookup_cons, List.lookup_cons, ih]
      cases key == member.1 <;> rfl

-- The source prints what it has looked up.
theorem sorted_map (record : List (Units × V)) (print : V → W) :
    sortedMembers (record.map fun member => (member.1, print member.2)) =
      (sortedMembers record).map fun member => (member.1, print member.2) := by
  rw [sortedMembers, sortedMembers, List.map_map, List.map_filterMap]
  refine congrArg (fun found => List.filterMap found _) (funext fun key => ?_)
  rw [lookup_mapped, Option.map_map, Option.map_map]
  rfl

theorem lookup_mem (record : List (Units × V)) (key : Units) (value : V) (found : record.lookup key = some value) :
    (key, value) ∈ record := by
  obtain ⟨front, back, same, _⟩ := List.lookup_eq_some_iff.mp found
  rw [same]
  simp

theorem mem_sorted (record : List (Units × V)) (member : Units × V) (inside : member ∈ sortedMembers record) :
    member ∈ record := by
  obtain ⟨key, _, found⟩ := List.mem_filterMap.mp inside
  obtain ⟨value, listed, rfl⟩ := Option.map_eq_some_iff.mp found
  exact lookup_mem record key value listed

theorem lookup_sorted (record : List (Units × V)) (key : Units) : (sortedMembers record).lookup key = record.lookup key := by
  have among : ∀ keys : List Units, (keys.filterMap fun key => (record.lookup key).map fun value => (key, value)).lookup key =
      if key ∈ keys then record.lookup key else none := by
    intro keys
    induction keys with
    | nil => rfl
    | cons other rest ih =>
        rw [List.filterMap_cons]
        by_cases equal : key = other
        · rw [← equal, if_pos List.mem_cons_self]
          cases found : record.lookup key with
          | none =>
              dsimp only [Option.map_none]
              rw [ih, found, ite_self]
          | some value =>
              dsimp only [Option.map_some]
              rw [List.lookup_cons_self]
        · have differs : (key == other) = false := beq_eq_false_iff_ne.mpr equal
          simp only [List.mem_cons, equal, false_or, ← ih]
          cases record.lookup other with
          | none => rfl
          | some value =>
              dsimp only [Option.map_some]
              rw [List.lookup_cons, differs]
  rw [sortedMembers, among]
  by_cases listed : key ∈ (record.map Prod.fst).insertionSort inOrder
  · exact if_pos listed
  · rw [if_neg listed]
    rw [List.mem_insertionSort, Cursors.key_listed, not_not] at listed
    exact listed.symm

theorem sorted_ext (first second : List (Units × V)) (distinct : (first.map Prod.fst).Nodup)
    (distinctToo : (second.map Prod.fst).Nodup) (same : ∀ key, first.lookup key = second.lookup key) :
    sortedMembers first = sortedMembers second := by
  have perm := Cursors.keys_perm first second distinct distinctToo fun key => by rw [same]
  rw [sortedMembers, sortedMembers, Cursors.sort_unique _ _ perm]
  simp only [same]

end members

section reading

-- What JSON.parse makes of the text, before it rounds a numeral to its double.
def parsed : Value → Value
  | .null => .null
  | .bool value => .bool value
  | .number value => .number (shownValue value)
  | .string text => .string text
  | .array items => .array (items.map parsed)
  | .object record => .object (sortedMembers (record.map fun member => (member.1, parsed member.2)))
decreasing_by
  · exact item_smaller _ _ ‹_›
  · exact member_smaller _ _ ‹_›

theorem common_need {V : Type} (items : List V) (Holds : Nat → V → Prop)
    (more : ∀ need large item, need ≤ large → Holds need item → Holds large item)
    (each : ∀ item ∈ items, ∃ need, Holds need item) : ∃ need, ∀ item ∈ items, Holds need item := by
  induction items with
  | nil => exact ⟨0, by simp⟩
  | cons first rest ih =>
      rw [List.forall_mem_cons] at each
      obtain ⟨here, holds⟩ := each.1
      obtain ⟨later, others⟩ := ih each.2
      refine ⟨max here later, List.forall_mem_cons.mpr ⟨more _ _ _ (le_max_left _ _) holds, ?_⟩⟩
      exact fun item inside => more _ _ _ (le_max_right _ _) (others item inside)

theorem reads_back (value : Value) (json : IsJson value) :
    ∃ need, PrintsAnywhere need (Tasks.stableStringify value) (parsed value) := by
  -- A value takes one level more than the most that anything in it takes.
  have level : ∀ need text value, (∀ fuel rest, need ≤ fuel → EndsValue rest →
      readValue (fuel + 1) (text ++ rest) = some (value, rest)) → ∃ need, PrintsAnywhere need text value := by
    intro need text value reads
    refine ⟨need + 1, fun fuel rest enough ends => ?_⟩
    obtain ⟨less, rfl⟩ : ∃ less, fuel = less + 1 := ⟨fuel - 1, by omega⟩
    exact reads less rest (by omega) ends
  induction json with
  | null =>
      rw [Tasks.stableStringify, parsed]
      exact level 0 _ _ fun fuel rest _ _ => read_null_value fuel rest
  | bool value =>
      rw [Tasks.stableStringify, parsed]
      exact level 0 _ _ fun fuel rest _ _ => read_bool_value fuel value rest
  | number value double =>
      rw [Tasks.stableStringify, parsed]
      refine level 0 _ _ fun fuel rest _ ends => ?_
      obtain ⟨unit, text, same, starts, read⟩ := read_number_text value double rest (ends_value_number rest ends)
      rw [same]
      exact read_number_value fuel unit text rest _ starts read
  | string text =>
      rw [Tasks.stableStringify, parsed]
      exact level 0 _ _ fun fuel rest _ _ => read_string_value fuel text rest
  | array items each ih =>
      obtain ⟨need, reads⟩ := common_need items
        (fun need item => PrintsAnywhere need (Tasks.stableStringify item) (parsed item)) (fun need large item le here => anywhere_more need large _ _ here le) ih
      rw [Tasks.stableStringify, parsed]
      refine level (need + items.length) _ _ fun fuel rest enough _ => read_array_value need _ _ rest fuel ?_ ?_
      · rw [List.forall₂_map_left_iff, List.forall₂_map_right_iff, List.forall₂_same]
        exact reads
      · rw [List.length_map]
        exact enough
  | object record distinct each ih =>
      obtain ⟨need, reads⟩ := common_need record
        (fun need member => PrintsAnywhere need (Tasks.stableStringify member.2) (parsed member.2))
        (fun need large item le here => anywhere_more need large _ _ here le) ih
      rw [Tasks.stableStringify, parsed, sorted_map, sorted_map]
      refine level (need + (sortedMembers record).length) _ _ fun fuel rest enough _ =>
        read_object_value need _ _ rest fuel ?_ ?_
      · rw [List.forall₂_map_left_iff, List.forall₂_map_right_iff, List.forall₂_same]
        exact fun member inside => ⟨rfl, anywhere_prints _ _ _ (reads member (mem_sorted record member inside))⟩
      · rw [List.length_map]
        exact enough

theorem parsed_same (first second : Value) (json : IsJson first) (jsonToo : IsJson second)
    (same : Tasks.stableStringify first = Tasks.stableStringify second) : parsed first = parsed second := by
  obtain ⟨need, reads⟩ := reads_back first json
  obtain ⟨needToo, readsToo⟩ := reads_back second jsonToo
  have read := reads (max need needToo) [] (le_max_left _ _) (Or.inl rfl)
  rw [same, readsToo (max need needToo) [] (le_max_right _ _) (Or.inl rfl)] at read
  exact (Prod.mk.inj (Option.some.inj read)).1.symm

theorem same_of_parsed (first second : Value) (json : IsJson first) (jsonToo : IsJson second)
    (equal : parsed first = parsed second) : Same first second := by
  induction json generalizing second with
  | null =>
      cases jsonToo <;> simp only [parsed, reduceCtorEq] at equal
      exact .null
  | bool value =>
      cases jsonToo <;> simp only [parsed, reduceCtorEq, Value.bool.injEq] at equal
      rw [equal]
      exact .bool _
  | number value double =>
      cases jsonToo <;> simp only [parsed, reduceCtorEq, Value.number.injEq] at equal
      rename_i other doubleToo
      rw [shown_injective value other double doubleToo equal]
      exact .number _
  | string text =>
      cases jsonToo <;> simp only [parsed, reduceCtorEq, Value.string.injEq] at equal
      rw [equal]
      exact .string _
  | array items each ih =>
      cases jsonToo <;> simp only [parsed, reduceCtorEq, Value.array.injEq] at equal
      rename_i others eachToo
      refine .array items others (by simpa using congrArg List.length equal) fun i one other here there => ?_
      have at_ := congrArg (fun list => list[i]?) equal
      simp only [List.getElem?_map, here, there, Option.map_some, Option.some.injEq] at at_
      exact ih one (List.mem_of_getElem? here) other (eachToo other (List.mem_of_getElem? there)) at_
  | object record distinct each ih =>
      cases jsonToo <;> simp only [parsed, reduceCtorEq, Value.object.injEq] at equal
      rename_i others distinctToo eachToo
      have looked : ∀ key, (record.lookup key).map parsed = (others.lookup key).map parsed := by
        intro key
        rw [← lookup_mapped, ← lookup_mapped, ← lookup_sorted, equal, lookup_sorted]
      refine .object record others (fun key => ?_) fun key one other here there => ?_
      · rw [← Option.map_eq_none_iff, looked, Option.map_eq_none_iff]
      · have found := looked key
        rw [here, there] at found
        exact ih (key, one) (lookup_mem record key one here) other (eachToo (key, other) (lookup_mem others key other there))
          (Option.some.inj found)

theorem text_of_same (first second : Value) (json : IsJson first) (jsonToo : IsJson second) (same : Same first second) :
    Tasks.stableStringify first = Tasks.stableStringify second := by
  induction same with
  | null => rfl
  | bool value => rfl
  | number value => rfl
  | string text => rfl
  | array items others size each ih =>
      cases json with
      | array _ valid =>
          cases jsonToo with
          | array _ validToo =>
              rw [Tasks.stableStringify, Tasks.stableStringify]
              refine congrArg arrayText (List.ext_getElem (by simpa using size) fun i low high => ?_)
              rw [List.length_map] at low high
              rw [List.getElem_map, List.getElem_map]
              exact ih i _ _ (List.getElem?_eq_getElem low) (List.getElem?_eq_getElem high)
                (valid _ (List.getElem_mem low)) (validToo _ (List.getElem_mem high))
  | object record others keys each ih =>
      cases json with
      | object _ distinct valid =>
          cases jsonToo with
          | object _ distinctToo validToo =>
              have names : ∀ list : List (Units × Value),
                  (list.map fun member => (member.1, Tasks.stableStringify member.2)).map Prod.fst = list.map Prod.fst := by
                intro list
                rw [List.map_map]
                rfl
              rw [Tasks.stableStringify, Tasks.stableStringify]
              refine congrArg objectText (sorted_ext _ _ ?_ ?_ fun key => ?_)
              · rw [names]
                exact distinct
              · rw [names]
                exact distinctToo
              · rw [lookup_mapped, lookup_mapped]
                cases here : record.lookup key with
                | none => rw [(keys key).mp here]
                | some one =>
                    cases there : others.lookup key with
                    | none =>
                        rw [(keys key).mpr there] at here
                        cases here
                    | some other =>
                        exact congrArg some (ih key one other here there (valid (key, one) (lookup_mem record key one here))
                          (validToo (key, other) (lookup_mem others key other there)))

theorem text_iff (first second : Json) :
    Tasks.stableStringify first.value = Tasks.stableStringify second.value ↔ Same first.value second.value := by
  constructor
  · intro equal
    exact same_of_parsed _ _ first.json second.json (parsed_same _ _ first.json second.json equal)
  · exact text_of_same _ _ first.json second.json

end reading

section hashes

theorem whole_text (value : Value) : Whole (Tasks.stableStringify value) := by
  induction value using Tasks.stableStringify.induct with
  | case1 =>
      rw [Tasks.stableStringify]
      exact whole_plain _ (by decide)
  | case2 value =>
      rw [Tasks.stableStringify]
      cases value <;> exact whole_plain _ (by decide)
  | case3 value =>
      rw [Tasks.stableStringify]
      exact whole_number value
  | case4 text =>
      rw [Tasks.stableStringify]
      exact whole_quote text
  | case5 items ih =>
      rw [Tasks.stableStringify]
      refine whole_array _ fun text inside => ?_
      obtain ⟨item, listed, rfl⟩ := List.mem_map.mp inside
      exact ih item listed
  | case6 record ih =>
      rw [Tasks.stableStringify, sorted_map]
      refine whole_object _ fun member inside => ?_
      obtain ⟨source, listed, rfl⟩ := List.mem_map.mp inside
      exact ih source (mem_sorted record source listed)

theorem encode_injective (first second : Units) (whole : Whole first) (wholeToo : Whole second)
    (same : encode first = encode second) : first = second := by
  obtain ⟨letters, rfl⟩ := whole
  obtain ⟨others, rfl⟩ := wholeToo
  rw [encode_words, encode_words] at same
  rw [Utf8.utf8Code.words_injective _ _ same]

theorem schedules_agree (value : Value) : Schedules.stableStringify value = Tasks.stableStringify value := by
  induction value using Tasks.stableStringify.induct with
  | case5 items ih =>
      rw [Tasks.stableStringify, Schedules.stableStringify, List.map_congr_left ih]
  | case6 record ih =>
      rw [Tasks.stableStringify, Schedules.stableStringify, List.map_congr_left fun member inside => by rw [ih member inside]]
  | _ => rw [Tasks.stableStringify, Schedules.stableStringify]

theorem idempotency_agrees (value : Value) : Idempotency.stableStringify value = Tasks.stableStringify value := by
  induction value using Tasks.stableStringify.induct with
  | case5 items ih =>
      rw [Tasks.stableStringify, Idempotency.stableStringify, List.map_congr_left ih]
  | case6 record ih =>
      rw [Tasks.stableStringify, Idempotency.stableStringify, List.map_congr_left fun member inside => by rw [ih member inside]]
  | _ => rw [Tasks.stableStringify, Idempotency.stableStringify]

theorem hash_iff (sha256Hex : List UInt8 → String) (collisionFree : Function.Injective sha256Hex) (first second : Json) :
    Tasks.hashOpaque sha256Hex first.value = Tasks.hashOpaque sha256Hex second.value ↔ Same first.value second.value := by
  rw [← text_iff]
  constructor
  · intro equal
    have digests := String.append_right_inj _ |>.mp equal
    exact encode_injective _ _ (whole_text _) (whole_text _) (collisionFree digests)
  · intro equal
    rw [Tasks.hashOpaque, Tasks.hashOpaque, equal]

def orderedText : Units := units "\x7b\"a\":1,\"b\":[true,\"x\"]\x7d"

-- SHA-256 of this text; any other bytes stand for their own digest.
def sampleDigest (bytes : List UInt8) : String :=
  if bytes = encode orderedText then "63e8063d9dc6f0fd5a24b4706818a165fd57c3531b74466cf5dea62bff09b0b6"
  else String.ofList ('x' :: bytes.map fun byte => Char.ofNat byte.toNat)

theorem sample_injective : Function.Injective sampleDigest := by
  have letters : Function.Injective fun byte : UInt8 => Char.ofNat byte.toNat := by
    intro one other same
    have all : ∀ byte : Fin 256, (Char.ofNat byte).toNat = byte := by decide +kernel
    have first : (Char.ofNat one.toNat).toNat = one.toNat := all ⟨one.toNat, one.toNat_lt⟩
    have second : (Char.ofNat other.toNat).toNat = other.toNat := all ⟨other.toNat, other.toNat_lt⟩
    rw [← UInt8.toNat_inj, ← first, ← second]
    exact congrArg Char.toNat same
  have apart : ∀ bytes : List UInt8, "63e8063d9dc6f0fd5a24b4706818a165fd57c3531b74466cf5dea62bff09b0b6" ≠
      String.ofList ('x' :: bytes.map fun byte => Char.ofNat byte.toNat) := by
    intro bytes same
    have head : "63e8063d9dc6f0fd5a24b4706818a165fd57c3531b74466cf5dea62bff09b0b6".toList.head? = some 'x' := by
      rw [same, String.toList_ofList]
      rfl
    exact absurd head (by decide +kernel)
  intro first second same
  rw [sampleDigest, sampleDigest] at same
  by_cases listed : first = encode orderedText <;> by_cases listedToo : second = encode orderedText
  · rw [listed, listedToo]
  · rw [if_pos listed, if_neg listedToo] at same
    exact absurd same (apart second)
  · rw [if_neg listed, if_pos listedToo] at same
    exact absurd same.symm (apart first)
  · rw [if_neg listed, if_neg listedToo, String.ofList_inj, List.cons.injEq] at same
    exact List.map_injective_iff.mpr letters same.2

def flags : Value := .array [.bool true, .string (units "x")]

theorem flags_json : IsJson flags := by
  refine .array _ fun item inside => ?_
  rcases List.mem_pair.mp inside with rfl | rfl
  · exact .bool true
  · exact .string _

theorem one_json : IsJson (.number 1) := .number 1 (show nearestDouble 1 = some 1 by decide +kernel)

def ordered : Json where
  value := .object [(units "a", .number 1), (units "b", flags)]
  json := by
    refine .object _ (by decide) fun member inside => ?_
    rcases List.mem_pair.mp inside with rfl | rfl
    · exact one_json
    · exact flags_json

def swapped : Json where
  value := .object [(units "b", flags), (units "a", .number 1)]
  json := by
    refine .object _ (by decide) fun member inside => ?_
    rcases List.mem_pair.mp inside with rfl | rfl
    · exact flags_json
    · exact one_json

theorem same_refl (value : Value) : Same value value := by
  induction value using Tasks.stableStringify.induct with
  | case1 => exact .null
  | case2 value => exact .bool value
  | case3 value => exact .number value
  | case4 text => exact .string text
  | case5 items ih =>
      refine .array items items rfl fun i one other here there => ?_
      rw [here, Option.some.injEq] at there
      rw [← there]
      exact ih one (List.mem_of_getElem? here)
  | case6 record ih =>
      refine .object record record (fun _ => Iff.rfl) fun key one other here there => ?_
      rw [here, Option.some.injEq] at there
      rw [← there]
      exact ih (key, one) (lookup_mem record key one here)

theorem swapped_same : Same swapped.value ordered.value := by
  have apart : (units "a" == units "b") = false ∧ (units "b" == units "a") = false := by decide
  refine .object _ _ (fun key => ?_) fun key one other here there => ?_
  · simp only [List.lookup_eq_none_iff, List.forall_mem_cons, List.not_mem_nil, false_implies, implies_true, and_true]
    exact And.comm
  · rcases List.mem_pair.mp (lookup_mem _ key one here) with equal | equal <;> cases equal
    · rw [List.lookup_cons, apart.2, List.lookup_cons_self] at there
      cases there
      exact same_refl flags
    · rw [List.lookup_cons_self] at there
      cases there
      exact .number 1

theorem request_hashes_faithful (sha256Hex : List UInt8 → String) (collisionFree : Function.Injective sha256Hex)
    (first second : Json) :
    (Tasks.stableStringify first.value = Tasks.stableStringify second.value ↔ Same first.value second.value) ∧
    Schedules.stableStringify first.value = Tasks.stableStringify first.value ∧
    Idempotency.stableStringify first.value = Tasks.stableStringify first.value ∧
    (Tasks.hashOpaque sha256Hex first.value = Tasks.hashOpaque sha256Hex second.value ↔ Same first.value second.value) ∧
    (Schedules.hashOpaque sha256Hex first.value = Schedules.hashOpaque sha256Hex second.value ↔ Same first.value second.value) ∧
    (Idempotency.hashRequest sha256Hex first.value = Idempotency.hashRequest sha256Hex second.value ↔
      Same first.value second.value) := by
  have hashes := hash_iff sha256Hex collisionFree first second
  refine ⟨text_iff first second, schedules_agree _, idempotency_agrees _, hashes, ?_, ?_⟩
  · rw [Schedules.hashOpaque, Schedules.hashOpaque, schedules_agree, schedules_agree]
    exact hashes
  · rw [Idempotency.hashRequest, Idempotency.hashRequest, idempotency_agrees, idempotency_agrees]
    exact hashes

theorem swapped_same_hash : Idempotency.hashRequest sampleDigest swapped.value =
    Idempotency.hashRequest sampleDigest ordered.value ∧ Idempotency.hashRequest sampleDigest ordered.value =
      "sha256:63e8063d9dc6f0fd5a24b4706818a165fd57c3531b74466cf5dea62bff09b0b6" := by
  obtain ⟨-, -, -, -, -, hashes⟩ := request_hashes_faithful sampleDigest sample_injective swapped ordered
  have printed : Idempotency.stableStringify ordered.value = orderedText := by
    simp only [ordered, flags, Idempotency.stableStringify, List.map_cons, List.map_nil]
    decide +kernel
  refine ⟨hashes.mpr swapped_same, ?_⟩
  rw [Idempotency.hashRequest, printed, sampleDigest, if_pos rfl]
  rfl

end hashes

end Vacps.RequestHashes
