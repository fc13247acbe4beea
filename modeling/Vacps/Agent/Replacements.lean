import Vacps.Agent.Files
import Vacps.Library.Occurrences

/- The text functions of script/src/runtime/files.ts against the places where a text stands in another. -/
set_option autoImplicit false

namespace Vacps.Files

open Library Library.Utf16

-- String#split for a separator that is not empty, with the units since the last one.
def splitFrom (separator : Units) : Nat → Units → Units → List Units
  | _, piece, [] => [piece]
  | 0, piece, unit :: rest =>
      if separator.isPrefixOf (unit :: rest) then piece :: splitFrom separator (separator.length - 1) [] rest
      else splitFrom separator 0 (piece ++ [unit]) rest
  | skip + 1, piece, _ :: rest => splitFrom separator skip piece rest

def split (text separator : Units) : List Units := splitFrom separator 0 [] text

section scans

variable (needle : Units)

theorem split_first_place (some_ : needle ≠ []) (text front back : Units) (first : FirstAt needle text front)
    (cut : text = front ++ needle ++ back) : splitFirst needle text = some (front, back) := by
  induction front generalizing text with
  | nil =>
      cases needle with
      | nil => exact absurd rfl some_
      | cons unit rest =>
          subst cut
          simp [splitFirst]
  | cons unit front ih =>
      cases text with
      | nil => cases cut
      | cons head text =>
          obtain ⟨rfl, tail⟩ := List.cons.inj cut
          have passed : needle.isPrefixOf (head :: text) = false := by
            rw [← Bool.not_eq_true, List.isPrefixOf_iff_prefix]
            exact first_starts needle _ front head first
          rw [splitFirst, passed, if_neg Bool.false_ne_true, ih text (first_tail needle text front head first) tail]
          rfl

theorem split_skips (skip : Nat) (piece text : Units) :
    splitFrom needle skip piece text = splitFrom needle 0 piece (text.drop skip) := by
  induction text generalizing skip piece with
  | nil => simp [splitFrom]
  | cons unit rest ih =>
      cases skip with
      | zero => rfl
      | succ skip =>
          rw [splitFrom, List.drop_succ_cons]
          exact ih skip piece

theorem split_passes (piece text : Units) (absent : ∀ front, ¬StandsAt needle text front) :
    splitFrom needle 0 piece text = [piece ++ text] := by
  induction text generalizing piece with
  | nil => simp [splitFrom]
  | cons unit rest ih =>
      have passed : needle.isPrefixOf (unit :: rest) = false := by
        rw [← Bool.not_eq_true, List.isPrefixOf_iff_prefix]
        exact absent []
      have later : ∀ front, ¬StandsAt needle rest front :=
        fun front stands => absent (unit :: front) (List.cons_prefix_cons.mpr ⟨rfl, stands⟩)
      rw [splitFrom, passed, if_neg Bool.false_ne_true, ih (piece ++ [unit]) later, List.append_assoc]
      rfl

theorem split_cuts (some_ : needle ≠ []) (piece text front back : Units) (first : FirstAt needle text front)
    (cut : text = front ++ needle ++ back) :
    splitFrom needle 0 piece text = (piece ++ front) :: splitFrom needle 0 [] back := by
  induction front generalizing text piece with
  | nil =>
      obtain ⟨unit, rest, rfl⟩ := List.exists_cons_of_ne_nil some_
      have here : (unit :: rest).isPrefixOf (unit :: (rest ++ back)) = true := by simp
      subst cut
      rw [List.nil_append, List.cons_append, splitFrom, here, if_pos rfl, split_skips, List.length_cons,
        Nat.add_sub_cancel, List.drop_left, List.append_nil]
  | cons unit front ih =>
      cases text with
      | nil => cases cut
      | cons head text =>
          obtain ⟨rfl, tail⟩ := List.cons.inj cut
          have passed : needle.isPrefixOf (head :: text) = false := by
            rw [← Bool.not_eq_true, List.isPrefixOf_iff_prefix]
            exact first_starts needle _ front head first
          rw [splitFrom, passed, if_neg Bool.false_ne_true,
            ih (piece ++ [head]) text (first_tail needle text front head first) tail, List.append_assoc]
          rfl

theorem split_pieces (some_ : needle ≠ []) (text : Units) (pieces : List Units) (cut : Pieces needle text pieces) :
    split text needle = pieces := by
  rw [split]
  induction cut with
  | last text absent => exact split_passes needle [] text absent
  | next text front back pieces cut first rest ih => rw [split_cuts needle some_ [] text front back first cut, ih]; rfl

theorem split_counts (skip : Nat) (piece text : Units) :
    (splitFrom needle skip piece text).length = countFrom needle skip text + 1 := by
  induction text generalizing skip piece with
  | nil => simp [splitFrom, countFrom]
  | cons unit rest ih =>
      cases skip with
      | zero =>
          rw [splitFrom, countFrom]
          split
          · rw [List.length_cons, ih]
          · exact ih 0 _
      | succ skip => exact ih skip piece

theorem count_pieces (some_ : needle ≠ []) (text : Units) (pieces : List Units) (cut : Pieces needle text pieces) :
    pieces.length = countOccurrences text needle + 1 := by
  rw [← split_pieces needle some_ text pieces cut, countOccurrences, if_neg some_]
  exact split_counts needle 0 [] text

end scans

theorem replace_place (text old new front back : Units) (some_ : old ≠ []) (once : StandsOnce old text front)
    (cut : text = front ++ old ++ back) :
    replaceFirst text old new = front ++ substitution old front back new ++ back := by
  rw [replaceFirst, split_first_place old some_ text front back (once_first old text front once) cut]

end Vacps.Files
