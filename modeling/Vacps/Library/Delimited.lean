import Mathlib.Data.List.Basic

/- Texts joined by a separator none of them contains, and ASCII case. -/
set_option autoImplicit false

namespace Library

theorem intercalate_injective (separator : Char) (first second : List String) (nonempty : first ≠ [] ∧ second ≠ [])
    (plain : (∀ text ∈ first, separator ∉ text.toList) ∧ ∀ text ∈ second, separator ∉ text.toList)
    (same : (String.singleton separator).intercalate first = (String.singleton separator).intercalate second) :
    first = second := by
  have splitFirst := String.toList_split_intercalate plain.1
  have splitSecond := String.toList_split_intercalate plain.2
  rw [if_neg nonempty.1] at splitFirst
  rw [if_neg nonempty.2, ← same] at splitSecond
  exact splitFirst.symm.trans splitSecond

theorem upper_cases (char : Char) : char.toUpper = char ∨ ∃ letter : Fin 26, char = Char.ofNat (97 + letter) := by
  by_cases lower : 'a'.val ≤ char.val ∧ char.val ≤ 'z'.val
  · have low : 97 ≤ char.toNat := lower.1
    have high : char.toNat ≤ 122 := lower.2
    refine Or.inr ⟨⟨char.toNat - 97, by omega⟩, ?_⟩
    have whole : 97 + (char.toNat - 97) = char.toNat := by omega
    rw [whole, Char.ofNat_toNat]
  · exact Or.inl (dif_neg lower)

theorem upper_upper (char : Char) : char.toUpper.toUpper = char.toUpper := by
  rcases upper_cases char with same | ⟨letter, rfl⟩
  · rw [same, same]
  · revert letter
    decide

theorem upper_newline (char : Char) (newline : char.toUpper = '\n') : char = '\n' := by
  rcases upper_cases char with same | ⟨letter, rfl⟩
  · exact same.symm.trans newline
  · revert letter
    decide

theorem text_upper_upper (text : String) : text.toUpper.toUpper = text.toUpper := by
  simp only [String.toUpper, String.map_map]
  congr 1
  funext char
  exact upper_upper char

theorem upper_plain (text : String) (plain : '\n' ∉ text.toList) : '\n' ∉ text.toUpper.toList := by
  rw [String.toUpper, String.toList_map, List.mem_map]
  rintro ⟨char, member, newline⟩
  exact plain (upper_newline char newline ▸ member)

end Library
