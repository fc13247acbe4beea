import Vacps.Library.Utf8Standard
import Vacps.Native.SimdutfReference
import Vacps.Native.SplitDecoding

/- vacps-native/src/text/decoder.cpp: the replacements of lossy decoding against those of the Encoding standard. -/
set_option autoImplicit false

namespace Vacps.Native

open Library Library.Utf8

-- What the standard's decoder returns for the bytes in replacement mode.
def standardText (bytes : List UInt8) : List UInt8 := utf8Code.words (lettersOf (standard bytes))

theorem lossy_decode (simdutf : Simdutf) (documented : Documented simdutf) (bytes : List UInt8) :
    (newDecoder .utf8 ⟨false, true⟩).oneShot simdutf bytes = .ok (utf8Code.words (lettersOf (utf8Code.scan bytes))) := by
  rw [decoded_once simdutf documented .utf8 ⟨false, true⟩ bytes, render, if_neg (by simp), skipped, if_neg (by simp), List.drop_zero]
  rfl

-- The loop replaces byte by byte, the standard error by error: the texts are the same just when no error is longer than a byte.
theorem lossy_standard_iff (simdutf : Simdutf) (documented : Documented simdutf) (bytes : List UInt8) :
    (newDecoder .utf8 ⟨false, true⟩).oneShot simdutf bytes = .ok (standardText bytes) ↔ SingleErrors bytes := by
  rw [lossy_decode simdutf documented, standardText]
  constructor
  · intro same
    have letters := utf8Code.words_injective _ _ (Except.ok.inj same)
    have lengths := congrArg List.length letters
    rw [lettersOf, List.length_map, lettersOf, List.length_map] at lengths
    exact (single_iff bytes).mpr lengths.symm
  · intro single
    rw [standard_single bytes single]

-- A stray byte and an overlong form: each byte is an error of its own.
theorem lossy_standard_overlong :
    (newDecoder .utf8 ⟨false, true⟩).oneShot reference [0x61, 0xFF, 0xE0, 0x80, 0x62] =
      .ok (standardText [0x61, 0xFF, 0xE0, 0x80, 0x62]) :=
  (lossy_standard_iff reference reference_documented _).mpr ((single_iff _).mpr (by decide))

-- The first two bytes of € are one error, and get two replacements.
theorem truncated_replaced_twice :
    (newDecoder .utf8 ⟨false, true⟩).oneShot reference [0xE2, 0x82] = .ok [0xEF, 0xBF, 0xBD, 0xEF, 0xBF, 0xBD] ∧
      standardText [0xE2, 0x82] = [0xEF, 0xBF, 0xBD] ∧
      ¬∀ (simdutf : Simdutf), Documented simdutf → ∀ bytes,
        (newDecoder .utf8 ⟨false, true⟩).oneShot simdutf bytes = .ok (standardText bytes) := by
  refine ⟨by decide, by decide, fun always => ?_⟩
  have same := always reference reference_documented [0xE2, 0x82]
  exact absurd same (by decide)

end Vacps.Native
