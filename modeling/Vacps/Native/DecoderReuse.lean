import Vacps.Native.SplitDecoding

/- A decoder that has finished a message, at the start of the next one. The remainder is given back; that
   the mark has been looked for stays known. -/
set_option autoImplicit false

namespace Vacps.Native

open Library Library.Utf8 Library.Utf16

-- What a history of calls leaves of a decoder; a call that fails leaves one too.
def Decoder.behind (simdutf : Simdutf) (decoder : Decoder) (calls : List (List UInt8 × Bool)) : Decoder :=
  calls.foldl (fun decoder call => (decoder.decode simdutf call.1 call.2).2) decoder

-- The bytes start with a mark that a fresh decoder would skip.
def Marked (encoding : Encoding) (options : DecoderOptions) (bytes : List UInt8) : Prop :=
  options.ignore_bom = false ∧ bomOf bytes = expectedMark encoding

instance (encoding : Encoding) (options : DecoderOptions) (bytes : List UInt8) : Decidable (Marked encoding options bytes) :=
  inferInstanceAs (Decidable (_ ∧ _))

def WellFormed (encoding : Encoding) (bytes : List UInt8) : Prop :=
  match encoding with
  | .utf8 => ∃ chars, bytes = utf8Code.words chars
  | .utf16le => bytes.length % 2 = 0 ∧ ∃ chars, unitsOf true bytes = utf16Code.words chars
  | .utf16be => bytes.length % 2 = 0 ∧ ∃ chars, unitsOf false bytes = utf16Code.words chars

theorem well_formed_order (little_endian : Bool) (bytes : List UInt8) :
    none ∉ tokens16 little_endian bytes ↔
      bytes.length % 2 = 0 ∧ ∃ chars, unitsOf little_endian bytes = utf16Code.words chars := by
  have scanned := utf16Code.scan_whole (unitsOf little_endian bytes)
  rw [tokens16, List.mem_append, not_or, scanned]
  by_cases even : bytes.length % 2 = 0
  · simp [even]
  · simp [even]

theorem well_formed_tokens (encoding : Encoding) (bytes : List UInt8) :
    none ∉ tokens encoding bytes ↔ WellFormed encoding bytes := by
  cases encoding with
  | utf8 => exact utf8Code.scan_whole bytes
  | utf16le => exact well_formed_order true bytes
  | utf16be => exact well_formed_order false bytes

section calls

variable (simdutf : Simdutf)

-- The label and the flags of a decoder.
def Decoder.Same (decoder other : Decoder) : Prop :=
  decoder.encoding_ = other.encoding_ ∧ decoder.fatal_ = other.fatal_ ∧ decoder.ignore_bom_ = other.ignore_bom_

theorem left_either (property : Decoder → Prop) {condition : Prop} [Decidable condition] {first second : Decoded × Decoder}
    (then_left : property first.2) (else_left : property second.2) : property (if condition then first else second).2 := by
  split
  · exact then_left
  · exact else_left

theorem decode_utf8_same (decoder : Decoder) (data : List UInt8) (stream : Bool) :
    (decoder.decode_utf8 simdutf data stream).2.Same decoder := by
  unfold Decoder.decode_utf8
  dsimp only
  split <;> exact ⟨rfl, rfl, rfl⟩

theorem decode_utf16_same (decoder : Decoder) (data : List UInt8) (stream little_endian : Bool) :
    (decoder.decode_utf16 simdutf data stream little_endian).2.Same decoder := by
  unfold Decoder.decode_utf16
  refine left_either (·.Same decoder) ⟨rfl, rfl, rfl⟩ (left_either (·.Same decoder) ⟨rfl, rfl, rfl⟩ ?_)
  dsimp only
  generalize utf16_bytes_to_utf8 simdutf _ little_endian decoder.fatal_ = decoded
  cases decoded <;> exact ⟨rfl, rfl, rfl⟩

theorem decode_same (decoder : Decoder) (input : List UInt8) (stream : Bool) :
    (decoder.decode simdutf input stream).2.Same decoder := by
  unfold Decoder.decode
  dsimp only
  split
  · exact decode_utf8_same simdutf _ _ stream
  · exact decode_utf16_same simdutf _ _ stream true
  · exact decode_utf16_same simdutf _ _ stream false

theorem behind_same (decoder : Decoder) (calls : List (List UInt8 × Bool)) : (decoder.behind simdutf calls).Same decoder := by
  induction calls generalizing decoder with
  | nil => exact ⟨rfl, rfl, rfl⟩
  | cons call rest ih =>
      obtain ⟨encoding, fatal, ignore_bom⟩ := ih (decoder.decode simdutf call.1 call.2).2
      obtain ⟨encoding_, fatal_, ignore_bom_⟩ := decode_same simdutf decoder call.1 call.2
      exact ⟨encoding.trans encoding_, fatal.trans fatal_, ignore_bom.trans ignore_bom_⟩

theorem flushed_utf8 (decoder : Decoder) (taken : decoder.remainder_ = []) (data : List UInt8) :
    (decoder.decode_utf8 simdutf data false).2 = { decoder with bom_seen_ := true, remainder_ := [] } := by
  unfold Decoder.decode_utf8
  simp [taken]

theorem flushed_utf16 (decoder : Decoder) (taken : decoder.remainder_ = []) (data : List UInt8) (little_endian : Bool) :
    (decoder.decode_utf16 simdutf data false little_endian).2 = { decoder with bom_seen_ := true, remainder_ := [] } := by
  obtain ⟨encoding, fatal, ignore_bom, bom_seen, remainder⟩ := decoder
  cases taken
  unfold Decoder.decode_utf16
  simp only [Bool.and_false, Bool.false_eq_true, if_false, Bool.false_and]
  refine left_either (· = _) rfl ?_
  generalize utf16_bytes_to_utf8 simdutf _ little_endian fatal = decoded
  cases decoded <;> rfl

-- A call that is not streaming leaves no bytes behind, and the mark looked for.
theorem flushed (decoder : Decoder) (input : List UInt8) :
    (decoder.decode simdutf input false).2 = { decoder with bom_seen_ := true, remainder_ := [] } := by
  unfold Decoder.decode
  dsimp only
  split
  · exact flushed_utf8 simdutf _ rfl _
  · exact flushed_utf16 simdutf _ rfl _ true
  · exact flushed_utf16 simdutf _ rfl _ false

-- Whatever came before, it is a fresh decoder but for that.
theorem behind_message (encoding : Encoding) (options : DecoderOptions) (history : List (List UInt8 × Bool)) (last : List UInt8) :
    (newDecoder encoding options).behind simdutf (history ++ [(last, false)]) =
      { newDecoder encoding options with bom_seen_ := true } := by
  obtain ⟨same, fatal, ignore_bom⟩ := behind_same simdutf (newDecoder encoding options) history
  have split_ : (newDecoder encoding options).behind simdutf (history ++ [(last, false)]) =
      (((newDecoder encoding options).behind simdutf history).decode simdutf last false).2 := by
    rw [Decoder.behind, List.foldl_append]
    rfl
  rw [split_, flushed, same, fatal, ignore_bom]
  rfl

theorem decoded_behind (documented : Documented simdutf) (encoding : Encoding) (options : DecoderOptions) (bytes : List UInt8) :
    { newDecoder encoding options with bom_seen_ := true }.oneShot simdutf bytes =
      render options.fatal (tokens encoding bytes) := by
  rw [Decoder.oneShot, last_call simdutf documented _ rfl]
  rfl

end calls

section marks

theorem mark_units (little_endian : Bool) (low high : UInt8) (rest : List UInt8)
    (mark : ordered little_endian (UInt16.ofNat (low.toNat + 256 * high.toNat)) = 0xFEFF) :
    tokens16 little_endian (low :: high :: rest) = some (Char.ofNat 0xFEFF) :: tokens16 little_endian rest := by
  have first := utf16Code.scan_word (Char.ofNat 0xFEFF) (unitsOf little_endian rest)
  have word : utf16Code.word (Char.ofNat 0xFEFF) = [0xFEFF] := by decide
  have parity : (low :: high :: rest).length % 2 = rest.length % 2 := by
    rw [List.length_cons, List.length_cons, Nat.add_assoc, Nat.add_mod_right]
  have units : unitsOf little_endian (low :: high :: rest) = 0xFEFF :: unitsOf little_endian rest := by
    rw [unitsOf, char16s, List.map_cons, mark]
    rfl
  rw [word] at first
  rw [tokens16, units, parity]
  change utf16Code.scan ([0xFEFF] ++ unitsOf little_endian rest) ++ _ = _
  rw [first]
  rfl

-- A mark that is not skipped is read as U+FEFF.
theorem marked_tokens (encoding : Encoding) (bytes : List UInt8) (mark : bomOf bytes = expectedMark encoding) :
    tokens encoding bytes = some (Char.ofNat 0xFEFF) :: tokens encoding (bytes.drop (markBytes encoding)) := by
  cases encoding with
  | utf8 =>
      obtain ⟨rest, rfl⟩ := (bom_utf8 bytes).mp mark
      have word : utf8Code.word (Char.ofNat 0xFEFF) = [0xEF, 0xBB, 0xBF] := by decide
      have first := utf8Code.scan_word (Char.ofNat 0xFEFF) rest
      rw [word] at first
      exact first
  | utf16le =>
      obtain ⟨⟨rest, rfl⟩, _⟩ := (bom_utf16le bytes).mp mark
      exact mark_units true 0xFF 0xFE rest (by decide)
  | utf16be =>
      obtain ⟨rest, rfl⟩ := (bom_utf16be bytes).mp mark
      exact mark_units false 0xFE 0xFF rest (by decide)

theorem marked_differ (encoding : Encoding) (fatal : Bool) (bytes : List UInt8) (mark : bomOf bytes = expectedMark encoding) :
    render fatal (tokens encoding bytes) = render fatal (tokens encoding (bytes.drop (markBytes encoding))) ↔
      fatal = true ∧ ¬WellFormed encoding bytes := by
  rw [← well_formed_tokens, not_not, marked_tokens encoding bytes mark]
  have member : none ∈ some (Char.ofNat 0xFEFF) :: tokens encoding (bytes.drop (markBytes encoding)) ↔
      none ∈ tokens encoding (bytes.drop (markBytes encoding)) := by simp
  rw [member, render, render]
  by_cases strict : fatal = true ∧ none ∈ tokens encoding (bytes.drop (markBytes encoding))
  · rw [if_pos strict, if_pos ⟨strict.1, member.mpr strict.2⟩]
    exact iff_of_true rfl strict
  · rw [if_neg strict, if_neg fun marked => strict ⟨marked.1, member.mp marked.2⟩]
    refine iff_of_false ?_ strict
    intro same
    have length := congrArg List.length (Except.ok.inj same)
    have front : lettersOf (some (Char.ofNat 0xFEFF) :: tokens encoding (bytes.drop (markBytes encoding))) =
      Char.ofNat 0xFEFF :: lettersOf (tokens encoding (bytes.drop (markBytes encoding))) := rfl
    have three : (utf8Code.word (Char.ofNat 0xFEFF)).length = 3 := by decide
    rw [front, Code.words_cons, List.length_append, three] at length
    omega

end marks

-- After a message that ended, the next is read as by a fresh decoder unless its mark has to be skipped.
theorem reused_iff (simdutf : Simdutf) (documented : Documented simdutf) (encoding : Encoding) (options : DecoderOptions)
    (history : List (List UInt8 × Bool)) (last bytes : List UInt8) :
    ((newDecoder encoding options).behind simdutf (history ++ [(last, false)])).oneShot simdutf bytes =
        (newDecoder encoding options).oneShot simdutf bytes ↔
      ¬Marked encoding options bytes ∨ (options.fatal = true ∧ ¬WellFormed encoding bytes) := by
  rw [behind_message, decoded_behind simdutf documented, decoded_once simdutf documented]
  by_cases marked : Marked encoding options bytes
  · have skips : skipped encoding options.ignore_bom bytes = markBytes encoding := if_pos marked
    rw [skips, marked_differ encoding options.fatal bytes marked.2]
    exact ⟨Or.inr, fun either => either.resolve_left (absurd marked)⟩
  · have skips : skipped encoding options.ignore_bom bytes = 0 := if_neg marked
    rw [skips, List.drop_zero]
    exact iff_of_true rfl (Or.inl marked)

theorem reused_iff_letters :
    ((newDecoder .utf8 ⟨true, false⟩).behind reference [([0xEF], true), ([0x61], false)]).oneShot reference [0x61, 0xC3, 0xA9] =
      (newDecoder .utf8 ⟨true, false⟩).oneShot reference [0x61, 0xC3, 0xA9] :=
  (reused_iff reference reference_documented .utf8 ⟨true, false⟩ [([0xEF], true)] [0x61] [0x61, 0xC3, 0xA9]).mpr
    (Or.inl (by decide))

-- A file that starts with a mark, read twice.
theorem second_read :
    (newDecoder .utf8 ⟨true, false⟩).oneShot reference [0xEF, 0xBB, 0xBF, 0x61] = .ok [0x61] ∧
      ((newDecoder .utf8 ⟨true, false⟩).behind reference [([0xEF, 0xBB, 0xBF, 0x61], false)]).oneShot reference
        [0xEF, 0xBB, 0xBF, 0x61] = .ok [0xEF, 0xBB, 0xBF, 0x61] ∧
      ¬∀ (simdutf : Simdutf), Documented simdutf → ∀ (encoding : Encoding) (options : DecoderOptions)
        (history : List (List UInt8 × Bool)) (last bytes : List UInt8),
        ((newDecoder encoding options).behind simdutf (history ++ [(last, false)])).oneShot simdutf bytes =
          (newDecoder encoding options).oneShot simdutf bytes := by
  have first : (newDecoder .utf8 ⟨true, false⟩).oneShot reference [0xEF, 0xBB, 0xBF, 0x61] = .ok [0x61] := by decide +kernel
  have second : ((newDecoder .utf8 ⟨true, false⟩).behind reference [([0xEF, 0xBB, 0xBF, 0x61], false)]).oneShot reference
      [0xEF, 0xBB, 0xBF, 0x61] = .ok [0xEF, 0xBB, 0xBF, 0x61] := by decide +kernel
  refine ⟨first, second, fun always => ?_⟩
  have same := always reference reference_documented .utf8 ⟨true, false⟩ [] [0xEF, 0xBB, 0xBF, 0x61] [0xEF, 0xBB, 0xBF, 0x61]
  rw [List.nil_append, first, second] at same
  exact absurd same (by decide)

end Vacps.Native
