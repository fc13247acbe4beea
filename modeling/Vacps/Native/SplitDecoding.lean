import Vacps.Native.SimdutfReference

/- Every split of a text into chunks against the text as a whole: where the byte order mark is looked for. -/
set_option autoImplicit false

namespace Vacps.Native

open Library Library.Utf8 Library.Utf16

section mark

def markBytes : Encoding → Nat
  | .utf8 => 3
  | .utf16le | .utf16be => 2

def expectedMark : Encoding → EncodingType
  | .utf8 => .UTF8
  | .utf16le => .UTF16_LE
  | .utf16be => .UTF16_BE

-- How much of the text is skipped once so much of it has arrived.
def skipped (encoding : Encoding) (ignore_bom : Bool) (arrived : List UInt8) : Nat :=
  if ignore_bom = false ∧ bomOf arrived = expectedMark encoding then markBytes encoding else 0

-- The bytes there are when a mark is looked for: the first that are enough, or all at the last call.
def arrivedAt (need : Nat) (last : List UInt8) : List UInt8 → List (List UInt8) → List UInt8
  | remainder, [] => remainder ++ last
  | remainder, chunk :: rest =>
      if need ≤ (remainder ++ chunk).length then remainder ++ chunk else arrivedAt need last (remainder ++ chunk) rest

theorem arrived_start (need : Nat) (last : List UInt8) (chunks : List (List UInt8)) (remainder : List UInt8) :
    arrivedAt need last remainder chunks <+: remainder ++ chunks.flatten ++ last ∧
      (need ≤ (arrivedAt need last remainder chunks).length ∨ arrivedAt need last remainder chunks = remainder ++ chunks.flatten ++ last) := by
  induction chunks generalizing remainder with
  | nil =>
      rw [arrivedAt, List.flatten_nil, List.append_nil]
      exact ⟨List.prefix_rfl, Or.inr rfl⟩
  | cons chunk later ih =>
      rw [arrivedAt, List.flatten_cons, ← List.append_assoc]
      by_cases enough : need ≤ (remainder ++ chunk).length
      · rw [if_pos enough, List.append_assoc (remainder ++ chunk)]
        exact ⟨List.prefix_append _ _, Or.inl enough⟩
      · rw [if_neg enough]
        exact ih (remainder ++ chunk)

theorem bom_utf8 (data : List UInt8) : bomOf data = .UTF8 ↔ [0xEF, 0xBB, 0xBF] <+: data := by
  refine ⟨?_, ?_⟩
  · intro found
    unfold bomOf at found
    split at found <;> first | exact ⟨_, rfl⟩ | cases found
  · rintro ⟨rest, rfl⟩
    rfl

theorem bom_utf16be (data : List UInt8) : bomOf data = .UTF16_BE ↔ [0xFE, 0xFF] <+: data := by
  refine ⟨?_, ?_⟩
  · intro found
    unfold bomOf at found
    split at found <;> first | exact ⟨_, rfl⟩ | cases found
  · rintro ⟨rest, rfl⟩
    rfl

theorem bom_utf16le (data : List UInt8) : bomOf data = .UTF16_LE ↔ [0xFF, 0xFE] <+: data ∧ ¬[0xFF, 0xFE, 0x00, 0x00] <+: data := by
  refine ⟨?_, ?_⟩
  · intro found
    unfold bomOf at found
    split at found
    · cases found
    · rename_i rest longer
      refine ⟨⟨rest, rfl⟩, ?_⟩
      rintro ⟨others, same⟩
      have apart : [0xFF, 0xFE] ++ ([0x00, 0x00] ++ others) = [0xFF, 0xFE] ++ rest := same
      exact longer others (List.append_cancel_left apart).symm
    all_goals cases found
  · rintro ⟨⟨rest, rfl⟩, longer⟩
    change bomOf (0xFF :: 0xFE :: rest) = _
    unfold bomOf
    split
    · rename_i others same
      exact absurd ⟨others, same.symm⟩ longer
    · rfl
    all_goals simp_all

-- Once there are enough bytes for the mark, only the longer one of UTF-32 can still change the answer.
theorem skipped_same (encoding : Encoding) (ignore_bom : Bool) (arrived bytes : List UInt8) (start : arrived <+: bytes)
    (enough : markBytes encoding ≤ arrived.length ∨ arrived = bytes)
    (decided : ¬(encoding = .utf16le ∧ ignore_bom = false ∧ [0xFF, 0xFE, 0x00, 0x00] <+: bytes ∧ arrived.length < 4)) :
    skipped encoding ignore_bom arrived = skipped encoding ignore_bom bytes := by
  have grows : ∀ mark : List UInt8, mark.length ≤ arrived.length → (mark <+: arrived ↔ mark <+: bytes) :=
    fun mark short => ⟨fun here => here.trans start, fun there => List.prefix_of_prefix_length_le there start short⟩
  rcases enough with enough | rfl
  · rw [skipped, skipped]
    cases ignore_bom with
    | true => rfl
    | false =>
        have same : bomOf arrived = expectedMark encoding ↔ bomOf bytes = expectedMark encoding := by
          cases encoding with
          | utf8 => exact (bom_utf8 arrived).trans ((grows [0xEF, 0xBB, 0xBF] enough).trans (bom_utf8 bytes).symm)
          | utf16be => exact (bom_utf16be arrived).trans ((grows [0xFE, 0xFF] enough).trans (bom_utf16be bytes).symm)
          | utf16le =>
              refine (bom_utf16le arrived).trans (Iff.trans ?_ (bom_utf16le bytes).symm)
              by_cases four : arrived.length < 4
              · have no_ : ¬[0xFF, 0xFE, 0x00, 0x00] <+: bytes := fun there => decided ⟨rfl, rfl, there, four⟩
                have no__ : ¬[0xFF, 0xFE, 0x00, 0x00] <+: arrived := fun here => no_ (here.trans start)
                rw [grows [0xFF, 0xFE] enough, iff_true_intro no_, iff_true_intro no__]
              · rw [grows [0xFF, 0xFE] enough, grows [0xFF, 0xFE, 0x00, 0x00] (Nat.le_of_not_lt four)]
        simp only [same]
  · rfl

theorem mark_long (encoding : Encoding) (data : List UInt8) (found : bomOf data = expectedMark encoding) :
    markBytes encoding ≤ data.length := by
  unfold bomOf at found
  cases encoding <;> split at found <;> simp_all [expectedMark, markBytes]

end mark

section phases

variable (simdutf : Simdutf) (documented : Documented simdutf)

include documented

theorem mark_size (encoding : Encoding) : simdutf.bom_byte_size (expectedMark encoding) = markBytes encoding := by
  cases encoding with
  | utf8 => exact documented.bom_byte_size.1
  | utf16le => exact documented.bom_byte_size.2.1
  | utf16be => exact documented.bom_byte_size.2.2

theorem skip_mark (encoding : Encoding) (data : List UInt8) (ignore_bom : Bool) :
    skip_bom_if simdutf data (expectedMark encoding) ignore_bom false = skipped encoding ignore_bom data := by
  have size := mark_size simdutf documented encoding
  rw [skip_bom_if, if_neg Bool.false_ne_true, skipped]
  cases ignore_bom with
  | true => rfl
  | false =>
      cases data with
      | nil => cases encoding <;> rfl
      | cons byte rest =>
          rw [if_neg (by simp), documented.check_bom]
          dsimp only
          by_cases found : bomOf (byte :: rest) = expectedMark encoding
          · rw [if_pos found, if_pos ⟨rfl, found⟩, found, size]
          · rw [if_neg found, if_neg (fun both => found both.2)]

-- Too few bytes for a mark hold none.
theorem skip_first (encoding : Encoding) (data : List UInt8) (ignore_bom : Bool) :
    skip_bom_if simdutf data (expectedMark encoding) ignore_bom (decide (data.length < markBytes encoding)) =
      skipped encoding ignore_bom data := by
  by_cases short : data.length < markBytes encoding
  · have none_ : ¬(ignore_bom = false ∧ bomOf data = expectedMark encoding) :=
      fun both => absurd (mark_long encoding data both.2) (by omega)
    rw [decide_eq_true short, skipped, if_neg none_, skip_bom_if, if_pos rfl]
  · rw [decide_eq_false short, skip_mark simdutf documented]

theorem waits_utf8 (decoder : Decoder) (fresh : decoder.bom_seen_ = false) (data : List UInt8) (short : data.length < 3) :
    decoder.decode_utf8 simdutf data true = (.ok [], { decoder with remainder_ := data }) := by
  unfold Decoder.decode_utf8
  simp [fresh, documented.bom_byte_size.1, short]

theorem waits_utf16 (little_endian : Bool) (decoder : Decoder) (fresh : decoder.bom_seen_ = false) (data : List UInt8)
    (short : data.length < 2) :
    decoder.decode_utf16 simdutf data true little_endian = (.ok [], { decoder with remainder_ := data }) := by
  unfold Decoder.decode_utf16
  cases little_endian <;> simp [fresh, documented.bom_byte_size.2.1, documented.bom_byte_size.2.2, short]

theorem opens_utf8 (decoder : Decoder) (fresh : decoder.bom_seen_ = false) (data : List UInt8) (stream : Bool)
    (ready : 3 ≤ data.length ∨ stream = false) :
    decoder.decode_utf8 simdutf data stream =
      { decoder with bom_seen_ := true }.decode_utf8 simdutf (data.drop (skipped .utf8 decoder.ignore_bom_ data)) stream := by
  have skip := skip_first simdutf documented .utf8 data decoder.ignore_bom_
  have waits : (!false && decide (data.length < simdutf.bom_byte_size .UTF8)) = decide (data.length < 3) := by
    rw [documented.bom_byte_size.1]
    rfl
  have ready_ : (decide (data.length < 3) && stream) = false := by
    rcases ready with enough | last
    · rw [decide_eq_false (by omega), Bool.false_and]
    · rw [last, Bool.and_false]
  unfold Decoder.decode_utf8
  simp only [fresh, waits, ready_, Bool.false_or]
  change skip_bom_if simdutf data .UTF8 decoder.ignore_bom_ (decide (data.length < 3)) = _ at skip
  rw [skip]
  simp [skip_bom_if]

theorem opens_utf16 (little_endian : Bool) (encoding : Encoding) (encoding_ : encoding = if little_endian then .utf16le else .utf16be)
    (decoder : Decoder) (fresh : decoder.bom_seen_ = false) (data : List UInt8) (stream : Bool)
    (ready : 2 ≤ data.length ∨ stream = false) :
    decoder.decode_utf16 simdutf data stream little_endian =
      { decoder with bom_seen_ := true }.decode_utf16 simdutf (data.drop (skipped encoding decoder.ignore_bom_ data)) stream
        little_endian := by
  have skip := skip_first simdutf documented encoding data decoder.ignore_bom_
  have mark : (if little_endian then EncodingType.UTF16_LE else EncodingType.UTF16_BE) = expectedMark encoding := by
    rw [encoding_]
    cases little_endian <;> rfl
  have need : markBytes encoding = 2 := by
    rw [encoding_]
    cases little_endian <;> rfl
  have waits : (!false && decide (data.length < simdutf.bom_byte_size (expectedMark encoding))) = decide (data.length < 2) := by
    rw [mark_size simdutf documented, need]
    rfl
  have ready_ : (decide (data.length < 2) && stream) = false := by
    rcases ready with enough | last
    · rw [decide_eq_false (by omega), Bool.false_and]
    · rw [last, Bool.and_false]
  rw [need] at skip
  unfold Decoder.decode_utf16
  simp only [mark, fresh, waits, ready_, Bool.false_or]
  rw [skip]
  simp [skip_bom_if]

theorem waits (decoder : Decoder) (fresh : decoder.bom_seen_ = false) (input : List UInt8)
    (short : (decoder.remainder_ ++ input).length < markBytes decoder.encoding_) :
    decoder.decode simdutf input true = (.ok [], { decoder with remainder_ := decoder.remainder_ ++ input }) := by
  have data : (if decoder.remainder_.isEmpty then input else decoder.remainder_ ++ input) = decoder.remainder_ ++ input := by
    cases decoder.remainder_ <;> rfl
  unfold Decoder.decode
  rw [data]
  obtain ⟨encoding, fatal, ignore_bom, bom_seen, remainder⟩ := decoder
  cases encoding with
  | utf8 => exact waits_utf8 simdutf documented ⟨.utf8, fatal, ignore_bom, bom_seen, []⟩ fresh _ short
  | utf16le => exact waits_utf16 simdutf documented true ⟨.utf16le, fatal, ignore_bom, bom_seen, []⟩ fresh _ short
  | utf16be => exact waits_utf16 simdutf documented false ⟨.utf16be, fatal, ignore_bom, bom_seen, []⟩ fresh _ short

-- A call that decides about the mark goes on as one behind it.
theorem opens (decoder : Decoder) (fresh : decoder.bom_seen_ = false) (input : List UInt8) (stream : Bool)
    (ready : markBytes decoder.encoding_ ≤ (decoder.remainder_ ++ input).length ∨ stream = false) :
    decoder.decode simdutf input stream =
      { decoder with bom_seen_ := true, remainder_ := [] }.decode simdutf
        ((decoder.remainder_ ++ input).drop (skipped decoder.encoding_ decoder.ignore_bom_ (decoder.remainder_ ++ input))) stream := by
  have data : (if decoder.remainder_.isEmpty then input else decoder.remainder_ ++ input) = decoder.remainder_ ++ input := by
    cases decoder.remainder_ <;> rfl
  unfold Decoder.decode
  rw [data]
  obtain ⟨encoding, fatal, ignore_bom, bom_seen, remainder⟩ := decoder
  cases encoding with
  | utf8 => exact opens_utf8 simdutf documented ⟨.utf8, fatal, ignore_bom, bom_seen, []⟩ fresh _ stream ready
  | utf16le => exact opens_utf16 simdutf documented true .utf16le rfl ⟨.utf16le, fatal, ignore_bom, bom_seen, []⟩ fresh _ stream ready
  | utf16be => exact opens_utf16 simdutf documented false .utf16be rfl ⟨.utf16be, fatal, ignore_bom, bom_seen, []⟩ fresh _ stream ready

theorem streamed_fresh (last : List UInt8) (chunks : List (List UInt8)) (decoder : Decoder) (fresh : decoder.bom_seen_ = false) :
    decoder.streamed simdutf last chunks =
      render decoder.fatal_ (tokens decoder.encoding_ ((decoder.remainder_ ++ chunks.flatten ++ last).drop
        (skipped decoder.encoding_ decoder.ignore_bom_
          (arrivedAt (markBytes decoder.encoding_) last decoder.remainder_ chunks)))) := by
  induction chunks generalizing decoder with
  | nil =>
      rw [Decoder.streamed, opens simdutf documented decoder fresh last false (Or.inr rfl),
        last_call simdutf documented { decoder with bom_seen_ := true, remainder_ := [] } rfl, List.flatten_nil, List.append_nil]
      rfl
  | cons chunk later ih =>
      rw [arrivedAt]
      by_cases enough : markBytes decoder.encoding_ ≤ (decoder.remainder_ ++ chunk).length
      · have opened := opens simdutf documented decoder fresh chunk true (Or.inl enough)
        have bound : skipped decoder.encoding_ decoder.ignore_bom_ (decoder.remainder_ ++ chunk) ≤ (decoder.remainder_ ++ chunk).length := by
          rw [skipped]
          split
          · exact enough
          · exact Nat.zero_le _
        rw [if_pos enough, Decoder.streamed, opened]
        have run := streamed_seen simdutf documented last
          ((decoder.remainder_ ++ chunk).drop (skipped decoder.encoding_ decoder.ignore_bom_ (decoder.remainder_ ++ chunk)) :: later)
          { decoder with bom_seen_ := true, remainder_ := [] } rfl
        rw [Decoder.streamed] at run
        refine run.trans ?_
        rw [List.flatten_cons, List.nil_append, List.flatten_cons, ← List.append_assoc decoder.remainder_,
          List.append_assoc (decoder.remainder_ ++ chunk), List.drop_append_of_le_length bound, List.append_assoc]
      · rw [if_neg enough, Decoder.streamed, waits simdutf documented decoder fresh chunk (Nat.lt_of_not_le enough)]
        dsimp only
        rw [ih { decoder with remainder_ := decoder.remainder_ ++ chunk } fresh, List.flatten_cons,
          List.append_assoc decoder.remainder_ chunk later.flatten]
        cases render decoder.fatal_ (tokens decoder.encoding_ ((decoder.remainder_ ++ (chunk ++ later.flatten) ++ last).drop
          (skipped decoder.encoding_ decoder.ignore_bom_
            (arrivedAt (markBytes decoder.encoding_) last (decoder.remainder_ ++ chunk) later)))) <;> rfl

theorem decoded_once (encoding : Encoding) (options : DecoderOptions) (bytes : List UInt8) :
    (newDecoder encoding options).oneShot simdutf bytes =
      render options.fatal (tokens encoding (bytes.drop (skipped encoding options.ignore_bom bytes))) := by
  rw [Decoder.oneShot, opens simdutf documented (newDecoder encoding options) rfl bytes false (Or.inr rfl),
    last_call simdutf documented { newDecoder encoding options with bom_seen_ := true, remainder_ := [] } rfl]
  rfl

end phases

section splits

-- The same text, or both fail.
def Agree : Decoded → Decoded → Prop
  | .ok text, .ok other => text = other
  | .error _, .error _ => True
  | _, _ => False

instance : DecidableRel Agree := fun decoded other =>
  match decoded, other with
  | .ok text, .ok other => inferInstanceAs (Decidable (text = other))
  | .error _, .error _ => .isTrue trivial
  | .ok _, .error _ => .isFalse id
  | .error _, .ok _ => .isFalse id

def WellFormed16le (bytes : List UInt8) : Prop := bytes.length % 2 = 0 ∧ ∃ chars, char16s bytes = utf16Code.words chars

-- A mark of UTF-32 of which the decoder has seen the half that is a mark of UTF-16.
def HalfMark (encoding : Encoding) (options : DecoderOptions) (chunks : List (List UInt8)) (last : List UInt8) : Prop :=
  encoding = .utf16le ∧ options.ignore_bom = false ∧ [0xFF, 0xFE, 0x00, 0x00] <+: chunks.flatten ++ last ∧
    (arrivedAt 2 last [] chunks).length < 4

theorem well_formed16 (bytes : List UInt8) : none ∉ tokens .utf16le bytes ↔ WellFormed16le bytes := by
  have scanned := utf16Code.scan_whole (char16s bytes)
  change none ∉ utf16Code.scan ((char16s bytes).map id) ++ (if bytes.length % 2 = 0 then [] else [none]) ↔ _
  rw [List.map_id, List.mem_append, not_or, scanned, WellFormed16le]
  by_cases even : bytes.length % 2 = 0
  · simp [even]
  · simp [even]

theorem render_agree (fatal : Bool) (front back : List (Option Char)) :
    Agree (render fatal front) (render fatal back) ↔ render fatal front = render fatal back := by
  unfold render
  split <;> split <;> simp [Agree, notValid]

theorem tokens_mark (rest : List UInt8) :
    tokens .utf16le (0xFF :: 0xFE :: rest) = some (Char.ofNat 0xFEFF) :: tokens .utf16le rest := by
  have first := utf16Code.scan_word (Char.ofNat 0xFEFF) (unitsOf true rest)
  have word : utf16Code.word (Char.ofNat 0xFEFF) = [0xFEFF] := by decide
  have parity : (0xFF :: 0xFE :: rest : List UInt8).length % 2 = rest.length % 2 := by
    rw [List.length_cons, List.length_cons, Nat.add_assoc, Nat.add_mod_right]
  rw [word] at first
  change utf16Code.scan ([0xFEFF] ++ unitsOf true rest) ++ _ = _
  rw [first, parity]
  rfl

-- The mark stands in the text of the one and not of the other.
theorem half_mark (fatal : Bool) (rest : List UInt8) :
    render fatal (tokens .utf16le rest) = render fatal (tokens .utf16le (0xFF :: 0xFE :: rest)) ↔
      fatal = true ∧ none ∈ tokens .utf16le rest := by
  rw [tokens_mark, render, render]
  by_cases strict : fatal = true ∧ none ∈ tokens .utf16le rest
  · rw [if_pos strict, if_pos ⟨strict.1, List.mem_cons_of_mem _ strict.2⟩]
    exact iff_of_true rfl strict
  · have strict_ : ¬(fatal = true ∧ none ∈ some (Char.ofNat 0xFEFF) :: tokens .utf16le rest) := by
      rintro ⟨is_fatal, member⟩
      rcases List.mem_cons.mp member with same | inside
      · cases same
      · exact strict ⟨is_fatal, inside⟩
    rw [if_neg strict, if_neg strict_]
    refine iff_of_false ?_ strict
    intro same
    have length := congrArg List.length (Except.ok.inj same)
    have mark : lettersOf (some (Char.ofNat 0xFEFF) :: tokens .utf16le rest) =
      Char.ofNat 0xFEFF :: lettersOf (tokens .utf16le rest) := rfl
    have bytes : (utf8Code.word (Char.ofNat 0xFEFF)).length = 3 := by decide
    rw [mark, Code.words_cons, List.length_append, bytes] at length
    omega

-- With half of the mark there it is one of UTF-16, with all of it it is none.
theorem half_skipped (arrived bytes : List UInt8) (start : arrived <+: bytes) (enough : 2 ≤ arrived.length ∨ arrived = bytes)
    (mark : [0xFF, 0xFE, 0x00, 0x00] <+: bytes) (few : arrived.length < 4) :
    skipped .utf16le false arrived = 2 ∧ skipped .utf16le false bytes = 0 := by
  have long : 4 ≤ bytes.length := mark.length_le
  have two : 2 ≤ arrived.length := by
    rcases enough with enough | rfl
    · exact enough
    · omega
  have half : [0xFF, 0xFE] <+: bytes := ((List.prefix_append [0xFF, 0xFE] [0x00, 0x00]).trans mark)
  have here : [0xFF, 0xFE] <+: arrived := List.prefix_of_prefix_length_le half start two
  have short : ¬[0xFF, 0xFE, 0x00, 0x00] <+: arrived := fun whole => absurd whole.length_le (Nat.not_le_of_lt few)
  refine ⟨if_pos ⟨rfl, (bom_utf16le arrived).mpr ⟨here, short⟩⟩, if_neg ?_⟩
  rintro ⟨_, found⟩
  exact ((bom_utf16le bytes).mp found).2 mark

theorem streaming_iff (simdutf : Simdutf) (documented : Documented simdutf) (encoding : Encoding) (options : DecoderOptions)
    (chunks : List (List UInt8)) (last : List UInt8) :
    Agree ((newDecoder encoding options).streamed simdutf last chunks)
        ((newDecoder encoding options).oneShot simdutf (chunks.flatten ++ last)) ↔
      ¬HalfMark encoding options chunks last ∨ (options.fatal = true ∧ ¬WellFormed16le (chunks.flatten ++ last)) := by
  have streamed := streamed_fresh simdutf documented last chunks (newDecoder encoding options) rfl
  have once := decoded_once simdutf documented encoding options (chunks.flatten ++ last)
  obtain ⟨start, enough⟩ := arrived_start (markBytes encoding) last chunks []
  rw [List.nil_append] at start enough
  change _ = render options.fatal (tokens encoding ((chunks.flatten ++ last).drop
    (skipped encoding options.ignore_bom (arrivedAt (markBytes encoding) last [] chunks)))) at streamed
  rw [streamed, once, render_agree]
  by_cases half : HalfMark encoding options chunks last
  · have split_ := half
    obtain ⟨rfl, ignored, mark, few⟩ := half
    obtain ⟨skips, keeps⟩ := half_skipped _ _ start enough mark few
    rw [ignored, skips, keeps]
    obtain ⟨rest, whole⟩ := mark
    rw [← well_formed16, not_not, ← whole]
    change render options.fatal (tokens .utf16le (0x00 :: 0x00 :: rest)) =
      render options.fatal (tokens .utf16le (0xFF :: 0xFE :: 0x00 :: 0x00 :: rest)) ↔
        _ ∨ options.fatal = true ∧ none ∈ tokens .utf16le (0xFF :: 0xFE :: 0x00 :: 0x00 :: rest)
    rw [half_mark, tokens_mark, List.mem_cons]
    refine ⟨fun strict => Or.inr ⟨strict.1, Or.inr strict.2⟩, ?_⟩
    rintro (other | ⟨strict, same | inside⟩)
    · exact absurd split_ other
    · cases same
    · exact ⟨strict, inside⟩
  · have same := skipped_same encoding options.ignore_bom _ _ start enough ?_
    · exact iff_of_true (by rw [same]) (Or.inl half)
    · rintro ⟨rfl, ignored, mark, few⟩
      exact half ⟨rfl, ignored, mark, few⟩

theorem streaming_iff_reference :
    (([[0xFE], [0xFF, 0xD8], [0x3D, 0xDE, 0x00]] : List (List UInt8)).flatten = [0xFE, 0xFF, 0xD8, 0x3D, 0xDE, 0x00]) ∧
    Agree ((newDecoder .utf16be ⟨true, false⟩).streamed reference [] [[0xFE], [0xFF, 0xD8], [0x3D, 0xDE, 0x00]])
      ((newDecoder .utf16be ⟨true, false⟩).oneShot reference [0xFE, 0xFF, 0xD8, 0x3D, 0xDE, 0x00]) :=
  ⟨rfl, (streaming_iff reference reference_documented .utf16be ⟨true, false⟩ [[0xFE], [0xFF, 0xD8], [0x3D, 0xDE, 0x00]] []).mpr
    (Or.inl (fun half => nomatch half.1))⟩

-- FF FE and then 00 00: the chunks have the text U+0000, the whole has U+FEFF before it.
theorem half_mark_differs :
    (newDecoder .utf16le ⟨false, false⟩).streamed reference [] [[0xFF, 0xFE], [0x00, 0x00]] = .ok [0x00] ∧
      (newDecoder .utf16le ⟨false, false⟩).oneShot reference [0xFF, 0xFE, 0x00, 0x00] = .ok [0xEF, 0xBB, 0xBF, 0x00] ∧
      ¬∀ (simdutf : Simdutf), Documented simdutf → ∀ (encoding : Encoding) (options : DecoderOptions) (chunks : List (List UInt8))
        (last : List UInt8), Agree ((newDecoder encoding options).streamed simdutf last chunks)
          ((newDecoder encoding options).oneShot simdutf (chunks.flatten ++ last)) := by
  have chunks : (newDecoder .utf16le ⟨false, false⟩).streamed reference [] [[0xFF, 0xFE], [0x00, 0x00]] = .ok [0x00] := by decide
  have whole : (newDecoder .utf16le ⟨false, false⟩).oneShot reference [0xFF, 0xFE, 0x00, 0x00] = .ok [0xEF, 0xBB, 0xBF, 0x00] := by
    decide
  refine ⟨chunks, whole, fun always => ?_⟩
  have agree := always reference reference_documented .utf16le ⟨false, false⟩ [[0xFF, 0xFE], [0x00, 0x00]] []
  change Agree _ ((newDecoder .utf16le ⟨false, false⟩).oneShot reference [0xFF, 0xFE, 0x00, 0x00]) at agree
  rw [chunks, whole] at agree
  exact absurd agree (by decide)

end splits

end Vacps.Native
