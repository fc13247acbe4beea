import Mathlib.Tactic.SplitIfs
import Vacps.Library.Utf8

/- The UTF-8 decoder of the Encoding standard, which reads byte by byte, against the characters of the text. -/
set_option autoImplicit false

namespace Library.Utf8

structure DecoderState where
  code_point : Nat
  bytes_seen : Nat
  bytes_needed : Nat
  lower_boundary : Nat
  upper_boundary : Nat

def decoderStart : DecoderState := ⟨0, 0, 0, 0x80, 0xBF⟩

-- A byte where no character has begun. An error is none.
def startByte (byte : UInt8) : List (Option Char) × DecoderState :=
  if byte.toNat ≤ 0x7F then ([some (Char.ofNat byte.toNat)], decoderStart)
  else if 0xC2 ≤ byte.toNat ∧ byte.toNat ≤ 0xDF then
    ([], { decoderStart with bytes_needed := 1, code_point := byte.toNat % 0x20 })
  else if 0xE0 ≤ byte.toNat ∧ byte.toNat ≤ 0xEF then
    ([], { decoderStart with
      lower_boundary := if byte = 0xE0 then 0xA0 else 0x80
      upper_boundary := if byte = 0xED then 0x9F else 0xBF
      bytes_needed := 2
      code_point := byte.toNat % 0x10 })
  else if 0xF0 ≤ byte.toNat ∧ byte.toNat ≤ 0xF4 then
    ([], { decoderStart with
      lower_boundary := if byte = 0xF0 then 0x90 else 0x80
      upper_boundary := if byte = 0xF4 then 0x8F else 0xBF
      bytes_needed := 3
      code_point := byte.toNat % 0x8 })
  else ([none], decoderStart)

def nextByte (state : DecoderState) (byte : UInt8) : List (Option Char) × DecoderState :=
  if state.bytes_needed = 0 then startByte byte
  else if byte.toNat < state.lower_boundary ∨ state.upper_boundary < byte.toNat then
    -- The byte goes back to the stream, and is read again.
    (none :: (startByte byte).1, (startByte byte).2)
  else
    let code_point := state.code_point * 0x40 + byte.toNat % 0x40
    let bytes_seen := state.bytes_seen + 1
    if bytes_seen ≠ state.bytes_needed then
      ([], { decoderStart with code_point := code_point, bytes_seen := bytes_seen, bytes_needed := state.bytes_needed })
    else ([some (Char.ofNat code_point)], decoderStart)

def standardFrom : DecoderState → List UInt8 → List (Option Char)
  | state, [] => if state.bytes_needed = 0 then [] else [none]
  | state, byte :: rest => (nextByte state byte).1 ++ standardFrom (nextByte state byte).2 rest

def standard (bytes : List UInt8) : List (Option Char) := standardFrom decoderStart bytes

-- The bytes of a character, with its scalar value.
inductive Whole : List UInt8 → Nat → Prop where
  | one (lead : UInt8) (value : Nat) (low : lead.toNat ≤ 0x7F) (same : value = lead.toNat) : Whole [lead] value
  | two (lead second : UInt8) (value : Nat) (range : 0xC2 ≤ lead.toNat ∧ lead.toNat ≤ 0xDF) (inner : isInner second = true)
      (same : value = lead.toNat % 0x20 * 0x40 + second.toNat % 0x40) : Whole [lead, second] value
  | three (lead second third : UInt8) (value : Nat) (range : lead.toNat < 0xF0) (behind : follows lead second = true)
      (inner : isInner third = true)
      (same : value = (lead.toNat % 0x10 * 0x40 + second.toNat % 0x40) * 0x40 + third.toNat % 0x40) :
      Whole [lead, second, third] value
  | four (lead second third fourth : UInt8) (value : Nat) (range : 0xF0 ≤ lead.toNat) (behind : follows lead second = true)
      (innerThird : isInner third = true) (innerFourth : isInner fourth = true)
      (same : value =
        ((lead.toNat % 0x8 * 0x40 + second.toNat % 0x40) * 0x40 + third.toNat % 0x40) * 0x40 + fourth.toNat % 0x40) :
      Whole [lead, second, third, fourth] value

theorem inner_iff (byte : UInt8) : isInner byte = true ↔ 0x80 ≤ byte.toNat ∧ byte.toNat ≤ 0xBF := by
  simp only [isInner, Bool.and_eq_true, decide_eq_true_iff]
  omega

theorem follows_iff (lead second : UInt8) :
    follows lead second = true ↔
      (0xE0 ≤ lead.toNat ∧ lead.toNat ≤ 0xF4) ∧ (0x80 ≤ second.toNat ∧ second.toNat ≤ 0xBF) ∧
        (lead.toNat = 0xE0 → 0xA0 ≤ second.toNat) ∧ (lead.toNat = 0xF0 → 0x90 ≤ second.toNat) ∧
        (lead.toNat = 0xED → second.toNat ≤ 0x9F) ∧ (lead.toNat = 0xF4 → second.toNat ≤ 0x8F) := by
  have e0 : lead = 0xE0 ↔ lead.toNat = 0xE0 := UInt8.toNat_inj.symm
  have f0 : lead = 0xF0 ↔ lead.toNat = 0xF0 := UInt8.toNat_inj.symm
  have ed : lead = 0xED ↔ lead.toNat = 0xED := UInt8.toNat_inj.symm
  have f4 : lead = 0xF4 ↔ lead.toNat = 0xF4 := UInt8.toNat_inj.symm
  simp only [follows, Bool.and_eq_true, decide_eq_true_iff, e0, f0, ed, f4]
  split_ifs <;> omega

def scalarBytes (value : Nat) : List UInt8 :=
  if value ≤ 0x7F then [UInt8.ofNat value]
  else if value ≤ 0x7FF then [UInt8.ofNat (value / 64 % 32 + 192), UInt8.ofNat (value % 64 + 128)]
  else if value ≤ 0xFFFF then
    [UInt8.ofNat (value / 4096 % 16 + 224), UInt8.ofNat (value / 64 % 64 + 128), UInt8.ofNat (value % 64 + 128)]
  else
    [UInt8.ofNat (value / 262144 % 8 + 240), UInt8.ofNat (value / 4096 % 64 + 128), UInt8.ofNat (value / 64 % 64 + 128),
      UInt8.ofNat (value % 64 + 128)]

theorem word_scalar (char : Char) : utf8Code.word char = scalarBytes char.toNat := by
  change String.utf8EncodeChar char = scalarBytes char.val.toNat
  simp only [String.utf8EncodeChar, scalarBytes]

theorem whole_scalar (value : Nat) (valid : value.isValidChar) : Whole (scalarBytes value) value := by
  have range : value < 0xD800 ∨ 0xDFFF < value ∧ value < 0x110000 := valid
  unfold scalarBytes
  split
  · refine .one _ _ ?_ ?_ <;> rw [UInt8.toNat_ofNat'] <;> omega
  · split
    · refine .two _ _ _ ?_ ((inner_iff _).mpr ?_) ?_ <;> simp only [UInt8.toNat_ofNat'] <;> omega
    · split
      · refine .three _ _ _ _ ?_ ((follows_iff _ _).mpr ?_) ((inner_iff _).mpr ?_) ?_ <;> simp only [UInt8.toNat_ofNat'] <;> omega
      · refine .four _ _ _ _ _ ?_ ((follows_iff _ _).mpr ?_) ((inner_iff _).mpr ?_) ((inner_iff _).mpr ?_) ?_ <;>
          simp only [UInt8.toNat_ofNat'] <;> omega

theorem byte_eq (byte : UInt8) (value : Nat) (same : value = byte.toNat) : UInt8.ofNat value = byte := by
  rw [same, UInt8.ofNat_toNat]

theorem scalar_whole (bytes : List UInt8) (value : Nat) (whole : Whole bytes value) :
    value.isValidChar ∧ scalarBytes value = bytes := by
  cases whole with
  | one lead _ low same =>
      refine ⟨Or.inl (by omega), ?_⟩
      rw [scalarBytes, if_pos (by omega), byte_eq lead value same]
  | two lead second _ range inner same =>
      rw [inner_iff] at inner
      refine ⟨Or.inl (by omega), ?_⟩
      rw [scalarBytes, if_neg (by omega), if_pos (by omega), byte_eq lead _ (by omega), byte_eq second _ (by omega)]
  | three lead second third _ range behind inner same =>
      rw [inner_iff] at inner
      rw [follows_iff] at behind
      have valid : value < 0xD800 ∨ 0xDFFF < value ∧ value < 0x110000 := by omega
      refine ⟨valid, ?_⟩
      rw [scalarBytes, if_neg (by omega), if_neg (by omega), if_pos (by omega), byte_eq lead _ (by omega), byte_eq second _ (by omega),
        byte_eq third _ (by omega)]
  | four lead second third fourth _ range behind innerThird innerFourth same =>
      rw [inner_iff] at innerThird innerFourth
      rw [follows_iff] at behind
      have valid : value < 0xD800 ∨ 0xDFFF < value ∧ value < 0x110000 := by omega
      refine ⟨valid, ?_⟩
      rw [scalarBytes, if_neg (by omega), if_neg (by omega), if_neg (by omega), byte_eq lead _ (by omega), byte_eq second _ (by omega),
        byte_eq third _ (by omega), byte_eq fourth _ (by omega)]

theorem whole_word (char : Char) : Whole (utf8Code.word char) char.toNat := by
  rw [word_scalar]
  exact whole_scalar char.toNat char.valid

theorem word_whole (bytes : List UInt8) (value : Nat) (whole : Whole bytes value) : utf8Code.word (Char.ofNat value) = bytes := by
  obtain ⟨valid, same⟩ := scalar_whole bytes value whole
  have back : (Char.ofNat value).toNat = value := by
    rw [Char.ofNat, dif_pos valid]
    rfl
  rw [word_scalar, back, same]

section standard

theorem standard_from_cons (state : DecoderState) (byte : UInt8) (rest : List UInt8) :
    standardFrom state (byte :: rest) = (nextByte state byte).1 ++ standardFrom (nextByte state byte).2 rest := rfl

theorem standard_cons (byte : UInt8) (rest : List UInt8) :
    standard (byte :: rest) = (startByte byte).1 ++ standardFrom (startByte byte).2 rest := rfl

-- A byte outside the boundaries ends the character as an error, and is read again.
theorem standard_refused (state : DecoderState) (byte : UInt8) (rest : List UInt8) (needed : state.bytes_needed ≠ 0)
    (outside : byte.toNat < state.lower_boundary ∨ state.upper_boundary < byte.toNat) :
    standardFrom state (byte :: rest) = none :: standard (byte :: rest) := by
  rw [standard_from_cons, nextByte, if_neg needed, if_pos outside, standard_cons]
  rfl

theorem standard_kept (state : DecoderState) (byte : UInt8) (rest : List UInt8) (more : state.bytes_seen + 1 < state.bytes_needed)
    (inside : state.lower_boundary ≤ byte.toNat ∧ byte.toNat ≤ state.upper_boundary) :
    standardFrom state (byte :: rest) =
      standardFrom ⟨state.code_point * 0x40 + byte.toNat % 0x40, state.bytes_seen + 1, state.bytes_needed, 0x80, 0xBF⟩ rest := by
  rw [standard_from_cons, nextByte, if_neg (by omega), if_neg (by omega)]
  dsimp only
  rw [if_pos (by omega)]
  rfl

theorem standard_last (state : DecoderState) (byte : UInt8) (rest : List UInt8) (last : state.bytes_seen + 1 = state.bytes_needed)
    (inside : state.lower_boundary ≤ byte.toNat ∧ byte.toNat ≤ state.upper_boundary) :
    standardFrom state (byte :: rest) = some (Char.ofNat (state.code_point * 0x40 + byte.toNat % 0x40)) :: standard rest := by
  rw [standard_from_cons, nextByte, if_neg (by omega), if_neg (by omega)]
  dsimp only
  rw [if_neg (by omega)]
  rfl

theorem start_two (lead : UInt8) (range : 0xC2 ≤ lead.toNat ∧ lead.toNat ≤ 0xDF) :
    startByte lead = ([], ⟨lead.toNat % 0x20, 0, 1, 0x80, 0xBF⟩) := by
  rw [startByte, if_neg (by omega), if_pos range]
  rfl

-- After the first byte of a longer character, the boundaries are those of the bytes that may follow it.
theorem start_longer (lead : UInt8) (range : 0xE0 ≤ lead.toNat ∧ lead.toNat ≤ 0xF4) :
    ∃ lower upper : Nat,
      startByte lead = ([], ⟨if lead.toNat < 0xF0 then lead.toNat % 0x10 else lead.toNat % 0x8, 0, if lead.toNat < 0xF0 then 2 else 3,
        lower, upper⟩) ∧
      ∀ second : UInt8, lower ≤ second.toNat ∧ second.toNat ≤ upper ↔ follows lead second = true := by
  have e0 : lead = 0xE0 ↔ lead.toNat = 0xE0 := UInt8.toNat_inj.symm
  have f0 : lead = 0xF0 ↔ lead.toNat = 0xF0 := UInt8.toNat_inj.symm
  have ed : lead = 0xED ↔ lead.toNat = 0xED := UInt8.toNat_inj.symm
  have f4 : lead = 0xF4 ↔ lead.toNat = 0xF4 := UInt8.toNat_inj.symm
  rw [startByte, if_neg (by omega), if_neg (by omega)]
  simp only [follows_iff, e0, f0, ed, f4]
  by_cases short : lead.toNat < 0xF0
  · rw [if_pos (by omega), if_pos short, if_pos short]
    refine ⟨_, _, rfl, fun second => ?_⟩
    split_ifs <;> omega
  · rw [if_neg (by omega), if_pos (by omega), if_neg short, if_neg short]
    refine ⟨_, _, rfl, fun second => ?_⟩
    split_ifs <;> omega

theorem standard_whole (bytes : List UInt8) (value : Nat) (whole : Whole bytes value) (rest : List UInt8) :
    standard (bytes ++ rest) = some (Char.ofNat value) :: standard rest := by
  cases whole with
  | one lead _ low same =>
      rw [same, List.singleton_append, standard_cons, startByte, if_pos low]
      rfl
  | two lead second _ range inner same =>
      rw [inner_iff] at inner
      rw [same, List.cons_append, List.singleton_append, standard_cons, start_two lead range, List.nil_append,
        standard_last _ second rest rfl inner]
  | three lead second third _ range behind inner same =>
      have leads := ((follows_iff lead second).mp behind).1
      obtain ⟨lower, upper, start, bounds⟩ := start_longer lead leads
      rw [inner_iff] at inner
      rw [same, List.cons_append, List.cons_append, List.singleton_append, standard_cons, start, List.nil_append]
      simp only [if_pos range]
      rw [standard_kept _ second _ (by dsimp only; omega) ((bounds second).mpr behind), standard_last _ third rest rfl inner]
  | four lead second third fourth _ range behind innerThird innerFourth same =>
      have leads := ((follows_iff lead second).mp behind).1
      obtain ⟨lower, upper, start, bounds⟩ := start_longer lead leads
      rw [inner_iff] at innerThird innerFourth
      rw [same, List.cons_append, List.cons_append, List.cons_append, List.singleton_append, standard_cons, start, List.nil_append]
      simp only [if_neg (Nat.not_lt.mpr range)]
      rw [standard_kept _ second _ (by dsimp only; omega) ((bounds second).mpr behind),
        standard_kept _ third _ (by dsimp only; omega) innerThird, standard_last _ fourth rest rfl innerFourth]

theorem standard_word (char : Char) (rest : List UInt8) : standard (utf8Code.word char ++ rest) = some char :: standard rest := by
  rw [standard_whole _ _ (whole_word char) rest, Char.ofNat_toNat]

-- No character starts with these bytes.
theorem stuck_whole (bytes rest : List UInt8) (value : Nat) (stuck : utf8Code.first (bytes ++ rest) = none) : ¬Whole bytes value := by
  intro whole
  have here := utf8Code.first_word (Char.ofNat value) rest
  rw [word_whole bytes value whole, stuck] at here
  cases here

theorem standard_end (state : DecoderState) (needed : state.bytes_needed ≠ 0) : standardFrom state [] = [none] := by
  rw [standardFrom, if_neg needed]

theorem error_one (lead : UInt8) (rest : List UInt8) (alone : ∀ second ∈ rest.head?, follows lead second = false) :
    errorLength (lead :: rest) = 1 := by
  cases rest with
  | nil => rfl
  | cons second more =>
      have one := alone second rfl
      cases more with
      | nil => rw [errorLength, one, if_neg Bool.false_ne_true]
      | cons third others => simp [errorLength, one]

theorem standard_alone (lead : UInt8) (rest : List UInt8) (alone : ∀ second ∈ rest.head?, follows lead second = false)
    (one : standard (lead :: rest) = none :: standard rest) :
    standard (lead :: rest) = none :: standard ((lead :: rest).drop (errorLength (lead :: rest))) := by
  rw [error_one lead rest alone, List.drop_succ_cons, List.drop_zero, one]

-- The longer characters: the error ends before the first byte that cannot go on.
theorem stuck_longer (lead : UInt8) (rest : List UInt8) (lower upper : Nat)
    (start : startByte lead = ([], ⟨if lead.toNat < 0xF0 then lead.toNat % 0x10 else lead.toNat % 0x8, 0,
      if lead.toNat < 0xF0 then 2 else 3, lower, upper⟩))
    (bounds : ∀ second : UInt8, lower ≤ second.toNat ∧ second.toNat ≤ upper ↔ follows lead second = true)
    (stuck : utf8Code.first (lead :: rest) = none) :
    standard (lead :: rest) = none :: standard ((lead :: rest).drop (errorLength (lead :: rest))) := by
  have needs : 2 ≤ (if lead.toNat < 0xF0 then 2 else 3) := by split_ifs <;> omega
  cases rest with
  | nil =>
      rw [standard_cons, start, List.nil_append, standard_end _ (by dsimp only; omega)]
      rfl
  | cons second more =>
      by_cases behind : follows lead second = true
      · rw [standard_cons, start, List.nil_append, standard_kept _ second more (by dsimp only; omega) ((bounds second).mpr behind)]
        cases more with
        | nil =>
            rw [standard_end _ (by dsimp only; omega), errorLength, if_pos behind]
            rfl
        | cons third others =>
            by_cases inner : isInner third = true
            · have four : ¬lead.toNat < 0xF0 := fun three =>
                stuck_whole [lead, second, third] others _ stuck (.three lead second third _ three behind inner rfl)
              have length : errorLength (lead :: second :: third :: others) = 3 := by
                simp [errorLength, behind, inner, four]
              simp only [length, if_neg four]
              rw [standard_kept _ third others (by dsimp only; omega) ((inner_iff third).mp inner)]
              cases others with
              | nil => exact standard_end _ (by dsimp only; omega)
              | cons fourth tail =>
                  refine standard_refused _ fourth tail (by dsimp only; omega) ?_
                  have outer : ¬isInner fourth = true := fun last =>
                    stuck_whole [lead, second, third, fourth] tail _ stuck
                      (.four lead second third fourth _ (Nat.not_lt.mp four) behind inner last rfl)
                  rw [inner_iff] at outer
                  dsimp only
                  omega
            · have length : errorLength (lead :: second :: third :: others) = 2 := by
                simp [errorLength, behind, inner]
              rw [length]
              refine standard_refused _ third others (by dsimp only; omega) ?_
              rw [inner_iff] at inner
              dsimp only
              omega
      · refine standard_alone lead (second :: more) ?_ ?_
        · intro other first
          rw [← Option.some.inj first, Bool.eq_false_iff]
          exact behind
        · rw [standard_cons, start, List.nil_append]
          refine standard_refused _ second more (by dsimp only; omega) ?_
          rw [← bounds] at behind
          dsimp only
          omega

-- Where no character starts, the decoder gives one error for as many bytes as errorLength counts.
theorem standard_stuck (lead : UInt8) (rest : List UInt8) (stuck : utf8Code.first (lead :: rest) = none) :
    standard (lead :: rest) = none :: standard ((lead :: rest).drop (errorLength (lead :: rest))) := by
  by_cases longer : 0xE0 ≤ lead.toNat ∧ lead.toNat ≤ 0xF4
  · obtain ⟨lower, upper, start, bounds⟩ := start_longer lead longer
    exact stuck_longer lead rest lower upper start bounds stuck
  · have short : ∀ second, follows lead second = false := by
      intro second
      rw [Bool.eq_false_iff]
      exact fun behind => longer ((follows_iff lead second).mp behind).1
    refine standard_alone lead rest (fun second _ => short second) ?_
    by_cases low : lead.toNat ≤ 0x7F
    · exact absurd (.one lead _ low rfl) (stuck_whole [lead] rest _ stuck)
    · by_cases two : 0xC2 ≤ lead.toNat ∧ lead.toNat ≤ 0xDF
      · rw [standard_cons, start_two lead two, List.nil_append]
        cases rest with
        | nil => exact standard_end _ Nat.one_ne_zero
        | cons second more =>
            refine standard_refused _ second more (by dsimp only; omega) ?_
            have outer : ¬isInner second = true := fun inner =>
              stuck_whole [lead, second] more _ stuck (.two lead second _ two inner rfl)
            rw [inner_iff] at outer
            dsimp only
            omega
      · rw [standard_cons, startByte, if_neg low, if_neg two, if_neg (by omega), if_neg (by omega)]
        rfl

-- With U+FFFD for each error the decoder repairs the text.
theorem standard_repaired (bytes : List UInt8) :
    (standard bytes).map (fun token => token.getD (Char.ofNat 0xFFFD)) = repairedFrom 0 bytes := by
  induction size : bytes.length using Nat.strongRecOn generalizing bytes with
  | ind length ih =>
      cases bytes with
      | nil => rfl
      | cons lead rest =>
          have shorter : ∀ count, (standard (rest.drop count)).map (fun token => token.getD (Char.ofNat 0xFFFD)) =
              repairedFrom 0 (rest.drop count) := by
            intro count
            rw [List.length_cons] at size
            exact ih (rest.drop count).length (by rw [List.length_drop]; omega) (rest.drop count) rfl
          have next : ∀ count, 0 < count → (lead :: rest).drop count = rest.drop (count - 1) := by
            intro count positive
            obtain ⟨more, rfl⟩ := Nat.exists_eq_succ_of_ne_zero (Nat.ne_of_gt positive)
            rfl
          rw [repairedFrom]
          cases found : firstChar (lead :: rest) with
          | some char =>
              obtain ⟨later, whole⟩ := (utf8Code.first_iff (lead :: rest) char).mp found
              have read := standard_word char later
              have positive := List.length_pos_of_ne_nil (utf8Code.word_some char)
              have behind : later = rest.drop ((utf8Code.word char).length - 1) := by
                rw [← next _ positive, ← whole, List.drop_left]
              rw [whole, behind] at read
              rw [read, List.map_cons, shorter]
              exact congrArg (char :: ·) (repaired_drop _ rest).symm
          | none =>
              have positive : 0 < errorLength (lead :: rest) := by
                fun_cases errorLength (lead :: rest) <;> simp
              rw [standard_stuck lead rest found, List.map_cons, next _ positive, shorter]
              exact congrArg (Char.ofNat 0xFFFD :: ·) (repaired_drop _ rest).symm

end standard

section singles

-- Wherever a byte stands behind a first byte it may follow, a character starts there: no error is longer than one byte.
def SingleErrors (bytes : List UInt8) : Prop :=
  ∀ front lead second rest, bytes = front ++ lead :: second :: rest → follows lead second = true →
    utf8Code.first (lead :: second :: rest) ≠ none

theorem inner_stuck (byte : UInt8) (rest : List UInt8) (inner : isInner byte = true) : utf8Code.first (byte :: rest) = none := by
  cases found : utf8Code.first (byte :: rest) with
  | none => rfl
  | some char =>
      obtain ⟨head, tail, same, outer, _⟩ := utf8Code.shape char
      have start := (utf8Code.first_iff (byte :: rest) char).mp found
      rw [same, List.cons_prefix_cons] at start
      rw [start.1] at outer
      exact absurd inner (by rw [show isInner byte = false from outer]; decide)

theorem scan_inner (front rest : List UInt8) (inner : ∀ byte ∈ front, isInner byte = true) :
    utf8Code.scan (front ++ rest) = List.replicate front.length none ++ utf8Code.scan rest := by
  induction front with
  | nil => rfl
  | cons byte others ih =>
      rw [List.forall_mem_cons] at inner
      rw [List.cons_append, Code.scan_stuck utf8Code byte _ (inner_stuck byte _ inner.1), ih inner.2]
      rfl

-- The bytes of an error behind its first are such as stand inside a character.
theorem error_inner (lead : UInt8) (rest : List UInt8) :
    ∃ errors later, rest = errors ++ later ∧ errorLength (lead :: rest) = errors.length + 1 ∧
      ∀ byte ∈ errors, isInner byte = true := by
  cases rest with
  | nil => exact ⟨[], [], rfl, rfl, by simp⟩
  | cons second more =>
      by_cases behind : follows lead second = true
      · have inner : isInner second = true := (inner_iff second).mpr ((follows_iff lead second).mp behind).2.1
        cases more with
        | nil => exact ⟨[second], [], rfl, by simp [errorLength, behind], by simp [inner]⟩
        | cons third others =>
            by_cases two : lead.toNat < 0xF0 ∨ isInner third = false
            · refine ⟨[second], third :: others, rfl, ?_, by simp [inner]⟩
              simp [errorLength, behind, two]
            · rw [not_or, Bool.not_eq_false] at two
              refine ⟨[second, third], others, rfl, ?_, by simp [inner, two.2]⟩
              simp [errorLength, behind, two]
      · refine ⟨[], second :: more, rfl, error_one lead _ fun other first => ?_, by simp⟩
        rw [← Option.some.inj first, Bool.eq_false_iff]
        exact behind

-- One step of both: a character, or an error of the standard for some errors of one byte each.
theorem scan_step (lead : UInt8) (rest : List UInt8) :
    ∃ token count inner later, rest = inner ++ later ∧ (∀ byte ∈ inner, isInner byte = true) ∧
      utf8Code.first (lead :: rest) = token ∧ count + 1 = (if token = none then errorLength (lead :: rest) else 1) ∧
      standard (lead :: rest) = token :: standard later ∧
      utf8Code.scan (lead :: rest) = token :: List.replicate count none ++ utf8Code.scan later := by
  cases found : utf8Code.first (lead :: rest) with
  | some char =>
      obtain ⟨head, inner, same, _, all⟩ := utf8Code.shape char
      obtain ⟨later, whole⟩ := (utf8Code.first_iff (lead :: rest) char).mp found
      have read := standard_word char later
      have scanned := Code.scan_word utf8Code char later
      rw [whole] at read scanned
      rw [same, List.cons_append, List.cons.injEq] at whole
      exact ⟨some char, 0, inner, later, whole.2.symm, all, rfl, rfl, read, scanned⟩
  | none =>
      obtain ⟨errors, later, rfl, length, inner⟩ := error_inner lead rest
      have read := standard_stuck lead (errors ++ later) found
      rw [length, List.drop_succ_cons, List.drop_left] at read
      refine ⟨none, errors.length, errors, later, rfl, inner, rfl, length.symm, read, ?_⟩
      rw [Code.scan_stuck utf8Code lead _ found, scan_inner errors later inner, List.cons_append]

theorem standard_le (bytes : List UInt8) : (standard bytes).length ≤ (utf8Code.scan bytes).length := by
  induction size : bytes.length using Nat.strongRecOn generalizing bytes with
  | ind length ih =>
      cases bytes with
      | nil => exact Nat.le_refl _
      | cons lead rest =>
          obtain ⟨token, count, inner, later, rfl, _, _, _, read, scanned⟩ := scan_step lead rest
          rw [List.length_cons, List.length_append] at size
          have shorter := ih later.length (by omega) later rfl
          rw [read, scanned, List.length_append, List.length_cons, List.length_cons]
          omega

theorem error_two (lead second : UInt8) (rest : List UInt8) (behind : follows lead second = true) :
    2 ≤ errorLength (lead :: second :: rest) := by
  cases rest with
  | nil => simp [errorLength, behind]
  | cons third more =>
      rw [errorLength, behind, Bool.not_true, if_neg Bool.false_ne_true]
      split <;> decide

theorem standard_lt (front : List UInt8) (lead second : UInt8) (rest : List UInt8) (behind : follows lead second = true)
    (stuck : utf8Code.first (lead :: second :: rest) = none) :
    (standard (front ++ lead :: second :: rest)).length < (utf8Code.scan (front ++ lead :: second :: rest)).length := by
  induction size : front.length using Nat.strongRecOn generalizing front with
  | ind length ih =>
      cases front with
      | nil =>
          obtain ⟨token, count, inner, later, same, _, first, counted, read, scanned⟩ := scan_step lead (second :: rest)
          have two := error_two lead second rest behind
          have shorter := standard_le later
          rw [stuck] at first
          rw [if_pos first.symm] at counted
          rw [List.nil_append, read, scanned, List.length_append, List.length_cons, List.length_cons, List.length_replicate]
          omega
      | cons byte others =>
          obtain ⟨token, count, inner, later, same, all, _, _, read, scanned⟩ := scan_step byte (others ++ lead :: second :: rest)
          have within : ∃ more, others = inner ++ more ∧ later = more ++ lead :: second :: rest := by
            rcases List.append_eq_append_iff.mp same with ⟨passed, back, front⟩ | ⟨more, back, front⟩
            · cases passed with
              | nil => exact ⟨[], by rw [back, List.append_nil, List.append_nil], front.symm⟩
              | cons first tail =>
                  have lead_ : lead = first := (List.cons.inj front).1
                  have inside := all lead (by rw [back, lead_]; simp)
                  rw [inner_iff] at inside
                  have outside := ((follows_iff lead second).mp behind).1
                  omega
            · exact ⟨more, back, front⟩
          obtain ⟨more, rfl, rfl⟩ := within
          rw [List.length_cons, List.length_append] at size
          have shorter := ih more.length (by omega) more rfl
          rw [List.cons_append, read, scanned, List.length_append, List.length_cons, List.length_cons]
          omega

theorem single_suffix (front bytes : List UInt8) (single : SingleErrors (front ++ bytes)) : SingleErrors bytes := by
  rintro before lead second rest rfl behind
  exact single (front ++ before) lead second rest (by rw [List.append_assoc]) behind

theorem standard_single (bytes : List UInt8) (single : SingleErrors bytes) : standard bytes = utf8Code.scan bytes := by
  induction size : bytes.length using Nat.strongRecOn generalizing bytes with
  | ind length ih =>
      cases bytes with
      | nil => rfl
      | cons lead rest =>
          obtain ⟨token, count, inner, later, rfl, _, first, counted, read, scanned⟩ := scan_step lead rest
          have one : errorLength (lead :: (inner ++ later)) = 1 ∨ token ≠ none := by
            by_cases stuck : token = none
            · refine .inl (error_one lead _ fun second next => ?_)
              rw [Bool.eq_false_iff]
              intro behind
              obtain ⟨more, same⟩ := List.head?_eq_some_iff.mp next
              refine single [] lead second more (by rw [same, List.nil_append]) behind ?_
              rw [← same, first, stuck]
            · exact .inr stuck
          have none_ : count = 0 := by
            split_ifs at counted with stuck
            · have := one.resolve_right (not_not_intro stuck)
              omega
            · omega
          rw [List.length_cons, List.length_append] at size
          have same := ih later.length (by omega) later (single_suffix (lead :: inner) later single) rfl
          rw [read, scanned, none_, same]
          rfl

-- The standard's errors are those of single bytes just where none is longer.
theorem single_iff (bytes : List UInt8) : SingleErrors bytes ↔ (standard bytes).length = (utf8Code.scan bytes).length := by
  constructor
  · intro single
    rw [standard_single bytes single]
  · rintro same front lead second rest rfl behind stuck
    exact absurd same (Nat.ne_of_lt (standard_lt front lead second rest behind stuck))

end singles

end Library.Utf8
