import Mathlib.Data.List.Basic

/- RFC 4648: bytes in groups of three as sextets in groups of four, in the standard alphabet with
   padding or in the one for URLs without. -/
set_option autoImplicit false

namespace Library.Base64

abbrev Bytes := List UInt8

def sextets : Bytes → List Nat
  | [] => []
  | [a] => [a.toNat / 4, a.toNat % 4 * 16]
  | [a, b] => [a.toNat / 4, a.toNat % 4 * 16 + b.toNat / 16, b.toNat % 16 * 4]
  | a :: b :: c :: rest =>
      a.toNat / 4 :: (a.toNat % 4 * 16 + b.toNat / 16) :: (b.toNat % 16 * 4 + c.toNat / 64) :: c.toNat % 64 :: sextets rest

-- The bits left over in a group that ends early are dropped.
def octets : List Nat → Bytes
  | p :: q :: r :: s :: rest =>
      UInt8.ofNat (p * 4 + q / 16) :: UInt8.ofNat (q % 16 * 16 + r / 4) :: UInt8.ofNat (r % 4 * 64 + s) :: octets rest
  | [p, q, r] => [UInt8.ofNat (p * 4 + q / 16), UInt8.ofNat (q % 16 * 16 + r / 4)]
  | [p, q] => [UInt8.ofNat (p * 4 + q / 16)]
  | _ => []

def letter (sextet : Nat) : Char :=
  if sextet < 26 then Char.ofNat (65 + sextet)
  else if sextet < 52 then Char.ofNat (71 + sextet)
  else if sextet < 62 then Char.ofNat (sextet - 4)
  else if sextet = 62 then '+' else '/'

def value (char : Char) : Option Nat :=
  let code := char.toNat
  if 65 ≤ code ∧ code ≤ 90 then some (code - 65)
  else if 97 ≤ code ∧ code ≤ 122 then some (code - 71)
  else if 48 ≤ code ∧ code ≤ 57 then some (code + 4)
  else if char = '+' then some 62
  else if char = '/' then some 63 else none

def urlSafe (char : Char) : Char := if char = '+' then '-' else if char = '/' then '_' else char

def standard (char : Char) : Char := if char = '-' then '+' else if char = '_' then '/' else char

def padding (length : Nat) : List Char := List.replicate ((3 - length % 3) % 3) '='

def encode (bytes : Bytes) : List Char := (sextets bytes).map letter ++ padding bytes.length

def encodeUrl (bytes : Bytes) : List Char := (sextets bytes).map fun sextet => urlSafe (letter sextet)

theorem octets_sextets (bytes : Bytes) : octets (sextets bytes) = bytes := by
  induction bytes using sextets.induct with
  | case1 => rfl
  | case2 a =>
      have small := a.toNat_lt
      have whole : a.toNat / 4 * 4 + a.toNat % 4 * 16 / 16 = a.toNat := by omega
      simp only [sextets, octets, whole, UInt8.ofNat_toNat]
  | case3 a b =>
      have small := b.toNat_lt
      have first : a.toNat / 4 * 4 + (a.toNat % 4 * 16 + b.toNat / 16) / 16 = a.toNat := by omega
      have second : (a.toNat % 4 * 16 + b.toNat / 16) % 16 * 16 + b.toNat % 16 * 4 / 4 = b.toNat := by omega
      simp only [sextets, octets, first, second, UInt8.ofNat_toNat]
  | case4 a b c rest ih =>
      have smallB := b.toNat_lt
      have smallC := c.toNat_lt
      have first : a.toNat / 4 * 4 + (a.toNat % 4 * 16 + b.toNat / 16) / 16 = a.toNat := by omega
      have second :
          (a.toNat % 4 * 16 + b.toNat / 16) % 16 * 16 + (b.toNat % 16 * 4 + c.toNat / 64) / 4 = b.toNat := by omega
      have third : (b.toNat % 16 * 4 + c.toNat / 64) % 4 * 64 + c.toNat % 64 = c.toNat := by omega
      simp only [sextets, octets, first, second, third, UInt8.ofNat_toNat, ih]

theorem sextets_small (bytes : Bytes) : ∀ sextet ∈ sextets bytes, sextet < 64 := by
  induction bytes using sextets.induct with
  | case1 => simp [sextets]
  | case2 a =>
      have small := a.toNat_lt
      simp only [sextets, List.forall_mem_cons, List.not_mem_nil, false_imp_iff, implies_true, and_true]
      omega
  | case3 a b =>
      have smallA := a.toNat_lt
      have smallB := b.toNat_lt
      simp only [sextets, List.forall_mem_cons, List.not_mem_nil, false_imp_iff, implies_true, and_true]
      omega
  | case4 a b c rest ih =>
      have smallA := a.toNat_lt
      have smallB := b.toNat_lt
      have smallC := c.toNat_lt
      simp only [sextets, List.forall_mem_cons]
      refine ⟨?_, ?_, ?_, ?_, ih⟩ <;> omega

theorem value_letter (sextet : Nat) (small : sextet < 64) : value (standard (urlSafe (letter sextet))) = some sextet := by
  have all : ∀ n : Fin 64, value (standard (urlSafe (letter n))) = some n.val := by decide
  exact all ⟨sextet, small⟩

theorem encode_url_injective (a b : Bytes) (same : encodeUrl a = encodeUrl b) : a = b := by
  have read : ∀ bytes : Bytes, (encodeUrl bytes).map (fun char => value (standard char)) = (sextets bytes).map some := by
    intro bytes
    rw [encodeUrl, List.map_map]
    refine List.map_congr_left ?_
    intro sextet member
    exact value_letter sextet (sextets_small bytes sextet member)
  have sextetsSame : (sextets a).map some = (sextets b).map some := by rw [← read a, ← read b, same]
  have equal := List.map_injective_iff.mpr (fun _ _ => Option.some.inj) sextetsSame
  rw [← octets_sextets a, ← octets_sextets b, equal]

theorem encode_url_chars (bytes : Bytes) (char : Char) (written : char ∈ encodeUrl bytes) :
    (value (standard char)).isSome = true ∧ char ≠ '=' ∧ char ≠ '\n' := by
  have all : ∀ n : Fin 64, (value (standard (urlSafe (letter n)))).isSome = true ∧ urlSafe (letter n) ≠ '=' ∧
      urlSafe (letter n) ≠ '\n' := by decide
  rw [encodeUrl, List.mem_map] at written
  obtain ⟨sextet, member, rfl⟩ := written
  exact all ⟨sextet, sextets_small bytes sextet member⟩

theorem letters_no_pad (bytes : Bytes) : ∀ char ∈ (sextets bytes).map letter, char ≠ '=' := by
  have all : ∀ n : Fin 64, letter n ≠ '=' := by decide
  intro char written
  rw [List.mem_map] at written
  obtain ⟨sextet, member, rfl⟩ := written
  exact all ⟨sextet, sextets_small bytes sextet member⟩

def isAsciiSpace (char : Char) : Bool := ['\t', '\n', Char.ofNat 12, '\r', ' '].contains char

def unpadded (chars : List Char) : List Char :=
  if chars.length % 4 ≠ 0 then chars
  else if ['=', '='].isSuffixOf chars then chars.dropLast.dropLast
  else if ['='].isSuffixOf chars then chars.dropLast else chars

-- The forgiving decode of the Infra standard, which atob does.
def atob (text : List Char) : Option Bytes :=
  let data := unpadded (text.filter fun char => !isAsciiSpace char)
  if data.length % 4 = 1 then none else (data.mapM value).map octets

theorem sextets_length (bytes : Bytes) : (sextets bytes).length % 4 ≠ 1 := by
  induction bytes using sextets.induct with
  | case1 => decide
  | case2 a => simp [sextets]
  | case3 a b => simp [sextets]
  | case4 a b c rest ih =>
      simp only [sextets, List.length_cons]
      omega

theorem plain_unpadded (chars : List Char) (plain : '=' ∉ chars) : unpadded chars = chars := by
  have unpaired : ['=', '='].isSuffixOf chars = false := by
    rw [← Bool.not_eq_true, List.isSuffixOf_iff_suffix]
    exact fun ends => plain (ends.subset (by simp))
  have unmarked : ['='].isSuffixOf chars = false := by
    rw [← Bool.not_eq_true, List.isSuffixOf_iff_suffix]
    exact fun ends => plain (ends.subset (by simp))
  rw [unpadded, unpaired, unmarked]
  simp

theorem unpadded_padding (chars : List Char) (plain : '=' ∉ chars) (whole : chars.length % 4 ≠ 1) :
    unpadded (chars ++ List.replicate ((4 - chars.length % 4) % 4) '=') = chars := by
  obtain none_ | two | three : chars.length % 4 = 0 ∨ chars.length % 4 = 2 ∨ chars.length % 4 = 3 := by omega
  · rw [none_]
    exact (congrArg unpadded (List.append_nil chars)).trans (plain_unpadded chars plain)
  · rw [two, show (List.replicate ((4 - 2) % 4) '=') = ['='] ++ ['='] from rfl, unpadded, if_neg, if_pos, ← List.append_assoc,
      List.dropLast_concat, List.dropLast_concat]
    · rw [List.isSuffixOf_iff_suffix]
      exact List.suffix_append chars _
    · simp only [List.length_append, List.length_cons, List.length_nil]
      omega
  · rw [three, show (List.replicate ((4 - 3) % 4) '=') = ['='] from rfl, unpadded, if_neg, if_neg, if_pos, List.dropLast_concat]
    · rw [List.isSuffixOf_iff_suffix]
      exact List.suffix_append chars _
    · rw [List.isSuffixOf_iff_suffix]
      rintro ⟨front, same⟩
      rw [show ['=', '='] = ['='] ++ ['='] from rfl, ← List.append_assoc] at same
      have inside := List.append_inj_left' same rfl
      exact plain (by rw [← inside]; simp)
    · simp only [List.length_append, List.length_cons, List.length_nil]
      omega

theorem standard_letters (bytes : Bytes) : (encodeUrl bytes).map standard = (sextets bytes).map letter := by
  have all : ∀ n : Fin 64, standard (urlSafe (letter n)) = letter n := by decide
  rw [encodeUrl, List.map_map]
  refine List.map_congr_left fun sextet member => ?_
  exact all ⟨sextet, sextets_small bytes sextet member⟩

theorem values_letters (sextets : List Nat) (small : ∀ sextet ∈ sextets, sextet < 64) :
    (sextets.map letter).mapM value = some sextets := by
  have all : ∀ n : Fin 64, value (letter n) = some n.val := by decide
  induction sextets with
  | nil => rfl
  | cons sextet rest ih =>
      rw [List.map_cons, List.mapM_cons, all ⟨sextet, small sextet (by simp)⟩, ih fun other member => small other (by simp [member])]
      rfl

theorem atob_padded (bytes : Bytes) :
    atob ((encodeUrl bytes).map standard ++ List.replicate ((4 - (encodeUrl bytes).length % 4) % 4) '=') = some bytes := by
  have length : (encodeUrl bytes).length = ((sextets bytes).map letter).length := by rw [encodeUrl, List.length_map, List.length_map]
  have whole : ((sextets bytes).map letter).length % 4 ≠ 1 := by
    rw [List.length_map]
    exact sextets_length bytes
  have unspaced : ∀ n : Fin 64, isAsciiSpace (letter n) = false := by decide
  have kept : ((sextets bytes).map letter ++ List.replicate ((4 - ((sextets bytes).map letter).length % 4) % 4) '=').filter
      (fun char => !isAsciiSpace char) =
        (sextets bytes).map letter ++ List.replicate ((4 - ((sextets bytes).map letter).length % 4) % 4) '=' := by
    refine List.filter_eq_self.mpr fun char member => ?_
    rcases List.mem_append.mp member with written | padded
    · obtain ⟨sextet, inside, rfl⟩ := List.mem_map.mp written
      rw [unspaced ⟨sextet, sextets_small bytes sextet inside⟩]
      rfl
    · rw [List.eq_of_mem_replicate padded]
      decide
  rw [standard_letters, length, atob, kept, unpadded_padding _ (fun inside => letters_no_pad bytes '=' inside rfl) whole]
  rw [if_neg whole, values_letters _ (sextets_small bytes), Option.map_some, octets_sextets]

theorem unpadded_kept (chars : List Char) (char : Char) (member : char ∈ chars) (letter_ : char ≠ '=') :
    char ∈ unpadded chars := by
  have front : ∀ pads : List Char, pads <:+ chars → (∀ pad ∈ pads, pad = '=') →
      ∃ rest, chars = rest ++ pads ∧ char ∈ rest := by
    rintro pads ⟨rest, rfl⟩ marks
    refine ⟨rest, rfl, (List.mem_append.mp member).resolve_right fun last => letter_ (marks char last)⟩
  rw [unpadded]
  split
  · exact member
  · split
    · rename_i ends
      obtain ⟨rest, rfl, inside⟩ := front _ (List.isSuffixOf_iff_suffix.mp ends) (by simp)
      rw [show ['=', '='] = ['='] ++ ['='] from rfl, ← List.append_assoc, List.dropLast_concat, List.dropLast_concat]
      exact inside
    · split
      · rename_i ends
        obtain ⟨rest, rfl, inside⟩ := front _ (List.isSuffixOf_iff_suffix.mp ends) (by simp)
        rw [List.dropLast_concat]
        exact inside
      · exact member

theorem values_foreign (chars : List Char) (char : Char) (member : char ∈ chars) (foreign : value char = none) :
    chars.mapM value = none := by
  induction chars with
  | nil => cases member
  | cons head rest ih =>
      rw [List.mapM_cons]
      rcases List.mem_cons.mp member with rfl | later
      · rw [foreign]
        rfl
      · cases value head with
        | none => rfl
        | some digit =>
            rw [ih later]
            rfl

-- A letter outside the alphabet is not decoded.
theorem atob_foreign (text : List Char) (char : Char) (member : char ∈ text) (foreign : value char = none)
    (black : isAsciiSpace char = false) (letter_ : char ≠ '=') : atob text = none := by
  have inside : char ∈ text.filter fun char => !isAsciiSpace char := List.mem_filter.mpr ⟨member, by rw [black]; rfl⟩
  have kept := unpadded_kept _ char inside letter_
  rw [atob]
  split
  · rfl
  · rw [values_foreign _ char kept foreign]
    rfl

section spare

-- The digits with the bits cleared that stand for no byte.
def cleared : List Nat → List Nat
  | p :: q :: r :: s :: rest => p :: q :: r :: s :: cleared rest
  | [p, q, r] => [p, q, r / 4 * 4]
  | [p, q] => [p, q / 16 * 16]
  | _ => []

theorem short_digits (digits : List Nat) (four : ∀ p q r s rest, digits = p :: q :: r :: s :: rest → False)
    (three : ∀ p q r, digits = [p, q, r] → False) (two : ∀ p q, digits = [p, q] → False) : digits = [] ∨ ∃ p, digits = [p] := by
  rcases digits with _ | ⟨p, _ | ⟨q, _ | ⟨r, _ | ⟨s, rest⟩⟩⟩⟩
  · exact Or.inl rfl
  · exact Or.inr ⟨p, rfl⟩
  · exact absurd rfl (two p q)
  · exact absurd rfl (three p q r)
  · exact absurd rfl (four p q r s rest)

theorem sextets_octets (digits : List Nat) (small : ∀ digit ∈ digits, digit < 64) : sextets (octets digits) = cleared digits := by
  have byte : ∀ n : Nat, n < 256 → (UInt8.ofNat n).toNat = n := fun n low => UInt8.toNat_ofNat_of_lt' low
  induction digits using octets.induct with
  | case1 p q r s rest ih =>
      simp only [List.forall_mem_cons] at small
      obtain ⟨smallP, smallQ, smallR, smallS, later⟩ := small
      rw [octets, sextets, cleared, ih later, byte _ (by omega), byte _ (by omega), byte _ (by omega)]
      congr 1
      · omega
      · congr 1
        · omega
        · congr 1
          · omega
          · congr 1
            omega
  | case2 p q r =>
      simp only [List.forall_mem_cons] at small
      obtain ⟨smallP, smallQ, smallR, -⟩ := small
      rw [octets, sextets, cleared, byte _ (by omega), byte _ (by omega)]
      congr 1
      · omega
      · congr 1
        · omega
        · congr 1
          omega
  | case3 p q =>
      simp only [List.forall_mem_cons] at small
      obtain ⟨smallP, smallQ, -⟩ := small
      rw [octets, sextets, cleared, byte _ (by omega)]
      congr 1
      · omega
      · congr 1
        omega
  | case4 digits others three two =>
      rcases short_digits digits others three two with rfl | ⟨p, rfl⟩ <;> rfl

theorem octets_cleared (digits : List Nat) : octets (cleared digits) = octets digits := by
  induction digits using octets.induct with
  | case1 p q r s rest ih => rw [cleared, octets, octets, ih]
  | case2 p q r =>
      rw [cleared, octets, octets, Nat.mul_div_cancel _ (by decide)]
  | case3 p q =>
      rw [cleared, octets, octets, Nat.mul_div_cancel _ (by decide)]
  | case4 digits others three two =>
      rcases short_digits digits others three two with rfl | ⟨p, rfl⟩ <;> rfl

-- Two texts stand for the same bytes just when they differ in spare bits at most.
theorem octets_iff (first second : List Nat) (small : ∀ digit ∈ first, digit < 64) (smallToo : ∀ digit ∈ second, digit < 64) :
    octets first = octets second ↔ cleared first = cleared second := by
  constructor
  · intro same
    rw [← sextets_octets first small, ← sextets_octets second smallToo, same]
  · intro same
    rw [← octets_cleared first, ← octets_cleared second, same]

theorem octets_length (digits : List Nat) (whole : digits.length % 4 ≠ 1) :
    3 * ((digits.length + 3) / 4) = (octets digits).length + (4 - digits.length % 4) % 4 := by
  induction digits using octets.induct with
  | case1 p q r s rest ih =>
      simp only [List.length_cons] at whole
      have here := ih (by omega)
      simp only [octets, List.length_cons]
      omega
  | case2 p q r => simp [octets]
  | case3 p q => simp [octets]
  | case4 digits others three two =>
      rcases short_digits digits others three two with rfl | ⟨p, rfl⟩
      · rfl
      · exact absurd rfl whole

-- Zeros up to a group of four add bytes behind the others.
theorem octets_zeros (digits : List Nat) (whole : digits.length % 4 ≠ 1) :
    (octets (digits ++ List.replicate ((4 - digits.length % 4) % 4) 0)).take (octets digits).length = octets digits := by
  induction digits using octets.induct with
  | case1 p q r s rest ih =>
      simp only [List.length_cons] at whole
      have here := ih (by omega)
      have same : (4 - (rest.length + 1 + 1 + 1 + 1) % 4) % 4 = (4 - rest.length % 4) % 4 := by omega
      simp only [List.length_cons, same, List.cons_append, octets, List.take_succ_cons, here]
  | case2 p q r => rfl
  | case3 p q => rfl
  | case4 digits others three two =>
      rcases short_digits digits others three two with rfl | ⟨p, rfl⟩
      · rfl
      · exact absurd rfl whole

theorem sextets_padded (bytes : Bytes) : (sextets bytes).length + (3 - bytes.length % 3) % 3 = 4 * ((bytes.length + 2) / 3) := by
  induction bytes using sextets.induct with
  | case1 => rfl
  | case2 a => simp [sextets]
  | case3 a b => simp [sextets]
  | case4 a b c rest ih =>
      simp only [sextets, List.length_cons]
      omega

theorem value_small (char : Char) (digit : Nat) (read : value char = some digit) : digit < 64 := by
  unfold value at read
  dsimp only at read
  split at read
  · cases read
    omega
  · split at read
    · cases read
      omega
    · split at read
      · cases read
        omega
      · split at read
        · cases read
          decide
        · split at read
          · cases read
            decide
          · cases read

end spare

end Library.Base64
