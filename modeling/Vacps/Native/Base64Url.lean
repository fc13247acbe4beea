import Mathlib.Data.List.DropRight
import Vacps.ControlPlane.RequestSignatures

/- crypto.cpp: base64 and base64url over EVP_EncodeBlock and EVP_DecodeBlock. A char is a Char here. -/
set_option autoImplicit false

namespace Vacps.Native.Base64Url

open Library.Base64 (Bytes sextets octets letter value urlSafe standard padding encode cleared)

section openssl

-- What the two return for (t, f, n), and what t holds then.
structure OpenSsl where
  encodeBlock : List Char → Bytes → Int → Int × List Char
  decodeBlock : Bytes → List Char → Int → Int × Bytes

def isBase64 (c : Char) : Bool :=
  ('A' ≤ c && c ≤ 'Z') || ('a' ≤ c && c ≤ 'z') || ('0' ≤ c && c ≤ '9') || c == '+' || c == '/' || c == '='

-- As long as the result fits an int; a padding character is a zero digit to the decoder.
structure Documented (openssl : OpenSsl) : Prop where
  encodes : ∀ out data, 4 * ((data.length + 2) / 3) < 2 ^ 31 →
    openssl.encodeBlock out data data.length =
      (((4 * ((data.length + 2) / 3) : Nat) : Int), encode data ++ '\x00' :: out.drop (4 * ((data.length + 2) / 3) + 1))
  decodes : ∀ out text, text.length % 4 = 0 → text.length < 2 ^ 31 → (∀ c ∈ text, isBase64 c = true) →
    openssl.decodeBlock out text text.length =
      (((3 * (text.length / 4) : Nat) : Int), octets (text.map fun c => (value c).getD 0) ++ out.drop (3 * (text.length / 4)))

end openssl

section codec

variable (openssl : OpenSsl)

-- static_cast<int>
def toInt (size : Nat) : Int := (size : Int).bmod (2 ^ 32)

def resize {V : Type} (fill : V) (items : List V) (size : Nat) : List V :=
  (items ++ List.replicate (size - items.length) fill).take size

def base64Encode (data : Bytes) : List Char :=
  if data.length = 0 then []
  else
    let outCap := 4 * ((data.length + 2) / 3) + 1
    let (n, out) := openssl.encodeBlock (List.replicate outCap '\x00') data (toInt data.length)
    if n < 0 then [] else resize '\x00' out n.toNat

def isBlank (c : Char) : Bool := c == ' ' || c == '\n' || c == '\r' || c == '\t'

-- Pad to multiple of 4 if missing padding.
def padded (cleaned : List Char) : List Char :=
  if cleaned.length % 4 ≠ 0 then padded (cleaned ++ ['=']) else cleaned
termination_by (4 - cleaned.length % 4) % 4
decreasing_by
  rw [List.length_append, List.length_singleton]
  omega

def trailingPads (cleaned : List Char) : Nat :=
  if cleaned.getLast? = some '=' then if 2 ≤ cleaned.length ∧ cleaned[cleaned.length - 2]? = some '=' then 2 else 1 else 0

def base64Decode (b64 : List Char) : Except String Bytes :=
  let cleaned := b64.filter fun c => !isBlank c
  if cleaned.isEmpty then .ok []
  else
    let cleaned := padded cleaned
    if !cleaned.all isBase64 then .error "invalid base64 character"
    else
      let outSize := 3 * (cleaned.length / 4)
      let (n, out) := openssl.decodeBlock (List.replicate outSize 0) cleaned (toInt cleaned.length)
      if n < 0 then .error "OpenSSL EVP_DecodeBlock failed"
      else
        -- The subtraction of size_t wraps around.
        let real := (n.toNat + 2 ^ 64 - trailingPads cleaned) % 2 ^ 64
        if real > outSize then .error "base64 decode length overflow" else .ok (resize 0 out real)

def base64urlEncode (data : Bytes) : List Char :=
  ((base64Encode openssl data).map fun c => if c = '+' then '-' else if c = '/' then '_' else c).rdropWhile fun c => c = '='

def stdB64 (b64url : List Char) : List Char :=
  b64url.filterMap fun c =>
    if c = '-' then some '+' else if c = '_' then some '/' else if isBlank c then none else some c

def base64urlDecode (b64url : List Char) : Except String Bytes :=
  if !(stdB64 b64url).all isBase64 then .error "invalid base64url character" else base64Decode openssl (stdB64 b64url)

end codec

section pieces

theorem is_base64 (c : Char) : isBase64 c = ((value c).isSome || c == '=') := by
  have upper : (decide ('A' ≤ c) && decide (c ≤ 'Z')) = decide (65 ≤ c.toNat ∧ c.toNat ≤ 90) := by
    rw [Bool.decide_and]
    rfl
  have lower : (decide ('a' ≤ c) && decide (c ≤ 'z')) = decide (97 ≤ c.toNat ∧ c.toNat ≤ 122) := by
    rw [Bool.decide_and]
    rfl
  have digit : (decide ('0' ≤ c) && decide (c ≤ '9')) = decide (48 ≤ c.toNat ∧ c.toNat ≤ 57) := by
    rw [Bool.decide_and]
    rfl
  rw [isBase64, value, upper, lower, digit]
  by_cases first : 65 ≤ c.toNat ∧ c.toNat ≤ 90
  · simp [first]
  · by_cases second : 97 ≤ c.toNat ∧ c.toNat ≤ 122
    · simp [first, second]
    · by_cases third : 48 ≤ c.toNat ∧ c.toNat ≤ 57
      · simp [first, second, third]
      · by_cases plus : c = '+'
        · simp [plus]
        · by_cases slash : c = '/'
          · simp [slash]
          · simp [first, second, third, plus, slash]

theorem to_int (size : Nat) (small : size < 2 ^ 31) : toInt size = size := by
  refine Int.bmod_eq_of_le ?_ ?_
  · omega
  · omega

theorem padded_eq (cleaned : List Char) :
    padded cleaned = cleaned ++ List.replicate ((4 - cleaned.length % 4) % 4) '=' := by
  induction cleaned using padded.induct with
  | case1 cleaned short ih =>
      rw [padded, if_pos short, ih, List.length_append, List.length_singleton, List.append_assoc, List.singleton_append,
        ← List.replicate_succ]
      congr 2
      omega
  | case2 cleaned whole =>
      rw [padded, if_neg whole, show (4 - cleaned.length % 4) % 4 = 0 by omega, List.replicate_zero, List.append_nil]

theorem strip_pads (front : List Char) (pads : Nat) (plain : ∀ c ∈ front, c ≠ '=') :
    (front ++ List.replicate pads '=').rdropWhile (fun c => c = '=') = front := by
  rw [List.rdropWhile, List.reverse_append, List.reverse_replicate, List.dropWhile_append_of_pos (by simp)]
  cases ends : front.reverse with
  | nil =>
      rw [List.dropWhile_nil, List.reverse_nil, ← List.reverse_reverse front, ends, List.reverse_nil]
  | cons last rest =>
      have other : last ≠ '=' := plain last (List.mem_reverse.mp (by rw [ends]; exact List.mem_cons_self))
      rw [List.dropWhile_cons_of_neg (by simpa using other), ← ends, List.reverse_reverse]

theorem std_b64 (b64url : List Char) : stdB64 b64url = (b64url.filter fun c => !isBlank c).map standard := by
  induction b64url with
  | nil => rfl
  | cons c rest ih =>
      rw [stdB64, List.filterMap_cons, ← stdB64, ih]
      by_cases dash : c = '-'
      · rw [if_pos dash, dash]
        rfl
      · rw [if_neg dash]
        by_cases bar : c = '_'
        · rw [if_pos bar, bar]
          rfl
        · rw [if_neg bar]
          cases blank : isBlank c with
          | true => simp [blank]
          | false => simp [blank, standard, dash, bar]

theorem digit_not_pad (c : Char) (digit : (value c).isSome = true) : c ≠ '=' := by
  rintro rfl
  exact absurd digit (by decide)

theorem digit_not_blank (c : Char) (digit : (value c).isSome = true) : isBlank c = false := by
  rw [← Bool.not_eq_true]
  intro blank
  rw [isBlank, Bool.or_eq_true, Bool.or_eq_true, Bool.or_eq_true, beq_iff_eq, beq_iff_eq, beq_iff_eq, beq_iff_eq] at blank
  rcases blank with ((rfl | rfl) | rfl) | rfl <;> exact absurd digit (by decide)

theorem trailing_pads (body : List Char) (pads : Nat) (few : pads ≤ 2) (plain : ∀ c ∈ body, c ≠ '=') :
    trailingPads (body ++ List.replicate pads '=') = pads := by
  have last : body.getLast? ≠ some '=' := fun ends => plain '=' (List.mem_of_getLast? ends) rfl
  obtain rfl | rfl | rfl : pads = 0 ∨ pads = 1 ∨ pads = 2 := by omega
  · rw [List.replicate_zero, List.append_nil, trailingPads, if_neg last]
  · rw [trailingPads, List.replicate_one, List.getLast?_concat, if_pos rfl, if_neg]
    rintro ⟨two, second⟩
    rw [List.length_append, List.length_singleton] at two second
    rw [List.getElem?_append_left (by omega), show body.length + 1 - 2 = body.length - 1 by omega,
      ← List.getLast?_eq_getElem?] at second
    exact last second
  · rw [trailingPads, show List.replicate 2 '=' = ['='] ++ ['='] from rfl, ← List.append_assoc, List.getLast?_concat, if_pos rfl,
      if_pos]
    simp

theorem values_listed (body : List Char) (digits : ∀ c ∈ body, (value c).isSome = true) :
    body.map (fun c => (value c).getD 0) = body.filterMap value := by
  induction body with
  | nil => rfl
  | cons c rest ih =>
      rw [List.forall_mem_cons] at digits
      obtain ⟨digit, read⟩ := Option.isSome_iff_exists.mp digits.1
      rw [List.map_cons, List.filterMap_cons, ih digits.2, read]
      rfl

theorem values_length (body : List Char) (digits : ∀ c ∈ body, (value c).isSome = true) :
    (body.filterMap value).length = body.length := by
  rw [← values_listed body digits, List.length_map]

variable (openssl : OpenSsl) (documented : Documented openssl)

include documented

theorem base64_encode_eq (data : Bytes) (fits : 4 * ((data.length + 2) / 3) < 2 ^ 31) :
    base64Encode openssl data = encode data := by
  rw [base64Encode]
  by_cases none_ : data.length = 0
  · rw [if_pos none_, List.length_eq_zero_iff.mp none_]
    rfl
  · have size : (encode data).length = 4 * ((data.length + 2) / 3) := by
      rw [encode, List.length_append, List.length_map, padding, List.length_replicate, Library.Base64.sextets_padded]
    have call := documented.encodes (List.replicate (4 * ((data.length + 2) / 3) + 1) '\x00') data fits
    rw [if_neg none_, to_int _ (by omega)]
    simp only [call]
    rw [if_neg (by omega), Int.toNat_natCast, ← size, resize, List.append_assoc, List.take_left]

theorem base64url_encode_eq (data : Bytes) (fits : 4 * ((data.length + 2) / 3) < 2 ^ 31) :
    base64urlEncode openssl data = Library.Base64.encodeUrl data := by
  have replaced : (encode data).map (fun c => if c = '+' then '-' else if c = '/' then '_' else c) =
      Library.Base64.encodeUrl data ++ List.replicate ((3 - data.length % 3) % 3) '=' := by
    rw [encode, List.map_append, List.map_map, padding, List.map_replicate]
    rfl
  rw [base64urlEncode, base64_encode_eq openssl documented data fits, replaced]
  exact strip_pads _ _ fun c written => (Library.Base64.encode_url_chars data c written).2.1

-- Padding up to a group of four is cut off again.
theorem base64_decode_eq (body : List Char) (pads : Nat) (digits : ∀ c ∈ body, (value c).isSome = true)
    (whole : body.length % 4 ≠ 1) (right : pads = 0 ∨ pads = (4 - body.length % 4) % 4) (short : body.length + 4 ≤ 2 ^ 31) :
    base64Decode openssl (body ++ List.replicate pads '=') = .ok (octets (body.filterMap value)) := by
  have kept : (body ++ List.replicate pads '=').filter (fun c => !isBlank c) = body ++ List.replicate pads '=' := by
    refine List.filter_eq_self.mpr fun c member => ?_
    rcases List.mem_append.mp member with digit | pad
    · rw [digit_not_blank c (digits c digit)]
      rfl
    · rw [List.eq_of_mem_replicate pad]
      decide
  rw [base64Decode, kept]
  dsimp only
  by_cases none_ : body = []
  · subst none_
    have unpadded : pads = 0 := by simpa using right
    subst unpadded
    rfl
  · have full : padded (body ++ List.replicate pads '=') = body ++ List.replicate ((4 - body.length % 4) % 4) '=' := by
      rw [padded_eq, List.length_append, List.length_replicate, List.append_assoc, List.replicate_append_replicate]
      congr 2
      omega
    have some_ : (body ++ List.replicate pads '=').isEmpty = false := by simp [none_]
    generalize missing : (4 - body.length % 4) % 4 = pad at full
    have each : ∀ c ∈ body ++ List.replicate pad '=', isBase64 c = true := by
      intro c member
      rw [is_base64]
      rcases List.mem_append.mp member with digit | filler
      · rw [digits c digit]
        rfl
      · rw [List.eq_of_mem_replicate filler]
        decide
    have size : (body ++ List.replicate pad '=').length = body.length + pad := by simp
    have listed := values_length body digits
    have octetsSize := Library.Base64.octets_length (body.filterMap value) (by rw [listed]; exact whole)
    rw [listed, missing] at octetsSize
    have groups : 3 * ((body.length + pad) / 4) = (octets (body.filterMap value)).length + pad := by omega
    have call := documented.decodes (List.replicate (3 * ((body.length + pad) / 4)) 0) (body ++ List.replicate pad '=')
      (by omega) (by omega) each
    have zeros := Library.Base64.octets_zeros (body.filterMap value) (by rw [listed]; exact whole)
    rw [listed, missing] at zeros
    have written : (body ++ List.replicate pad '=').map (fun c => (value c).getD 0) =
        body.filterMap value ++ List.replicate pad 0 := by
      rw [List.map_append, values_listed body digits, List.map_replicate]
      rfl
    rw [written, size] at call
    rw [some_, full, List.all_eq_true.mpr each, size, to_int _ (by omega)]
    simp only [Bool.not_true, Bool.false_eq_true, if_false, call]
    rw [if_neg (by omega), trailing_pads body pad (by omega) fun c inside => digit_not_pad c (digits c inside), Int.toNat_natCast,
      groups, show ((octets (body.filterMap value)).length + pad + 2 ^ 64 - pad) % 2 ^ 64 = (octets (body.filterMap value)).length by
        omega, if_neg (by omega)]
    have enough := congrArg List.length zeros
    rw [List.length_take] at enough
    rw [resize, List.append_assoc, List.take_append_of_le_length (by omega), zeros]

end pieces

section exactness

def despaced (text : List Char) : List Char := text.filter fun c => !isBlank c

-- Digits of either alphabet, whitespace between them, unpadded or padded to a multiple of four.
structure WellFormed (text digits : List Char) : Prop where
  alphabet : ∀ c ∈ digits, (value (standard c)).isSome = true
  whole : digits.length % 4 ≠ 1
  written : despaced text = digits ∨ despaced text = digits ++ List.replicate ((4 - digits.length % 4) % 4) '='
  short : digits.length + 4 ≤ 2 ^ 31

def sextetsOf (digits : List Char) : List Nat := digits.filterMap fun c => value (standard c)

-- In the alphabet for URLs, with no spare bit set.
def Canonical (digits : List Char) : Prop := (∀ c ∈ digits, c ≠ '+' ∧ c ≠ '/') ∧ cleared (sextetsOf digits) = sextetsOf digits

theorem letter_value (c : Char) (sextet : Nat) (read : value c = some sextet) : letter sextet = c := by
  have back : ∀ n : Nat, n = c.toNat → Char.ofNat n = c := by
    rintro n rfl
    exact Char.ofNat_toNat c
  rw [value] at read
  split at read
  · cases read
    rw [letter, if_pos (by omega)]
    exact back _ (by omega)
  · split at read
    · cases read
      rw [letter, if_neg (by omega), if_pos (by omega)]
      exact back _ (by omega)
    · split at read
      · cases read
        rw [letter, if_neg (by omega), if_neg (by omega), if_pos (by omega)]
        exact back _ (by omega)
      · split at read
        · rename_i plus
          cases read
          rw [plus]
          rfl
        · split at read
          · rename_i slash
            cases read
            rw [slash]
            rfl
          · cases read

theorem url_letter (c : Char) (sextet : Nat) (url : c ≠ '+' ∧ c ≠ '/') (read : value (standard c) = some sextet) :
    urlSafe (letter sextet) = c := by
  rw [letter_value _ _ read, standard]
  split
  · rename_i dash
    rw [dash]
    rfl
  · split
    · rename_i bar
      rw [bar]
      rfl
    · rw [urlSafe, if_neg url.1, if_neg url.2]

theorem letters_back (digits : List Char) (alphabet : ∀ c ∈ digits, (value (standard c)).isSome = true)
    (url : ∀ c ∈ digits, c ≠ '+' ∧ c ≠ '/') : (sextetsOf digits).map (fun sextet => urlSafe (letter sextet)) = digits := by
  induction digits with
  | nil => rfl
  | cons c rest ih =>
      rw [List.forall_mem_cons] at alphabet url
      obtain ⟨sextet, read⟩ := Option.isSome_iff_exists.mp alphabet.1
      rw [sextetsOf, List.filterMap_cons, read, ← sextetsOf]
      dsimp only
      rw [List.map_cons, ih alphabet.2 url.2, url_letter c sextet url.1 read]

theorem sextets_of_small (digits : List Char) : ∀ sextet ∈ sextetsOf digits, sextet < 64 := by
  intro sextet member
  obtain ⟨c, _, read⟩ := List.mem_filterMap.mp member
  exact Library.Base64.value_small _ _ read

theorem encode_sextets (bytes : Bytes) : sextetsOf (Library.Base64.encodeUrl bytes) = sextets bytes := by
  rw [sextetsOf, Library.Base64.encodeUrl, List.filterMap_map]
  refine (List.filterMap_congr fun sextet inside => ?_).trans List.filterMap_some
  exact Library.Base64.value_letter sextet (Library.Base64.sextets_small bytes sextet inside)

theorem encode_formed (bytes : Bytes) (fits : 4 * ((bytes.length + 2) / 3) < 2 ^ 31) :
    WellFormed (Library.Base64.encodeUrl bytes) (Library.Base64.encodeUrl bytes) := by
  have length : (Library.Base64.encodeUrl bytes).length = (sextets bytes).length := List.length_map _
  have size := Library.Base64.sextets_padded bytes
  refine ⟨fun c written => (Library.Base64.encode_url_chars bytes c written).1, ?_, Or.inl ?_, by omega⟩
  · rw [length]
    exact Library.Base64.sextets_length bytes
  · refine List.filter_eq_self.mpr fun c written => ?_
    have blank : ∀ n : Fin 64, isBlank (urlSafe (letter n)) = false := by decide
    obtain ⟨sextet, inside, rfl⟩ := List.mem_map.mp written
    rw [blank ⟨sextet, Library.Base64.sextets_small bytes sextet inside⟩]
    rfl

variable (openssl : OpenSsl) (documented : Documented openssl)

theorem accepted_alphabet (text : List Char) (bytes : Bytes) (decoded : base64urlDecode openssl text = .ok bytes) :
    ∀ c ∈ despaced text, (value (standard c)).isSome = true ∨ c = '=' := by
  rw [base64urlDecode, std_b64] at decoded
  split at decoded
  · cases decoded
  · rename_i checked
    rw [Bool.not_eq_true', Bool.not_eq_false] at checked
    intro c member
    have digit := List.all_eq_true.mp checked (standard c) (List.mem_map_of_mem member)
    rw [is_base64, Bool.or_eq_true, beq_iff_eq] at digit
    refine digit.imp_right fun pad => ?_
    unfold standard at pad
    split at pad
    · cases pad
    · split at pad
      · cases pad
      · exact pad

include documented

theorem base64url_decode_eq (text digits : List Char) (formed : WellFormed text digits) :
    base64urlDecode openssl text = .ok (octets (sextetsOf digits)) := by
  have pads : ∃ pads, (pads = 0 ∨ pads = (4 - digits.length % 4) % 4) ∧ despaced text = digits ++ List.replicate pads '=' := by
    rcases formed.written with bare | padded
    · exact ⟨0, Or.inl rfl, by rw [bare, List.replicate_zero, List.append_nil]⟩
    · exact ⟨_, Or.inr rfl, padded⟩
  obtain ⟨pads, right, written⟩ := pads
  have replaced : stdB64 text = digits.map standard ++ List.replicate pads '=' := by
    rw [std_b64, ← despaced, written, List.map_append, List.map_replicate]
    rfl
  have alphabet : ∀ c ∈ digits.map standard, (value c).isSome = true := by
    intro c member
    obtain ⟨source, inside, rfl⟩ := List.mem_map.mp member
    exact formed.alphabet source inside
  have checked : (stdB64 text).all isBase64 = true := by
    rw [replaced, List.all_eq_true]
    intro c member
    rw [is_base64]
    rcases List.mem_append.mp member with digit | pad
    · rw [alphabet c digit]
      rfl
    · rw [List.eq_of_mem_replicate pad]
      decide
  have length : (digits.map standard).length = digits.length := List.length_map _
  have decoded := base64_decode_eq openssl documented (digits.map standard) pads alphabet (by rw [length]; exact formed.whole)
    (by rw [length]; exact right) (by rw [length]; exact formed.short)
  rw [base64urlDecode, checked, replaced, decoded, List.filterMap_map]
  rfl

theorem round_trip (bytes : Bytes) (fits : 4 * ((bytes.length + 2) / 3) < 2 ^ 31) :
    base64urlDecode openssl (base64urlEncode openssl bytes) = .ok bytes := by
  rw [base64url_encode_eq openssl documented bytes fits,
    base64url_decode_eq openssl documented _ _ (encode_formed bytes fits), encode_sextets, Library.Base64.octets_sextets]

theorem encode_decoded (text digits : List Char) (formed : WellFormed text digits) :
    base64urlEncode openssl (octets (sextetsOf digits)) =
      (cleared (sextetsOf digits)).map fun sextet => urlSafe (letter sextet) := by
  have length : (sextetsOf digits).length = digits.length := by
    rw [sextetsOf, ← Function.comp_def, ← List.filterMap_map, values_length, List.length_map]
    intro c member
    obtain ⟨source, inside, rfl⟩ := List.mem_map.mp member
    exact formed.alphabet source inside
  have size := Library.Base64.octets_length (sextetsOf digits) (by rw [length]; exact formed.whole)
  have short := formed.short
  have whole := formed.whole
  rw [base64url_encode_eq openssl documented _ (by omega), Library.Base64.encodeUrl,
    Library.Base64.sextets_octets _ (sextets_of_small digits)]

omit documented

theorem control_plane_decodes (bytes : Bytes) (some_ : bytes ≠ []) :
    Signatures.base64UrlDecode (String.ofList (Library.Base64.encodeUrl bytes)) = .ok bytes := by
  have allowed : ∀ n : Fin 64,
      ((urlSafe (letter n)).isAlphanum || urlSafe (letter n) == '_' || urlSafe (letter n) == '-') = true := by decide
  have checked : (Library.Base64.encodeUrl bytes).all (fun c => c.isAlphanum || c == '_' || c == '-') = true := by
    refine List.all_eq_true.mpr fun c written => ?_
    obtain ⟨sextet, inside, rfl⟩ := List.mem_map.mp written
    exact allowed ⟨sextet, Library.Base64.sextets_small bytes sextet inside⟩
  have length : (Library.Base64.encodeUrl bytes).length = (sextets bytes).length := List.length_map _
  have read : (Library.Base64.encodeUrl bytes).filterMap (fun c => value (standard c)) = sextets bytes := encode_sextets bytes
  have filled : (Library.Base64.encodeUrl bytes).isEmpty = false := by
    rcases bytes with _ | ⟨a, _ | ⟨b, _ | ⟨c, rest⟩⟩⟩
    · exact absurd rfl some_
    · rfl
    · rfl
    · rfl
  rw [Signatures.base64UrlDecode, String.toList_ofList]
  rw [checked, filled, length, decide_eq_false (Library.Base64.sextets_length bytes), read, Library.Base64.octets_sextets]
  rfl

-- The int of a result that does not fit it wraps around.
def reference : OpenSsl where
  encodeBlock out data _ :=
    (toInt (4 * ((data.length + 2) / 3)), encode data ++ '\x00' :: out.drop (4 * ((data.length + 2) / 3) + 1))
  decodeBlock out text n :=
    if n < 0 then (0, out)
    else if text.length % 4 ≠ 0 ∨ text.all isBase64 = false then (-1, out)
    else
      (((3 * (text.length / 4) : Nat) : Int), octets (text.map fun c => (value c).getD 0) ++ out.drop (3 * (text.length / 4)))

theorem reference_documented : Documented reference where
  encodes := by
    intro out data fits
    simp only [reference, to_int _ fits]
  decodes := by
    intro out text groups short each
    simp only [reference]
    rw [if_neg (by omega), if_neg]
    rintro (partial_ | other)
    · exact partial_ groups
    · rw [List.all_eq_true.mpr each] at other
      cases other

theorem base64url_exact (openssl : OpenSsl) (documented : Documented openssl) :
    (∀ bytes, 4 * ((bytes.length + 2) / 3) < 2 ^ 31 →
      base64urlDecode openssl (base64urlEncode openssl bytes) = .ok bytes) ∧
    (∀ text bytes, base64urlDecode openssl text = .ok bytes →
      ∀ c ∈ despaced text, (value (standard c)).isSome = true ∨ c = '=') ∧
    (∀ text digits, WellFormed text digits → ∃ bytes, base64urlDecode openssl text = .ok bytes ∧
      base64urlEncode openssl bytes = (cleared (sextetsOf digits)).map fun sextet => urlSafe (letter sextet)) ∧
    (∀ text digits, WellFormed text digits → Canonical digits → ∃ bytes, base64urlDecode openssl text = .ok bytes ∧
      base64urlEncode openssl bytes = digits) ∧
    (∀ text digits other others, WellFormed text digits → WellFormed other others →
      (base64urlDecode openssl text = base64urlDecode openssl other ↔
        cleared (sextetsOf digits) = cleared (sextetsOf others))) ∧
    (∀ bytes, bytes ≠ [] → 4 * ((bytes.length + 2) / 3) < 2 ^ 31 →
      Signatures.base64UrlDecode (String.ofList (base64urlEncode openssl bytes)) = .ok bytes) := by
  refine ⟨round_trip openssl documented, accepted_alphabet openssl, ?_, ?_, ?_, ?_⟩
  · intro text digits formed
    exact ⟨_, base64url_decode_eq openssl documented text digits formed, encode_decoded openssl documented text digits formed⟩
  · intro text digits formed canonical
    refine ⟨_, base64url_decode_eq openssl documented text digits formed, ?_⟩
    rw [encode_decoded openssl documented text digits formed, canonical.2, letters_back digits formed.alphabet canonical.1]
  · intro text digits other others formed formedToo
    rw [base64url_decode_eq openssl documented text digits formed, base64url_decode_eq openssl documented other others formedToo,
      Except.ok.injEq]
    exact Library.Base64.octets_iff _ _ (sextets_of_small digits) (sextets_of_small others)
  · intro bytes some_ fits
    rw [base64url_encode_eq openssl documented bytes fits]
    exact control_plane_decodes bytes some_

theorem base64url_reference : base64urlDecode reference (base64urlEncode reference [251, 255, 0]) = .ok [251, 255, 0] ∧
    Signatures.base64UrlDecode (String.ofList (base64urlEncode reference [251, 255, 0])) = .ok [251, 255, 0] := by
  obtain ⟨trip, -, -, -, -, control⟩ := base64url_exact reference reference_documented
  exact ⟨trip [251, 255, 0] (by decide), control [251, 255, 0] (by decide) (by decide)⟩

-- Read are also the other alphabet, spare bits, a digit left over, and no digit at all; a long text comes back empty.
theorem base64url_inexact : Documented reference ∧
    (base64urlDecode reference ['+', 'w'] = .ok [251] ∧ base64urlDecode reference ['-', 'x'] = .ok [251] ∧
      base64urlEncode reference [251] = ['-', 'w']) ∧
    (base64urlDecode reference ['A'] = .ok [0] ∧ base64urlEncode reference [0] = ['A', 'A']) ∧
    (base64urlDecode reference [] = .ok [] ∧
      Signatures.base64UrlDecode "" = Signatures.refuse "invalid_signature_encoding" "Signature encoding is invalid." 401) ∧
    base64urlDecode reference (base64urlEncode reference (List.replicate 1610612734 1)) = .ok [] := by
  have formed : ∀ digits : List Char, digits ∈ [['+', 'w'], ['-', 'x'], []] → WellFormed digits digits := by
    intro digits member
    have all : ([['+', 'w'], ['-', 'x'], []].all fun digits => (digits.all fun c => (value (standard c)).isSome) &&
        (digits.length == 2 || digits.length == 0) && despaced digits == digits) = true := by decide
    have here := List.all_eq_true.mp all digits member
    rw [Bool.and_eq_true, Bool.and_eq_true, Bool.or_eq_true, beq_iff_eq, beq_iff_eq, beq_iff_eq] at here
    exact ⟨List.all_eq_true.mp here.1.1, by omega, Or.inl here.2, by omega⟩
  have empty := base64url_decode_eq reference reference_documented _ _ (formed [] (by simp))
  refine ⟨reference_documented, ⟨?_, ?_, ?_⟩, ⟨?_, ?_⟩, ⟨empty, ?_⟩, ?_⟩
  · exact base64url_decode_eq reference reference_documented _ _ (formed ['+', 'w'] (by simp))
  · exact base64url_decode_eq reference reference_documented _ _ (formed ['-', 'x'] (by simp))
  · exact base64url_encode_eq reference reference_documented [251] (by decide)
  · have filled : padded ['A'] = ['A', '=', '=', '='] := padded_eq ['A']
    have cleaned : (stdB64 ['A']).filter (fun c => !isBlank c) = ['A'] := by decide
    rw [base64urlDecode, base64Decode, cleaned]
    dsimp only
    rw [filled]
    decide
  · exact base64url_encode_eq reference reference_documented [0] (by decide)
  · decide
  · have lost : base64Encode reference (List.replicate 1610612734 1) = [] := by
      generalize many : List.replicate 1610612734 (1 : UInt8) = data
      have size : data.length = 1610612734 := by rw [← many, List.length_replicate]
      rw [base64Encode, if_neg (by omega)]
      simp only [reference, size]
      exact if_pos (by decide)
    rw [base64urlEncode, lost]
    exact empty

end exactness

end Vacps.Native.Base64Url
