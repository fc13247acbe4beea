import Vacps.Library.Utf8

/- vacps-native/src/text/decoder.cpp over the functions of simdutf it calls. Texts are UTF-8 bytes, a char16_t
   is read from memory low byte first, and the sizes of output buffers are left out. -/
set_option autoImplicit false

namespace Vacps.Native

open Library

section simdutf

inductive ErrorCode where
  | SUCCESS
  | HEADER_BITS
  | TOO_SHORT
  | TOO_LONG
  | OVERLONG
  | TOO_LARGE
  | SURROGATE
  | OTHER
deriving DecidableEq, Repr

structure SimdResult where
  error : ErrorCode
  count : Nat

inductive EncodingType where
  | unspecified
  | UTF8
  | UTF16_LE
  | UTF16_BE
  | UTF32_LE
  | UTF32_BE
deriving DecidableEq, Repr

-- The functions there are of each byte order.
structure Utf16Functions where
  validate_utf16 : List UInt16 → Bool
  convert_utf16_to_utf8 : List UInt16 → List UInt8
  convert_utf16_to_utf8_with_replacement : List UInt16 → List UInt8
  trim_partial_utf16 : List UInt16 → Nat

structure Simdutf where
  validate_utf8 : List UInt8 → Bool
  validate_utf8_with_errors : List UInt8 → SimdResult
  convert_utf8_to_utf16le : List UInt8 → List UInt16
  -- With the units it has written when it succeeds.
  convert_utf8_to_utf16le_with_errors : List UInt8 → SimdResult × List UInt16
  trim_partial_utf8 : List UInt8 → Nat
  utf16le : Utf16Functions
  utf16be : Utf16Functions
  check_bom : List UInt8 → EncodingType
  bom_byte_size : EncodingType → Nat

def Simdutf.utf16 (simdutf : Simdutf) (little_endian : Bool) : Utf16Functions :=
  if little_endian then simdutf.utf16le else simdutf.utf16be

end simdutf

inductive Encoding where
  | utf8
  | utf16le
  | utf16be
deriving DecidableEq, Repr

structure DecoderOptions where
  fatal : Bool
  ignore_bom : Bool
deriving DecidableEq, Repr

structure Decoder where
  encoding_ : Encoding
  fatal_ : Bool
  ignore_bom_ : Bool
  bom_seen_ : Bool
  remainder_ : List UInt8
deriving DecidableEq, Repr

def newDecoder (encoding : Encoding) (options : DecoderOptions) : Decoder := ⟨encoding, options.fatal, options.ignore_bom, false, []⟩

abbrev Decoded : Type := Except String (List UInt8)

def notValid : Decoded := .error "The encoded data was not valid"

section decoder

variable (simdutf : Simdutf)

-- The loop that puts U+FFFD for one byte wherever the conversion stops; the fuel is the bytes there are.
def replaceErrors : Nat → List UInt8 → List UInt16
  | 0, _ => []
  | _ + 1, [] => []
  | fuel + 1, byte :: rest =>
      let chunk := byte :: rest
      let (res, units) := simdutf.convert_utf8_to_utf16le_with_errors chunk
      if res.error = .SUCCESS then units
      else
        let err_at := res.count
        (if 0 < err_at then simdutf.convert_utf8_to_utf16le (chunk.take err_at) else []) ++
          0xFFFD :: replaceErrors fuel (chunk.drop (err_at + 1))

def utf8_to_well_formed (data : List UInt8) (fatal : Bool) : Decoded :=
  if data = [] then .ok []
  else if simdutf.validate_utf8 data then .ok data
  else if fatal then notValid
  else .ok (simdutf.utf16le.convert_utf16_to_utf8 (replaceErrors simdutf data.length data))

-- for (start = window; start < len; ++start)
def incompleteSuffix (data : List UInt8) : List Nat → Nat
  | [] => data.length
  | start :: later =>
      let tr := simdutf.validate_utf8_with_errors (data.drop start)
      if tr.error = .TOO_SHORT ∧ tr.count = 0 then start else incompleteSuffix data later

-- How much of the data is kept; the rest is the remainder.
def peel_utf8_stream_remainder (data : List UInt8) : Nat :=
  if data = [] then 0
  else
    let vr := simdutf.validate_utf8_with_errors data
    if vr.error = .SUCCESS ∨ vr.error = .TOO_SHORT then simdutf.trim_partial_utf8 data
    else
      let window := if 3 < data.length then data.length - 3 else 0
      incompleteSuffix simdutf data ((List.range data.length).drop window)

-- memcpy into char16_t; a last odd byte is not read.
def char16s : List UInt8 → List UInt16
  | low :: high :: rest => UInt16.ofNat (low.toNat + 256 * high.toNat) :: char16s rest
  | _ => []

def utf16_bytes_to_utf8 (bytes : List UInt8) (little_endian fatal : Bool) : Decoded :=
  if bytes = [] then .ok []
  else if bytes.length % 2 ≠ 0 then .error "TextDecoder: internal odd UTF-16 length"
  else
    let buf := char16s bytes
    if (simdutf.utf16 little_endian).validate_utf16 buf then .ok ((simdutf.utf16 little_endian).convert_utf16_to_utf8 buf)
    else if fatal then notValid
    else .ok ((simdutf.utf16 little_endian).convert_utf16_to_utf8_with_replacement buf)

-- All three answers of validate_utf16*_with_errors lead to the same trim. How many bytes are kept.
def peel_utf16_stream_remainder (bytes : List UInt8) (little_endian : Bool) : Nat :=
  if bytes.length < 2 then bytes.length
  else 2 * (simdutf.utf16 little_endian).trim_partial_utf16 (char16s bytes)

-- With bom_seen_ set on return in any case.
def skip_bom_if (data : List UInt8) (expected : EncodingType) (ignore_bom bom_seen : Bool) : Nat :=
  if bom_seen then 0
  else if ignore_bom || data.isEmpty then 0
  else
    let found := simdutf.check_bom data
    if found = expected then simdutf.bom_byte_size found else 0

def append_replacement (out : List UInt8) : List UInt8 := out ++ simdutf.utf16le.convert_utf16_to_utf8 [0xFFFD]

def Decoder.decode_utf8 (decoder : Decoder) (data : List UInt8) (stream : Bool) : Decoded × Decoder :=
  let early := !decoder.bom_seen_ && decide (data.length < simdutf.bom_byte_size .UTF8)
  if early && stream then (.ok [], { decoder with remainder_ := data })
  else
    let start := skip_bom_if simdutf data .UTF8 decoder.ignore_bom_ (decoder.bom_seen_ || early)
    let content := data.drop start
    let keep := if stream && decide (0 < content.length) then peel_utf8_stream_remainder simdutf content else content.length
    (utf8_to_well_formed simdutf (content.take keep) decoder.fatal_,
      { decoder with
        bom_seen_ := true
        remainder_ := if stream && decide (0 < content.length) then content.drop keep else decoder.remainder_ })

def Decoder.decode_utf16 (decoder : Decoder) (data : List UInt8) (stream little_endian : Bool) : Decoded × Decoder :=
  let expected_bom := if little_endian then EncodingType.UTF16_LE else EncodingType.UTF16_BE
  let early := !decoder.bom_seen_ && decide (data.length < simdutf.bom_byte_size expected_bom)
  if early && stream then (.ok [], { decoder with remainder_ := data })
  else
    let start := skip_bom_if simdutf data expected_bom decoder.ignore_bom_ (decoder.bom_seen_ || early)
    let content := data.drop start
    let seen := { decoder with bom_seen_ := true }
    -- A last odd byte is held aside.
    let even := content.take (content.length - content.length % 2)
    let odd := content.drop (content.length - content.length % 2)
    let odd_flush := !odd.isEmpty && !stream
    if odd_flush && decoder.fatal_ then (notValid, seen)
    else
      let peels := stream && decide (2 ≤ even.length)
      let keep := if peels then peel_utf16_stream_remainder simdutf even little_endian else even.length
      let remainder := if peels then decoder.remainder_ ++ even.drop keep else decoder.remainder_
      let decoder' := { seen with remainder_ := if stream then remainder ++ odd else remainder }
      match utf16_bytes_to_utf8 simdutf (even.take keep) little_endian decoder.fatal_ with
      | .ok out => (.ok (if odd_flush && !decoder.fatal_ then append_replacement simdutf out else out), decoder')
      | .error error => (.error error, decoder')

def Decoder.decode (decoder : Decoder) (input : List UInt8) (stream : Bool) : Decoded × Decoder :=
  let data := if decoder.remainder_.isEmpty then input else decoder.remainder_ ++ input
  let taken := { decoder with remainder_ := [] }
  match decoder.encoding_ with
  | .utf8 => taken.decode_utf8 simdutf data stream
  | .utf16le => taken.decode_utf16 simdutf data stream true
  | .utf16be => taken.decode_utf16 simdutf data stream false

-- Each chunk in streaming mode, and a last call that flushes; an error ends it.
def Decoder.streamed (last : List UInt8) : Decoder → List (List UInt8) → Decoded
  | decoder, [] => (decoder.decode simdutf last false).1
  | decoder, chunk :: rest =>
      match decoder.decode simdutf chunk true with
      | (.ok out, next) => (Decoder.streamed last next rest).map (out ++ ·)
      | (.error error, _) => .error error

def Decoder.oneShot (decoder : Decoder) (bytes : List UInt8) : Decoded := (decoder.decode simdutf bytes false).1

end decoder

end Vacps.Native
