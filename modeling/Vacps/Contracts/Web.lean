import Vacps.Contracts.Numbers
import Vacps.Library.Base64

/- What both programs take from their platforms for signed requests: URLs, headers, the crypto
   primitives, and the request as it goes over the wire. -/
set_option autoImplicit false

namespace Vacps

open Library.Base64 (Bytes)

-- A parsed http(s) URL. The parser percent-encodes what would end the path or the query.
structure Url where
  pathname : String
  query : Option String
  rooted : pathname.toList.head? = some '/'
  path_plain : '?' ∉ pathname.toList ∧ '\n' ∉ pathname.toList
  query_plain : ∀ text ∈ query, '\n' ∉ text.toList

namespace Url

-- URL#search: empty for an empty query.
def search (url : Url) : String :=
  match url.query with
  | none => ""
  | some query => if query = "" then "" else "?" ++ query

-- The request-target a client puts on the request line for the URL.
def wire (url : Url) : String :=
  match url.query with
  | none => url.pathname
  | some query => url.pathname ++ "?" ++ query

end Url

-- SHA-256, Ed25519 and the URL parser; none where the real one throws.
structure Web where
  url : String → Option Url
  sha256 : Bytes → Bytes
  ed25519Sign : (privateKey message : Bytes) → Option Bytes
  ed25519Verify : (publicKey message signature : Bytes) → Option Bool

def utf8 (text : String) : Bytes := text.toByteArray.data.toList

theorem utf8_injective (a b : String) (same : utf8 a = utf8 b) : a = b := by
  have data : a.toByteArray.data = b.toByteArray.data := Array.toList_inj.mp same
  exact String.toByteArray_inj.mp (ByteArray.ext data)

-- /^[A-Za-z0-9_-]{least,most}$/
def isBase64Url (least most : Nat) (text : String) : Bool :=
  text.toList.all (fun char => char.isAlphanum || char == '_' || char == '-') &&
    least ≤ text.length && text.length ≤ most

abbrev Headers : Type := List (String × String)

-- Headers#get: names without case, the values of one name joined.
def Headers.get (headers : Headers) (name : String) : Option String :=
  match headers.filter fun (field, _) => field.toLower == name.toLower with
  | [] => none
  | found => some (", ".intercalate (found.map fun (_, value) => value))

end Vacps
