import Mathlib.Data.List.Basic

/- Parsed JSON as the stores keep it: a column written by JSON.stringify and read by JSON.parse
   holds the value. Object members are in source order, each name once. -/
set_option autoImplicit false

namespace Vacps

inductive Json where
  | null
  | bool (value : Bool)
  | num (value : Rat)
  | str (value : String)
  | arr (items : List Json)
  | obj (members : List (String × Json))

def Json.member (name : String) : Json → Option Json
  | .obj members => members.lookup name
  | _ => none

def Json.asString : Json → Option String
  | .str value => some value
  | _ => none

-- typeof v === 'number' && Number.isInteger(v)
def Json.asInteger : Json → Option Int
  | .num value => if value.den = 1 then some value.num else none
  | _ => none

end Vacps
