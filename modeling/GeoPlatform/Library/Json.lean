import Mathlib.Algebra.Order.Ring.Rat

/-! JSON values, as a parser leaves them: the names in an object are distinct, and a number that is
too large for the machine has become an infinite one. -/

inductive Json where
  | null
  | bool (b : Bool)
  | number (q : ℚ)
  | infinite (negative : Bool)
  | string (s : String)
  | array (items : List Json)
  | object (fields : List (String × Json))

namespace Json

/-- The member of an object, which other values do not have. -/
def get? (name : String) : Json → Option Json
  | .object fields => (fields.find? fun f => f.1 = name).map Prod.snd
  | _ => none

def string? : Json → Option String
  | .string s => some s
  | _ => none

end Json
