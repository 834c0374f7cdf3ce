/-!
# JSON

JSON values. Numbers are kept as they are written and objects keep the order of their members,
since both can be seen in what is printed.
-/

namespace Gleaner

/-- A JSON value. -/
inductive Json where
  | null
  | bool (value : Bool)
  /-- A number, as it is written. -/
  | number (literal : String)
  | string (value : String)
  | array (items : List Json)
  | object (members : List (String × Json))
deriving Repr, Inhabited, BEq

namespace Json

/-- The first member of an object with a given key. -/
def get? (json : Json) (key : String) : Option Json :=
  match json with
  | object members => (members.find? fun member => member.1 = key).map Prod.snd
  | _ => none

def string? : Json → Option String
  | string value => some value
  | _ => none

end Json

end Gleaner
