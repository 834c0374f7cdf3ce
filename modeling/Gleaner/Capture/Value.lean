import Gleaner.Fault
import Gleaner.Part
import Gleaner.Json.Writer

/-!
# Captured values

What is captured from a report is a tree of texts. Numerals stay as they are written. A part of a
block that is not there, and a token that took no part in a match, is `null`.
-/

namespace Gleaner

/-- A captured value. -/
inductive Value where
  | null
  | text (value : String)
  | list (items : List Value)
  /-- Named values in a fixed order. -/
  | record (fields : List (String × Value))
deriving Repr, Inhabited, BEq

namespace Value

def isNull : Value → Bool
  | null => true
  | _ => false

def text? : Value → Option String
  | text value => some value
  | _ => none

def items? : Value → Option (List Value)
  | list items => some items
  | _ => none

/-- The items of a list; anything else has none. -/
def items (value : Value) : List Value :=
  value.items?.getD []

/-- The first field of a record with a given key. -/
def get? (value : Value) (key : String) : Option Value :=
  match value with
  | record fields => (fields.find? fun field => field.1 = key).map Prod.snd
  | _ => none

/-- The field of a record that holds a part of a block. -/
def part? (value : Value) (part : Part) : Option Value :=
  value.get? part.key

mutual

/-- A value as JSON. -/
def toJson : Value → Json
  | null => .null
  | text value => .string value
  | list items => .array (itemsToJson items)
  | record fields => .object (fieldsToJson fields)

def itemsToJson : List Value → List Json
  | [] => []
  | item :: rest => item.toJson :: itemsToJson rest

def fieldsToJson : List (String × Value) → List (String × Json)
  | [] => []
  | (key, value) :: rest => (key, value.toJson) :: fieldsToJson rest

end

/-- Looks up a key in the only value of a list. Other lists cannot be looked through. -/
def soleField (values : List Value) (key : String) : Except Fault (Option Value) :=
  match values with
  | [only] => .ok (only.get? key)
  | _ => .error (.notSole key values.length)

end Value

end Gleaner
