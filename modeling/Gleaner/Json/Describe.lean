import Gleaner.Json.Reader
import Gleaner.Text.Hidden

/-!
# Naming a scalar

A scalar that stands where something else was expected is named in the fault together with its
value. In a string, characters that cannot be seen are named by their code points.
-/

namespace Gleaner.Json

/-- A character of a quoted text. -/
def quoteChar (c : Char) : String :=
  if c = '\x00' then "\\0"
  else if c = '\t' then "\\t"
  else if c = '\n' then "\\n"
  else if c = '\r' then "\\r"
  else if c = '\x22' then "\\\""
  else if c = '\\' then "\\\\"
  else if isHidden c then "\\u\x7b" ++ String.ofList (Nat.toDigits 16 c.toNat) ++ "\x7d"
  else c.toString

def quote (text : String) : String :=
  "\"" ++ String.join (text.toList.map quoteChar) ++ "\""

/-- The name of a number. -/
def Numeral.describe (numeral : Numeral) : String :=
  match numeral.integer? with
  | some n => "integer `" ++ toString n ++ "`"
  | none =>
    let sign := if numeral.negative then "-" else ""
    "floating point `" ++ sign ++ ((numeral.double?.map Double.text).getD "") ++ "`"

def Scalar.describe : Scalar → String
  | null => "null"
  | bool value => if value then "boolean `true`" else "boolean `false`"
  | number numeral => numeral.describe
  | string value => "string " ++ quote value

end Gleaner.Json
