import Gleaner.Json.Basic

/-!
# JSON text

Two layouts of a JSON value: compact, without any blanks, and pretty, with every item of an array
or object on a line of its own. In strings only quotes, backslashes and control characters are
escaped.
-/

namespace Gleaner.Json

/-- The hexadecimal digit of a number below 16. -/
def hexDigit (n : Nat) : Char :=
  Char.ofNat (if n < 10 then '0'.toNat + n else 'a'.toNat + (n - 10))

/-- A character inside a string. -/
def writeChar (c : Char) : List Char :=
  if c = '\x22' then ['\\', '\x22']
  else if c = '\\' then ['\\', '\\']
  else if c = '\x08' then ['\\', 'b']
  else if c = '\x0c' then ['\\', 'f']
  else if c = '\n' then ['\\', 'n']
  else if c = '\r' then ['\\', 'r']
  else if c = '\t' then ['\\', 't']
  else if c.toNat < 0x20 then
    ['\\', 'u', '0', '0', hexDigit (c.toNat / 16), hexDigit (c.toNat % 16)]
  else [c]

def writeString (text : String) : List Char :=
  '\x22' :: text.toList.flatMap writeChar ++ ['\x22']

def writeBool (value : Bool) : List Char :=
  if value then ['t', 'r', 'u', 'e'] else ['f', 'a', 'l', 's', 'e']

def writeNull : List Char :=
  ['n', 'u', 'l', 'l']

mutual

/-- The compact form of a value. -/
def writeCompact : Json → List Char
  | null => writeNull
  | bool value => writeBool value
  | number literal => literal.toList
  | string value => writeString value
  | array items => '[' :: writeItems items ++ [']']
  | object members => '\x7b' :: writeMembers members ++ ['\x7d']

def writeItems : List Json → List Char
  | [] => []
  | [item] => writeCompact item
  | item :: rest => writeCompact item ++ ',' :: writeItems rest

def writeMembers : List (String × Json) → List Char
  | [] => []
  | [(key, value)] => writeString key ++ ':' :: writeCompact value
  | (key, value) :: rest =>
    writeString key ++ ':' :: writeCompact value ++ ',' :: writeMembers rest

end

/-- A line feed and the indentation of the next line. -/
def newLine (indent : Nat) : List Char :=
  '\n' :: List.replicate indent ' '

mutual

/-- The pretty form of a value whose line is indented by `indent`. -/
def writePretty (indent : Nat) : Json → List Char
  | null => writeNull
  | bool value => writeBool value
  | number literal => literal.toList
  | string value => writeString value
  | array [] => ['[', ']']
  | array items => '[' :: prettyItems (indent + 2) items ++ newLine indent ++ [']']
  | object [] => ['\x7b', '\x7d']
  | object members => '\x7b' :: prettyMembers (indent + 2) members ++ newLine indent ++ ['\x7d']

def prettyItems (indent : Nat) : List Json → List Char
  | [] => []
  | [item] => newLine indent ++ writePretty indent item
  | item :: rest => newLine indent ++ writePretty indent item ++ ',' :: prettyItems indent rest

def prettyMembers (indent : Nat) : List (String × Json) → List Char
  | [] => []
  | [(key, value)] => newLine indent ++ writeString key ++ [':', ' '] ++ writePretty indent value
  | (key, value) :: rest =>
    newLine indent ++ writeString key ++ [':', ' '] ++ writePretty indent value
      ++ ',' :: prettyMembers indent rest

end

/-- The text of a value without blanks. -/
def compact (json : Json) : String :=
  String.ofList (writeCompact json)

/-- The text of a value with an item on each line. -/
def pretty (json : Json) : String :=
  String.ofList (writePretty 0 json)

end Gleaner.Json
