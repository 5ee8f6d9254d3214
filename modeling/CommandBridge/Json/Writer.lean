import CommandBridge.Binary64.Layout
import CommandBridge.Json.Basic

/-!
# Writing JSON

Values are written without space. Strings escape quotes, backslashes and control characters, the
common ones by a letter and the others by four lower-case hexadecimal digits; all other
characters stand for themselves.

A finite float is written as a number with a point or an exponent (`Layout.document`); one that
is not finite is written as null.
-/

namespace CommandBridge.Json

open Text

/-- The float as a JSON value. -/
def ofFloat (x : Binary64) : Json :=
  if x.isFinite then number (Layout.document.write x) else null

/-- One character of a string. -/
def writeChar (c : Char) : List Char :=
  if c = '"' then ['\\', '"']
  else if c = '\\' then ['\\', '\\']
  else if c = '\x08' then ['\\', 'b']
  else if c = '\x0c' then ['\\', 'f']
  else if c = '\n' then ['\\', 'n']
  else if c = '\r' then ['\\', 'r']
  else if c = '\t' then ['\\', 't']
  else if c.toNat < 0x20 then '\\' :: 'u' :: hexDigits lowerHexDigit 4 c.toNat
  else [c]

/-- A string with its quotes. -/
def writeString (s : String) : List Char :=
  '"' :: (s.toList.flatMap writeChar ++ ['"'])

mutual

/-- The characters of a value. A string without text is written as an empty one. -/
def write : Json → List Char
  | null => "null".toList
  | bool true => "true".toList
  | bool false => "false".toList
  | number literal => literal.chars
  | string text => writeString (text.getD "")
  | array items => '[' :: (writeItems items ++ [']'])
  | object members => '\x7b' :: (writeMembers members ++ ['\x7d'])

/-- The items of an array, with commas between them. -/
def writeItems : List Json → List Char
  | [] => []
  | [v] => write v
  | v :: rest => write v ++ ',' :: writeItems rest

/-- The members of an object, with commas between them. -/
def writeMembers : List (Option String × Json) → List Char
  | [] => []
  | [(key, v)] => writeString (key.getD "") ++ ':' :: write v
  | (key, v) :: rest => writeString (key.getD "") ++ ':' :: (write v ++ ',' :: writeMembers rest)

end

def text (v : Json) : String := String.ofList v.write

end CommandBridge.Json
