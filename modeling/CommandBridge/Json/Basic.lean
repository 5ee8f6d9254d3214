import CommandBridge.Text.Literal

/-!
# JSON values

The tree of a JSON text, before anybody has decided what it means.

* Numbers are literals, so no digit is lost and no number is out of range.
* A string whose escapes name half of a surrogate pair has no text. That is an error only for
  those who need the text, so the tree keeps such strings as `string none`, also as keys.
* Objects keep their members in order and keep repeated keys. `fields?` looks up the members that
  a record wants and refuses repeated ones.
-/

namespace CommandBridge

open Text

/-- A JSON value. -/
inductive Json
  | null
  | bool (value : Bool)
  | number (literal : Literal)
  /-- A string; it has no text if an escape names half of a surrogate pair. -/
  | string (text : Option String)
  | array (items : List Json)
  /-- A list of members, each with its key. -/
  | object (members : List (Option String × Json))

namespace Json

/-- The string with the given text. -/
def ofString (s : String) : Json := string (some s)

/-- The number written without point and exponent. -/
def ofNat (n : Nat) : Json := number (Literal.ofNat n)

/-- The members with the given key, in order. -/
def membersNamed (name : String) (members : List (Option String × Json)) : List Json :=
  (members.filter fun entry => entry.1 = some name).map (·.2)

/-- The member with the given key: `none` if it is repeated, `some none` if it is missing. -/
def member? (members : List (Option String × Json)) (name : String) : Option (Option Json) :=
  match membersNamed name members with
  | [] => some none
  | [v] => some (some v)
  | _ => none

/-- The fields of a record, in the order of their names, each of them present or not.

A record is written as an object, whose members may come in any order, among others that are
ignored; or as an array of the fields in order, from which fields at the end may be missing.
Repeated fields and keys without a text are refused. -/
def fields? (names : List String) : Json → Option (List (Option Json))
  | object members =>
    if members.all (·.1.isSome) then names.mapM (member? members) else none
  | array items =>
    if items.length ≤ names.length then
      some (items.map some ++ List.replicate (names.length - items.length) none)
    else none
  | _ => none

/-- The text of a string. -/
def text? : Json → Option String
  | string text => text
  | _ => none

/-- The items of an array. -/
def items? : Json → Option (List Json)
  | array items => some items
  | _ => none

/-- A natural number below `bound`. -/
def natBelow? (bound : Nat) : Json → Option Nat
  | number literal =>
    match literal.toNat? with
    | some n => if n < bound then some n else none
    | none => none
  | _ => none

end Json

end CommandBridge
