import QueryFilter.Number.Style

/-! # JSON

A JSON value keeps the order of its members and tells whole numbers from other numbers.  It is
written without any blanks (`Json.compact`), or over several lines with two blanks for each level
(`Json.pretty`). -/

namespace QueryFilter

/-- A JSON value. -/
inductive Json where
  | null
  | bool (value : Bool)
  | int (value : Int)
  /-- A finite number that is written with a point or an exponent. -/
  | double (value : Binary64)
  | string (text : String)
  | array (items : List Json)
  | object (members : List (String × Json))
deriving Repr, Inhabited

namespace Json

/-! ### Leaves -/

/-- The hexadecimal digits of a control character. -/
def controlDigits (c : Char) : List Char :=
  ['0', '0', Nat.digitChar (c.toNat / 16), Nat.digitChar (c.toNat % 16)]

/-- A character inside a JSON string. -/
def escapeChar (c : Char) : List Char :=
  if c == '"' then ['\\', '"']
  else if c == '\\' then ['\\', '\\']
  else if c == '\x08' then ['\\', 'b']
  else if c == '\x0c' then ['\\', 'f']
  else if c == '\n' then ['\\', 'n']
  else if c == '\r' then ['\\', 'r']
  else if c == '\t' then ['\\', 't']
  else if c.toNat < 32 then '\\' :: 'u' :: controlDigits c
  else [c]

/-- The text as a JSON string. -/
def quote (text : String) : String :=
  String.ofList ('"' :: text.toList.flatMap escapeChar ++ ['"'])

/-- An integer in decimal digits. -/
def intText (n : Int) : String :=
  if n < 0 then "-" ++ Nat.repr n.natAbs else Nat.repr n.natAbs

/-- The value of an object's member. -/
def member? (json : Json) (key : String) : Option Json :=
  match json with
  | .object members => members.lookup key
  | _ => none

/-! ### Compact text -/

mutual

/-- The value on one line, without blanks. -/
def compact : Json → String
  | .null => "null"
  | .bool true => "true"
  | .bool false => "false"
  | .int n => intText n
  | .double x => NumberStyle.document.finite x
  | .string text => quote text
  | .array items => "[" ++ ",".intercalate (compactItems items) ++ "]"
  | .object members => "\x7b" ++ ",".intercalate (compactMembers members) ++ "\x7d"

/-- The items of an array, each on one line. -/
def compactItems : List Json → List String
  | [] => []
  | item :: items => item.compact :: compactItems items

/-- The members of an object, each on one line. -/
def compactMembers : List (String × Json) → List String
  | [] => []
  | (key, value) :: members => (quote key ++ ":" ++ value.compact) :: compactMembers members

end

/-! ### Text over several lines -/

/-- A new line at the given level. -/
def newLine (level : Nat) : String := "\n" ++ String.ofList (List.replicate (2 * level) ' ')

/-- The parts between brackets, each on a line of its own; nothing between the brackets if there is
no part. -/
def block (opening closing : String) (level : Nat) (parts : List String) : String :=
  match parts with
  | [] => opening ++ closing
  | parts =>
    opening ++ newLine (level + 1) ++ ("," ++ newLine (level + 1)).intercalate parts ++
      newLine level ++ closing

mutual

/-- The value over several lines, starting at the given level. -/
def prettyAt (level : Nat) : Json → String
  | .array items => block "[" "]" level (prettyItems (level + 1) items)
  | .object members => block "\x7b" "\x7d" level (prettyMembers (level + 1) members)
  | .null => "null"
  | .bool true => "true"
  | .bool false => "false"
  | .int n => intText n
  | .double x => NumberStyle.document.finite x
  | .string text => quote text

/-- The items of an array at the given level. -/
def prettyItems (level : Nat) : List Json → List String
  | [] => []
  | item :: items => item.prettyAt level :: prettyItems level items

/-- The members of an object at the given level. -/
def prettyMembers (level : Nat) : List (String × Json) → List String
  | [] => []
  | (key, value) :: members =>
    (quote key ++ ": " ++ value.prettyAt level) :: prettyMembers level members

end

/-- The value over several lines. -/
def pretty (json : Json) : String := json.prettyAt 0

end Json

end QueryFilter
