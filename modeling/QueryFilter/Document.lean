import QueryFilter.Json
import QueryFilter.Moment
import QueryFilter.OperatorName

/-! # Documents

A document is a list of entries, each a key with a value, in the order in which the keys were first
inserted.  Values are those that a document store keeps: strings, 64-bit integers, floating point
numbers, booleans, dates in milliseconds, object ids, arrays and documents.

`Datum.toJson` shows a value as JSON, in which dates, object ids and numbers that are not finite are
objects with an operator key. -/

namespace QueryFilter

/-! ### Object ids -/

/-- A hexadecimal digit in lower case. -/
def isLowerHexDigit (c : Char) : Bool := c.isDigit || (decide ('a' ≤ c) && decide (c ≤ 'f'))

/-- Twenty-four hexadecimal digits in lower case. -/
def isObjectIdText (hex : String) : Bool :=
  hex.toList.length == 24 && hex.toList.all isLowerHexDigit

/-- The identifier of a stored document. -/
structure ObjectId where
  hex : String
  isHex : isObjectIdText hex = true
deriving DecidableEq, Repr

/-- Reads twenty-four hexadecimal digits of either case. -/
def ObjectId.ofText? (text : String) : Option ObjectId :=
  let hex := String.ofList (text.toList.map Char.toLower)
  if h : isObjectIdText hex = true then some ⟨hex, h⟩ else none

/-! ### Values and documents -/

/-- A value of a document. -/
inductive Datum where
  | string (text : String)
  | int (value : Int64)
  | double (value : Binary64)
  | bool (value : Bool)
  /-- Milliseconds from the start of 1970 in UTC. -/
  | date (millis : Int64)
  | objectId (id : ObjectId)
  | array (items : List Datum)
  | document (entries : List (String × Datum))
deriving Repr

instance : Inhabited Datum := ⟨.document []⟩

/-- A document: its entries in order. -/
abbrev Document := List (String × Datum)

namespace Document

/-- The keys, in order. -/
def keys (document : Document) : List String := document.map (·.1)

/-- Is there an entry with this key? -/
def hasKey (document : Document) (key : String) : Bool := document.any (·.1 == key)

/-- Sets the value of a key.  A key that is there keeps its place, a new key goes to the end. -/
def insert (key : String) (value : Datum) : Document → Document
  | [] => [(key, value)]
  | (k, v) :: rest => if k == key then (k, value) :: rest else (k, v) :: insert key value rest

/-- A key that is there keeps its place, a new key goes to the end. -/
theorem keys_insert (key : String) (value : Datum) (document : Document) :
    (document.insert key value).keys =
      if key ∈ document.keys then document.keys else document.keys ++ [key] := by
  induction document with
  | nil => rfl
  | cons e rest ih =>
    obtain ⟨k, v⟩ := e
    by_cases h : k = key
    · simp [insert, keys, h]
    · have h' : ¬ key = k := fun e => h e.symm
      simp only [keys] at ih
      by_cases hm : key ∈ rest.map (·.1)
      · simp [insert, keys, h, h', hm, ih]
      · simp [insert, keys, h, h', hm, ih]

/-- The document with a single entry. -/
def entry (key : String) (value : Datum) : Document := [(key, value)]

/-- The document of a list of entries, of which the last with a given key counts. -/
def ofEntries (entries : List (String × Datum)) : Document :=
  entries.foldl (fun document (key, value) => document.insert key value) []

end Document

/-- The documents as an array. -/
def Datum.ofDocuments (documents : List Document) : Datum := .array (documents.map .document)

/-! ### Numbers and dates -/

/-- The largest integer up to which floating point numbers hold every integer. -/
def maxSafeInteger : Int := (1 <<< 53 : Nat) - 1

/-- A number as it is stored: an integer if it is one and small enough, otherwise as it is. -/
def Datum.ofNumber (x : Binary64) : Datum :=
  match x.toInt? with
  | some n =>
    if -maxSafeInteger ≤ n ∧ n ≤ maxSafeInteger then .int (Int64.ofInt n) else .double x
  | none => .double x

/-- A moment as it is stored, in milliseconds. -/
def Datum.ofMoment (moment : Moment) : Datum := .date (Int64.ofInt moment.millis)

/-! ### JSON -/

/-- An object with a single member. -/
def Json.wrapped (key : String) (value : Json) : Json := .object [(key, value)]

/-- A date as JSON: a timestamp from 1970 up to the year 9999, otherwise a number of
milliseconds. -/
def dateJson (millis : Int) : Json :=
  let number := Json.wrapped "$date" (.wrapped "$numberLong" (.string (Json.intText millis)))
  if millis < 0 then number
  else
    match Timestamp.write? (Moment.ofMillis millis) with
    | some text => .wrapped "$date" (.string text)
    | none => number

/-- A floating point number as JSON. -/
def doubleJson (x : Binary64) : Json :=
  if x.isFinite then .double x
  else
    let name := if x.isNaN then "NaN" else "Infinity"
    .wrapped "$numberDouble" (.string (if x.negative then "-" ++ name else name))

mutual

/-- The value as JSON. -/
def Datum.toJson : Datum → Json
  | .string text => .string text
  | .int n => .int n.toInt
  | .double x => doubleJson x
  | .bool b => .bool b
  | .date millis => dateJson millis.toInt
  | .objectId id => .wrapped "$oid" (.string id.hex)
  | .array items => .array (Datum.itemsJson items)
  | .document entries => .object (Document.membersJson entries)

/-- The items of an array as JSON. -/
def Datum.itemsJson : List Datum → List Json
  | [] => []
  | item :: items => item.toJson :: Datum.itemsJson items

/-- The entries of a document as members of a JSON object. -/
def Document.membersJson : List (String × Datum) → List (String × Json)
  | [] => []
  | (key, value) :: entries => (key, value.toJson) :: Document.membersJson entries

end

/-- The document as JSON. -/
def Document.toJson (document : Document) : Json := .object (Document.membersJson document)

end QueryFilter
