/-
  FormIntake — JSON documents as they are written.

  A `Raw` value has the right punctuation, but its texts and numbers may be
  without value, and it may be nested to any depth.  `Raw.json?` turns it into a
  JSON value under a bound on the depth.  What a reader ignores it can therefore
  leave unread.
-/
import FormIntake.Json.Token

namespace FormIntake.Json

/-- A JSON value as it is written. -/
inductive Raw where
  | null
  | bool (b : Bool)
  | number (n : Option Number)
  | text (s : Option String)
  | array (items : List Raw)
  | object (members : List (Option String × Raw))

namespace Raw

/-! ## From tokens -/

/-- An array or object that is not closed, with what it holds so far, the last
    item first. -/
inductive Frame where
  | array (items : List Raw)
  | object (members : List (Option String × Raw)) (key : Option String)

mutual

/-- Read on where a value is due. -/
def readValue (outer : List Frame) : List Token → Option Raw
  | [] => none
  | .null :: rest => readAfter .null outer rest
  | .bool b :: rest => readAfter (.bool b) outer rest
  | .number n :: rest => readAfter (.number n) outer rest
  | .text s :: rest => readAfter (.text s) outer rest
  | .openArray :: .closeArray :: rest => readAfter (.array []) outer rest
  | .openArray :: rest => readValue (.array [] :: outer) rest
  | .openObject :: .closeObject :: rest => readAfter (.object []) outer rest
  | .openObject :: rest => readMember [] outer rest
  | _ :: _ => none

/-- Read on after a value. -/
def readAfter (v : Raw) : List Frame → List Token → Option Raw
  | [], [] => some v
  | .array items :: outer, .comma :: rest => readValue (.array (v :: items) :: outer) rest
  | .array items :: outer, .closeArray :: rest =>
    readAfter (.array (v :: items).reverse) outer rest
  | .object members key :: outer, .comma :: rest => readMember ((key, v) :: members) outer rest
  | .object members key :: outer, .closeObject :: rest =>
    readAfter (.object ((key, v) :: members).reverse) outer rest
  | _, _ => none

/-- Read on where a member of an object is due. -/
def readMember (members : List (Option String × Raw)) (outer : List Frame) :
    List Token → Option Raw
  | .text key :: .colon :: rest => readValue (.object members key :: outer) rest
  | _ => none

end

/-- The document that the bytes spell, if they spell one. -/
def read? (b : Bytes) : Option Raw := (Token.scan b).bind (readValue [])

/-! ## Values -/

mutual

/-- The value, if every text and number in it has one and arrays and objects
    are nested at most `depth` deep. -/
def json? (depth : Nat) : Raw → Option Json
  | .null => some .null
  | .bool b => some (.bool b)
  | .number n => n.map .number
  | .text s => s.map .text
  | .array items =>
    match depth with
    | 0 => none
    | depth + 1 => (jsonItems? depth items).map .array
  | .object members =>
    match depth with
    | 0 => none
    | depth + 1 => (jsonMembers? depth members).map .object

/-- The values of the items of an array. -/
def jsonItems? (depth : Nat) : List Raw → Option (List Json)
  | [] => some []
  | v :: rest => do
    let v ← json? depth v
    let rest ← jsonItems? depth rest
    some (v :: rest)

/-- The values of the members of an object. -/
def jsonMembers? (depth : Nat) : List (Option String × Raw) → Option (List (String × Json))
  | [] => some []
  | (key, v) :: rest => do
    let key ← key
    let v ← json? depth v
    let rest ← jsonMembers? depth rest
    some ((key, v) :: rest)

end

mutual

/-- A value as it would be written. -/
def ofJson : Json → Raw
  | .null => .null
  | .bool b => .bool b
  | .number n => .number (some n)
  | .text s => .text (some s)
  | .array items => .array (ofItems items)
  | .object members => .object (ofMembers members)

/-- Items as they would be written. -/
def ofItems : List Json → List Raw
  | [] => []
  | v :: rest => ofJson v :: ofItems rest

/-- Members as they would be written. -/
def ofMembers : List (String × Json) → List (Option String × Raw)
  | [] => []
  | (key, v) :: rest => (some key, ofJson v) :: ofMembers rest

end

end Raw

/-- The depth to which arrays and objects may be nested. -/
def maxDepth : Nat := 127

/-- The value of a document. -/
def read? (b : Bytes) : Option Json := (Raw.read? b).bind (Raw.json? maxDepth)

end FormIntake.Json
