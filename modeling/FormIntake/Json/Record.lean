/-
  FormIntake — reading records from JSON.

  A record is written as an object with a key for each of its fields, or as an
  array of its fields in order.  `fieldsOf?` finds the fields in either form: a
  key may be absent but not be given twice, other keys do not matter, and an
  array may be too short but not too long.

  The readers below turn the values found into data.  None of them converts
  between kinds of value.
-/
import FormIntake.Json.Value

namespace FormIntake.Json

/-! ## Fields of a record -/

/-- The value of the only member that has one of the names; `none` inside if
    there is no such member. -/
def fieldOf? {α : Type} (names : List String) (members : List (String × α)) : Option (Option α) :=
  match members.filter fun m => names.contains m.1 with
  | [] => some none
  | [m] => some (some m.2)
  | _ => none

/-- The values of the fields of a record written as an object.  Each field has
    one or more names. -/
def fieldsOfMembers? {α : Type} (fields : List (List String)) (members : List (String × α)) :
    Option (List (Option α)) :=
  fields.mapM fun names => fieldOf? names members

/-- The values of `count` fields of a record written as an array. -/
def fieldsOfItems? {α : Type} (count : Nat) (items : List α) : Option (List (Option α)) :=
  if items.length ≤ count then
    some (items.map some ++ List.replicate (count - items.length) none)
  else none

/-- The values of the fields of a record. -/
def fieldsOf? (fields : List (List String)) : Json → Option (List (Option Json))
  | object members => fieldsOfMembers? fields members
  | array items => fieldsOfItems? fields.length items
  | _ => none

/-- The members of an object. -/
def members? : Json → Option (List (String × Json))
  | object members => some members
  | _ => none

/-! ## Values -/

/-- A field that may be absent, and then has the value `d`. -/
def orElse {α β : Type} (d : β) (read : α → Option β) : Option α → Option β
  | none => some d
  | some v => read v

/-- A text. -/
def text? : Json → Option String
  | text s => some s
  | _ => none

/-- A truth value. -/
def bool? : Json → Option Bool
  | bool b => some b
  | _ => none

/-- A whole number from 0 to `max`. -/
def natural? (max : Nat) : Json → Option Nat
  | number (.int i) => if 0 ≤ i ∧ i ≤ max then some i.toNat else none
  | _ => none

/-- A number, as a double. -/
def double? : Json → Option Double
  | number (.int i) => some (Double.ofInt i)
  | number (.real d) => some d
  | _ => none

/-- A value, or null for none. -/
def optional? {α : Type} (read : Json → Option α) : Json → Option (Option α)
  | null => some none
  | v => (read v).map some

/-- The items of an array. -/
def list? {α : Type} (read : Json → Option α) : Json → Option (List α)
  | array items => items.mapM read
  | _ => none

/-- One of several names: the name itself, or an object with the name as its
    only key and nothing as its value. -/
def named? {α : Type} (names : List (String × α)) : Json → Option α
  | text s => names.lookup s
  | object [(s, null)] => names.lookup s
  | object [(s, object [])] => names.lookup s
  | _ => none

/-! ## Writing -/

/-- A whole number. -/
def ofNat (n : Nat) : Json := number (.int n)

/-- A double. -/
def ofDouble (d : Double) : Json := number (.real d)

/-- A value, or null for none. -/
def ofOption {α : Type} (write : α → Json) : Option α → Json
  | none => null
  | some v => write v

/-- An array of texts. -/
def ofTexts (ss : List String) : Json := array (ss.map text)

end FormIntake.Json
