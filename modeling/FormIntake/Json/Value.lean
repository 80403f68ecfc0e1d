/-
  FormIntake — JSON values.

  An object keeps its members as they were written, repeated keys included.
  `Json.settle` lets the last of several members with one key win, at every
  depth; a value is settled if no object in it repeats a key.
-/
import FormIntake.Number.Double

namespace FormIntake

/-- A number: a whole number of 64 bits, with or without a sign, or a double. -/
inductive Json.Number where
  | int (i : Int)
  | real (d : Double)
  deriving DecidableEq, Repr

/-- A JSON value. -/
inductive Json where
  | null
  | bool (b : Bool)
  | number (n : Json.Number)
  | text (s : String)
  | array (items : List Json)
  | object (members : List (String × Json))
  deriving Repr

namespace Json

/-- The greatest number of 64 bits. -/
def largestWord : Nat := 0xFFFFFFFFFFFFFFFF

/-- The least whole number that is not read as a double: one of 64 bits with a
    sign. -/
def leastInt : Int := -0x8000000000000000

/-- The greatest whole number that is not read as a double: one of 64 bits
    without a sign. -/
def greatestInt : Int := largestWord

/-- Members with the value of one key changed, or with a new member at the end. -/
def put {α : Type} (key : String) (v : α) : List (String × α) → List (String × α)
  | [] => [(key, v)]
  | m :: rest => if m.1 = key then (key, v) :: rest else m :: put key v rest

mutual

/-- The value with the last of several members of one key in the place of the
    first, at every depth. -/
def settle : Json → Json
  | array items => array (settleItems items)
  | object members => object (settleMembers [] members)
  | v => v

/-- Settle each item of an array. -/
def settleItems : List Json → List Json
  | [] => []
  | v :: rest => v.settle :: settleItems rest

/-- Settle the members of an object, `done` being those before them. -/
def settleMembers (done : List (String × Json)) : List (String × Json) → List (String × Json)
  | [] => done
  | (key, v) :: rest => settleMembers (put key v.settle done) rest

end

end Json

end FormIntake
