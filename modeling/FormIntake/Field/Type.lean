/-
  FormIntake — the types of form fields.
-/
namespace FormIntake

/-- The type of a form field and of a response to it. -/
inductive FieldType where
  | heading
  | statement
  | image
  | shortText
  | longText
  | number
  | decimal
  | email
  | mobile
  | homePhone
  | date
  | dropdown
  | radio
  | checkbox
  | rating
  | yesNo
  | nric
  | uen
  | country
  | table
  | attachment
  | children
  deriving DecidableEq, Repr

namespace FieldType

/-- The types in their order; a type may be given by its place in it. -/
def all : List FieldType :=
  [heading, statement, image, shortText, longText, number, decimal, email, mobile, homePhone,
    date, dropdown, radio, checkbox, rating, yesNo, nric, uen, country, table, attachment, children]

/-- The name of a type in a form's definition. -/
def name : FieldType → String
  | heading => "section"
  | statement => "statement"
  | image => "image"
  | shortText => "textfield"
  | longText => "textarea"
  | number => "number"
  | decimal => "decimal"
  | email => "email"
  | mobile => "mobile"
  | homePhone => "homeno"
  | date => "date"
  | dropdown => "dropdown"
  | radio => "radiobutton"
  | checkbox => "checkbox"
  | rating => "rating"
  | yesNo => "yes_no"
  | nric => "nric"
  | uen => "uen"
  | country => "country_region"
  | table => "table"
  | attachment => "attachment"
  | children => "children"

/-- The type of a name. -/
def ofName? (s : String) : Option FieldType := all.find? fun t => t.name == s

/-- Shown, and never answered. -/
def isDisplayOnly : FieldType → Bool
  | heading | statement | image => true
  | _ => false

end FieldType

end FormIntake
