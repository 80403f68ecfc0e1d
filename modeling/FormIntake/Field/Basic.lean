/-
  FormIntake — form fields.

  A form is a list of fields.  A field has an id, a title, a mark that it must
  be answered, and a kind: its type together with what that type can be told
  about the answers it takes.
-/
import FormIntake.Calendar.Weekday
import FormIntake.Field.Type
import FormIntake.Number.Double
import FormIntake.Size

namespace FormIntake

/-- How a count is compared with a given number. -/
inductive CountRule where
  | exactly
  | atLeast
  | atMost
  deriving DecidableEq, Repr

/-- The count obeys the rule. -/
def CountRule.holds : CountRule → (count given : Nat) → Bool
  | exactly, count, given => count == given
  | atLeast, count, given => given ≤ count
  | atMost, count, given => count ≤ given

/-- Bounds on the number of characters or digits: a rule and its number. -/
structure CountBound where
  rule : Option CountRule := none
  given : Option Nat := none
  deriving DecidableEq, Repr

/-- The count is in the bound.  A bound without rule or number, or with the
    number zero, is no bound. -/
def CountBound.holds (b : CountBound) (count : Nat) : Bool :=
  match b.rule, b.given with
  | some rule, some given => given == 0 || rule.holds count given
  | _, _ => true

/-- Bounds on a value, both included; a bound that is not given is none. -/
structure ValueRange where
  min : Option Double := none
  max : Option Double := none
  deriving DecidableEq, Repr

/-- The value is in the range. -/
def ValueRange.holds (r : ValueRange) (v : Double) : Bool :=
  (r.min.all fun b => b ≤ v) && (r.max.all fun b => v ≤ b)

/-- What is checked of a whole number. -/
inductive NumberRule where
  /-- The count of its digits. -/
  | length
  /-- Its value. -/
  | range
  deriving DecidableEq, Repr

/-- Options of a field for whole numbers. -/
structure NumberOptions where
  rule : Option NumberRule := none
  length : CountBound := {}
  range : ValueRange := {}
  deriving DecidableEq, Repr

/-- Options of a field for decimal numbers. -/
structure DecimalOptions where
  /-- The range is checked. -/
  ranged : Bool := false
  range : ValueRange := {}
  deriving DecidableEq, Repr

/-- Options of a field for e-mail addresses. -/
structure EmailOptions where
  /-- Only the listed domains are allowed. -/
  restricted : Bool := false
  /-- Domains with an at sign in front. -/
  domains : List String := []
  deriving DecidableEq, Repr

/-- Options of a field for telephone numbers. -/
structure PhoneOptions where
  /-- Numbers of other countries are allowed. -/
  international : Bool := false
  deriving DecidableEq, Repr

/-- Which days a date may be. -/
inductive DateRule where
  /-- Today and later. -/
  | noPast
  /-- Today and earlier. -/
  | noFuture
  /-- From a first to a last day. -/
  | between
  deriving DecidableEq, Repr

/-- Options of a field for dates. -/
structure DateOptions where
  rule : Option DateRule := none
  first : Option Date := none
  last : Option Date := none
  /-- Days of the week that may not be chosen. -/
  closed : List Weekday := []
  deriving DecidableEq

/-- Options of a field with one choice among several. -/
structure ChoiceOptions where
  options : List String := []
  /-- A free answer is allowed beside the options. -/
  others : Bool := false
  deriving DecidableEq, Repr

/-- Options of a field with several choices. -/
structure CheckboxOptions where
  options : List String := []
  /-- A free answer is allowed beside the options. -/
  others : Bool := false
  /-- The number of choices is checked. -/
  bounded : Bool := false
  fewest : Option Nat := none
  most : Option Nat := none
  deriving DecidableEq, Repr

/-- Options of a field for ratings. -/
structure RatingOptions where
  /-- The highest rating. -/
  steps : Nat := 5
  deriving DecidableEq, Repr

/-- What the cells of a column hold. -/
inductive ColumnKind where
  | shortText
  | dropdown (options : List String)
  deriving DecidableEq, Repr

/-- A column of a table. -/
structure Column where
  title : String := ""
  required : Bool := true
  kind : ColumnKind
  deriving DecidableEq, Repr

/-- Options of a table. -/
structure TableOptions where
  fewestRows : Nat := 0
  /-- Rows may be added to the fewest. -/
  growing : Bool := false
  mostRows : Option Nat := none
  columns : List Column := []
  deriving DecidableEq, Repr

/-- Options of a list of children. -/
structure ChildrenOptions where
  /-- What is asked of each child. -/
  subFields : List String := []
  /-- More than one child may be listed. -/
  several : Bool := false
  deriving DecidableEq, Repr

/-- The greatest size of an uploaded file, in mebibytes. -/
inductive AttachmentSize where
  | one
  | two
  | three
  | seven
  | ten
  | twenty
  deriving DecidableEq, Repr

/-- The size in mebibytes. -/
def AttachmentSize.mebibytes : AttachmentSize → Nat
  | one => 1
  | two => 2
  | three => 3
  | seven => 7
  | ten => 10
  | twenty => 20

/-- The size in bytes. -/
def AttachmentSize.bytes (s : AttachmentSize) : Nat := s.mebibytes * Size.mebibyte

/-- Options of a field for uploaded files. -/
structure AttachmentOptions where
  size : AttachmentSize := .one
  deriving DecidableEq, Repr

/-- The type of a field and what that type is told about its answers. -/
inductive FieldKind where
  | heading
  | statement
  | image
  | shortText (length : CountBound)
  | longText (length : CountBound)
  | number (options : NumberOptions)
  | decimal (options : DecimalOptions)
  | email (options : EmailOptions)
  | mobile (options : PhoneOptions)
  | homePhone (options : PhoneOptions)
  | date (options : DateOptions)
  | dropdown (options : ChoiceOptions)
  | radio (options : ChoiceOptions)
  | checkbox (options : CheckboxOptions)
  | rating (options : RatingOptions)
  | yesNo
  | nric
  | uen
  | country
  | table (options : TableOptions)
  | attachment (options : AttachmentOptions)
  | children (options : ChildrenOptions)
  deriving DecidableEq

/-- The type of a kind. -/
def FieldKind.type : FieldKind → FieldType
  | heading => .heading
  | statement => .statement
  | image => .image
  | shortText _ => .shortText
  | longText _ => .longText
  | number _ => .number
  | decimal _ => .decimal
  | email _ => .email
  | mobile _ => .mobile
  | homePhone _ => .homePhone
  | date _ => .date
  | dropdown _ => .dropdown
  | radio _ => .radio
  | checkbox _ => .checkbox
  | rating _ => .rating
  | yesNo => .yesNo
  | nric => .nric
  | uen => .uen
  | country => .country
  | table _ => .table
  | attachment _ => .attachment
  | children _ => .children

/-- A field of a form. -/
structure Field where
  id : String
  title : String := ""
  /-- The field must be answered where it is visible. -/
  required : Bool := true
  kind : FieldKind
  deriving DecidableEq

/-- The type of a field. -/
def Field.type (f : Field) : FieldType := f.kind.type

end FormIntake
