/-
  FormIntake — form definitions as JSON.

  A field is an object with its id, title and requiredness, its type under
  `fieldType`, and beside them the options of that type; keys that the type does
  not know do not matter.  `Field.ofJson?` reads a field and `Field.toJson` writes
  one, with every option.
-/
import FormIntake.Field.Basic
import FormIntake.Json.Record

namespace FormIntake

open Json

/-! ## Values -/

/-- The largest number that an option with 32 bits holds. -/
def largestStep : Nat := 0xFFFFFFFF

/-- A size or count. -/
def readCount : Json → Option Nat := natural? Size.largest

/-- Names of the rules for the length of a text. -/
def textRuleNames : List (String × CountRule) :=
  [("Exact", .exactly), ("Minimum", .atLeast), ("Maximum", .atMost)]

/-- Names of the rules for the length of a number. -/
def numberLengthRuleNames : List (String × CountRule) :=
  [("Min", .atLeast), ("Max", .atMost), ("Exact", .exactly)]

/-- Names of what is checked of a number. -/
def numberRuleNames : List (String × NumberRule) := [("Length", .length), ("Range", .range)]

/-- Names of the rules for dates. -/
def dateRuleNames : List (String × DateRule) :=
  [("Disallow past dates", .noPast), ("NoPast", .noPast),
    ("Disallow future dates", .noFuture), ("NoFuture", .noFuture),
    ("Custom date range", .between), ("Custom", .between)]

/-- Names of the sizes of uploaded files. -/
def attachmentSizeNames : List (String × AttachmentSize) :=
  [("1", .one), ("2", .two), ("3", .three), ("7", .seven), ("10", .ten), ("20", .twenty)]

/-- The first name of a value. -/
def nameOf {α : Type} [BEq α] (names : List (String × α)) (v : α) : Json :=
  .text (((names.find? fun n => n.2 == v).map Prod.fst).getD "")

/-- A date. -/
def readDate (v : Json) : Option Date := (text? v).bind Date.ofIso?

/-- A day of the week. -/
def readWeekday (v : Json) : Option Weekday := (text? v).bind Weekday.ofName?

/-! ## Options -/

namespace CountBound

/-- Read a bound whose rule stands under `key` and has one of the names. -/
def ofJson? (key : String) (names : List (String × CountRule)) (v : Json) :
    Option CountBound := do
  let [rule, given] ← fieldsOf? [[key], ["customVal"]] v | none
  let rule ← orElse none (optional? (named? names)) rule
  let given ← orElse none (optional? readCount) given
  some { rule, given }

/-- Write a bound. -/
def toJson (key : String) (names : List (String × CountRule)) (b : CountBound) : Json :=
  .object [(key, ofOption (nameOf names) b.rule), ("customVal", ofOption ofNat b.given)]

/-- Read the bound on the length of a text. -/
def ofTextJson? (v : Json) : Option CountBound := do
  let [bound] ← fieldsOf? [["validationOptions"]] v | none
  orElse {} (ofJson? "selectedValidation" textRuleNames) bound

/-- Write the bound on the length of a text. -/
def toTextMembers (b : CountBound) : List (String × Json) :=
  [("validationOptions", b.toJson "selectedValidation" textRuleNames)]

end CountBound

namespace ValueRange

/-- Read a range. -/
def ofJson? (v : Json) : Option ValueRange := do
  let [min, max] ← fieldsOf? [["customMin"], ["customMax"]] v | none
  let min ← orElse none (optional? double?) min
  let max ← orElse none (optional? double?) max
  some { min, max }

/-- Write a range. -/
def toJson (r : ValueRange) : Json :=
  .object [("customMin", ofOption ofDouble r.min), ("customMax", ofOption ofDouble r.max)]

end ValueRange

namespace NumberOptions

/-- Read what is checked of a whole number. -/
def ofCheckJson? (v : Json) : Option NumberOptions := do
  let [rule, length, range] ← fieldsOf?
    [["selectedValidation"], ["lengthValidationOptions"], ["rangeValidationOptions"]] v | none
  let rule ← orElse none (optional? (named? numberRuleNames)) rule
  let length ←
    orElse {} (CountBound.ofJson? "selectedLengthValidation" numberLengthRuleNames) length
  let range ← orElse {} ValueRange.ofJson? range
  some { rule, length, range }

/-- Read the options. -/
def ofJson? (v : Json) : Option NumberOptions := do
  let [check] ← fieldsOf? [["validationOptions"]] v | none
  orElse {} ofCheckJson? check

/-- Write the options. -/
def toMembers (o : NumberOptions) : List (String × Json) :=
  [("validationOptions", .object [
    ("selectedValidation", ofOption (nameOf numberRuleNames) o.rule),
    ("lengthValidationOptions",
      o.length.toJson "selectedLengthValidation" numberLengthRuleNames),
    ("rangeValidationOptions", o.range.toJson)])]

end NumberOptions

namespace DecimalOptions

/-- Read the options. -/
def ofJson? (v : Json) : Option DecimalOptions := do
  let [ranged, range] ← fieldsOf? [["validateByValue"], ["validationOptions"]] v | none
  let ranged ← orElse false bool? ranged
  let range ← orElse {} ValueRange.ofJson? range
  some { ranged, range }

/-- Write the options. -/
def toMembers (o : DecimalOptions) : List (String × Json) :=
  [("validateByValue", .bool o.ranged), ("validationOptions", o.range.toJson)]

end DecimalOptions

namespace EmailOptions

/-- Read the options. -/
def ofJson? (v : Json) : Option EmailOptions := do
  let [restricted, domains] ←
    fieldsOf? [["hasAllowedEmailDomains"], ["allowedEmailDomains"]] v | none
  let restricted ← orElse false bool? restricted
  let domains ← orElse [] (list? text?) domains
  some { restricted, domains }

/-- Write the options. -/
def toMembers (o : EmailOptions) : List (String × Json) :=
  [("hasAllowedEmailDomains", .bool o.restricted), ("allowedEmailDomains", ofTexts o.domains)]

end EmailOptions

namespace PhoneOptions

/-- Read the options. -/
def ofJson? (v : Json) : Option PhoneOptions := do
  let [international] ← fieldsOf? [["allowIntlNumbers"]] v | none
  let international ← orElse false bool? international
  some { international }

/-- Write the options. -/
def toMembers (o : PhoneOptions) : List (String × Json) :=
  [("allowIntlNumbers", .bool o.international)]

end PhoneOptions

namespace DateOptions

/-- Read the rule and the days it names. -/
def ofCheckJson? (v : Json) : Option DateOptions := do
  let [rule, first, last] ← fieldsOf?
    [["selectedDateValidation"], ["customMinDate"], ["customMaxDate"]] v | none
  let rule ← orElse none (optional? (named? dateRuleNames)) rule
  let first ← orElse none (optional? readDate) first
  let last ← orElse none (optional? readDate) last
  some { rule, first, last }

/-- Read the options. -/
def ofJson? (v : Json) : Option DateOptions := do
  let [check, closed] ← fieldsOf? [["dateValidation"], ["invalidDays"]] v | none
  let check ← orElse {} ofCheckJson? check
  let closed ← orElse [] (list? readWeekday) closed
  some { check with closed }

/-- Write the options. -/
def toMembers (o : DateOptions) : List (String × Json) :=
  [("dateValidation", .object [
    ("selectedDateValidation", ofOption (nameOf dateRuleNames) o.rule),
    ("customMinDate", ofOption (fun d => .text d.iso) o.first),
    ("customMaxDate", ofOption (fun d => .text d.iso) o.last)]),
    ("invalidDays", .array (o.closed.map fun d => .text d.shortName))]

end DateOptions

namespace ChoiceOptions

/-- Read the options. -/
def ofJson? (v : Json) : Option ChoiceOptions := do
  let [options, others] ← fieldsOf? [["fieldOptions"], ["othersRadioButton"]] v | none
  let options ← orElse [] (list? text?) options
  let others ← orElse false bool? others
  some { options, others }

/-- Write the options. -/
def toMembers (o : ChoiceOptions) : List (String × Json) :=
  [("fieldOptions", ofTexts o.options), ("othersRadioButton", .bool o.others)]

end ChoiceOptions

namespace CheckboxOptions

/-- Read the bounds on the number of choices. -/
def readBounds (v : Json) : Option (Option Nat × Option Nat) := do
  let [fewest, most] ← fieldsOf? [["customMin"], ["customMax"]] v | none
  let fewest ← orElse none (optional? readCount) fewest
  let most ← orElse none (optional? readCount) most
  some (fewest, most)

/-- Read the options. -/
def ofJson? (v : Json) : Option CheckboxOptions := do
  let [options, others, bounded, bounds] ← fieldsOf?
    [["fieldOptions"], ["othersRadioButton"], ["validateByValue"],
      ["ValidationOptions", "validationOptions"]] v | none
  let options ← orElse [] (list? text?) options
  let others ← orElse false bool? others
  let bounded ← orElse false bool? bounded
  let (fewest, most) ← orElse (none, none) readBounds bounds
  some { options, others, bounded, fewest, most }

/-- Write the options. -/
def toMembers (o : CheckboxOptions) : List (String × Json) :=
  [("fieldOptions", ofTexts o.options), ("othersRadioButton", .bool o.others),
    ("validateByValue", .bool o.bounded),
    ("ValidationOptions", .object [("customMin", ofOption ofNat o.fewest),
      ("customMax", ofOption ofNat o.most)])]

end CheckboxOptions

namespace RatingOptions

/-- Read the number of steps. -/
def ofScaleJson? (v : Json) : Option RatingOptions := do
  let [steps] ← fieldsOf? [["steps"]] v | none
  let steps ← orElse 5 (natural? largestStep) steps
  some { steps }

/-- Read the options. -/
def ofJson? (v : Json) : Option RatingOptions := do
  let [scale] ← fieldsOf? [["ratingOptions"]] v | none
  orElse {} ofScaleJson? scale

/-- Write the options. -/
def toMembers (o : RatingOptions) : List (String × Json) :=
  [("ratingOptions", .object [("steps", ofNat o.steps)])]

end RatingOptions

/-! ## Tables -/

namespace Column

/-- The column kinds in their order. -/
def kindNames : List String := ["textfield", "dropdown"]

/-- The place of a column kind in their order, given by its name or as a
    number. -/
def kindPlace? : Json → Option Nat
  | .text s => kindNames.idxOf? s
  | v => natural? 1 v

/-- Read the kind of a column from the value of `columnType` and the other
    members. -/
def readKind (type : Json) (others : List (String × Json)) : Option ColumnKind := do
  if (← kindPlace? type) = 0 then some .shortText
  else
    let options ← (← fieldOf? ["fieldOptions"] others)
    some (.dropdown (← list? text? options))

/-- Read a column. -/
def ofJson? (v : Json) : Option Column := do
  let members ← members? v
  let title ← orElse "" text? (← fieldOf? ["title"] members)
  let required ← orElse true bool? (← fieldOf? ["required"] members)
  let type ← (← fieldOf? ["columnType"] members)
  let kind ← readKind type members
  some { title, required, kind }

/-- Write the kind of a column. -/
def kindMembers : ColumnKind → List (String × Json)
  | .shortText => [("columnType", .text "textfield")]
  | .dropdown options => [("columnType", .text "dropdown"), ("fieldOptions", ofTexts options)]

/-- Write a column. -/
def toJson (c : Column) : Json :=
  .object ([("title", .text c.title), ("required", .bool c.required)] ++ kindMembers c.kind)

end Column

namespace TableOptions

/-- Read the options. -/
def ofJson? (v : Json) : Option TableOptions := do
  let [fewestRows, growing, mostRows, columns] ← fieldsOf?
    [["minimumRows"], ["addMoreRows"], ["maximumRows"], ["columns"]] v | none
  let fewestRows ← orElse 0 readCount fewestRows
  let growing ← orElse false bool? growing
  let mostRows ← orElse none (optional? readCount) mostRows
  let columns ← orElse [] (list? Column.ofJson?) columns
  some { fewestRows, growing, mostRows, columns }

/-- Write the options. -/
def toMembers (o : TableOptions) : List (String × Json) :=
  [("minimumRows", ofNat o.fewestRows), ("addMoreRows", .bool o.growing),
    ("maximumRows", ofOption ofNat o.mostRows), ("columns", .array (o.columns.map Column.toJson))]

end TableOptions

namespace ChildrenOptions

/-- Read the options. -/
def ofJson? (v : Json) : Option ChildrenOptions := do
  let [subFields, several] ← fieldsOf? [["childrenSubFields"], ["allowMultiple"]] v | none
  let subFields ← orElse [] (list? text?) subFields
  let several ← orElse false bool? several
  some { subFields, several }

/-- Write the options. -/
def toMembers (o : ChildrenOptions) : List (String × Json) :=
  [("childrenSubFields", ofTexts o.subFields), ("allowMultiple", .bool o.several)]

end ChildrenOptions

namespace AttachmentOptions

/-- Read the options. -/
def ofJson? (v : Json) : Option AttachmentOptions := do
  let [size] ← fieldsOf? [["attachmentSize"]] v | none
  let size ← orElse .one (named? attachmentSizeNames) size
  some { size }

/-- Write the options. -/
def toMembers (o : AttachmentOptions) : List (String × Json) :=
  [("attachmentSize", nameOf attachmentSizeNames o.size)]

end AttachmentOptions

/-! ## Fields -/

namespace FieldKind

/-- Read the options of a type. -/
def ofJson? (v : Json) : FieldType → Option FieldKind
  | .heading => some .heading
  | .statement => some .statement
  | .image => some .image
  | .shortText => (CountBound.ofTextJson? v).map .shortText
  | .longText => (CountBound.ofTextJson? v).map .longText
  | .number => (NumberOptions.ofJson? v).map .number
  | .decimal => (DecimalOptions.ofJson? v).map .decimal
  | .email => (EmailOptions.ofJson? v).map .email
  | .mobile => (PhoneOptions.ofJson? v).map .mobile
  | .homePhone => (PhoneOptions.ofJson? v).map .homePhone
  | .date => (DateOptions.ofJson? v).map .date
  | .dropdown => (ChoiceOptions.ofJson? v).map .dropdown
  | .radio => (ChoiceOptions.ofJson? v).map .radio
  | .checkbox => (CheckboxOptions.ofJson? v).map .checkbox
  | .rating => (RatingOptions.ofJson? v).map .rating
  | .yesNo => some .yesNo
  | .nric => some .nric
  | .uen => some .uen
  | .country => some .country
  | .table => (TableOptions.ofJson? v).map .table
  | .attachment => (AttachmentOptions.ofJson? v).map .attachment
  | .children => (ChildrenOptions.ofJson? v).map .children

/-- Write the options of a type. -/
def toMembers : FieldKind → List (String × Json)
  | heading | statement | image | yesNo | nric | uen | country => []
  | shortText length | longText length => length.toTextMembers
  | number o => o.toMembers
  | decimal o => o.toMembers
  | email o => o.toMembers
  | mobile o | homePhone o => o.toMembers
  | date o => o.toMembers
  | dropdown o | radio o => o.toMembers
  | checkbox o => o.toMembers
  | rating o => o.toMembers
  | table o => o.toMembers
  | attachment o => o.toMembers
  | children o => o.toMembers

end FieldKind

namespace Field

/-- The type of a field, given by its name or its place in the order of types. -/
def readType : Json → Option FieldType
  | .text s => FieldType.ofName? s
  | v => (natural? Size.largest v).bind fun n => FieldType.all[n]?

/-- The keys that a field has whatever its type. -/
def ownKeys : List String := ["_id", "title", "required", "fieldType"]

/-- Read a field. -/
def ofJson? (v : Json) : Option Field := do
  let members ← members? v
  let id ← (← fieldOf? ["_id"] members)
  let id ← text? id
  let title ← orElse "" text? (← fieldOf? ["title"] members)
  let required ← orElse true bool? (← fieldOf? ["required"] members)
  let type ← (← fieldOf? ["fieldType"] members)
  let type ← readType type
  let kind ← FieldKind.ofJson? (.object (members.filter fun m => !ownKeys.contains m.1)) type
  some { id, title, required, kind }

/-- Write a field. -/
def toJson (f : Field) : Json :=
  .object ([("_id", .text f.id), ("title", .text f.title), ("required", .bool f.required),
    ("fieldType", .text f.type.name)] ++ f.kind.toMembers)

/-- Read the fields of a form. -/
def listOfJson? (v : Json) : Option (List Field) := list? ofJson? v

/-- Write the fields of a form. -/
def listToJson (fs : List Field) : Json := .array (fs.map toJson)

end Field

end FormIntake
