/-
  FormIntake — why a response is refused.

  A respondent sees one of three messages (`FieldError.message`); the cause
  behind it is for the form's owner (`FieldError.detail`).
-/
namespace FormIntake

/-- What is wrong with an answer. -/
inductive AnswerDefect where
  | missing
  | textLength
  | numberFormat
  | numberLength
  | numberUnreadable
  | numberRange
  | decimalFormat
  | decimalRange
  | emailFormat
  | emailWithoutDomain
  | emailDomain
  | phoneWithoutPlus
  | phoneFormat
  | phoneLocal
  | phoneForeign
  | phoneUnreadable
  | phoneUnassigned
  | phoneLine
  | dateFormat
  | dateCalendar
  | dateRange
  | dateWeekday
  | dropdownOption
  | radioOption
  | checkboxTooFew
  | checkboxTooMany
  | checkboxOption
  | checkboxRepeated
  | checkboxRepeatedOther
  | yesNo
  | country
  | rating
  | nric
  | uen
  | tableTooFewRows
  | tableTooManyRows
  | tableRowCount
  | tableRowWidth
  | tableBlankCell
  | tableOption
  | childrenSeveral
  | childrenWidth
  | attachmentEmpty
  | attachmentUnanswered
  | attachmentUnnamed
  | attachmentTooLarge
  deriving DecidableEq, Repr

/-- The wording of a defect. -/
def AnswerDefect.detail : AnswerDefect → String
  | missing => "required field has no answer"
  | textLength => "TextValidator: answer length outside configured bound"
  | numberFormat => "NumberValidator: answer is not a valid number format"
  | numberLength => "NumberValidator: answer length outside configured bound"
  | numberUnreadable => "NumberValidator: answer is not a number"
  | numberRange => "NumberValidator: answer does not fall within specified range"
  | decimalFormat => "DecimalValidator: answer is not a valid decimal"
  | decimalRange => "DecimalValidator: answer does not fall within specified range"
  | emailFormat => "EmailValidator: answer is not a valid email"
  | emailWithoutDomain => "EmailValidator: answer has no domain"
  | emailDomain => "EmailValidator: email domain is not allowed"
  | phoneWithoutPlus => "PhoneValidator: answer is missing the + prefix"
  | phoneFormat => "PhoneValidator: answer contains non-digit characters"
  | phoneLocal => "PhoneValidator: answer is not a valid Singapore number for this field"
  | phoneForeign => "PhoneValidator: international numbers are not allowed"
  | phoneUnreadable => "PhoneValidator: answer is not a parseable international number"
  | phoneUnassigned => "PhoneValidator: answer is not an assigned international number"
  | phoneLine => "PhoneValidator: international number is the wrong line type for this field"
  | dateFormat => "DateValidator: answer is not in DD MMM YYYY format"
  | dateCalendar => "DateValidator: answer is not a calendar date"
  | dateRange => "DateValidator: answer does not fall within the allowed dates"
  | dateWeekday => "DateValidator: answer falls on an invalid day"
  | dropdownOption => "DropdownValidator: answer is not a valid dropdown option"
  | radioOption => "RadioButtonValidator: answer is not a valid radio button option"
  | checkboxTooFew => "CheckboxValidator: fewer options selected than minimum"
  | checkboxTooMany => "CheckboxValidator: more options selected than maximum"
  | checkboxOption => "CheckboxValidator: answer is not valid"
  | checkboxRepeated => "CheckboxValidator: duplicate non-other answers"
  | checkboxRepeatedOther => "CheckboxValidator: duplicate other answers"
  | yesNo => "YesNoValidator: answer is not Yes or No"
  | country => "CountryRegionValidator: answer is not a valid country or region"
  | rating => "RatingValidator: answer is not a valid rating"
  | nric => "NricValidator: answer is not a valid NRIC/FIN"
  | uen => "UenValidator: answer is not a valid UEN"
  | tableTooFewRows => "TableValidator: fewer rows than minimum"
  | tableTooManyRows => "TableValidator: more rows than maximum"
  | tableRowCount => "TableValidator: row count differs from configured rows"
  | tableRowWidth => "TableValidator: row does not match column count"
  | tableBlankCell => "TableValidator: required column left blank"
  | tableOption => "TableValidator: cell is not a valid dropdown option"
  | childrenSeveral => "ChildrenValidator: multiple children not allowed"
  | childrenWidth => "ChildrenValidator: row does not match sub-field count"
  | attachmentEmpty => "AttachmentValidator: attachment is empty"
  | attachmentUnanswered => "AttachmentValidator: content uploaded without an answer"
  | attachmentUnnamed => "AttachmentValidator: attachment has no filename"
  | attachmentTooLarge => "AttachmentValidator: attachment exceeds field size limit"

/-- What is wrong with the shape of a response. -/
inductive ShapeDefect where
  | fieldType
  | notText
  | notArray
  | itemNotText
  | rowNotArray
  | otherShape
  deriving DecidableEq, Repr

/-- The wording of a defect. -/
def ShapeDefect.detail : ShapeDefect → String
  | fieldType => "response field type does not match form field"
  | notText => "answer is not a single string"
  | notArray => "answerArray is not an array"
  | itemNotText => "answerArray contains a non-string value"
  | rowNotArray => "answerArray row is not an array"
  | otherShape => "answer shape does not match field type"

/-- Why a response is refused. -/
inductive FieldError where
  /-- The answer is missing or breaks a rule of the field. -/
  | invalidAnswer (defect : AnswerDefect)
  /-- The response does not fit the type of the field. -/
  | responseShape (defect : ShapeDefect)
  /-- A field that was not shown was answered. -/
  | hiddenField
  deriving DecidableEq, Repr

namespace FieldError

/-- What the respondent sees. -/
def message : FieldError → String
  | invalidAnswer _ => "Invalid answer submitted"
  | responseShape _ => "Response has invalid shape"
  | hiddenField => "Attempted to submit response on a hidden field"

/-- What the form's owner sees. -/
def detail : FieldError → String
  | invalidAnswer d => d.detail
  | responseShape d => d.detail
  | hiddenField => "answer submitted for hidden field"

end FieldError

end FormIntake
