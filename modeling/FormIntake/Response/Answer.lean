/-
  FormIntake — answers in the shape of their type.

  A response leaves its answer as JSON; `Answer.ofResponse` turns it into what
  its type expects.  Each type reads one of the two places for an answer
  (`FieldType.shape`), where an absent value and null stand for no answer.
-/
import FormIntake.Response.Basic
import FormIntake.Text.Blank
import FormIntake.Validation.Error

namespace FormIntake

/-- The shapes that answers have. -/
inductive AnswerShape where
  /-- No answer: the field is only shown. -/
  | nothing
  /-- One text. -/
  | single
  /-- Several choices. -/
  | multiple
  /-- Rows of cells. -/
  | rows
  /-- An uploaded file. -/
  | file
  deriving DecidableEq, Repr

/-- The shape of the answers to a type. -/
def FieldType.shape : FieldType → AnswerShape
  | heading | statement | image => .nothing
  | checkbox => .multiple
  | table | children => .rows
  | attachment => .file
  | shortText | longText | number | decimal | email | mobile | homePhone | date | dropdown | radio |
    rating | yesNo | nric | uen | country => .single

/-- An answer. -/
inductive Answer where
  /-- No answer: the field is only shown. -/
  | nothing
  /-- One text. -/
  | single (text : String)
  /-- Several choices. -/
  | multiple (choices : List String)
  /-- Rows of cells. -/
  | rows (table : List (List String))
  /-- An uploaded file: the text that was submitted for it, its name and its
      bytes. -/
  | file (text filename : String) (content : Bytes)
  deriving DecidableEq, Repr

namespace Answer

/-! ## From JSON -/

/-- One text. -/
def readText : Option Json → Except ShapeDefect String
  | none | some .null => .ok ""
  | some (.text s) => .ok s
  | some _ => .error .notText

/-- A text among others. -/
def readItem : Json → Except ShapeDefect String
  | .text s => .ok s
  | _ => .error .itemNotText

/-- A row of cells. -/
def readRow : Json → Except ShapeDefect (List String)
  | .array items => items.mapM readItem
  | _ => .error .rowNotArray

/-- Several texts. -/
def readTexts : Option Json → Except ShapeDefect (List String)
  | none | some .null => .ok []
  | some (.array items) => items.mapM readItem
  | some _ => .error .notArray

/-- Rows of cells. -/
def readRows : Option Json → Except ShapeDefect (List (List String))
  | none | some .null => .ok []
  | some (.array items) => items.mapM readRow
  | some _ => .error .notArray

/-- The answer that a response gives to a field of a type. -/
def ofResponse (type : FieldType) (r : Response) : Except ShapeDefect Answer :=
  match type.shape with
  | .nothing => .ok .nothing
  | .single => (readText r.answer).map .single
  | .multiple => (readTexts r.answers).map .multiple
  | .rows => (readRows r.answers).map .rows
  | .file => (readText r.answer).map fun text => .file text (r.filename.getD "") r.content

/-! ## Looking at answers -/

/-- The field was left blank: nothing but blank texts and no content. -/
def isBlank : Answer → Bool
  | nothing => true
  | single text => Text.isBlank text
  | multiple choices => choices.isEmpty
  | rows table => table.all fun row => row.all Text.isBlank
  | file text filename content => Text.isBlank text && Text.isBlank filename && content.isEmpty

/-- The text of an answer that is one text. -/
def text? : Answer → Option String
  | single text => some text
  | _ => none

end Answer

end FormIntake
