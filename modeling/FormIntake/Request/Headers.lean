/-
  FormIntake — the headers of a request.

  Names are compared without regard to case, and a header that is given again
  replaces the one before it.
-/
import FormIntake.Bytes
import FormIntake.Size
import FormIntake.Text.AsciiCase
import FormIntake.Text.Blank
import FormIntake.Text.Numeral

namespace FormIntake.Request

/-- Headers: names in small letters, each with its value. -/
structure Headers where
  entries : List (String × Bytes) := []
  deriving DecidableEq, Repr

namespace Headers

/-- A name as it is kept. -/
def key (name : String) : String := String.ofList (Text.lower name.toList)

/-- The headers with one more, or with its value replaced. -/
def insert (h : Headers) (name : String) (v : Bytes) : Headers :=
  ⟨(key name, v) :: h.entries.filter fun e => e.1 != key name⟩

/-- The headers given one after the other. -/
def ofList (es : List (String × Bytes)) : Headers :=
  es.foldl (fun h e => h.insert e.1 e.2) {}

/-- The value of a header. -/
def get? (h : Headers) (name : String) : Option Bytes := h.entries.lookup (key name)

/-- The value of a header as text, if it is UTF-8. -/
def text? (h : Headers) (name : String) : Option String := (h.get? name).bind Bytes.text?

/-- The media type of the body. -/
def contentType? (h : Headers) : Option String := h.text? "content-type"

/-- A length: digits after an optional plus sign, of a size that can be
    configured. -/
def readLength? (cs : List Char) : Option Nat := Text.readUpTo? Size.largest cs

/-- The length that the body is declared to have. -/
def contentLength? (h : Headers) : Option Nat :=
  (h.text? "content-length").bind fun s => readLength? (Text.trimChars s.toList)

end Headers

end FormIntake.Request
