/-
  FormIntake — the header lines of a part.

  `readHeaders` walks the lines up to the first empty one.  Its verdict is
  decided by the bytes up to there: `incomplete` asks for more of them.
-/
import FormIntake.Bytes
import FormIntake.Text.AsciiCase
import FormIntake.Text.Blank
import FormIntake.Text.Split

namespace FormIntake.Multipart

/-- The header values that matter. -/
structure Headers where
  disposition : Option String := none
  contentType : Option String := none
  deriving DecidableEq, Repr

/-- Take one header line into account.  A line without a colon and a line with
    another name change nothing; of two lines with one name the later counts. -/
def Headers.note (h : Headers) (line : String) : Headers :=
  match Text.splitFirst ':' line.toList with
  | none => h
  | some (name, v) =>
    let name := Text.trimChars name
    let v := String.ofList (Text.trimChars v)
    if Text.sameIgnoringCase name "content-disposition".toList then { h with disposition := some v }
    else if Text.sameIgnoringCase name "content-type".toList then { h with contentType := some v }
    else h

/-- What the bytes after a delimiter line hold. -/
inductive HeaderBlock where
  /-- The headers and the number of bytes up to the end of the empty line. -/
  | complete (headers : Headers) (size : Nat)
  /-- The empty line has not arrived. -/
  | incomplete
  /-- A line is not UTF-8. -/
  | notText
  deriving DecidableEq, Repr

/-- Read on, with `headers` found in the `size` bytes before `data`. -/
def readHeadersFrom (headers : Headers) (size : Nat) (data : Bytes) : HeaderBlock :=
  match h : Bytes.lineEnd? data with
  | none => .incomplete
  | some 0 => .complete headers (size + 2)
  | some (n + 1) =>
    match Bytes.text? (data.take (n + 1)) with
    | none => .notText
    | some line => readHeadersFrom (headers.note line) (size + (n + 3)) (data.drop (n + 3))
termination_by data.length
decreasing_by have := Bytes.lineEnd?_le h; simp; omega

/-- The headers at the front of the bytes. -/
def readHeaders (data : Bytes) : HeaderBlock := readHeadersFrom {} 0 data

end FormIntake.Multipart
