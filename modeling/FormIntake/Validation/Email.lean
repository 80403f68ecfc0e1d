/-
  FormIntake — e-mail addresses as answers.

  An address has atoms between dots before its at sign and labels between dots
  after it; the last label has letters alone.
-/
import FormIntake.Field.Basic
import FormIntake.Text.AsciiCase
import FormIntake.Text.Blank
import FormIntake.Text.Pattern
import FormIntake.Text.Split
import FormIntake.Validation.Require

namespace FormIntake

open Validation

namespace EmailAddress

/-- The greatest length of an address, in bytes. -/
def maxBytes : Nat := 254

/-- The marks that an atom may have beside letters and digits. -/
def marks : List Char := "!#$%&'*+/=?^_\x60\x7b|\x7d~-".toList

/-- A character of an atom. -/
def isAtomChar (c : Char) : Bool := c.isAlphanum || marks.contains c

/-- A character of a label that is not at either end of it. -/
def isLabelChar (c : Char) : Bool := c.isAlphanum || c == '-'

/-- Characters before the at sign, between dots. -/
def atom : Text.Pattern := .some (.one isAtomChar)

/-- Characters after the at sign, between dots: at most 63, with a hyphen at
    neither end. -/
def label : Text.Pattern :=
  let edge := .one Char.isAlphanum
  .andThen edge (.option (.andThen (.upTo (.one isLabelChar) 61) edge))

/-- How an address is written. -/
def format : Text.Pattern :=
  let letter := .one Char.isAlpha
  .sequence
    [atom, .many (.andThen (.char '.') atom), .char '@', .some (.andThen label (.char '.')),
      letter, .some letter]

/-- The domain of an address: what follows its last at sign. -/
def domain? (cs : List Char) : Option (List Char) :=
  (Text.splitFirst '@' cs.reverse).map fun p => p.1.reverse

end EmailAddress

/-- The domain is one of the listed ones, whatever the case of the letters.
    They are listed with an at sign in front, and blanks around them do not count. -/
def EmailOptions.lists (o : EmailOptions) (domain : List Char) : Bool :=
  o.domains.any fun d => Text.sameIgnoringCase (Text.trimChars d.toList) ('@' :: domain)

/-- Check an e-mail address. -/
def EmailOptions.check (o : EmailOptions) (answer : String) : Verdict := do
  require (answer.utf8ByteSize ≤ EmailAddress.maxBytes && EmailAddress.format.accepts answer.toList)
    .emailFormat
  if o.restricted && !o.domains.isEmpty then
    match EmailAddress.domain? answer.toList with
    | none => .error .emailWithoutDomain
    | some domain => require (o.lists domain) .emailDomain

end FormIntake
