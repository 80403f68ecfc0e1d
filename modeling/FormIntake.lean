import FormIntake.Multipart.Delimiter
import FormIntake.Multipart.Headers
import FormIntake.Multipart.Disposition
import FormIntake.Multipart.Boundary
import FormIntake.Multipart.Part
import FormIntake.Limits
import FormIntake.Text.DecimalDigit
import FormIntake.Multipart.Stream
import FormIntake.Number.Shortest
import FormIntake.Json.Numeral
import FormIntake.Json.Raw
import FormIntake.Json.Printer
import FormIntake.Text.Pattern
import FormIntake.Json.Record
import FormIntake.Field.Basic
import FormIntake.Field.Codec
import FormIntake.Response.Basic
import FormIntake.Response.Codec
import FormIntake.Validation.Error
import FormIntake.Response.Answer
import FormIntake.Validation.Numeric
import FormIntake.Validation.Email
import FormIntake.Validation.Day
import FormIntake.Identifier.Nric
import FormIntake.Identifier.Uen
import FormIntake.Phone.Directory
import FormIntake.Validation.Process
import FormIntake.Gate
import FormIntake.Proofs.Multipart.Charges
import FormIntake.Proofs.Multipart.Delimiter
import FormIntake.Proofs.Multipart.HeaderLines
import FormIntake.Proofs.Multipart.Step
import FormIntake.Proofs.Multipart.Arrival
import FormIntake.Proofs.Multipart.Chunking
import FormIntake.Proofs.Multipart.Preamble
import FormIntake.Proofs.Multipart.Encoding
import FormIntake.Proofs.Response.Answer
import FormIntake.Proofs.Validation.Decision
import FormIntake.Proofs.Response.Submission
import FormIntake.Proofs.Request.Parts
import FormIntake.Proofs.Request.Receiver
import FormIntake.Proofs.Multipart.Transition
import FormIntake.Proofs.Multipart.Admission
import FormIntake.Proofs.Multipart.Calls
import FormIntake.Proofs.Multipart.Ledger
import FormIntake.Proofs.Multipart.Buffering
import FormIntake.Proofs.Upload.Naming
import FormIntake.Proofs.Response.Codec
import FormIntake.Proofs.Upload.Reconcile
import FormIntake.Proofs.Upload.Policy
import FormIntake.Proofs.Response.Files
import FormIntake.Proofs.Response.Pairing
import FormIntake.Proofs.Gate
import FormIntake.Proofs.Upload.Renaming
import FormIntake.Proofs.Json.Text
import FormIntake.Proofs.Number.Rounding
import FormIntake.Proofs.Digits
import FormIntake.Proofs.Json.Document
import FormIntake.Proofs.Calendar.Date
import FormIntake.Proofs.Json.Record
import FormIntake.Proofs.Field.Codec
import FormIntake.Proofs.Json.Settle
import FormIntake.Proofs.Json.Sound
import FormIntake.Proofs.Response.Document
import FormIntake.Proofs.Response.Splicing
import FormIntake.Proofs.Response.Orphans
import FormIntake.Proofs.Multipart.Disposition
import FormIntake.Proofs.Multipart.Boundary
import FormIntake.Proofs.Validation.Choice
import FormIntake.Proofs.Identifier.Nric
import FormIntake.Proofs.Identifier.Uen
import FormIntake.Proofs.Multipart.Termination
import FormIntake.Proofs.Text.Pattern
import FormIntake.Proofs.Calendar.DayMonthYear
import FormIntake.Proofs.Validation.Email
import FormIntake.Proofs.Validation.Day
import FormIntake.Proofs.Identifier.UenYears
import FormIntake.Proofs.Validation.Grid
import FormIntake.Proofs.Validation.Rating
import FormIntake.Proofs.Multipart.Filling
import FormIntake.Proofs.Response.FromAnswer
import FormIntake.Proofs.Upload.Verdict
import FormIntake.Proofs.Multipart.Search
import FormIntake.Proofs.Multipart.HeaderEnd
import FormIntake.Proofs.Upload.LastPlaces
import FormIntake.Proofs.Validation.Numeric
import FormIntake.Proofs.Validation.Phone
import FormIntake.Proofs.Validation.Rules
