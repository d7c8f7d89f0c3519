import GuardedCall.Guard.Dump
import GuardedCall.Main
import GuardedCall.Printer
import GuardedCall.Proofs.Admission
import GuardedCall.Proofs.BindFault
import GuardedCall.Proofs.Binding
import GuardedCall.Proofs.CallForm
import GuardedCall.Proofs.Entries
import GuardedCall.Proofs.Expansion
import GuardedCall.Proofs.FirstFault
import GuardedCall.Proofs.Observation
import GuardedCall.Proofs.Preparation
import GuardedCall.Proofs.Records
import GuardedCall.Recording
import GuardedCall.Tagged.Arguments
import GuardedCall.Tagged.Failure
import GuardedCall.Tagged.Signature
import GuardedCall.Proofs.Json.Nesting
import GuardedCall.Proofs.Json.Written
import GuardedCall.Proofs.Loosening
import GuardedCall.Proofs.TypedViews
import GuardedCall.Proofs.Decimal.Finite
import GuardedCall.Proofs.Json.Numerals
import GuardedCall.Proofs.Json.Strings
import GuardedCall.Proofs.Json.Reads
import GuardedCall.Proofs.Tagged.Reads
import GuardedCall.Proofs.Tagged.Floats
import GuardedCall.Proofs.Tagged.RoundTrip
import GuardedCall.Proofs.Json.Accepts
import GuardedCall.Proofs.Tagged.Accepts
import GuardedCall.Proofs.Tagged.NormalForm
import GuardedCall.Proofs.Natural.Plain
import GuardedCall.Proofs.Json.Parsed
import GuardedCall.Proofs.Natural.Kept
import GuardedCall.Proofs.CommandLine.Words
import GuardedCall.Proofs.CommandLine.Sum
import GuardedCall.Proofs.Building
import GuardedCall.Proofs.Completion
import GuardedCall.Proofs.Decimal.Rounding
import GuardedCall.Proofs.Decimal.Whole
import GuardedCall.Proofs.CommandLine.Integers
import GuardedCall.Proofs.Decimal.ReadBack
import GuardedCall.Proofs.Text.Literal
import GuardedCall.Proofs.Value.Unambiguous
import GuardedCall.Proofs.PartialBinding
import GuardedCall.Proofs.Replay
import GuardedCall.Proofs.Splats
import GuardedCall.Proofs.CommandLine.Composition
import GuardedCall.Proofs.CommandLine.Options
import GuardedCall.Proofs.Text.Quoted
import GuardedCall.Proofs.Value.OneLine
import GuardedCall.Proofs.Decimal.Monotone
import GuardedCall.Proofs.Decimal.Fewest
import GuardedCall.Proofs.Decimal.Ties
import GuardedCall.Proofs.Value.FloatLiterals
import GuardedCall.Proofs.Value.Equality
import GuardedCall.Proofs.Signature.Display
import GuardedCall.Proofs.Printing
