import ConfigSchema.Session
import ConfigSchema.Value.Display
import ConfigSchema.Proofs.Outcome
import ConfigSchema.Proofs.Schema.Levels
import ConfigSchema.Proofs.Schema.Countdown
import ConfigSchema.Proofs.Schema.WellFormed
import ConfigSchema.Proofs.Schema.Recognized
import ConfigSchema.Proofs.Schema.Names
import ConfigSchema.Proofs.Payload.Verdict
import ConfigSchema.Proofs.Payload.Conformance
import ConfigSchema.Proofs.Payload.Blame
import ConfigSchema.Proofs.Payload.Skeleton
import ConfigSchema.Proofs.Payload.Sample
import ConfigSchema.Proofs.Json.Nesting
import ConfigSchema.Proofs.Reading.Answer
import ConfigSchema.Proofs.Reading.Strings
import ConfigSchema.Proofs.Reading.Loops
import ConfigSchema.Proofs.Reading.Trees
import ConfigSchema.Proofs.Reading.Records
import ConfigSchema.Proofs.Reading.Bytes
import ConfigSchema.Proofs.Loading.Ways
import ConfigSchema.Proofs.Schema.RoundTrip
import ConfigSchema.Proofs.Definition.Checked
import ConfigSchema.Proofs.Definition.RoundTrip
import ConfigSchema.Proofs.Integration.Accepted
import ConfigSchema.Proofs.Session.Effect
import ConfigSchema.Proofs.Session.Soundness
import ConfigSchema.Proofs.Payload.Damage
import ConfigSchema.Proofs.Payload.Bounds
import ConfigSchema.Proofs.Schema.Blame
import ConfigSchema.Proofs.Reading.Inversion
import ConfigSchema.Proofs.Json.Parsed
import ConfigSchema.Proofs.Reading.Parsed
import ConfigSchema.Proofs.Reading.Skipped
import ConfigSchema.Proofs.Reading.Agreement
import ConfigSchema.Proofs.Reading.RecordAgreement
import ConfigSchema.Proofs.Loading.Agreement
import ConfigSchema.Proofs.Schema.Ceiling
import ConfigSchema.Proofs.Definition.Ceiling
import ConfigSchema.Proofs.Payload.Exhaustive
import ConfigSchema.Proofs.Integration.Updates
import ConfigSchema.Proofs.Session.Updates
import ConfigSchema.Proofs.Reading.Spelled
import ConfigSchema.Proofs.Reading.Places
import ConfigSchema.Proofs.Reading.Integers
import ConfigSchema.Proofs.Json.Numbers
import ConfigSchema.Proofs.Json.Canonical
import ConfigSchema.Proofs.Value.Lossless
import ConfigSchema.Proofs.Schema.Covering
import ConfigSchema.Proofs.Schema.Relaxed
import ConfigSchema.Proofs.Schema.Reordered
import ConfigSchema.Proofs.Schema.Pruned
import ConfigSchema.Proofs.Payload.PathIdentity
import ConfigSchema.Proofs.Payload.UnknownType
import ConfigSchema.Proofs.Value.Equality
import ConfigSchema.Proofs.Binary64.Nearest
import ConfigSchema.Proofs.Decimal.Interval
import ConfigSchema.Proofs.Decimal.Shortest
import ConfigSchema.Proofs.Json.Floats
import ConfigSchema.Proofs.Payload.Equal
import ConfigSchema.Proofs.Json.Grammar
import ConfigSchema.Proofs.Reading.SkippedText
import ConfigSchema.Proofs.Reading.StringBodies
import ConfigSchema.Proofs.Reading.Local
import ConfigSchema.Proofs.Reading.LocalRecords
import ConfigSchema.Proofs.Schema.Presentation
import ConfigSchema.Proofs.Json.WellFormed
import ConfigSchema.Proofs.Wrapping
