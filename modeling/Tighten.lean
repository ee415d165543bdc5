import Tighten.Child.Machine
import Tighten.Child.Runner
import Tighten.Child.Script
import Tighten.Interrupt
import Tighten.Main
import Tighten.Position.Field
import Tighten.Proofs.Sampling
import Tighten.Proofs.Utf8
import Tighten.Proofs.Position
import Tighten.Proofs.Discovery
import Tighten.Proofs.Batch
import Tighten.Proofs.Pipeline
import Tighten.Proofs.Step
import Tighten.Proofs.CleanTree
import Tighten.Campaign.World
import Tighten.Proofs.World
import Tighten.Proofs.Cancellation
import Tighten.Proofs.Supervision
import Tighten.Proofs.Protocol
import Tighten.Proofs.TrackedFiles
import Tighten.Proofs.Rewriting
import Tighten.Proofs.Narrowing
import Tighten.Proofs.Region
import Tighten.Proofs.Coordinates
import Tighten.Proofs.Reachability
import Tighten.Proofs.Substitution
import Tighten.Proofs.Spans
import Tighten.Proofs.SourcePaths
import Tighten.Proofs.JsonReading
import Tighten.Proofs.Loading
import Tighten.Proofs.Rounding
import Tighten.Proofs.Shortest
import Tighten.Proofs.Numerals
import Tighten.Proofs.JsonRoundTrip
import Tighten.Proofs.PlainText
import Tighten.Proofs.Saving
import Tighten.Proofs.FailedBatch
import Tighten.Proofs.LineEnds
import Tighten.Proofs.Overriding
import Tighten.Proofs.EveryBatch
import Tighten.Proofs.ErrorSite
import Tighten.Proofs.Verbatim
import Tighten.Proofs.Requests
import Tighten.Proofs.Endings
