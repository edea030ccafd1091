import Resumable.Syntax.Build
import Resumable.Options.Json
import Resumable.NormalForm.Check
import Resumable.Instrument.Compile
import Resumable.Machine.Datum
import Resumable.Machine.Host
import Resumable.CommandLine.Execute
import Resumable.Main
import Resumable.Proofs.Grammar
import Resumable.Proofs.Compiled
import Resumable.Proofs.Chronicle
import Resumable.Proofs.Loaded
import Resumable.Proofs.Quiet
import Resumable.Proofs.Frames
import Resumable.Proofs.Entry
import Resumable.Proofs.Sessions
import Resumable.Proofs.Walk
import Resumable.Proofs.Unwinding
import Resumable.Proofs.Twin
import Resumable.Proofs.TwinLoaded
import Resumable.Proofs.TwinCompiled
import Resumable.Proofs.Places
import Resumable.Proofs.TwinTurn
import Resumable.Proofs.Overriding
import Resumable.Proofs.Slices
import Resumable.Proofs.Measured
import Resumable.Proofs.MeasuredCompiled
import Resumable.Proofs.Provenance
import Resumable.Proofs.Telling
import Resumable.Proofs.Budget
import Resumable.Proofs.Descent
import Resumable.Proofs.Nesting
import Resumable.Proofs.Scopes
import Resumable.Proofs.Scoping
import Resumable.Proofs.Replay
import Resumable.Proofs.FinalPart
import Resumable.Proofs.Completing
import Resumable.Proofs.Written
import Resumable.Proofs.Segments
import Resumable.Proofs.Headroom
import Resumable.Proofs.Cadence
import Resumable.Proofs.Showing
import Resumable.Proofs.Guards
import Resumable.Proofs.Service
import Resumable.Proofs.Coalescing
import Resumable.Proofs.Labels
import Resumable.Proofs.Lookups
import Resumable.Proofs.SafePoints
