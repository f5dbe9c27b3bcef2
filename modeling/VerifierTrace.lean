import VerifierTrace.About
import VerifierTrace.CommandLine.Run
import VerifierTrace.Config.File
import VerifierTrace.Form
import VerifierTrace.Main
import VerifierTrace.Proofs.Analysis.Noise
import VerifierTrace.Proofs.Analysis.Reported
import VerifierTrace.Proofs.Analysis.Stable
import VerifierTrace.Proofs.Analysis.Total
import VerifierTrace.Proofs.Form.Snapshot
import VerifierTrace.Proofs.LogLine.Block
import VerifierTrace.Proofs.LogLine.Located
import VerifierTrace.Proofs.Machine.Argument
import VerifierTrace.Proofs.Machine.Isolation
import VerifierTrace.Proofs.Machine.Touched
import VerifierTrace.Proofs.Notice.Counted
import VerifierTrace.Proofs.Provenance.Bounded
import VerifierTrace.Proofs.Provenance.Restart
import VerifierTrace.Proofs.Provenance.Scan
import VerifierTrace.Proofs.Provenance.Selection
import VerifierTrace.Proofs.SourceMap.Specified
import VerifierTrace.Proofs.StateExpr.Printed
import VerifierTrace.Record
import VerifierTrace.Row
import VerifierTrace.Sexp.Reader
import VerifierTrace.Proofs.LogLine.Announced
import VerifierTrace.Proofs.Analysis.Lookup
import VerifierTrace.Proofs.LogLine.Indented
import VerifierTrace.Proofs.Machine.Previous
import VerifierTrace.Proofs.Slot.Agreement
import VerifierTrace.Proofs.Analysis.Normal
import VerifierTrace.Proofs.SourceMap.Snapshots
import VerifierTrace.Proofs.CommandLine.Origin
import VerifierTrace.Proofs.Config.Members
import VerifierTrace.Proofs.LogLine.Faulted
import VerifierTrace.Proofs.StateExpr.Lossless
import VerifierTrace.Proofs.Opcode.Byte
import VerifierTrace.Proofs.Json.RoundTrip
