import PortablePdb.Builder.Image
import PortablePdb.CommandLine.Resolver
import PortablePdb.Main
import PortablePdb.Proofs.Breakpoint.CanonicalBinding
import PortablePdb.Proofs.Breakpoint.Replay
import PortablePdb.Proofs.Breakpoint.EventLog
import PortablePdb.Proofs.SequencePoint.RoundTrip
import PortablePdb.Proofs.SequencePoint.WellFormed
import PortablePdb.Proofs.Index.Isolation
import PortablePdb.Proofs.Bytes.Operation
import PortablePdb.Proofs.Builder.RoundTrip
import PortablePdb.Proofs.Bytes.Words
import PortablePdb.Proofs.Bytes.WordRefinement
import PortablePdb.Proofs.Bytes.Confined
import PortablePdb.Proofs.Bytes.ConfinedRun
import PortablePdb.Proofs.SymbolFile.Declared
import PortablePdb.Proofs.Breakpoint.Nested
import PortablePdb.Proofs.Machine.Queries
import PortablePdb.Proofs.Table.Layout
import PortablePdb.Proofs.Breakpoint.Reconciliation
import PortablePdb.Proofs.Index.Ownership
import PortablePdb.Proofs.Index.Partition
import PortablePdb.Proofs.Bytes.PrefixCode
import PortablePdb.Proofs.VisibleLocals
import PortablePdb.Proofs.Breakpoint.RequestText
import PortablePdb.Proofs.Builder.ListStarts
