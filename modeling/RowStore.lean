import RowStore.Main
import RowStore.Proofs.Session.Refinement
import RowStore.Proofs.Table.Appending
import RowStore.Proofs.Session.OutputLimit
import RowStore.Proofs.Session.InputFailure
import RowStore.Proofs.Text.Lenient
import RowStore.Proofs.Slot.Canonical
import RowStore.Proofs.Statement.Grammar
import RowStore.Proofs.Stream.Steady
import RowStore.Proofs.Session.FlushDiscipline
import RowStore.Proofs.Table.Paging
import RowStore.Proofs.Table.Reading
import RowStore.Proofs.Table.Breaches
import RowStore.Proofs.Session.Growth
import RowStore.Proofs.Session.Composition
import RowStore.Proofs.Session.Storing
import RowStore.Proofs.Session.Exchanges
import RowStore.Proofs.Session.Interference
import RowStore.Proofs.Session.Spacing
import RowStore.Proofs.Session.Reporting
import RowStore.Proofs.CommandLine.Logging
import RowStore.Proofs.Session.Reloading
import RowStore.Proofs.Session.Listing
import RowStore.Proofs.Session.Safety
import RowStore.Proofs.Session.Interleaving
import RowStore.Proofs.Table.Framing
import RowStore.Proofs.Cursor.Walking
import RowStore.Proofs.Stream.Readings
import RowStore.Proofs.Session.Termination
