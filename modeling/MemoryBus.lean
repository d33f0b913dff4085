import MemoryBus.Main
import MemoryBus.Layout.Printer
import MemoryBus.Scenario.Session
import MemoryBus.Scenario.TableRun
import MemoryBus.Scenario.ToolStub
import MemoryBus.Proofs.Agreement
import MemoryBus.Proofs.Overtaking
import MemoryBus.Proofs.Competitive
import MemoryBus.Proofs.Parts
import MemoryBus.Proofs.Wide
import MemoryBus.Proofs.History
import MemoryBus.Proofs.Bytes
import MemoryBus.Proofs.Cells
import MemoryBus.Proofs.ByteOrder
import MemoryBus.Proofs.WriteWindows
import MemoryBus.Proofs.Retries
import MemoryBus.Proofs.Devices
import MemoryBus.Proofs.Upholding
import MemoryBus.Proofs.Layouts
import MemoryBus.Proofs.Progress
import MemoryBus.Proofs.Expansion
import MemoryBus.Proofs.Completion
import MemoryBus.Proofs.Snapshots
import MemoryBus.Proofs.Refusals
import MemoryBus.Proofs.Counters
import MemoryBus.Proofs.Scanning
import MemoryBus.Proofs.Installing
import MemoryBus.Proofs.Accounting
import MemoryBus.Proofs.RoundTrip
import MemoryBus.Proofs.Checking
import MemoryBus.Proofs.Refilling
import MemoryBus.Proofs.Saving
import MemoryBus.Proofs.Tracing
import MemoryBus.Proofs.Pairing
import MemoryBus.Proofs.Rebuilding
import MemoryBus.Proofs.Partition
import MemoryBus.Proofs.Cycles
import MemoryBus.Proofs.Reporting
import MemoryBus.Proofs.Traversal
