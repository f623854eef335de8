import BleAtHost.Lib.Tagged
import BleAtHost.Lemmas.Formats
import BleAtHost.Main.System
import BleAtHost.Bridge.State
import BleAtHost.Bridge.Lemmas.Basic
import BleAtHost.Bridge.Lemmas.Link
import BleAtHost.AtHost.Lemmas.Kept
import BleAtHost.Main.Lemmas.Simulation
import BleAtHost.Main.Lemmas.Refinement
import BleAtHost.Bridge.Lemmas.Queue
import BleAtHost.Bridge.Lemmas.Flow
import BleAtHost.AtHost.Lemmas.Emits
import BleAtHost.AtHost.Lemmas.Framing
import BleAtHost.Bridge.Lemmas.Escape
import BleAtHost.Bridge.Lemmas.Output
import BleAtHost.AtHost.Lemmas.Payload
import BleAtHost.AtHost.Theorems
import BleAtHost.AtHost.Theorems.Numbers
import BleAtHost.Main.Theorems.ToPeer
import BleAtHost.Main.Theorems.Escape
import BleAtHost.Main.Lemmas.Filling
import BleAtHost.Main.Theorems.Backpressure
import BleAtHost.Main.Theorems.ToHost
import BleAtHost.Lemmas.Uuid
import BleAtHost.Theorems.Uuid
import BleAtHost.Main.Theorems.Address
import BleAtHost.Lib.KeyStore
import BleAtHost.Main.Settings
import BleAtHost.Main.Lemmas.Settings
import BleAtHost.Main.Theorems.Settings
import BleAtHost.Main.Theorems.Operations
import BleAtHost.Lib.Lines
import BleAtHost.Main.Lines
import BleAtHost.Main.Theorems.Lines
import BleAtHost.Main.Actions
import BleAtHost.Main.Lemmas.Actions
import BleAtHost.Main.Lemmas.Moves
import BleAtHost.Main.Control
import BleAtHost.Main.Lemmas.Control
import BleAtHost.Main.Theorems.Scan
import BleAtHost.Main.Theorems.Connection
import BleAtHost.Main.Theorems.Status
import BleAtHost.Main.Traffic
import BleAtHost.Main.Lemmas.Traffic
import BleAtHost.Main.Theorems.Counters
import BleAtHost.Main.Theorems.Writes
import BleAtHost.Main.Theorems.Outstanding
import BleAtHost.Main.Discovery
import BleAtHost.Main.Lemmas.Findings
import BleAtHost.Main.Lemmas.Discovery
import BleAtHost.Main.Theorems.Discovery
import BleAtHost.Main.Theorems.Transmit
import BleAtHost.Main.Theorems.Entry
import BleAtHost.Main.Theorems.Pump
import BleAtHost.Main.Theorems.Target
import BleAtHost.Client.State
import BleAtHost.Lib.Prog
import BleAtHost.Client.Calls
import BleAtHost.Client.System
import BleAtHost.Main.Lemmas.Wire
import BleAtHost.Client.Lemmas.Reader
import BleAtHost.Client.Lemmas.Calls
import BleAtHost.Client.Theorems.Modes
import BleAtHost.AtHost.Lemmas.Replies
import BleAtHost.AtHost.Theorems.Grammar
import BleAtHost.AtHost.Lemmas.Reads
import BleAtHost.AtHost.Theorems.Safety
import BleAtHost.AtHost.Theorems.Responses
import BleAtHost.Main.Theorems.Formats
import BleAtHost.Client.Lemmas.Text
import BleAtHost.Client.Lemmas.Control
import BleAtHost.Client.Lemmas.Scan
import BleAtHost.Client.Theorems.ScanResults
import BleAtHost.Client.Theorems.Entry
import BleAtHost.Lib.Ltv
import BleAtHost.Lib.NetBuf
import BleAtHost.Main.Advertising
import BleAtHost.Main.Theorems.Advertising
import BleAtHost.Main.ScanCache
import BleAtHost.Main.Lemmas.ScanCache
import BleAtHost.Main.Theorems.ScanCache
import BleAtHost.Main.Theorems.ScanFilter
import BleAtHost.Main.Theorems.ScanOrder
import BleAtHost.Client.Theorems.Notifications
import BleAtHost.Client.Theorems.ExitSplitter
import BleAtHost.Lib.Windows
import BleAtHost.StreamTest.Frames
import BleAtHost.StreamTest.Lemmas.Frames
import BleAtHost.StreamTest.Theorems.Frames
import BleAtHost.StreamTest.Theorems.Resync
import BleAtHost.StreamTest.Stats
import BleAtHost.StreamTest.Theorems.Accounting
import BleAtHost.Lib.Progress
import BleAtHost.Client.Schedule
import BleAtHost.Client.Lemmas.Recovery
import BleAtHost.Client.Theorems.Recovery
import BleAtHost.Lib.Monitor
import BleAtHost.Lib.Liveness
import BleAtHost.Main.Stages
import BleAtHost.Main.Lemmas.Stages
import BleAtHost.Main.Lemmas.Alive
import BleAtHost.Main.Theorems.Stages
import BleAtHost.Main.Lemmas.Draining
import BleAtHost.Main.Lemmas.Receiving
import BleAtHost.Main.Theorems.Liveness
import BleAtHost.Bridge.Lemmas.Outlets
import BleAtHost.Main.Theorems.Delivery
import BleAtHost.AtHost.Lemmas.Arrivals
import BleAtHost.Client.Requests
import BleAtHost.Client.Theorems.Requests
import BleAtHost.Client.Theorems.Found
import BleAtHost.StreamTest.Test
import BleAtHost.StreamTest.Lemmas.Test
import BleAtHost.StreamTest.Theorems.Test
import BleAtHost.StreamTest.Theorems.Ending
