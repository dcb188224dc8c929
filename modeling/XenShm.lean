import XenShm.Library.Run
import XenShm.Library.Ring
import XenShm.Library.Chain
import XenShm.Library.Buffer
import XenShm.Library.Spacing
import XenShm.Library.Prefix
import XenShm.Library.CInt
import XenShm.Library.Simulation
import XenShm.Library.Channel
import XenShm.Pipe.Shared
import XenShm.Pipe.Transfer
import XenShm.Pipe.TransferSound
import XenShm.Pipe.Process
import XenShm.Pipe.System
import XenShm.Pipe.Integrity
import XenShm.Pipe.Copying
import XenShm.Pipe.Delay
import XenShm.Pipe.Sleep
import XenShm.Pipe.Close
import XenShm.Pipe.Discipline
import XenShm.Pipe.Accounting
import XenShm.Pipe.Flush
import XenShm.Pipe.Reports
import XenShm.Pipe.Linked
import XenShm.Pipe.Refinement
import XenShm.Pipe.Programs
import XenShm.Pipe.Checksum
import XenShm.Pipe.Spinning
import XenShm.Pipe.Prompt
import XenShm.Pipe.Freed
import XenShm.Pipe.Wakeup
import XenShm.Kernel.Reclaim
import XenShm.Kernel.Resources
import XenShm.Kernel.InitOnce
import XenShm.Kernel.Granted
import XenShm.Kernel.Invalidate
import XenShm.Kernel.MmapUndo
import XenShm.Kernel.Teardown
import XenShm.Kernel.Sweep
import XenShm.Kernel.SameBytes
import XenShm.Kernel.Ticks
import XenShm.Kernel.WaitSignal
import XenShm.Kernel.PipeWait
import XenShm.Kernel.Signal
import XenShm.Kernel.Stages
import XenShm.Kernel.Mutex
import XenShm.Kernel.Final
import XenShm.Kernel.Handshake
import XenShm.Kernel.Broken
import XenShm.Kernel.Lifecycle
import XenShm.Kernel.Isolation
import XenShm.Pipe.Handles
import XenShm.Udp.Ownership
import XenShm.Udp.Pointers
import XenShm.Udp.Agreement
import XenShm.Udp.Shutdown
import XenShm.Udp.Removal
import XenShm.Udp.WellFormed
import XenShm.Udp.InitPipe
import XenShm.Udp.Table
import XenShm.Udp.Replies
import XenShm.Udp.Completion
import XenShm.Udp.Contract
import XenShm.Ping.Deadlock
import XenShm.Ping.Echo
