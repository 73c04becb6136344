import SpidevProxy.Lib.Bytes
import SpidevProxy.Lib.Pool
import SpidevProxy.Lib.History
import SpidevProxy.Wire
import SpidevProxy.Spi
import SpidevProxy.State
import SpidevProxy.Registers
import SpidevProxy.Mailbox
import SpidevProxy.Items
import SpidevProxy.Machine
import SpidevProxy.Protocol
import SpidevProxy.Layout
import SpidevProxy.Simulation.Mailbox
import SpidevProxy.Simulation.Items
import SpidevProxy.Refinement
import SpidevProxy.Facts
import SpidevProxy.Exclusion
import SpidevProxy.InFlight
import SpidevProxy.Freshness
import SpidevProxy.PoolInvariant
import SpidevProxy.Responses
import SpidevProxy.ClaimLife
import SpidevProxy.Cleanup
import SpidevProxy.Encoding
import SpidevProxy.Batch
import SpidevProxy.Quiescence
import SpidevProxy.ProgramOrder
import SpidevProxy.DispatchOrder
import SpidevProxy.Script
import SpidevProxy.Abort
import SpidevProxy.RoundTrip
import SpidevProxy.Corruption
import SpidevProxy.Bounds
import SpidevProxy.Pipeline
import SpidevProxy.MailboxCall
import SpidevProxy.Lib.Crc
import SpidevProxy.RegDeeds
import SpidevProxy.Footprint
import SpidevProxy.Requests
import SpidevProxy.Deeds
import SpidevProxy.Rejection
import SpidevProxy.Attribution
import SpidevProxy.Termination
import SpidevProxy.Blind
import SpidevProxy.Alike
import SpidevProxy.Recycling
import SpidevProxy.Cli
import SpidevProxy.Framing
import SpidevProxy.Residue
import SpidevProxy.Lib.Latest
import SpidevProxy.Calls
import SpidevProxy.Lint
import SpidevProxy.PageRide
import SpidevProxy.CorPoach
import SpidevProxy.RmwRace
import SpidevProxy.Texts
import SpidevProxy.Overrun
import SpidevProxy.Lib.Ring
import SpidevProxy.RmwWatch
import SpidevProxy.TraceTail
import SpidevProxy.Singles
import SpidevProxy.Lib.Numeral
import SpidevProxy.ParseUint
import SpidevProxy.Lib.Regex
import SpidevProxy.Lib.Dict
import SpidevProxy.Lib.FirstSeen
import SpidevProxy.Lib.CEnums
import SpidevProxy.RegsGen
import SpidevProxy.RegsEmit
import SpidevProxy.RegsHeader
import SpidevProxy.Lib.Linear
import SpidevProxy.Bus
import SpidevProxy.SharedFile
import SpidevProxy.Liveness
import SpidevProxy.OpCount
import SpidevProxy.Counters
import SpidevProxy.Lib.Double
import SpidevProxy.Lib.Hoare
import SpidevProxy.Lib.Duplex
import SpidevProxy.Tool
import SpidevProxy.ToolExchanges
import SpidevProxy.ToolRequests
import SpidevProxy.Session
import SpidevProxy.Output
import SpidevProxy.EndToEnd
