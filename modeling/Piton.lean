import Piton.L15.Pipeline
import Piton.L15.LockStep
import Piton.L15.Run
import Piton.L15.Exclusive
import Piton.L15.DataArray
import Piton.L15.Rows
import Piton.L15.System
import Piton.L15.Flow
import Piton.L15.Invariant
import Piton.L15.Messages
import Piton.L15.Requests
import Piton.L15.Tokens
import Piton.L15.Preservation
import Piton.L15.Entries
import Piton.L15.Credit
import Piton.L15.Reserve
import Piton.L15.Conservation
import Piton.L15.Handshake
import Piton.L15.Lifecycle
import Piton.L15.Forward
import Piton.L15.StoreBuffer
import Piton.L15.Stages
import Piton.L15.Upgrade
import Piton.L15.SelfInval
import Piton.L15.FillWay
import Piton.L15.Replacement
import Piton.L15.StoreMerge
import Piton.Noc.Mesh
import Piton.Noc.Agreement
import Piton.Noc.Framing
import Piton.Noc.Noc3Stream
import Piton.Noc.Noc1Stream
import Piton.Noc.Wormhole
import Piton.Mc.Association
import Piton.L2.DataEcc
import Piton.L2.WbGuards
import Piton.L2.Buffers
import Piton.L2.PriorityEncoder
import Piton.L2.SharerLoop
import Piton.L2.StateArray
import Piton.L2.InvAcks
import Piton.L2.SmcTable
import Piton.Dmbr.Charge
import Piton.Dmbr.Replenish
import Piton.Sd.Flush
import Piton.Sd.Progress
import Piton.Sd.Refinement
import Piton.Noc.Link
import Piton.Noc.Bypass
import Piton.Chipset.SplitResponses
import Piton.Chipset.AxiProgress
import Piton.L15.VictimValid
import Piton.Pcx.Lossless
import Piton.Bridge.OffChip
