import RwMem.Breakpoint.LiveEntries
import RwMem.Breakpoint.Races
import RwMem.Breakpoint.StepMode
import RwMem.Breakpoint.StepRequests
import RwMem.Client.Device
import RwMem.Transfer.Counts
import RwMem.Transfer.ReadExact
import RwMem.Breakpoint.Announce
import RwMem.Client.ReadMem
import RwMem.Driver.Ioctl
import RwMem.Client.Maps
import RwMem.Driver.MapsLayout
import RwMem.Client.MapsRoundTrip
import RwMem.Server.MemoryReaderWriter
import RwMem.Driver.MapsFailure
import RwMem.Driver.MapsBounds
import RwMem.Driver.MapsPaths
import RwMem.Client.MapsFailure
import RwMem.Server.MapsFailure
import RwMem.Server.RequestCodes
import RwMem.Server.KernelMemory
import RwMem.Driver.Residency
import RwMem.Client.Residency
import RwMem.Client.ResidentMaps
import RwMem.Client.Registers
import RwMem.Server.ResidentMaps
import RwMem.Server.Completeness
import RwMem.CeServer.Dispatch
import RwMem.CeServer.Connection
import RwMem.CeServer.Sockets
import RwMem.CeServer.SocketOwners
import RwMem.CeServer.Framing
import RwMem.CeServer.HandleOwners
import RwMem.CeServer.Cursors
import RwMem.CeServer.TableIntegrity
import RwMem.CeServer.TypedHandles
import RwMem.CeServer.RegionWalk
import RwMem.CeServer.Replies
import RwMem.Driver.PermittedRange
import RwMem.Transfer.EntryFrame
import RwMem.Driver.RamCopies
import RwMem.Breakpoint.RegisterRead
import RwMem.Breakpoint.OpenBreakpoints
import RwMem.CeServer.CachedRegions
import RwMem.CeServer.ModuleMerging
import RwMem.CeServer.CompressedReply
import RwMem.CeServer.BufferSizes
import RwMem.CeServer.SocketTransfers
import RwMem.Server.ReadBack
import RwMem.Server.SharedKernel
import RwMem.CeServer.MemorySessions
import RwMem.CeServer.CompressedMemory
import RwMem.CeServer.Enumeration
import RwMem.Breakpoint.ResumedStops
import RwMem.Cli.Sessions
import RwMem.Server.ListedMemory
