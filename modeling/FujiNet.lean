import FujiNet.Data.Bytes
import FujiNet.Data.OrderedMap
import FujiNet.Data.SevenBit
import FujiNet.Data.Matching
import FujiNet.Data.Text
import FujiNet.Data.Lines
import FujiNet.Control.Loop
import FujiNet.Control.Yields
import FujiNet.Control.Machine
import FujiNet.Slip.Codec
import FujiNet.Slip.Request
import FujiNet.Slip.Response
import FujiNet.Iwm.ReadChannel
import FujiNet.Iwm.Connection
import FujiNet.Iwm.PhaseVector
import FujiNet.Iwm.PacketCodec
import FujiNet.Iwm.PacketReceive
import FujiNet.TNFSlib.Packet
import FujiNet.TNFSlib.MountInfo
import FujiNet.TNFSlib.Transaction
import FujiNet.TNFSlib.Exchange
import FujiNet.TNFSlib.Retransmission
import FujiNet.TNFSlib.File
import FujiNet.TNFSlib.Table
import FujiNet.TNFSlib.Server
import FujiNet.TNFSlib.Session
import FujiNet.TNFSlib.Window
import FujiNet.TNFSlib.ReadCache
import FujiNet.TNFSlib.Seek
import FujiNet.TNFSlib.Open
import FujiNet.TNFSlib.Write
import FujiNet.TNFSlib.FileRun
import FujiNet.TNFSlib.PlainFile
import FujiNet.TNFSlib.RelativeSeek
import FujiNet.TNFSlib.WriteRead
import FujiNet.TNFSlib.Failure
import FujiNet.TNFSlib.Directory
import FujiNet.TNFSlib.DirServer
import FujiNet.TNFSlib.DirListing
import FujiNet.FileSystem.FileHandler
import FujiNet.Media.Apple.MediaTypePO
import FujiNet.Media.Apple.BlockArray
import FujiNet.Media.Atari.DiskType
import FujiNet.Media.Atari.DiskTypeAtr
import FujiNet.Media.Atari.AtrLayout
import FujiNet.Media.Atari.AtrSectors
import FujiNet.Media.Atari.DiskTypeXex
import FujiNet.Media.Atari.XexChain
import FujiNet.Sio.Bus
import FujiNet.Sio.Disk
import FujiNet.Sio.ReplyGrammar
import FujiNet.Sio.HighSpeed
import FujiNet.Sio.NetSio
import FujiNet.Sio.Credit
import FujiNet.Sio.SyncRequest
import FujiNet.Sio.SystemBus
import FujiNet.Sio.FrameArrival
import FujiNet.Sio.SyncDiscipline
import FujiNet.Device.SioRead
import FujiNet.FileSystem.FileTNFS
import FujiNet.FileSystem.HandleTable
import FujiNet.FileSystem.SlotCount
import FujiNet.FileSystem.Expiry
import FujiNet.Encrypt.Crypt
import FujiNet.Config.FnConfig
import FujiNet.Config.Save
import FujiNet.Config.Load
import FujiNet.Config.Sections
import FujiNet.Config.Reload
import FujiNet.Config.RoundTrip
import FujiNet.Config.Storable
import FujiNet.Config.Setters
import FujiNet.Config.Persisted
import FujiNet.Config.FileSize
import FujiNet.Config.Dirty
import FujiNet.Config.Credentials
import FujiNet.Config.NameTables
import FujiNet.Utils.Strings
import FujiNet.Utils.Crunch
import FujiNet.Utils.CanonicalPath
import FujiNet.NetworkProtocol.Translation
import FujiNet.NetworkProtocol.FS
import FujiNet.NetworkProtocol.EndOfFile
import FujiNet.NetworkProtocol.TCP
import FujiNet.NetworkProtocol.TNFS
import FujiNet.Device.Network
import FujiNet.Device.Replies
import FujiNet.Device.Prefix
import FujiNet.Device.Navigation
import FujiNet.Fnjson.Parse
import FujiNet.Fnjson.Value
import FujiNet.Fnjson.Query
import FujiNet.Data.DirTree
import FujiNet.Data.Resolve
import FujiNet.PCLink.Names
import FujiNet.PCLink.Paths
import FujiNet.Task.TaskManager
import FujiNet.NetworkProtocol.WebDAV
import FujiNet.Utils.ConcatPaths
import FujiNet.Fuji.HostPrefix
import FujiNet.Control.Ownership
import FujiNet.Fuji.Host
import FujiNet.Data.Recent
import FujiNet.Fuji.StoredNetworks
import FujiNet.NetworkProtocol.HTTP
import FujiNet.Ftp.Response
import FujiNet.Utils.Ellipsize
import FujiNet.PrinterEmulator.PrinterEmu
import FujiNet.PrinterEmulator.HtmlPrinter
import FujiNet.Device.Cassette
import FujiNet.Device.FujiTape
import FujiNet.Fuji.Slots
import FujiNet.Fuji.Commands
import FujiNet.Fuji.Replies
import FujiNet.Media.Atari.AtrMount
import FujiNet.Media.Atari.XexVolumeTable
import FujiNet.FileSystem.SecondHandle
import FujiNet.Media.HighScore
import FujiNet.TNFSlib.ReplyBounds
import FujiNet.FileSystem.PartialWrites
import FujiNet.TNFSlib.Keeps
import FujiNet.TNFSlib.Chdir
import FujiNet.Iwm.NetworkRead
import FujiNet.Media.Apple.SectorPairs
import FujiNet.PrinterEmulator.EpsonCommands
import FujiNet.PrinterEmulator.PlotterCommands
import FujiNet.NetworkProtocol.HTTPHeaders
import FujiNet.Ftp.DataPort
import FujiNet.Ftp.Directory
import FujiNet.Data.Ring
import FujiNet.Sio.RxBuffer
import FujiNet.Sio.Checksum
import FujiNet.Http.ServiceParser
import FujiNet.Utils.Wildcard
import FujiNet.Utils.LongEntry
import FujiNet.Data.WeakOrders
import FujiNet.FileSystem.FilteredDir
import FujiNet.NetworkProtocol.DirFilename
import FujiNet.Media.Apple.MediaTypeDO
