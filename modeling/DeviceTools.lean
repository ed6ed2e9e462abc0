import DeviceTools.Lib.ByteWord
import DeviceTools.Lib.FirstFit
import DeviceTools.Lib.Decimal
import DeviceTools.Platform.Calendar
import DeviceTools.Platform.Disk
import DeviceTools.Store.EventQueue
import DeviceTools.Store.Flush
import DeviceTools.Store.FlushSpec
import DeviceTools.Store.Write
import DeviceTools.Store.SlotWalk
import DeviceTools.Store.FlushBounds
import DeviceTools.Store.FlushCount
import DeviceTools.Store.Runs
import DeviceTools.Platform.FixedZone
import DeviceTools.Store.DayFiles
import DeviceTools.Store.Directory
import DeviceTools.Store.DayWalk
import DeviceTools.Store.DaySearch
import DeviceTools.Store.PagedSearch
import DeviceTools.RecordLib.Record
import DeviceTools.RecordLib.Photo
import DeviceTools.RecordLib.Runs
import DeviceTools.LogLib.Log
import DeviceTools.LogLib.AccessLog
import DeviceTools.SaveThreads
import DeviceTools.Lib.RingBuffer
import DeviceTools.Lib.Framing
import DeviceTools.Lib.Runs
import DeviceTools.Gps.Parser
import DeviceTools.Gps.Link
import DeviceTools.Gps.UbxFraming
import DeviceTools.Gps.NmeaFraming
import DeviceTools.Gps.RingInvariant
import DeviceTools.Lib.Memory
import DeviceTools.Lib.Outcome
import DeviceTools.Dns.Name
import DeviceTools.Dns.Response
import DeviceTools.Dns.Request
import DeviceTools.Dns.StaleBytes
import DeviceTools.Dhcp.Options
import DeviceTools.Dhcp.Parse
import DeviceTools.Dhcp.Receive
import DeviceTools.Dhcp.Confined
import DeviceTools.Dhcp.Perform
import DeviceTools.Lib.Chain
import DeviceTools.Lib.LinkedCells
import DeviceTools.Lib.Paging
import DeviceTools.Dns.Decoding
import DeviceTools.ThreadPool.Pool
import DeviceTools.ThreadPool.Queue
import DeviceTools.ThreadPool.Shutdown
import DeviceTools.Client33310.Pack
import DeviceTools.Client33310.Channel
import DeviceTools.Store.SlotInvariant
import DeviceTools.Store.IndexNumbers
import DeviceTools.RecordLib.Flag
import DeviceTools.RecordLib.Retention
import DeviceTools.RecordLib.Search
import DeviceTools.LogLib.PublicLib
import DeviceTools.LogLib.Search
import DeviceTools.LogLib.SaveManLog
import DeviceTools.LogLib.Count
import DeviceTools.LogLib.Termination
import DeviceTools.LogLib.Delete
import DeviceTools.LogLib.DeleteByTime
import DeviceTools.Gps.UbxScan
import DeviceTools.Dns.DottedQuad
import DeviceTools.Lib.BoundedMap
import DeviceTools.Dns.Cache
import DeviceTools.Lib.OnesComplement
import DeviceTools.Lib.Tlv
import DeviceTools.Dhcp.Checksum
import DeviceTools.Dhcp.CheckAck
import DeviceTools.Dhcp.SendOptions
import DeviceTools.Dhcp.BuildPack
import DeviceTools.Dhcp.Leases
import DeviceTools.Dhcp.Renewal
import DeviceTools.RecordLib.EventQueue
import DeviceTools.Lib.Base64
import DeviceTools.Lib.CInt
import DeviceTools.Lib.CText
import DeviceTools.Lib.CbcMac
import DeviceTools.Lib.Search
import DeviceTools.Encrypt.Base64
import DeviceTools.Encrypt.BitCode
import DeviceTools.Client33310.SendPack
import DeviceTools.Ic.Mac
import DeviceTools.Http.Session
import DeviceTools.Http.ParseUrl
import DeviceTools.Http.Download
import DeviceTools.Http.Request
import DeviceTools.Http.Strcasestr
import DeviceTools.Http.Number
import DeviceTools.Http.Response
import DeviceTools.Http.StaleResponse
import DeviceTools.Http.Post
import DeviceTools.Dhcp.LeaseFile
import DeviceTools.NetPf.Base64Encode
import DeviceTools.NetPf.PhotoContent
import DeviceTools.Client33310.Answers
import DeviceTools.Lib.Feistel
import DeviceTools.Lib.XorLinear
import DeviceTools.Ic.Des
import DeviceTools.Ic.TripleDes
import DeviceTools.Ic.DesStandard
import DeviceTools.Ic.DesRefines
import DeviceTools.Ic.DesProperties
import DeviceTools.Lib.BlockHash
import DeviceTools.Md5.Transform
import DeviceTools.Md5.Digest
import DeviceTools.Md5.Encode
import DeviceTools.Client33310.ClientThread
import DeviceTools.Store.Totals
import DeviceTools.MemLib.Mem
import DeviceTools.Dns.Transfer
