import TuyaOpen.Common.ErrorCode
import TuyaOpen.Lib.Bytes
import TuyaOpen.Lib.Fifo
import TuyaOpen.Lib.Leb128
import TuyaOpen.Lib.Mealy
import TuyaOpen.Lib.Multimap
import TuyaOpen.Lib.Splice
import TuyaOpen.Utilities.Hashmap
import TuyaOpen.Utilities.RingBuf
import TuyaOpen.Ble.Trsmitr
import TuyaOpen.Ble.Reassembly
import TuyaOpen.Ble.Fragment
import TuyaOpen.Ble.Cryption
import TuyaOpen.Ble.Packet
import TuyaOpen.Ble.Session
import TuyaOpen.Schema.DpSchema
import TuyaOpen.Schema.DpSync
import TuyaOpen.Lib.ByteMem
import TuyaOpen.Utilities.MemHeap
import TuyaOpen.Utilities.MemHeapTiling
import TuyaOpen.Utilities.MemHeapSearch
import TuyaOpen.Utilities.MemHeapOps
import TuyaOpen.Utilities.MemHeapRelease
import TuyaOpen.Utilities.MemHeapRun
import TuyaOpen.Lan.Frame
import TuyaOpen.Lan.Read
import TuyaOpen.Lan.Authorise
import TuyaOpen.Lan.System
import TuyaOpen.Lan.Reframe
import TuyaOpen.Lan.SockLoop
import TuyaOpen.Lan.Table
import TuyaOpen.Lan.Codec
import TuyaOpen.Lan.Handshake
import TuyaOpen.Ai.Packet
import TuyaOpen.Lib.ChunkStream
import TuyaOpen.Ai.Recv
import TuyaOpen.Ai.Reassembly
import TuyaOpen.Ai.Sealed
import TuyaOpen.Ai.Reject
import TuyaOpen.Ai.FragRun
import TuyaOpen.Ai.Peer
import TuyaOpen.Ai.ClientHello
import TuyaOpen.Ai.RoundTrip
import TuyaOpen.Ai.Nonce
import TuyaOpen.Ai.FragSend
import TuyaOpen.Ai.Uploads
import TuyaOpen.Ai.Mqtt
import TuyaOpen.Ai.MqttPairing
import TuyaOpen.Ai.Client
import TuyaOpen.Ai.ClientLive
import TuyaOpen.Ai.Output
import TuyaOpen.Ai.Playback
import TuyaOpen.Ai.Agent
import TuyaOpen.Ai.StreamFlags
import TuyaOpen.Ai.Monitor
import TuyaOpen.Ai.MonitorSync
import TuyaOpen.Tal.SwTimer
import TuyaOpen.Tal.SwTimerQueue
import TuyaOpen.Tal.WorkQueue
import TuyaOpen.Tal.DelayedWork
import TuyaOpen.Tal.WorkQueueRun
import TuyaOpen.Tal.DelayedQuiet
import TuyaOpen.Tal.Event
import TuyaOpen.Tal.EventDelivery
import TuyaOpen.Lib.Pkcs7
import TuyaOpen.Tal.Symmetry
import TuyaOpen.Kv.Store
import TuyaOpen.Kv.StoreMap
import TuyaOpen.Cloud.DeviceTimer
import TuyaOpen.Cloud.TimerList
import TuyaOpen.Cloud.DeviceTimerAck
import TuyaOpen.Cloud.FullSync
import TuyaOpen.Cloud.FullSyncWhole
import TuyaOpen.Cloud.Iot
import TuyaOpen.Cloud.IotReset
import TuyaOpen.Cloud.IotResources
import TuyaOpen.Cloud.MqttPublish
import TuyaOpen.Cloud.Matop
import TuyaOpen.Http.Download
import TuyaOpen.Http.DownloadOnce
import TuyaOpen.Cloud.Ota
import TuyaOpen.Netcfg.ApFrame
import TuyaOpen.Netcfg.Handlers
import TuyaOpen.Netcfg.Lifecycle
import TuyaOpen.Audio.Playlist
import TuyaOpen.Audio.PlaylistOrder
import TuyaOpen.Audio.PlaylistRun
import TuyaOpen.Audio.Player
import TuyaOpen.Audio.PlayerOpen
import TuyaOpen.Schema.SchemaNode
import TuyaOpen.Schema.DpRecv
import TuyaOpen.Schema.DpRecvExact
import TuyaOpen.Schema.DpRecvRecord
import TuyaOpen.Schema.DpReport
import TuyaOpen.Schema.DpReportNode
import TuyaOpen.Schema.DpReportRun
import TuyaOpen.Schema.DpReportable
import TuyaOpen.Schema.DpAtomic
import TuyaOpen.Schema.DpReportFit
import TuyaOpen.Image.Rotate
import TuyaOpen.Lib.Raster
import TuyaOpen.Image.PixelFormat
import TuyaOpen.Image.RotateRight
import TuyaOpen.Lib.CStr
import TuyaOpen.Lib.Words
import TuyaOpen.Tal.Cli
import TuyaOpen.Tal.CliEditor
import TuyaOpen.Tal.CliHistory
import TuyaOpen.Tal.CliRefines
import TuyaOpen.Peripherals.Button
import TuyaOpen.Ble.Dp
import TuyaOpen.Ble.DpReq
import TuyaOpen.Ble.DpCodec
import TuyaOpen.Ble.DpQuery
import TuyaOpen.Ble.Channel
import TuyaOpen.Ble.ChannelDownlink
import TuyaOpen.Ble.ChannelUplink
import TuyaOpen.Ble.RecvBounds
import TuyaOpen.Ble.PacketInside
import TuyaOpen.Ble.SendBounds
import TuyaOpen.Lib.JsonText
import TuyaOpen.Schema.NodePos
import TuyaOpen.Ble.FrameSeq
import TuyaOpen.Lan.ParseBounds
import TuyaOpen.Cloud.Protocol
import TuyaOpen.Utilities.MemHeapList
import TuyaOpen.Utilities.MemHeapListInv
import TuyaOpen.Utilities.MemHeapListOps
import TuyaOpen.Utilities.MemHeapRealloc
import TuyaOpen.Utilities.MemHeapListRun
import TuyaOpen.Lib.LinkRing
import TuyaOpen.Utilities.Queue
import TuyaOpen.Ai.Attrs
import TuyaOpen.Lib.Orbit
import TuyaOpen.Ai.AttrBounds
import TuyaOpen.Ai.AttrCodec
import TuyaOpen.Ai.ReadBounds
import TuyaOpen.Ai.Biz
import TuyaOpen.Ai.BizDelivery
import TuyaOpen.Ai.BizHead
import TuyaOpen.Ai.SessionTables
import TuyaOpen.Ai.SessionAgree
import TuyaOpen.Ai.Input
import TuyaOpen.Lib.Batch
import TuyaOpen.Ai.InputBatch
import TuyaOpen.Ai.MonitorClients
import TuyaOpen.Ai.MonitorPkg
import TuyaOpen.Lib.Calendar
import TuyaOpen.Tal.Time
import TuyaOpen.Tal.Clock
import TuyaOpen.Tal.LocalTime
import TuyaOpen.Lib.Printf
import TuyaOpen.Tal.LogFormat
import TuyaOpen.Kv.Serialize
import TuyaOpen.Kv.RoundTrip
import TuyaOpen.Http.SessionUrl
import TuyaOpen.Cloud.RegisterCenter
import TuyaOpen.Cloud.MqttTopics
import TuyaOpen.Cloud.DynamicCfg
import TuyaOpen.Cloud.AtopRequest
import TuyaOpen.Cloud.AtopResponse
import TuyaOpen.Cloud.TimerItems
import TuyaOpen.Cloud.TimerSave
import TuyaOpen.Cloud.Activation
import TuyaOpen.Lib.Latch
import TuyaOpen.Cloud.TimerCheck
import TuyaOpen.Lib.Crc
import TuyaOpen.Utilities.Crc32i
import TuyaOpen.Ble.IdCompress
import TuyaOpen.Tal.SymmetrySound
import TuyaOpen.Audio.Resample
import TuyaOpen.Audio.Mixing
import TuyaOpen.Audio.DatasinkMem
import TuyaOpen.Ble.Link
