import TuyaOpen.Ble.Reassembly

/-!
# Large commands over the transparent channel, `ble_channel.c`

The app sends a long command in subpackets, the device gathers them in one
buffer and dispatches the buffer when enough bytes have come.  The answer goes
back in fragments, one for each acknowledgement of the app.  The buffer, the
lengths and the fragment to send are static.
-/

namespace TuyaOpen.Ble.Channel

def frmDownlinkTransparentReq : UInt16 := 0x801b
def frmUplinkTransparentReq : UInt16 := 0x801c
def frmDownlinkTransparentSpecReq : UInt16 := 0x801e
def frmUplinkTransparentSpecReq : UInt16 := 0x801f

def tuyaBleTransDataSubpackLen : ℕ := tuyaBleAirFrameMax - 64

def subpacketRecvAllDone : ℕ := 0
def subpacketRecvOneAndNext : ℕ := 1

/-- The statics of the downlink; `buffer` has the size it was asked for. -/
structure Downlink where
  totalLen : ℕ
  buffer : Option (List UInt8)
  receivedLen : ℕ
  deriving DecidableEq

/-- `subpack_data` is two bytes behind the start of `rspData`. -/
structure BleChannelMgr where
  rspData : Option (List UInt8)
  subpackNo : ℕ
  subpackSent : ℕ
  subpackLen : ℕ
  deriving DecidableEq

def BleChannelMgr.zero : BleChannelMgr := ⟨none, 0, 0, 0⟩

structure ChannelState where
  down : Downlink
  up : BleChannelMgr
  deriving DecidableEq

def ChannelState.init : ChannelState := ⟨⟨0, none, 0⟩, .zero⟩

structure SubpacketAck where
  flag : ℕ
  status : ℕ
  curSubpacketNo : ℕ
  curSubpacketLen : ℕ
  receivedLen : ℕ
  totalLen : ℕ
  deriving DecidableEq

/-- A packet of the channel, and whether there is memory for the buffer, for the
acknowledgement and for a fragment. -/
structure ChannelReq where
  type : UInt16
  data : RawPacket
  bufferMalloc : Bool
  ackMalloc : Bool
  pkgMalloc : Bool

/-- What a packet leads to: an acknowledgement, the buffer as a command, a
command that came in one packet, or a fragment of the answer. -/
structure ChannelOut where
  ack : Option SubpacketAck
  command : Option (List UInt8)
  whole : Option (List UInt8)
  fragment : Option (List UInt8)
  deriving DecidableEq

def ChannelOut.nothing : ChannelOut := ⟨none, none, none, none⟩

/-! ## Downlink -/

/-- The number and the offset behind it. -/
def extractPacketLen (rawData : List UInt8) (offset : ℕ) : Option (ℕ × ℕ) :=
  decodeDigits rawData 4 1 0 offset

/-- The copy into the buffer, with `curSubpacketLen`; `none` is a copy out of
the packet or behind the buffer. -/
def copySubpacket (d : Downlink) (buffer rawData : List UInt8) (offset : ℕ) :
    Option (Downlink × ℕ) :=
  let curSubpacketLen := usub 32 rawData.length offset
  if rawData.length < offset + curSubpacketLen ∨
      buffer.length < d.receivedLen + curSubpacketLen then none
  else some
    ({ d with
        buffer := some
          (buffer.splice d.receivedLen ((rawData.drop offset).take curSubpacketLen))
        receivedLen := (d.receivedLen + curSubpacketLen) % 2 ^ 32 }, curSubpacketLen)

def ackSubpacket (d : Downlink) (flag curSubpacketNo curSubpacketLen : ℕ) (malloc : Bool) :
    Downlink × ChannelOut :=
  if malloc = false then ({ d with buffer := none }, .nothing)
  else
    let ack : SubpacketAck :=
      { flag := flag
        status := if d.receivedLen < d.totalLen then subpacketRecvOneAndNext
          else subpacketRecvAllDone
        curSubpacketNo := curSubpacketNo % 2 ^ 16
        curSubpacketLen := curSubpacketLen % 2 ^ 16
        receivedLen := d.receivedLen
        totalLen := d.totalLen }
    (d, { ChannelOut.nothing with
      ack := some ack
      command := if d.receivedLen < d.totalLen then none else d.buffer })

/-- A new buffer is not initialised; it stands with zeros here. -/
def recvSubpacket (d : Downlink) (rawData : List UInt8) (flag : ℕ) (bufferMalloc ackMalloc : Bool) :
    Option (Downlink × ChannelOut) :=
  match rawData[2]? with
  | none => none
  | some first =>
    if first = 0 then
      match extractPacketLen rawData 3 with
      | none => none
      | some (totalLen, offset) =>
        if bufferMalloc = false then some (⟨totalLen, none, 0⟩, .nothing)
        else
          let buffer := List.replicate totalLen 0
          (copySubpacket ⟨totalLen, some buffer, 0⟩ buffer rawData (offset + 1)).map fun r ↦
            ackSubpacket r.1 flag 0 r.2 ackMalloc
    else match d.buffer with
      | none => some (d, .nothing)
      | some buffer =>
        match extractPacketLen rawData 2 with
        | none => none
        | some (curSubpacketNo, offset) =>
          (copySubpacket d buffer rawData offset).map fun r ↦
            ackSubpacket r.1 flag curSubpacketNo r.2 ackMalloc

/-! ## Uplink -/

def fragmentHeader (m : BleChannelMgr) : List UInt8 :=
  [0x00, 0x03, UInt8.ofNat m.subpackNo] ++
    if m.subpackNo = 0 then encodeDigits 4 m.subpackLen ++ [0x40] else []

def responseToAppBySubpack (m : BleChannelMgr) (malloc : Bool) :
    Option (BleChannelMgr × Option (List UInt8)) :=
  match m.rspData with
  | none => some (m, none)
  | some rspData =>
    if malloc = false then some (m, none)
    else if m.subpackSent < m.subpackLen then
      let header := fragmentHeader m
      let pkgDataLen := usub 16 tuyaBleTransDataSubpackLen header.length
      let left := usub 32 m.subpackLen m.subpackSent
      let pkgDataLen := if left < pkgDataLen then left else pkgDataLen
      if rspData.length < 2 + m.subpackSent + pkgDataLen ∨
          tuyaBleTransDataSubpackLen < header.length + pkgDataLen then none
      else some
        ({ m with
            subpackSent := (m.subpackSent + pkgDataLen) % 2 ^ 32
            subpackNo := (m.subpackNo + 1) % 2 ^ 32 },
          some (header ++ (rspData.drop (2 + m.subpackSent)).take pkgDataLen))
    else some (m, none)

def bleChannleAck (data : List UInt8) (malloc : Bool) :
    Option (BleChannelMgr × Option (List UInt8)) :=
  responseToAppBySubpack ⟨some data, 0, 0, usub 32 data.length 2⟩ malloc

/-- The answer of the app to a fragment. -/
def uplinkStatus (m : BleChannelMgr) (status : UInt8) (malloc : Bool) :
    Option (BleChannelMgr × Option (List UInt8)) :=
  if status = 0 then some (.zero, none)
  else if status = 1 then responseToAppBySubpack m malloc
  else if status = 2 then
    responseToAppBySubpack { m with subpackNo := 0, subpackSent := 0 } malloc
  else some (m, none)

def isDownlink (type : UInt16) : Bool :=
  type = frmDownlinkTransparentReq ∨ type = frmDownlinkTransparentSpecReq

def isUplink (type : UInt16) : Bool :=
  type = frmUplinkTransparentReq ∨ type = frmUplinkTransparentSpecReq

def bleSessionChannelProcess (s : ChannelState) (req : ChannelReq) :
    Option (ChannelState × ChannelOut) :=
  if isDownlink req.type then
    match req.data.1 with
    | flag0 :: flag1 :: rest =>
      if flag1 &&& 0x02 ≠ 0 then
        (recvSubpacket s.down req.data (flag1.toNat * 256 + flag0.toNat) req.bufferMalloc
          req.ackMalloc).map fun r ↦ ({ s with down := r.1 }, r.2)
      else some (s, { ChannelOut.nothing with whole := some rest })
    | _ => none
  else if isUplink req.type then
    match req.data.1[2]? with
    | none => none
    | some status =>
      (uplinkStatus s.up status req.pkgMalloc).map fun r ↦
        ({ s with up := r.1 }, { ChannelOut.nothing with fragment := r.2 })
  else some (s, .nothing)

/-- The session over a sequence of packets; undefined behaviour leaves the state
as it was and has no output. -/
def channelMachine : Mealy ChannelState ChannelReq (Option ChannelOut) where
  step s req :=
    match bleSessionChannelProcess s req with
    | none => (s, none)
    | some (s, out) => (s, some out)

/-! ## What the subpackets say -/

/-- The total length and the payload of a first subpacket. -/
def parseFirst (rawData : List UInt8) : Option (ℕ × List UInt8) :=
  match Leb128.decode 4 (rawData.drop 3) with
  | some (total, _ :: payload) => some (total, payload)
  | _ => none

/-- The number and the payload of a later subpacket. -/
def parseLater (rawData : List UInt8) : Option (ℕ × List UInt8) := Leb128.decode 4 (rawData.drop 2)

/-- The subpackets `0, ..., next - 1` since the latest first one. -/
structure Gathered where
  next : ℕ
  total : ℕ
  bytes : List UInt8
  deriving DecidableEq

/-- A first subpacket starts anew, the next number goes on, and any other number
loses the order. -/
def gather (g : Option Gathered) (rawData : List UInt8) : Option Gathered :=
  if rawData[2]? = some 0 then
    (parseFirst rawData).map fun p ↦ ⟨1, p.1, p.2⟩
  else match g with
    | none => none
    | some g =>
      match parseLater rawData with
      | none => none
      | some (no, payload) =>
        if no = g.next then some ⟨g.next + 1, g.total, g.bytes ++ payload⟩ else none

end TuyaOpen.Ble.Channel
