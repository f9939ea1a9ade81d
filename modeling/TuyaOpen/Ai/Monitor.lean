import TuyaOpen.Ai.Packet
import TuyaOpen.Lib.Splice

/-!
# Clients of the monitor

`tuya_ai_monitor.c`: what a client sends is collected in a buffer and searched for frames, which
begin with a magic number.  A search may look at bytes behind those that were received.
-/

namespace TuyaOpen.Ai

open Bytes

def aiMonitorMagic : List UInt8 := [0x54, 0x59, 0x41, 0x49]
def aiMonitorDirAck : ℕ := 2

/-- The size of `ai_monitor_header_t`, with the magic number and the head of the packet. -/
def aiMonitorHeaderLen : ℕ := 10

/-- With the length of the packet behind it. -/
def monitorHeadLen : ℕ := aiMonitorHeaderLen + 4

/-- What happens in the handler: a search, with the number of bytes it was given and of those it
looked at, and a call of `__parse_pkg`, with the place of the frame among all bytes of the
client. -/
inductive MonitorEvent where
  | search (len reads : ℕ)
  | parse (pos : ℕ) (pkg : List UInt8)
  deriving DecidableEq

/-- `ai_monitor_client_t`.  `recvBuf` goes on with the memory behind the buffer, and `base`, the
number of bytes that have left the buffer, is history. -/
structure AiMonitorClient where
  connected : Bool
  recvBuf : List UInt8
  recvBufSize : ℕ
  recvLen : ℕ
  base : ℕ
  deriving DecidableEq

def findSyncLoop (data : List UInt8) : ℕ → ℕ → OperateRet × ℕ
  | offset, 0 =>
      if (data.drop offset).take 4 = aiMonitorMagic then (offset, offset + 4)
      else (oprtNotFound, offset + 4)
  | offset, left + 1 =>
      if (data.drop offset).take 4 = aiMonitorMagic then (offset, offset + 4)
      else findSyncLoop data (offset + 1) left

/-- `__find_sync_frame`, with the number of bytes it looks at: the last offset that is compared
is `len` itself. -/
def findSyncFrame (data : List UInt8) (len : ℕ) : OperateRet × ℕ := findSyncLoop data 0 len

/-- The checks of the header. -/
def validFrame (frame : List UInt8) : Prop :=
  (frame.getD 4 0).toNat / 64 = aiMonitorDirAck ∧ frame.getD 5 0 = 1 ∧
    (frame.getD 8 0).toNat % 2 = 0 ∧ (frame.getD 8 0).toNat / 2 % 32 = aiPacketSl0 ∧
    (frame.getD 8 0).toNat / 64 = FragFlag.noFrag.toNat

instance (frame : List UInt8) : Decidable (validFrame frame) :=
  inferInstanceAs (Decidable (_ ∧ _))

/-- The loop over the buffer, with how much of it is processed behind it.  Every pass but the last
processes four bytes or more, so that as many passes as bytes are enough. -/
def parseFrames (buf : List UInt8) (base recvLen : ℕ) : ℕ → ℕ → ℕ × List MonitorEvent
  | 0, processed => (processed, [])
  | passes + 1, processed =>
      if recvLen ≤ processed then (processed, [])
      else
        let frame := buf.drop processed
        let found := findSyncFrame frame (recvLen - processed)
        let search := .search (recvLen - processed) found.2
        if found.1 ≠ oprtOk then (recvLen, [search])
        else if recvLen - processed < monitorHeadLen then (processed, [search])
        else
          let pkgLen := getBE frame aiMonitorHeaderLen 4
          if ¬validFrame frame then
            let r := parseFrames buf base recvLen passes (processed + 4)
            (r.1, search :: r.2)
          else if recvLen - (processed + monitorHeadLen) < pkgLen then (processed, [search])
          else
            let r := parseFrames buf base recvLen passes (processed + monitorHeadLen + pkgLen)
            (r.1, search :: .parse (base + processed) ((frame.drop monitorHeadLen).take pkgLen) ::
              r.2)

/-- `__socket_read_handler`; `data` is what was received, and nothing when the receive failed. -/
def socketReadHandler (client : AiMonitorClient) (data : List UInt8) :
    AiMonitorClient × List MonitorEvent :=
  if client.connected = false then (client, [])
  else if data = [] then ({ client with connected := false, recvLen := 0 }, [])
  else
    let buf := client.recvBuf.splice client.recvLen data
    let recvLen := client.recvLen + data.length
    let (processed, events) := parseFrames buf client.base recvLen recvLen 0
    ({ client with
      recvBuf :=
        if 0 < processed ∧ processed < recvLen then
          buf.splice 0 ((buf.drop processed).take (recvLen - processed))
        else buf
      recvLen := recvLen - processed
      base := client.base + processed }, events)

end TuyaOpen.Ai
