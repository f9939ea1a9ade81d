import TuyaOpen.Lan.Frame
import TuyaOpen.Lib.ByteMem
import Mathlib.Logic.Function.Basic

/-!
# LAN sessions, `tuya_lan.c`

The device keeps a table of sessions, one for each connected application.  A
session gets a key by a handshake of three frames under the local key; closing
a session wipes its slot at once, while its socket is only posted to the
socket loop to be closed later.
-/

namespace TuyaOpen.Lan

open Bytes

def frmSecurityType3 : ℕ := 0x03
def frmSecurityType4 : ℕ := 0x04
def frmSecurityType5 : ℕ := 0x05
def frmTpCmd : ℕ := 0x07
def frmTpHb : ℕ := 0x09
def frmQueryStat : ℕ := 0x0a
def frmTpNewCmd : ℕ := 0x0d
def frmQueryStatNew : ℕ := 0x10

def randLen : ℕ := 16
def hmacLen : ℕ := 32
def allowNoKeyNum : ℕ := 3
def lanFrameMaxLen : ℕ := 4 * 1024

def isSecurity (type : ℕ) : Bool :=
  type = frmSecurityType3 || type = frmSecurityType4 || type = frmSecurityType5

structure LanCrypto where
  gcm : Gcm
  sha256Mac (key data : List UInt8) : List UInt8

structure LanSession where
  active : Bool
  fault : Bool
  fd : ℤ
  time : ℕ
  sequenceIn : ℕ
  sequenceOut : ℕ
  randA : List UInt8
  randB : List UInt8
  hmac : List UInt8
  secretKey : List UInt8
  deriving DecidableEq

structure LanCfg where
  clientNum : ℕ
  bufsize : ℕ
  heartTimeout : ℕ
  sequenceErrThreshold : ℕ
  allowNoSessionKeyNum : ℕ
  deriving DecidableEq

/-- The manager, with the descriptors that were posted to be unregistered. -/
structure LanMgr where
  fdNum : ℕ
  session : ℕ → LanSession
  cfg : LanCfg
  isActivated : Bool
  localkey : List UInt8
  unregPosts : List ℤ

def freedSession : LanSession where
  active := false
  fault := false
  fd := -1
  time := 0
  sequenceIn := 0
  sequenceOut := 0
  randA := List.replicate 16 0
  randB := List.replicate 16 0
  hmac := List.replicate 32 0
  secretKey := List.replicate 16 0

def sLanCfg : LanCfg where
  clientNum := 3
  bufsize := 512
  heartTimeout := 30
  sequenceErrThreshold := 0
  allowNoSessionKeyNum := allowNoKeyNum

def tuyaLanInit (cfg : LanCfg) (isActivated : Bool) (localkey : List UInt8) : LanMgr where
  fdNum := 0
  session _ := { freedSession with fd := 0 }
  cfg := cfg
  isActivated := isActivated
  localkey := localkey
  unregPosts := []

def LanSession.keyed (s : LanSession) : Bool := s.secretKey.headD 0 != 0

def LanMgr.setSession (lan : LanMgr) (i : ℕ) (s : LanSession) : LanMgr :=
  { lan with session := Function.update lan.session i s }

def lanSessionClose (lan : LanMgr) (i : ℕ) : LanMgr :=
  if lan.fdNum = 0 ∨ (lan.session i).active = false then lan
  else if (lan.session i).fd = -1 then lan
  else
    { lan.setSession i freedSession with
      fdNum := lan.fdNum - 1
      unregPosts := lan.unregPosts ++ [(lan.session i).fd] }

def freeSlot (lan : LanMgr) : Option ℕ :=
  (List.range lan.cfg.clientNum).find? fun i ↦ (lan.session i).active = false

def lanSesisonAdd (lan : LanMgr) (socket : ℤ) (time sequenceOut : ℕ) : LanMgr :=
  if socket < 0 ∨ lan.cfg.clientNum ≤ lan.fdNum then lan
  else match freeSlot lan with
    | none => lan
    | some i =>
      { lan.setSession i
          { freedSession with
            active := true
            fd := socket
            time := time
            sequenceOut := sequenceOut } with
        fdNum := lan.fdNum + 1 }

def lanSessionFaultSet (lan : LanMgr) (i : ℕ) : LanMgr :=
  if lan.fdNum = 0 ∨ (lan.session i).active = false ∨ (lan.session i).fd < 0 then lan
  else lan.setSession i { lan.session i with fault := true }

def lanSessionTimeUpdate (lan : LanMgr) (i time : ℕ) : LanMgr :=
  if lan.fdNum = 0 ∨ (lan.session i).active = false then lan
  else lan.setSession i { lan.session i with time := time }

/-- A session that was idle for longer than a month is taken for one whose time
was not set yet. -/
def timedOut (lan : LanMgr) (time i : ℕ) : Bool :=
  let s := lan.session i
  let idle := ByteMem.wsub 4 time s.time
  s.active && !(decide (2592000 ≤ idle) && !s.fault) &&
    (decide (lan.cfg.heartTimeout ≤ idle) || s.fault)

def lanSessionTimeCheck (lan : LanMgr) (time : ℕ) : LanMgr :=
  if lan.fdNum = 0 then lan
  else (List.range lan.cfg.clientNum).foldl
    (fun lan i ↦ if timedOut lan time i then lanSessionClose lan i else lan) lan

def lanSessionCloseAll (lan : LanMgr) : LanMgr :=
  let lan := (List.range lan.cfg.clientNum).foldl (fun lan i ↦
    if (lan.session i).active then
      { lan.setSession i freedSession with
        unregPosts := lan.unregPosts ++ [(lan.session i).fd] }
    else lan) lan
  { lan with fdNum := 0 }

def lanSessionGetByFd (lan : LanMgr) (fd : ℤ) : Option ℕ :=
  (List.range lan.cfg.clientNum).find? fun i ↦ (lan.session i).fd = fd

/-! ## Sending and processing -/

/-- What the receive loop does that can be seen from outside: a frame handed to
`lan_protocol_process`, with the session as it is then, and bytes sent. -/
inductive LanOutput
  | added (slot : ℕ)
  | dispatched (slot : ℕ) (session : LanSession) (frame : Lpv35FrameObject)
  | sent (fd : ℤ) (key bytes : List UInt8)
  deriving DecidableEq

/-- The allocations of `lan_send`, the nonce it draws and whether the socket takes
the bytes. -/
structure SendEnv where
  plaintext : Bool
  sendBuf : Bool
  nonce : List UInt8
  sent : Bool

def lanSendKey (lan : LanMgr) (s : LanSession) : List UInt8 :=
  if s.keyed then s.secretKey else lan.localkey

/-- The return code stands before the data, in the byte order of the host. -/
def lanSend (crypto : LanCrypto) (env : SendEnv) (lan : LanMgr) (i frType retCode : ℕ)
    (data : List UInt8) : LanMgr × List LanOutput × OperateRet :=
  let s := lan.session i
  if s.active = false then (lan, [], oprtComError)
  else if s.fault then (lan, [], oprtSvcLanSocketFault)
  else if lan.isActivated = false then (lan, [], oprtComError)
  else if env.plaintext = false then (lan, [], oprtMallocFailed)
  else
    let plaintext := (encodeBE 4 retCode).reverse ++ data
    let frame : Lpv35FrameObject := ⟨s.sequenceOut, frType, plaintext⟩
    let lan := lan.setSession i { s with sequenceOut := (s.sequenceOut + 1) % 2 ^ 32 }
    if env.sendBuf = false then (lan, [], oprtMallocFailed)
    else match lpv35FrameSerialize crypto.gcm (lanSendKey lan s) env.nonce frame with
      | .error _ => (lan, [], oprtComError)
      | .ok bytes =>
        if env.sent then (lan, [.sent s.fd (lanSendKey lan s) bytes], oprtOk)
        else (lanSessionFaultSet lan i, [], oprtSvcLanSendErr)

/-- What the processing of one frame finds: the time, a random string, an
allocation, the answer of the data point layer to a command or a query. -/
structure FrameEnv where
  now : ℕ
  randB : List UInt8
  frameBuffer : Bool
  reply : ℕ × List UInt8
  parse : ParseEnv
  send : SendEnv

/-- The frame has the HMAC of the session's `randB` under the local key. -/
def type5Verified (crypto : LanCrypto) (localkey : List UInt8) (s : LanSession)
    (frame : Lpv35FrameObject) : Bool :=
  frame.type = frmSecurityType5 && decide (hmacLen ≤ frame.data.length) &&
    decide (crypto.sha256Mac localkey s.randB = frame.data.take hmacLen)

def processType3 (crypto : LanCrypto) (env : FrameEnv) (lan : LanMgr) (i : ℕ)
    (frame : Lpv35FrameObject) : LanMgr × List LanOutput :=
  if frame.data.length < randLen then (lan, [])
  else
    let randA := frame.data.take randLen
    let hmac := crypto.sha256Mac lan.localkey randA
    let lan := lan.setSession i
      { lan.session i with
        randA := randA
        hmac := hmac
        randB := env.randB }
    if env.frameBuffer = false then (lan, [])
    else
      let r := lanSend crypto env.send lan i frmSecurityType4 0 (env.randB ++ hmac)
      (r.1, r.2.1)

def processType5 (crypto : LanCrypto) (lan : LanMgr) (i : ℕ) (frame : Lpv35FrameObject) : LanMgr :=
  if frame.data.length < hmacLen then lan
  else
    let s := lan.session i
    let lan := lan.setSession i { s with hmac := crypto.sha256Mac lan.localkey s.randB }
    if type5Verified crypto lan.localkey s frame = false then lanSessionFaultSet lan i
    else
      let key := List.zipWith (· ^^^ ·) s.randA s.randB
      match crypto.gcm.encrypt lan.localkey (s.randA.take lpv35FrameNonceSize) [] key with
      | .ok (key, _) => lan.setSession i { lan.session i with secretKey := key }
      | .error (_, key) =>
        lanSessionFaultSet (lan.setSession i { lan.session i with secretKey := key }) i

def lanProtocolProcess (crypto : LanCrypto) (env : FrameEnv) (lan : LanMgr) (i : ℕ)
    (frame : Lpv35FrameObject) : LanMgr × List LanOutput :=
  if frame.type = frmTpCmd ∨ frame.type = frmTpNewCmd then
    -- the code of the answer is 1 whether the command was understood or not
    let r := lanSend crypto env.send lan i frame.type 1 env.reply.2
    (r.1, r.2.1)
  else if frame.type = frmSecurityType3 then processType3 crypto env lan i frame
  else if frame.type = frmSecurityType5 then (processType5 crypto lan i frame, [])
  else if frame.type = frmQueryStat ∨ frame.type = frmQueryStatNew then
    let r := lanSend crypto env.send lan i frame.type env.reply.1 env.reply.2
    (r.1, r.2.1)
  else (lan, [])

end TuyaOpen.Lan
