import TuyaOpen.Ai.Nonce
import TuyaOpen.Common.ErrorCode

/-!
# The client thread

`tuya_ai_client.c`: a thread that connects, authenticates and then reads, by its state.  The
work item that pings and the timers run on other threads, and a timer that gives the
connection up sets the state, too.
-/

namespace TuyaOpen.Ai

inductive AiClientState where
  | idle
  | setup
  | connect
  | clientHello
  | authReq
  | authResp
  | running
  deriving DecidableEq

/-! ## The packets that end the handshake -/

def aiCodeOk : ℕ := 200

/-- An attribute of an AUTH_RESP or CONN_CLOSE packet by its type. -/
inductive ConnAttr where
  | connectStatusCode (status : ℕ)
  | connectionId
  | connectCloseErrCode (status : ℕ)
  | unknown
  deriving DecidableEq

/-- A packet that was read.  `attrs` is what `tuya_parse_user_attrs` makes of it. -/
structure ConnPacket where
  type : UInt8
  hasAttr : Bool
  attrs : Except OperateRet (List ConnAttr)

/-- The loop of `__ai_parse_auth_resp`. -/
def authRespLoop (vaildNum : ℕ) : List ConnAttr → OperateRet
  | [] => if vaildNum = 2 then oprtOk else oprtComError
  | .connectStatusCode status :: attrs =>
      if status = aiCodeOk then authRespLoop (vaildNum + 1) attrs else oprtAuthenticationFail
  | .connectionId :: attrs => authRespLoop (vaildNum + 1) attrs
  | _ :: attrs => authRespLoop vaildNum attrs

def aiParseAuthResp : Except OperateRet (List ConnAttr) → OperateRet
  | .error rt => rt
  | .ok attrs => authRespLoop 0 attrs

/-- Without the attribute that says why the connection is closed it is a success. -/
def tuyaAiParseConnClose : Except OperateRet (List ConnAttr) → OperateRet
  | .error rt => rt
  | .ok attrs =>
      if attrs.any fun attr ↦ attr matches .connectCloseErrCode _ then oprtAuthenticationFail
      else oprtOk

/-- `tuya_ai_auth_resp` behind its read, which gave `rt` and a packet. -/
def tuyaAiAuthResp (rt : OperateRet) (pkt : Option ConnPacket) : OperateRet :=
  if rt ≠ oprtOk then rt
  else
    match pkt with
    | none => oprtComError
    | some pkt =>
        if pkt.hasAttr = false then oprtComError
        else if pkt.type = aiPtAuthResp then aiParseAuthResp pkt.attrs
        else if pkt.type = aiPtConnClose then tuyaAiParseConnClose pkt.attrs
        else oprtComError

/-- The hosts of `tuya_ai_basic_connect` by what connecting to them gives: the last result, and
whether the connection is up. -/
def tuyaAiBasicConnect : OperateRet → List OperateRet → OperateRet × Bool
  | rt, [] => (rt, false)
  | _, rt :: hosts => if rt = oprtOk then (oprtOk, true) else tuyaAiBasicConnect rt hosts

/-! ## The client -/

/-- Where the thread is: at the top of its loop, in a call that blocks, before it sets the
next state, before `__ai_client_handle_err` or in the sleep in there. -/
inductive ClientPhase where
  | loop
  | serCfg
  | connecting
  | authRead
  | pktRead
  | leave (next : AiClientState)
  | failed (rt : OperateRet)
  | backoff
  deriving DecidableEq

/-- `AI_BASIC_CLIENT_T` and the flag `connected` of the protocol.  A timer or work item is true
while it is started.  `accepted` is history: an AUTH_RESP was accepted since the connection
was closed or set up. -/
structure AiBasicClient where
  state : AiClientState
  reconnCnt : ℕ
  connected : Bool
  aliveWork : Bool
  aliveTimeoutTimer : Bool
  heartbeatLostCnt : ℕ
  idleCheckTimer : Bool
  idleCheckEnable : Bool
  recvBizPkt : Bool
  phase : ClientPhase
  accepted : Bool
  deriving DecidableEq

def aiReconnTimeNum : ℕ := 7

namespace AiBasicClient

variable (s : AiBasicClient)

def startPing : AiBasicClient := { s with aliveWork := true }

def stopAliveTime : AiBasicClient := { s with heartbeatLostCnt := 0, aliveTimeoutTimer := false }

def stopPing : AiBasicClient := { s with aliveWork := false }.stopAliveTime

/-- `__ai_conn_close`; the flag stays when there is no memory for the packet. -/
def connClose (mem : Bool) : AiBasicClient :=
  { s.stopPing with
    connected := s.connected && !mem
    state := .idle
    accepted := false }

/-- `__ai_client_handle_err`, up to its sleep. -/
def handleErr (mem : Bool) : AiBasicClient :=
  match s.state with
  | .setup =>
      { s with
        reconnCnt := if aiReconnTimeNum - 1 ≤
          s.reconnCnt then aiReconnTimeNum - 1 else s.reconnCnt + 1
        phase := .loop }
  | .connect => { s with phase := .backoff }
  | .authResp => { s with phase := .backoff }
  | .running => { s.connClose mem with phase := .loop }
  | _ => { s with phase := .loop }

/-- A function of the thread is through and sets the next state. -/
def leave : AiClientState → AiBasicClient
  | .connect => { s with aliveWork := false, state := .connect, phase := .loop }
  | .clientHello => { s with reconnCnt := 0, state := .clientHello, phase := .loop }
  | .running =>
      { s with
        heartbeatLostCnt := 0
        aliveWork := true
        recvBizPkt := false
        idleCheckEnable := false
        idleCheckTimer := true
        state := .running
        phase := .loop }
  | next => { s with state := next, phase := .loop }

/-- `__ai_running` behind its read; `first` says that the packet is not a later fragment. -/
def handlePacket (first : Bool) (pkt : ConnPacket) : AiBasicClient :=
  let s := { s.stopAliveTime with phase := .loop }
  if first = false then { s with recvBizPkt := true }
  else if pkt.type = aiPtPong then s.startPing
  else if pkt.type = aiPtConnRefreshResp then s
  else if pkt.type = aiPtConnClose then
    if pkt.hasAttr = false then s else { s with state := .idle, accepted := false }
  else if pkt.type = aiPtDelayDisconnect then
    if s.idleCheckEnable then s
    else { s with idleCheckEnable := true, recvBizPkt := false, idleCheckTimer := true }
  else { s with recvBizPkt := true }

end AiBasicClient

/-- What a packet read of `__ai_running` gives. -/
inductive RunRead where
  | failed (rt : OperateRet) (mqtt : Bool)
  | packet (first : Bool) (pkt : ConnPacket)

/-- The steps of the thread, of the work item and the timers, and of the senders.  A call of the
thread that blocks is two steps; `mem` is the memory for the packet of `__ai_conn_close`. -/
inductive ClientStep where
  | idle (ready : Bool)
  | setup (init : OperateRet)
  | serCfg (rt : OperateRet)
  | connect
  | connectRet (linkage : OperateRet) (hosts : List OperateRet)
  | send (rt : OperateRet)
  | authResp
  | authRespRet (rt : OperateRet) (pkt : Option ConnPacket)
  | running
  | runningRet (read : RunRead)
  | leave
  | handleErr (mem : Bool)
  | backoff
  | ping
  | aliveTimeout (mem : Bool)
  | idleCheck (long mem : Bool)
  | startPing

/-- The thread is at the top of its loop in this state. -/
def AiBasicClient.isAt (s : AiBasicClient) (state : AiClientState) : Prop :=
  s.phase = .loop ∧ s.state = state

instance (s : AiBasicClient) (state : AiClientState) : Decidable (s.isAt state) :=
  inferInstanceAs (Decidable (_ ∧ _))

/-- The state behind a CLIENT_HELLO packet. -/
def AiVersion.helloNext : AiVersion → AiClientState
  | .v1 => .authReq
  | .v2 => .authResp

/-- A packet of the handshake, which is not sent while the flag is down. -/
def sendHandshake (s : AiBasicClient) (rt : OperateRet) (next : AiClientState) : AiBasicClient :=
  if s.connected = false then { s with phase := .failed oprtComError }
  else if rt ≠ oprtOk then { s with phase := .failed rt }
  else { s with phase := .leave next }

/-- A step that is not ready does nothing. -/
def clientStep (v : AiVersion) (s : AiBasicClient) : ClientStep → AiBasicClient
  | .idle ready =>
      if s.isAt .idle then
        if ready then { s with state := .setup } else { s with phase := .failed oprtComError }
      else s
  | .setup init =>
      if s.isAt .setup then
        if init ≠ oprtOk then { s with phase := .failed init }
        else { s with connected := false, accepted := false, phase := .serCfg }
      else s
  | .serCfg rt =>
      if s.phase = .serCfg then
        if rt = oprtOk then { s with phase := .leave .connect }
        else if rt = oprtSvcMqttGwMqOffline then { s with state := .idle, phase := .failed rt }
        else { s with phase := .failed rt }
      else s
  | .connect => if s.isAt .connect then { s with phase := .connecting } else s
  | .connectRet linkage hosts =>
      if s.phase = .connecting then
        if linkage ≠ oprtOk then { s with phase := .failed linkage }
        else
          let (rt, up) := tuyaAiBasicConnect oprtOk hosts
          if rt ≠ oprtOk then { s with phase := .failed rt }
          else { s with connected := s.connected || up, phase := .leave .clientHello }
      else s
  | .send rt =>
      if s.isAt .clientHello then sendHandshake s rt v.helloNext
      else if s.isAt .authReq then sendHandshake s rt .authResp
      else s
  | .authResp => if s.isAt .authResp then { s with phase := .authRead } else s
  | .authRespRet rt pkt =>
      if s.phase = .authRead then
        let rt := tuyaAiAuthResp rt pkt
        if rt ≠ oprtOk then { s with phase := .failed rt }
        else
          { s with
            phase := .leave .running
            accepted := s.accepted || pkt.any fun pkt ↦ pkt.type = aiPtAuthResp }
      else s
  | .running => if s.isAt .running then { s with phase := .pktRead } else s
  | .runningRet read =>
      if s.phase = .pktRead then
        match read with
        | .failed rt mqtt =>
            if rt = oprtResourceNotReady ∨ rt = oprtOk ∨ rt = -1 ∧ mqtt = true then
              { s with phase := .loop }
            else { s with phase := .failed rt }
        | .packet first pkt => s.handlePacket first pkt
      else s
  | .leave =>
      match s.phase with
      | .leave next => s.leave next
      | _ => s
  | .handleErr mem =>
      match s.phase with
      | .failed _ => s.handleErr mem
      | _ => s
  | .backoff => if s.phase = .backoff then { s with state := .setup, phase := .loop } else s
  | .ping =>
      if s.aliveWork then { s with aliveWork := false, aliveTimeoutTimer := true } else s
  | .aliveTimeout mem =>
      if s.aliveTimeoutTimer then
        let s := { s with aliveTimeoutTimer := false, heartbeatLostCnt := s.heartbeatLostCnt + 1 }
        if 3 ≤ s.heartbeatLostCnt then s.connClose mem else { s with aliveWork := true }
      else s
  | .idleCheck long mem =>
      if s.idleCheckTimer then
        let s := { s with idleCheckTimer := false }
        if v = .v1 then s
        else if s.idleCheckEnable then
          if s.recvBizPkt then { s with recvBizPkt := false, idleCheckTimer := true }
          else s.connClose mem
        else if long then
          { s with idleCheckEnable := true, recvBizPkt := false, idleCheckTimer := true }
        else { s with idleCheckTimer := true }
      else s
  | .startPing => s.startPing

end TuyaOpen.Ai
