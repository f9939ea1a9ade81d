import TuyaOpen.Ai.Mqtt

/-!
# Uploads of the agent

`tuya_ai_agent.c`: sessions by solution code, one of them active, and the streams that are
uploaded in it.  Whether the first packet of a stream is sent is a flag of the session and
the packet type.
-/

namespace TuyaOpen.Ai

inductive AiStreamType where
  | one
  | start
  | ing
  | finish
  deriving DecidableEq

/-- A string of C without its zero. -/
abbrev CString := List UInt8

def aiSolutionCodeLen : ℕ := 64

structure AiAgentId where
  type : UInt8
  id : ℕ
  firstPkt : Bool
  deriving DecidableEq

/-- `AI_AGENT_SESSION_T`.  `number` is history: the sessions are numbered from one on as they are
created, and zero is a slot without a session. -/
structure AiAgentSession where
  scode : CString
  sid : CString
  send : List AiAgentId
  isActive : Bool
  number : ℕ
  deriving DecidableEq

def zeroSession : AiAgentSession :=
  ⟨[], [], List.replicate aiBizMaxNum ⟨0, 0, false⟩, false, 0⟩

/-- A packet with a stream flag that was sent, and the number of its session. -/
structure SentPacket where
  session : ℕ
  type : UInt8
  id : ℕ
  flag : AiStreamType
  hasAttr : Bool
  len : ℕ
  totalLen : ℕ
  deriving DecidableEq

/-- `AI_AGENT_CTX_T`; an encoder may be without a handle.  The packets that were sent are
history. -/
structure AiAgentCtx where
  session : List AiAgentSession
  encoder : Option Bool
  created : ℕ
  sent : List SentPacket
  deriving DecidableEq

/-! ## The entries of a session -/

def aiAgentGetSendId (type : UInt8) : List AiAgentId → ℕ
  | [] => 0
  | e :: entries => if e.type = type then e.id else aiAgentGetSendId type entries

def aiAgentIsFirstPkt (type : UInt8) : List AiAgentId → Bool
  | [] => false
  | e :: entries => if e.type = type then e.firstPkt else aiAgentIsFirstPkt type entries

def aiAgentSetFirstPkt (type : UInt8) (flag : Bool) : List AiAgentId → List AiAgentId
  | [] => []
  | e :: entries =>
      if e.type = type then { e with firstPkt := flag } :: entries
      else e :: aiAgentSetFirstPkt type flag entries

def AiAgentSession.setFirstPkt (session : AiAgentSession) (type : UInt8) (flag : Bool) :
    AiAgentSession :=
  { session with send := aiAgentSetFirstPkt type flag session.send }

/-! ## Sessions -/

/-- The session with this code is the active one; `found` says that there was one before. -/
def updateSidLoop (scode : CString) : Bool → List AiAgentSession → List AiAgentSession × Bool
  | found, [] => ([], found)
  | found, session :: sessions =>
      if found = false ∧ session.scode = scode ∧ session.sid ≠ [] then
        let (rest, found) := updateSidLoop scode true sessions
        ({ session with isActive := true } :: rest, found)
      else
        let (rest, found) := updateSidLoop scode found sessions
        ({ session with isActive := false } :: rest, found)

/-- `__ai_agent_set_sid`; the entries come from the token. -/
def aiAgentSetSid (ctx : AiAgentCtx) (idx : ℕ) (scode sid : CString) (send : List (UInt8 × ℕ)) :
    AiAgentCtx :=
  let entries := send.map fun e ↦ ⟨e.1, e.2, false⟩
  { ctx with
    session := ctx.session.set idx
      ⟨scode.take (aiSolutionCodeLen - 1), sid,
        (entries ++ List.replicate (aiBizMaxNum - entries.length) ⟨0, 0, false⟩), true,
        ctx.created + 1⟩
    created := ctx.created + 1 }

/-- `tuya_ai_agent_crt_session`.  `token` is what the token request gives, and `sid` what creating
the session gives. -/
def tuyaAiAgentCrtSession (ctx : AiAgentCtx) (scode : CString)
    (token : Except OperateRet (List (UInt8 × ℕ))) (sid : Except OperateRet CString) :
    AiAgentCtx × OperateRet :=
  let (sessions, found) := updateSidLoop scode false ctx.session
  let ctx := { ctx with session := sessions }
  if found then (ctx, oprtOk)
  else
    match ctx.session.findIdx? fun session ↦ session.sid = [] with
    | none => (ctx, oprtComError)
    | some idx =>
        let ctx := { ctx with
          session := ctx.session.set idx
            { zeroSession with scode := scode.take (aiSolutionCodeLen - 1) } }
        match token, sid with
        | .error rt, _ => (ctx, rt)
        | .ok _, .error rt => (ctx, rt)
        | .ok send, .ok sid => (aiAgentSetSid ctx idx scode sid send, oprtOk)

/-- `__ai_agent_del_sid`, when the session was closed. -/
def aiAgentDelSid (ctx : AiAgentCtx) (sid : CString) : AiAgentCtx :=
  match ctx.session.findIdx? fun session ↦ session.sid.take sid.length = sid with
  | some idx => { ctx with session := ctx.session.set idx zeroSession }
  | none => ctx

/-! ## Uploads -/

/-- Packets of these types have a stream flag. -/
def hasStreamFlag (type : UInt8) : Bool :=
  type ∈ [aiPtVideo, aiPtAudio, aiPtImage, aiPtFile, aiPtText]

def aiAgentIsNeedStreamFlag (type : UInt8) (len totalLen : ℕ) : Bool :=
  decide (type ≠ aiPtImage) && decide (len = totalLen)

/-- Data that is uploaded: whether there is a buffer, its length, and whether the packet can be
sent. -/
structure UploadChunk where
  data : Bool
  len : ℕ
  sends : Bool
  deriving DecidableEq

/-- The stream type of a packet. -/
def streamType (type : UInt8) (session : AiAgentSession) (chunk : UploadChunk) (totalLen : ℕ) :
    AiStreamType :=
  if aiAgentIsNeedStreamFlag type chunk.len totalLen then
    if aiAgentIsFirstPkt type session.send = false then .start
    else if chunk.data = true ∧ 0 < chunk.len then .ing
    else .finish
  else .one

def AiAgentCtx.active (ctx : AiAgentCtx) : Option ℕ :=
  ctx.session.findIdx? fun session ↦ session.isActive

/-- `__ai_upload_stream`. -/
def aiUploadStream (ctx : AiAgentCtx) (type : UInt8) (chunk : UploadChunk) (totalLen : ℕ) :
    AiAgentCtx × OperateRet :=
  match ctx.active with
  | none => (ctx, oprtComError)
  | some idx =>
      let session := ctx.session.getD idx zeroSession
      let stype := streamType type session chunk totalLen
      let ctx :=
        if stype = .start then
          { ctx with session := ctx.session.set idx (session.setFirstPkt type true) }
        else ctx
      if chunk.sends = false then (ctx, oprtComError)
      else if hasStreamFlag type = false then (ctx, oprtOk)
      else
        ({ ctx with
          sent := ctx.sent ++ [⟨session.number, type, aiAgentGetSendId type session.send, stype,
            stype = .start ∨ stype = .one, chunk.len, totalLen⟩] }, oprtOk)

/-- The encoder hands its output to `__upload_data_cb`, chunk by chunk. -/
def uploadEncoded (ctx : AiAgentCtx) : List UploadChunk → AiAgentCtx
  | [] => ctx
  | chunk :: chunks => uploadEncoded (aiUploadStream ctx aiPtAudio chunk chunk.len).1 chunks

/-- `tuya_ai_agent_upload_stream`; `encoded` is what the encoder makes of the data. -/
def tuyaAiAgentUploadStream (ctx : AiAgentCtx) (type : UInt8) (chunk : UploadChunk) (totalLen : ℕ)
    (encoded : List UploadChunk) (rt : OperateRet) : AiAgentCtx × OperateRet :=
  match ctx.encoder with
  | some handle =>
      if type = aiPtAudio then
        if handle = false then (ctx, oprtComError)
        else if chunk.len ≠ totalLen then (ctx, oprtInvalidParm)
        else if chunk.data = true ∧ 0 < chunk.len then (uploadEncoded ctx encoded, rt)
        else aiUploadStream ctx type chunk totalLen
      else aiUploadStream ctx type chunk totalLen
  | none => aiUploadStream ctx type chunk totalLen

/-- One entry in the loop of `tuya_ai_agent_end`: the stream ends with an empty chunk. -/
def endEntry (ctx : AiAgentCtx) (idx entry : ℕ) (sends : Bool) : AiAgentCtx :=
  let session := ctx.session.getD idx zeroSession
  let type := (session.send.map AiAgentId.type).getD entry 0
  if aiAgentIsFirstPkt type session.send then
    let ctx := (tuyaAiAgentUploadStream ctx type ⟨false, 0, sends⟩ 0 [] oprtOk).1
    { ctx with
      session := ctx.session.set idx ((ctx.session.getD idx zeroSession).setFirstPkt type false) }
  else ctx

def endLoop (ctx : AiAgentCtx) (idx : ℕ) : List (ℕ × Bool) → AiAgentCtx
  | [] => ctx
  | (entry, sends) :: entries => endLoop (endEntry ctx idx entry sends) idx entries

/-- `tuya_ai_agent_end`; `sends` says for each entry whether its packet can be sent. -/
def tuyaAiAgentEnd (ctx : AiAgentCtx) (sends : ℕ → Bool) : AiAgentCtx × OperateRet :=
  match ctx.active with
  | none => (ctx, oprtComError)
  | some idx =>
      (endLoop ctx idx ((List.range aiBizMaxNum).map fun entry ↦ (entry, sends entry)), oprtOk)

inductive AgentStep where
  | crtSession (scode : CString) (token : Except OperateRet (List (UInt8 × ℕ)))
      (sid : Except OperateRet CString)
  | delSid (sid : CString)
  | setEncoder (encoder : Option Bool)
  | upload (type : UInt8) (chunk : UploadChunk) (totalLen : ℕ) (encoded : List UploadChunk)
      (rt : OperateRet)
  | finish (sends : ℕ → Bool)

def agentStep (ctx : AiAgentCtx) : AgentStep → AiAgentCtx × OperateRet
  | .crtSession scode token sid => tuyaAiAgentCrtSession ctx scode token sid
  | .delSid sid => (aiAgentDelSid ctx sid, oprtOk)
  | .setEncoder encoder => ({ ctx with encoder := encoder }, oprtOk)
  | .upload type chunk totalLen encoded rt =>
      tuyaAiAgentUploadStream ctx type chunk totalLen encoded rt
  | .finish sends => tuyaAiAgentEnd ctx sends

end TuyaOpen.Ai
