import TuyaOpen.Ai.Agent
import TuyaOpen.Ai.Biz
import TuyaOpen.Lib.Mealy

/-!
# The session tables of the agent and of the business layer

The agent files its sessions under solution codes, and the business layer the same ones
under their ids.  Sessions come through the agent, or from below it; they go when they are
deleted, when the cloud closes them, or with the connection.
-/

namespace TuyaOpen.Ai

/-- Both tables have as many slots as there may be sessions. -/
structure SessionTables where
  agent : AiAgentCtx
  biz : AiBiz

def tablesInit (sessionMax : ℕ) : SessionTables :=
  ⟨⟨List.replicate sessionMax zeroSession, none, 0, []⟩, ⟨List.replicate sessionMax none, none⟩⟩

/-- What the agent learns with a token: the channels of a session. -/
structure SessionToken where
  send : List (UInt8 × ℕ)
  recv : List RecvEntry
  eventCb : Option ℕ

/-- `tuya_ai_biz_crt_session`; `sent` is what telling the cloud returns.  A table that is full is
no error. -/
def tuyaAiBizCrtSession (biz : AiBiz) (session : AiBizSession) (sent : OperateRet) :
    AiBiz × OperateRet :=
  if sent ≠ oprtOk then (biz, sent)
  else ({ biz with session := fillSession session biz.session }, oprtOk)

/-- `tuya_ai_agent_crt_session` on both tables.  A code that is too long for the context is
copied behind its end. -/
def crtSession (t : SessionTables) (scode : CString) (token : Except OperateRet SessionToken)
    (uuid : CString) (sent : OperateRet) : Except Fault (SessionTables × OperateRet) :=
  let found := (updateSidLoop scode false t.agent.session).2
  let free := t.agent.session.any fun s ↦ s.sid = []
  match token with
  | .error rt =>
      let r := tuyaAiAgentCrtSession t.agent scode (.error rt) (.error rt)
      .ok (⟨r.1, t.biz⟩, r.2)
  | .ok token =>
      if found = false ∧ free = true then
        let created := tuyaAiBizCrtSession t.biz ⟨uuid, token.recv, token.eventCb⟩ sent
        if created.2 = oprtOk ∧ aiSolutionCodeLen < scode.length then .error .undefined
        else
          let r := tuyaAiAgentCrtSession t.agent scode (.ok token.send)
            (if created.2 = oprtOk then .ok uuid else .error created.2)
          .ok (⟨r.1, created.1⟩, r.2)
      else
        let r := tuyaAiAgentCrtSession t.agent scode (.ok token.send) (.ok uuid)
        .ok (⟨r.1, t.biz⟩, r.2)

/-- The scan of `tuya_ai_agent_del_session` compares as many bytes as the code has, and has a
bound of its own. -/
def delSearch (scode : CString) (sessions : List AiAgentSession) : ℕ → ℕ → Except Fault (Option ℕ)
  | _, 0 => .ok none
  | idx, left + 1 =>
      match sessions[idx]? with
      | none => .error .undefined
      | some s =>
          if scode.isPrefixOf s.scode then .ok (some idx)
          else delSearch scode sessions (idx + 1) left

/-- `tuya_ai_agent_del_session`; `rc` is what telling the cloud returns. -/
def tuyaAiAgentDelSession (t : SessionTables) (scode : CString) (rc : OperateRet) :
    Except Fault (SessionTables × OperateRet) :=
  match delSearch scode t.agent.session 0 aiBizMaxNum with
  | .error e => .error e
  | .ok none => .ok (t, oprtComError)
  | .ok (some idx) =>
      let sid := (t.agent.session.getD idx zeroSession).sid
      let agent := { t.agent with session := t.agent.session.set idx zeroSession }
      let r := aiBizSessionDestory t.biz (· = sid) rc
      .ok (⟨agent, r.1⟩, r.2)

/-- A session that the cloud closes: the agent is told of one that was there. -/
def closeSession (t : SessionTables) (id : CString) : SessionTables × OperateRet :=
  match clearSession (· = id) t.biz.session with
  | none => (t, oprtComError)
  | some session => (⟨aiAgentDelSid t.agent id, { t.biz with session := session }⟩, oprtOk)

/-- `__ai_clt_close_evt`. -/
def cltCloseEvt (t : SessionTables) : SessionTables :=
  ⟨(t.biz.session.filterMap fun s ↦ s.map AiBizSession.id).foldl aiAgentDelSid t.agent,
    { t.biz with session := t.biz.session.map fun _ ↦ none }⟩

/-- What is done to the tables; ids are made of the random bytes. -/
inductive TableCall where
  | crtSession (scode : CString) (token : Except OperateRet SessionToken) (random : List UInt8)
      (sent : OperateRet)
  | delSession (scode : CString) (rc : OperateRet)
  | bizCrtSession (recv : List RecvEntry) (eventCb : Option ℕ) (random : List UInt8)
      (sent : OperateRet)
  | bizDelSession (id : CString) (rc : OperateRet)
  | cloudClose (id : CString)
  | clientClose

def tableStep (t : SessionTables) : TableCall → Except Fault (SessionTables × OperateRet)
  | .crtSession scode token random sent => crtSession t scode token (aiBasicUuidV4 random) sent
  | .delSession scode rc => tuyaAiAgentDelSession t scode rc
  | .bizCrtSession recv eventCb random sent =>
      let r := tuyaAiBizCrtSession t.biz ⟨aiBasicUuidV4 random, recv, eventCb⟩ sent
      .ok (⟨t.agent, r.1⟩, r.2)
  | .bizDelSession id rc =>
      let r := aiBizSessionDestory t.biz (· = id) rc
      .ok (⟨t.agent, r.1⟩, r.2)
  | .cloudClose id => .ok (closeSession t id)
  | .clientClose => .ok (cltCloseEvt t, oprtOk)

/-- A call that is undefined changes nothing that could be spoken of. -/
def tablesMachine : Mealy SessionTables TableCall (Except Fault OperateRet) where
  step t call :=
    match tableStep t call with
    | .error e => (t, .error e)
    | .ok r => (r.1, .ok r.2)

end TuyaOpen.Ai
