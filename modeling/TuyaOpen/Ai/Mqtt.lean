import TuyaOpen.Ai.FragSend

/-!
# Requests over MQTT

`tuya_ai_mqtt.c`: a call sends a request with a fresh `bizId`, stores the `bizId` and waits
for the semaphore; the handler of the replies checks the stored `bizId`, fills the record
of results and posts the semaphore.  Both kinds of calls share all of them.  A `bizId` is
a string of 37 characters, and 38 bytes of it are compared.
-/

namespace TuyaOpen.Ai

abbrev BizId := List UInt8

def hexDigit (n : UInt8) : UInt8 := if n < 10 then 0x30 + n else 0x57 + n

/-- `%02x` of every byte. -/
def hexBytes (bytes : List UInt8) : List UInt8 :=
  bytes.flatMap fun b ↦ [hexDigit (b / 16), hexDigit (b % 16)]

/-- `tuya_ai_basic_uuid_v4`, from the sixteen random bytes. -/
def aiBasicUuidV4 (random : List UInt8) : BizId :=
  let uuid := (random.modify 6 fun b ↦ b &&& 0x0f ||| 0x40).modify 8 fun b ↦ b &&& 0x3f ||| 0x80
  let part (start len : ℕ) := hexBytes ((uuid.drop start).take len)
  part 0 4 ++ [0x2d] ++ part 4 2 ++ [0x2d] ++ part 6 2 ++ [0x2d] ++ part 8 2 ++ [0x2d] ++
    part 10 2 ++ [0x2d] ++ part 12 4

def aiBizMaxNum : ℕ := 5
def aiAgentTokenLen : ℕ := 64
def aiTtsUrlLen : ℕ := 128

/-! ## Server configuration -/

/-- The fields of the JSON object in a reply with a server configuration. -/
structure SerCfgData where
  tcpport : Option ℕ
  udpport : Option ℕ
  expire : Option ℕ
  username : Option (List UInt8)
  credential : Option (List UInt8)
  clientId : Option (List UInt8)
  derivedAlgorithm : Option (List UInt8)
  derivedIv : Option (List UInt8)
  hosts : Option (List (List UInt8))

structure AiServerCfgInfo where
  tcpPort : ℕ
  udpPort : ℕ
  expire : ℕ
  username : List UInt8
  credential : List UInt8
  clientId : List UInt8
  derivedAlgorithm : List UInt8
  derivedIv : List UInt8
  hosts : List (List UInt8)
  deriving DecidableEq

/-- The configuration in an object that has all of it. -/
def SerCfgData.config (d : SerCfgData) : Option AiServerCfgInfo := do
  let tcpPort ← d.tcpport
  let username ← d.username
  let credential ← d.credential
  let hosts ← d.hosts
  let expire ← d.expire
  let clientId ← d.clientId
  let derivedAlgorithm ← d.derivedAlgorithm
  let derivedIv ← d.derivedIv
  if hosts = [] then none
  else
    some ⟨tcpPort, d.udpport.getD 0, expire, username, credential, clientId, derivedAlgorithm,
      derivedIv, hosts⟩

/-- The old configuration is freed first, and the new one when the memory ran out for a
part of it. -/
def aiMqParseSerCfg (mem : Bool) (d : SerCfgData) : Option AiServerCfgInfo :=
  if mem then d.config else none

/-! ## Agent token -/

/-- The entries of `sendData` and `revData`; `unknown` is any other string. -/
inductive BizData where
  | video
  | audio
  | image
  | file
  | text
  | unknown
  deriving DecidableEq

def BizData.packetType : BizData → Option UInt8
  | video => some aiPtVideo
  | audio => some aiPtAudio
  | image => some aiPtImage
  | file => some aiPtFile
  | text => some aiPtText
  | unknown => none

structure BizConfig where
  bizCode : Option ℕ
  sendData : Option (List BizData)
  revData : Option (List BizData)

structure AgentTokenData where
  agentToken : Option (List UInt8)
  bizConfig : Option BizConfig
  ttsUrl : Option (List UInt8)

/-- A list of packet types in an array of five. -/
structure BizList where
  num : ℕ
  types : List UInt8
  deriving DecidableEq

structure AiAgentTokenInfo where
  token : List UInt8
  ttsUrl : List UInt8
  bizCode : ℕ
  send : BizList
  recv : BizList
  deriving DecidableEq

/-- The loop over the entries stops at one that is not known. -/
def fillBiz (types : List UInt8) : ℕ → List BizData → List UInt8
  | _, [] => types
  | idx, item :: rest =>
      match item.packetType with
      | some type => fillBiz (types.set idx type) (idx + 1) rest
      | none => types

def aiMqParseBizCfg (old : BizList) (items : List BizData) : BizList :=
  if aiBizMaxNum < items.length ∨ items = [] then old
  else ⟨items.length, fillBiz old.types 0 items⟩

/-- `__ai_mq_parse_agent_token`; the token stays when something is missing or it is too
long. -/
def aiMqParseAgentToken (agent : AiAgentTokenInfo) (d : AgentTokenData) : AiAgentTokenInfo :=
  match d.agentToken, d.bizConfig with
  | some token, some ⟨some bizCode, some send, some recv⟩ =>
      if aiAgentTokenLen ≤ token.length then agent
      else
        { agent with
          token := token
          bizCode := bizCode
          send := aiMqParseBizCfg agent.send send
          recv := aiMqParseBizCfg agent.recv recv }
  | _, _ => agent

/-! ## Replies -/

/-- A message for the handler.  `success` is false for a JSON `false` only; `other` is any
message that is not a reply.  `mem` says whether there is memory for a configuration. -/
inductive MqMsg where
  | serverInfo (bizId : Option BizId) (success : Option Bool) (data : Option SerCfgData)
      (mem : Bool)
  | agentToken (bizId : Option BizId) (success : Option Bool) (data : Option AgentTokenData)
  | other

/-- `AI_MQTT_CTX_T`.  A slot that was cleared has no `bizId`, and a configuration that was
freed is none. -/
structure MqCtx where
  config : Option AiServerCfgInfo
  agent : AiAgentTokenInfo
  sem : Bool
  bizId : Option BizId

/-- The slot is cleared when the `bizId` matches. -/
def aiMqIsBizIdVaild (ctx : MqCtx) (bizId : Option BizId) : Option MqCtx :=
  if bizId ≠ none ∧ bizId = ctx.bizId then some { ctx with bizId := none } else none

/-- The semaphore has room for one post. -/
def MqCtx.post (ctx : MqCtx) : MqCtx := { ctx with sem := true }

def aiMqDoSerCfg (ctx : MqCtx) (success : Option Bool) (data : Option SerCfgData) (mem : Bool) :
    MqCtx :=
  match success, data with
  | some true, some d => { ctx with config := aiMqParseSerCfg mem d }.post
  | _, _ => ctx

def aiMqDoAgentToken (ctx : MqCtx) (success : Option Bool) (data : Option AgentTokenData) :
    MqCtx :=
  match success, data with
  | some false, some d =>
      match d.ttsUrl with
      | some url =>
          if url = [] then ctx.post
          else if aiTtsUrlLen ≤ url.length then ctx
          else { ctx with agent.ttsUrl := url }.post
      | none => ctx.post
  | some true, some d => { ctx with agent := aiMqParseAgentToken ctx.agent d }.post
  | _, _ => ctx

/-- The handler, and whether it took the message for a reply to the stored `bizId`. -/
def aiMqHandle (ctx : MqCtx) : MqMsg → MqCtx × Bool
  | .serverInfo bizId success data mem =>
      match aiMqIsBizIdVaild ctx bizId with
      | some ctx => (aiMqDoSerCfg ctx success data mem, true)
      | none => (ctx, false)
  | .agentToken bizId success data =>
      match aiMqIsBizIdVaild ctx bizId with
      | some ctx => (aiMqDoAgentToken ctx success data, true)
      | none => (ctx, false)
  | .other => (ctx, false)

/-! ## Calls -/

inductive MqKind where
  | serCfg
  | token
  deriving DecidableEq

inductive MqResult where
  | config (cfg : AiServerCfgInfo)
  | agent (info : AiAgentTokenInfo)
  deriving DecidableEq

/-- What a call returns when the semaphore woke it; without a result it is an error. -/
def mqResult (ctx : MqCtx) : MqKind → Option MqResult
  | .serCfg => ctx.config.map .config
  | .token => if ctx.agent.token = [] then none else some (.agent ctx.agent)

/-- Where a thread is in `tuya_ai_mq_ser_cfg_req` or `tuya_ai_mq_token_req`. -/
inductive MqPhase where
  | idle
  | sent (kind : MqKind) (id : BizId)
  | waiting (kind : MqKind) (id : BizId)
  | woken (kind : MqKind) (id : BizId)
  deriving DecidableEq

/-- The context and the threads.  `answers` is the history of a call: the replies with its
`bizId` that the handler took since it was sent. -/
structure MqState where
  ctx : MqCtx
  phase : ℕ → MqPhase
  answers : ℕ → List MqMsg

def MqPhase.bizId : MqPhase → Option BizId
  | idle => none
  | sent _ id => some id
  | waiting _ id => some id
  | woken _ id => some id

def MqMsg.bizId : MqMsg → Option BizId
  | serverInfo bizId _ _ _ => bizId
  | agentToken bizId _ _ => bizId
  | other => none

/-- A thread sends its request, stores the `bizId`, is woken or times out, and returns; or the
handler gets a message.  A request that could not be sent is an error and changes
nothing. -/
inductive MqStep where
  | send (t : ℕ) (kind : MqKind) (id : BizId)
  | store (t : ℕ)
  | wake (t : ℕ)
  | timeout (t : ℕ)
  | finish (t : ℕ)
  | handle (msg : MqMsg)

inductive MqOut where
  | nothing
  | returned (kind : MqKind) (id : BizId) (answers : List MqMsg) (result : Option MqResult)
  | handled (accepted : Bool)

def MqState.setPhase (s : MqState) (t : ℕ) (phase : MqPhase) : MqState :=
  { s with phase := Function.update s.phase t phase }

/-- A step that the thread is not ready for does nothing. -/
def mqStep (s : MqState) : MqStep → MqState × MqOut
  | .send t kind id =>
      match s.phase t with
      | .idle =>
          ({ s with
            phase := Function.update s.phase t (.sent kind id)
            answers := Function.update s.answers t [] }, .nothing)
      | _ => (s, .nothing)
  | .store t =>
      match s.phase t with
      | .sent kind id =>
          ({ s with ctx.bizId := some id }.setPhase t (.waiting kind id), .nothing)
      | _ => (s, .nothing)
  | .wake t =>
      match s.phase t with
      | .waiting kind id =>
          if s.ctx.sem then
            ({ s with ctx.sem := false }.setPhase t (.woken kind id), .nothing)
          else (s, .nothing)
      | _ => (s, .nothing)
  | .timeout t =>
      match s.phase t with
      | .waiting kind id =>
          if s.ctx.sem then (s, .nothing)
          else (s.setPhase t .idle, .returned kind id (s.answers t) none)
      | _ => (s, .nothing)
  | .finish t =>
      match s.phase t with
      | .woken kind id =>
          (s.setPhase t .idle, .returned kind id (s.answers t) (mqResult s.ctx kind))
      | _ => (s, .nothing)
  | .handle msg =>
      let (ctx, accepted) := aiMqHandle s.ctx msg
      ({ s with
        ctx := ctx
        answers := fun t ↦
          if accepted ∧ (s.phase t).bizId = msg.bizId then s.answers t ++ [msg] else s.answers t },
        .handled accepted)

end TuyaOpen.Ai
