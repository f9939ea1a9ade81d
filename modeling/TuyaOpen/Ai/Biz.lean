import TuyaOpen.Ai.Attrs
import TuyaOpen.Ai.FragSend
import TuyaOpen.Lib.Orbit

/-!
# Business packets of `tuya_ai_biz.c`

Sessions register callbacks for the channels on which they receive.  A packet is
handled with the memory from its buffer on: the lengths inside of it are the peer's,
and are followed wherever they lead.
-/

namespace TuyaOpen.Ai

open Bytes ByteMem Orbit

def aiPtSessionClose : UInt8 := 8
def aiPtSessionStateChange : UInt8 := 11
def aiPtEvent : UInt8 := 35

def aiAttrSessionId : ℕ := 43
def aiAttrEventId : ℕ := 61
def aiAttrFileName : ℕ := 102

def aiFileNameLen : ℕ := 128
def aiStreamIng : ℕ := 2

/-- `AI_BIZ_RECV_DATA_T`; a callback and user data by their addresses. -/
structure RecvEntry where
  id : ℕ
  cb : Option ℕ
  usrData : Option ℕ
  deriving DecidableEq

/-- `AI_SESSION_T`. -/
structure AiBizSession where
  id : List UInt8
  recv : List RecvEntry
  eventCb : Option ℕ
  deriving DecidableEq

/-- `AI_BASIC_BIZ_T`: a slot is free when its id is empty. -/
structure AiBiz where
  session : List (Option AiBizSession)
  cb : Option ℕ
  deriving DecidableEq

/-! ## Attributes of a packet -/

/-- How parsing the attributes ends.  It does not when the loop never does or an integer is
taken for an address. -/
inductive AttrParse where
  | done (attrs : List ParsedAttr)
  | failed (rc : OperateRet)
  | undefined
  deriving DecidableEq

def AttrParse.cons (a : ParsedAttr) : AttrParse → AttrParse
  | done attrs => done (a :: attrs)
  | r => r

/-- The loop that all the parsers share; `check` is what one of them does with an attribute. -/
@[grind =] def bizAttrLoop (check : ParsedAttr → Option OperateRet) (m : Mem) (attrLen : ℕ) :
    ℕ → ℕ → AttrParse
  | 0, _ => .undefined
  | fuel + 1, offset =>
      if offset < attrLen then
        match tuyaAiGetAttrValue m offset with
        | (_, .error e) => .failed e
        | (_, .ok (a, next)) =>
            match check a with
            | none => .undefined
            | some rt =>
                if rt = oprtOk then (bizAttrLoop check m attrLen fuel next).cons a else .failed rt
      else .done []

/-- A loop that is not through after so many iterations never will be. -/
def bizAttrs (check : ParsedAttr → Option OperateRet) (m : Mem) (attrLen : ℕ) : AttrParse :=
  bizAttrLoop check m attrLen (attrLen + 1) 0

def lastValue (type : ℕ) (attrs : List ParsedAttr) : Option AttrRef :=
  (attrs.filter fun a ↦ a.type = type).getLast?.map fun a ↦ a.value

def AttrRef.isNull : AttrRef → Bool
  | u8 v | u16 v | u32 v | u64 v => v = 0
  | _ => false

def AttrParse.requires (types : List ℕ) : AttrParse → AttrParse
  | done attrs =>
      if types.all fun t ↦ (lastValue t attrs).any fun v ↦ !v.isNull then done attrs
      else failed oprtInvalidParm
  | r => r

def aiParseVideoAttr (m : Mem) (attrLen : ℕ) : AttrParse := bizAttrs (fun _ ↦ some oprtOk) m attrLen
def aiParseAudioAttr (m : Mem) (attrLen : ℕ) : AttrParse := bizAttrs (fun _ ↦ some oprtOk) m attrLen
def aiParseImageAttr (m : Mem) (attrLen : ℕ) : AttrParse := bizAttrs (fun _ ↦ some oprtOk) m attrLen
def aiParseTextAttr (m : Mem) (attrLen : ℕ) : AttrParse := bizAttrs (fun _ ↦ some oprtOk) m attrLen

/-- A name is copied to a buffer of its own. -/
def fileNameCheck (a : ParsedAttr) : Option OperateRet :=
  if a.type = aiAttrFileName then
    if aiFileNameLen < a.length then some oprtInvalidParm
    else
      match a.value with
      | .bytes _ | .str _ => some oprtOk
      | _ => none
  else some oprtOk

def aiParseFileAttr (m : Mem) (attrLen : ℕ) : AttrParse :=
  match bizAttrs fileNameCheck m attrLen with
  | .done attrs =>
      match lastValue aiAttrFileName attrs with
      | some (.bytes start) | some (.str start) =>
          if m start = 0 then .failed oprtInvalidParm else .done attrs
      | _ => .failed oprtInvalidParm
  | r => r

def aiParseEventAttr (m : Mem) (attrLen : ℕ) : AttrParse :=
  (bizAttrs (fun _ ↦ some oprtOk) m attrLen).requires [aiAttrEventId, aiAttrSessionId]

def aiParseSessionCloseAttr (m : Mem) (attrLen : ℕ) : AttrParse :=
  (bizAttrs (fun _ ↦ some oprtOk) m attrLen).requires [aiAttrSessionId]

def aiParseSessionStateAttr (m : Mem) (attrLen : ℕ) : AttrParse :=
  (bizAttrs (fun _ ↦ some oprtOk) m attrLen).requires [aiAttrSessionId]

def aiParseBizAttr (type : UInt8) (m : Mem) (attrLen : ℕ) : AttrParse :=
  if type = aiPtVideo then aiParseVideoAttr m attrLen
  else if type = aiPtAudio then aiParseAudioAttr m attrLen
  else if type = aiPtImage then aiParseImageAttr m attrLen
  else if type = aiPtFile then aiParseFileAttr m attrLen
  else if type = aiPtText then aiParseTextAttr m attrLen
  else if type = aiPtEvent then aiParseEventAttr m attrLen
  else if type = aiPtSessionClose then aiParseSessionCloseAttr m attrLen
  else if type = aiPtSessionStateChange then aiParseSessionStateAttr m attrLen
  else .failed oprtInvalidParm

/-! ## The head of a message -/

/-- `AI_BIZ_HEAD_INFO_T`. -/
structure BizHead where
  streamFlag : ℕ
  timestamp : ℕ
  pts : ℕ
  len : ℕ
  deriving DecidableEq

def word (m : Mem) (start k : ℕ) : ℕ := decodeBE (slice m start k)

/-- The head at `payload` and the size it has there. -/
def aiParseBizHead (type : UInt8) (m : Mem) (payload : ℕ) : Option (BizHead × ℕ) :=
  let streamFlag := (m (payload + 2)).toNat / 64
  if type = aiPtVideo ∨ type = aiPtAudio then
    some (⟨streamFlag, word m (payload + 3) 8, word m (payload + 11) 8, word m (payload + 19) 4⟩,
      23)
  else if type = aiPtImage then
    some (⟨streamFlag, word m (payload + 3) 8, 0, word m (payload + 11) 4⟩, 15)
  else if type = aiPtFile ∨ type = aiPtText then
    some (⟨streamFlag, 0, 0, word m (payload + 3) 4⟩, 7)
  else if type = aiPtEvent then
    -- two bytes through a swap of four
    some (⟨0, 0, 0, word m (payload + 2) 2 * 2 ^ 16⟩, 4)
  else none

def aiIsBizPktVaild (type : UInt8) : Bool :=
  type = aiPtAudio ∨ type = aiPtVideo ∨ type = aiPtImage ∨ type = aiPtFile ∨ type = aiPtText ∨
    type = aiPtEvent ∨ type = aiPtSessionClose ∨ type = aiPtSessionStateChange

/-! ## Sessions -/

/-- The first session with a callback for the channel, and its entry. -/
def recvSearch (recvId : ℕ) : List (Option AiBizSession) → ℕ → Option (ℕ × RecvEntry)
  | [], _ => none
  | none :: rest, idx => recvSearch recvId rest (idx + 1)
  | some s :: rest, idx =>
      match s.recv.find? fun e ↦ e.id = recvId ∧ e.cb.isSome with
      | some e => some (idx, e)
      | none => recvSearch recvId rest (idx + 1)

/-- The slots after the first session with such an id was removed. -/
def clearSession (same : List UInt8 → Bool) :
    List (Option AiBizSession) → Option (List (Option AiBizSession))
  | [] => none
  | none :: rest => (clearSession same rest).map (none :: ·)
  | some s :: rest =>
      if same s.id then some (none :: rest) else (clearSession same rest).map (some s :: ·)

/-- `rc` is what telling the cloud returns. -/
def aiBizSessionDestory (biz : AiBiz) (same : List UInt8 → Bool) (rc : OperateRet) :
    AiBiz × OperateRet :=
  match clearSession same biz.session with
  | none => (biz, oprtComError)
  | some session => ({ biz with session := session }, rc)

def fillSession (s : AiBizSession) : List (Option AiBizSession) → List (Option AiBizSession)
  | [] => []
  | none :: rest => some s :: rest
  | some s' :: rest => some s' :: fillSession s rest

/-- What other threads do to the sessions: `tuya_ai_biz_crt_session` with an id and a
configuration, `tuya_ai_biz_del_session`, and the end of the connection. -/
inductive SessionOp where
  | create (s : AiBizSession)
  | delete (id : List UInt8)
  | closeAll

def AiBiz.apply (biz : AiBiz) : SessionOp → AiBiz
  | .create s => { biz with session := fillSession s biz.session }
  | .delete id => (aiBizSessionDestory biz (· = id) oprtOk).1
  | .closeAll => { biz with session := biz.session.map fun _ ↦ none }

/-! ## Handling a packet -/

/-- What the callbacks return; there need not be a monitor. -/
structure BizEnv where
  monitor : Option OperateRet
  recvCb : OperateRet
  eventCb : OperateRet

/-- A call of a receive callback; `start` counts from the buffer of the packet. -/
structure Delivery where
  cb : ℕ
  usrData : Option ℕ
  start : ℕ
  head : BizHead
  deriving DecidableEq

/-- What handling a packet did; without a code it does not return. -/
structure Handled where
  biz : AiBiz
  delivery : Option Delivery
  event : Option ℕ
  ret : Option OperateRet

def quiet (biz : AiBiz) (rc : OperateRet) : Handled := ⟨biz, none, none, some rc⟩

/-- The zero-terminated string at `start` is this one. -/
def cstrAt (m : Mem) (start : ℕ) (id : List UInt8) : Bool :=
  slice m start id.length = id ∧ m (start + id.length) = 0

/-- A session id is an address behind the attributes, or not one at all. -/
def bizCloseSession (biz : AiBiz) (attrMem : Mem) (attrs : List ParsedAttr) : Handled :=
  match lastValue aiAttrSessionId attrs with
  | none => quiet biz oprtInvalidParm
  | some (.bytes start) | some (.str start) =>
      let r := aiBizSessionDestory biz (cstrAt attrMem start) oprtOk
      quiet r.1 r.2
  | some v => if v.isNull then quiet biz oprtInvalidParm else ⟨biz, none, none, none⟩

/-- The first session with this id that has a callback for events. -/
def eventSearch (same : List UInt8 → Bool) : List (Option AiBizSession) → Option ℕ
  | [] => none
  | none :: rest => eventSearch same rest
  | some s :: rest =>
      match s.eventCb with
      | some cb => if same s.id then some cb else eventSearch same rest
      | none => eventSearch same rest

def aiBizRecvEvent (env : BizEnv) (biz : AiBiz) (attrMem : Mem) (attrs : List ParsedAttr) :
    Handled :=
  match lastValue aiAttrSessionId attrs with
  | some (.bytes start) | some (.str start) =>
      match eventSearch (cstrAt attrMem start) biz.session with
      | none => quiet biz oprtComError
      | some cb => ⟨biz, none, some cb, some env.eventCb⟩
  | _ => if biz.session.all fun s ↦
    s.isNone then quiet biz oprtComError else ⟨biz, none, none, none⟩

/-- A message for a receive channel, with its body at `start`. -/
def bizRecvData (env : BizEnv) (biz : AiBiz) (recvId start : ℕ) (head : BizHead) : Handled :=
  match recvSearch recvId biz.session 0 with
  | none => quiet biz oprtComError
  | some (_, e) =>
      match e.cb with
      | none => quiet biz (env.monitor.getD oprtOk)
      | some cb => ⟨{ biz with cb := some cb }, some ⟨cb, e.usrData, start, head⟩, none,
          some env.recvCb⟩

/-- Where a first packet has its attributes, and where the message begins behind them and the
total length. -/
def attrLenOf (m : Mem) : ℕ := if m 0 % 2 = 1 then word m 1 4 else 0

def payloadOf (m : Mem) : ℕ := u32 (u32 ((if m 0 % 2 = 1 then 5 else 1) + attrLenOf m) + 4)

def attrMemOf (m : Mem) : Mem := fun x ↦ m (5 + x)

def firstAttrs (m : Mem) : AttrParse :=
  if m 0 % 2 = 1 then aiParseBizAttr (m 0 / 2) (attrMemOf m) (attrLenOf m) else .done []

/-- A whole message or the first fragment of one.  The length of a fragment is no length of
its body; the source has a note to fix that. -/
def bizRecvFirst (env : BizEnv) (biz : AiBiz) (m : Mem) (len : ℕ) (start : Bool) : Handled :=
  let type := m 0 / 2
  let biz := { biz with cb := none }
  if aiIsBizPktVaild type = false then quiet biz oprtInvalidParm
  else
    match firstAttrs m with
    | .undefined => ⟨biz, none, none, none⟩
    | .failed rc => quiet biz rc
    | .done attrs =>
        if type = aiPtSessionClose then bizCloseSession biz (attrMemOf m) attrs
        else if type = aiPtSessionStateChange then quiet biz oprtOk
        else
          match aiParseBizHead type m (payloadOf m) with
          | none => quiet biz oprtInvalidParm
          | some (head, size) =>
              if type = aiPtEvent then aiBizRecvEvent env biz (attrMemOf m) attrs
              else
                bizRecvData env biz (word m (payloadOf m) 2) (payloadOf m + size)
                  (if start then { head with len := len } else head)

/-- A later fragment goes to the callback of the first one. -/
def bizRecvNext (env : BizEnv) (biz : AiBiz) (len : ℕ) : Handled :=
  match biz.cb with
  | none => quiet biz (env.monitor.getD oprtOk)
  | some cb => ⟨biz, some ⟨cb, none, 0, ⟨aiStreamIng, 0, 0, len⟩⟩, none, some env.recvCb⟩

def aiBizRecvHandle (env : BizEnv) (biz : AiBiz) (m : Mem) (len : ℕ) : FragFlag → Handled
  | .noFrag => bizRecvFirst env biz m len false
  | .start => bizRecvFirst env biz m len true
  | .ing | .stop => bizRecvNext env biz len

end TuyaOpen.Ai
