import TuyaOpen.Ai.Recv
import TuyaOpen.Lib.Splice

/-!
# Reassembly of fragments

The second half of `tuya_ai_basic_pkt_read`: a START packet allocates the buffer of its
message, and the function calls itself until an END packet.  The reassembly state
outlives the call, with the buffer that was handed to the caller.
-/

namespace TuyaOpen.Ai

open Bytes ChunkStream

structure RecvFragMng where
  fragFlag : FragFlag
  offset : ℕ
  data : Option ℕ
  deriving DecidableEq

def RecvFragMng.zero : RecvFragMng := ⟨.noFrag, 0, none⟩

structure FragState where
  mng : RecvFragMng
  heap : Blocks

/-- What a call returns: the code, and the address and length it stored through its
arguments, with the fragment flag. -/
structure ReadRet where
  rc : OperateRet
  out : Option (Option ℕ × ℕ × FragFlag)
  deriving DecidableEq

/-- The code behind `EXIT`; undefined when the data was freed before. -/
def fragExit (s : FragState) : Option FragState :=
  match s.mng.data with
  | none => some { s with mng := .zero }
  | some a => (s.heap.free a).map fun heap ↦ ⟨.zero, heap⟩

/-- The buffer `decrypt_buf`. -/
def AuthPacket.buf (pkt : AuthPacket) : List UInt8 :=
  pkt.plain ++ List.replicate (pkt.bufLen - pkt.plain.length) 0

def AuthPacket.hasAttr (pkt : AuthPacket) : Bool := (pkt.buf.getD 0 0).toNat % 2 = 1

def AuthPacket.fragOffset (pkt : AuthPacket) : ℕ :=
  if pkt.hasAttr then u32 (5 + getBE pkt.buf 1 4) else 0

/-- Where a START packet has the length of its message. -/
def AuthPacket.originAt (pkt : AuthPacket) : ℕ := if pkt.hasAttr then pkt.fragOffset else 1

def AuthPacket.originLen (pkt : AuthPacket) : ℕ := getBE pkt.buf pkt.originAt 4

def AuthPacket.fragTotalLen (pkt : AuthPacket) : ℕ :=
  u32 (pkt.originLen + pkt.fragOffset + aiAddPktLen)

/-- The packet ends the call, or the function calls itself. -/
inductive FragNext where
  | ret (s : FragState) (r : ReadRet)
  | exit (s : FragState)
  | again (s : FragState)
  | undefined

/-- `memcpy` of the payload to the data, at its offset. -/
def appendFragment (s : FragState) (pkt : AuthPacket) : Option FragState :=
  if pkt.bufLen < pkt.decryptLen then none
  else
    match s.mng.data with
    | none => if pkt.decryptLen = 0 then some { s with mng.fragFlag := pkt.fragFlag } else none
    | some a =>
        (s.heap.write a s.mng.offset (pkt.buf.take pkt.decryptLen)).map fun heap ↦
          { mng := ⟨pkt.fragFlag, s.mng.offset + pkt.decryptLen, some a⟩, heap := heap }

/-- A packet in the reassembly state.  `mem` says whether there is memory for a message. -/
def fragStep (mem : Bool) (s : FragState) (pkt : AuthPacket) : FragNext :=
  if (s.mng.fragFlag = .start ∨ s.mng.fragFlag = .ing) ∧ pkt.fragFlag ≠ .ing ∧
      pkt.fragFlag ≠ .stop then .exit s
  else
    match pkt.fragFlag with
    | .start =>
        if pkt.bufLen < pkt.originAt + 4 then .undefined
        else if pkt.originLen ≤ pkt.decryptLen then .exit s
        else if mem = false then .exit { s with mng := ⟨.start, 0, none⟩ }
        else if pkt.bufLen < pkt.decryptLen ∨ pkt.fragTotalLen < pkt.decryptLen then .undefined
        else
          let data := (List.replicate pkt.fragTotalLen 0).splice 0 (pkt.buf.take pkt.decryptLen)
          .again
            { mng := ⟨.start, pkt.decryptLen, some s.heap.next⟩
              heap := s.heap.alloc data }
    | .ing =>
        match appendFragment s pkt with
        | none => .undefined
        | some s => .again s
    | .stop =>
        match appendFragment s pkt with
        | none => .undefined
        | some s' =>
            .ret s'
              { rc := oprtOk
                out := some (s'.mng.data, s'.mng.offset, .noFrag) }
    | .noFrag =>
        .ret { s with heap := s.heap.alloc pkt.buf }
          ⟨oprtOk, some (some s.heap.next, pkt.decryptLen, .noFrag)⟩

/-! ## Whole calls -/

/-- The receive side of `AI_BASIC_PROTO_T`.  With `fragFlag` fragments are not put together. -/
structure AiReader where
  proto : AiProtoIn
  frag : FragState
  fragFlag : Bool

/-- Whether there is memory for a decrypted packet and for a message. -/
structure RecvEnv where
  decryptMem : Bool
  fragMem : Bool

def plentyEnv : ℕ → RecvEnv := fun _ ↦ ⟨true, true⟩

def readExit (r : AiReader) (es : List Event) (rc : OperateRet) :
    Option (AiReader × List Event × ReadRet) :=
  (fragExit r.frag).map fun s ↦ ({ r with frag := s }, es, ⟨rc, none⟩)

/-- The calls of `tuya_ai_basic_pkt_read`, the outer one with the largest `fuel`.  Without
a result, something undefined happened. -/
def pktReadLoop (cfg : AiConfig) (c : AiCipher) : ℕ → (ℕ → RecvEnv) → AiReader → List Event →
    Option (AiReader × List Event × ReadRet)
  | 0, _, _, _ => none
  | fuel + 1, env, r, es =>
    match recvPacket cfg c (env 0).decryptMem r.proto es with
    | (_, _, .undefined) => none
    | (p, es, .noMemory) => some ({ r with proto := p }, es, ⟨oprtMallocFailed, none⟩)
    | (p, es, .lost rc) => readExit { r with proto := p } es rc
    | (p, es, .rejected _ rc) => readExit { r with proto := p } es rc
    | (p, es, .packet pkt) =>
        if r.fragFlag then
          some ({ r with proto := p, frag.heap := r.frag.heap.alloc pkt.buf }, es,
            ⟨oprtOk, some (some r.frag.heap.next, pkt.decryptLen, pkt.fragFlag)⟩)
        else
          match fragStep (env 0).fragMem r.frag pkt with
          | .undefined => none
          | .ret s ret => some ({ r with proto := p, frag := s }, es, ret)
          | .exit s => readExit { r with proto := p, frag := s } es pkt.recvLen
          | .again s =>
              match pktReadLoop cfg c fuel (fun n ↦ env (n + 1))
                { r with proto := p, frag := s } es with
              | none => none
              | some (r', es', ret) =>
                  if ret.rc = oprtOk then some (r', es', ret) else readExit r' es' pkt.recvLen

/-- Every packet takes bytes from the transport, so this is enough fuel. -/
def tuyaAiBasicPktRead (cfg : AiConfig) (c : AiCipher) (env : ℕ → RecvEnv) (r : AiReader)
    (es : List Event) : Option (AiReader × List Event × ReadRet) :=
  pktReadLoop cfg c ((es.map Event.weight).sum + 1) env r es

def tuyaAiBasicPktFree (s : FragState) (a : ℕ) : Option FragState :=
  (s.heap.free a).map fun heap ↦
    if s.mng.data = some a then ⟨.zero, heap⟩ else { s with heap := heap }

/-! ## Calls on authenticated packets -/

structure Arrival where
  pkt : AuthPacket
  mem : Bool

/-- What comes behind the authenticated packets of a call. -/
inductive ReadEnd where
  | exit (rc : OperateRet)
  | noMemory
  | undefined
  deriving DecidableEq

def fragReadEnd (s : FragState) : ReadEnd → Option (FragState × ReadRet)
  | .exit rc => (fragExit s).map (·, ⟨rc, none⟩)
  | .noMemory => some (s, ⟨oprtMallocFailed, none⟩)
  | .undefined => none

/-- A call with reassembly, on the packets that passed signature and decryption. -/
def fragRead : FragState → List Arrival → ReadEnd → Option (FragState × ReadRet)
  | s, [], fin => fragReadEnd s fin
  | s, a :: ps, fin =>
      match fragStep a.mem s a.pkt with
      | .undefined => none
      | .ret s ret => some (s, ret)
      | .exit s => fragReadEnd s (.exit a.pkt.recvLen)
      | .again s =>
          match fragRead s ps fin with
          | none => none
          | some (s, ret) =>
              if ret.rc = oprtOk then some (s, ret) else fragReadEnd s (.exit a.pkt.recvLen)

/-- The authenticated packets at the front of a stream. -/
def arrivals (cfg : AiConfig) (c : AiCipher) : ℕ → (ℕ → RecvEnv) → AiProtoIn → List Event →
    List Arrival × ReadEnd
  | 0, _, _, _ => ([], .undefined)
  | fuel + 1, env, p, es =>
    match recvPacket cfg c (env 0).decryptMem p es with
    | (_, _, .undefined) => ([], .undefined)
    | (_, _, .noMemory) => ([], .noMemory)
    | (_, _, .lost rc) => ([], .exit rc)
    | (_, _, .rejected _ rc) => ([], .exit rc)
    | (p, es, .packet pkt) =>
        let rest := arrivals cfg c fuel (fun n ↦ env (n + 1)) p es
        (⟨pkt, (env 0).fragMem⟩ :: rest.1, rest.2)

theorem readExit_frag (r : AiReader) (es : List Event) (rc : OperateRet) :
    (readExit r es rc).map (fun x ↦ (x.1.frag, x.2.2)) = fragReadEnd r.frag (.exit rc) := by
  simp [readExit, fragReadEnd, Function.comp_def]

theorem pktReadLoop_frag (cfg : AiConfig) (c : AiCipher) (fuel : ℕ) (env : ℕ → RecvEnv)
    (r : AiReader) (hr : r.fragFlag = false) (es : List Event) :
    (pktReadLoop cfg c fuel env r es).map (fun x ↦ (x.1.frag, x.2.2)) =
      fragRead r.frag (arrivals cfg c fuel env r.proto es).1
        (arrivals cfg c fuel env r.proto es).2 := by
  induction fuel generalizing env r es with
  | zero => rfl
  | succ fuel ih =>
      rcases hrecv : recvPacket cfg c (env 0).decryptMem r.proto es with ⟨p, es', out⟩
      simp only [pktReadLoop, arrivals, hrecv]
      cases out with
      | undefined => rfl
      | noMemory => rfl
      | lost rc => exact readExit_frag ..
      | rejected why rc => exact readExit_frag ..
      | packet pkt =>
          have hoff : ¬r.fragFlag = true := by simp [hr]
          dsimp only
          rw [if_neg hoff, fragRead]
          cases hstep : fragStep (env 0).fragMem r.frag pkt with
          | undefined => rfl
          | ret s ret => rfl
          | exit s => exact readExit_frag ..
          | again s =>
              have hrest := ih (fun n ↦ env (n + 1)) { r with proto := p, frag := s } hr es'
              dsimp only at hrest ⊢
              rw [← hrest]
              rcases hloop : pktReadLoop cfg c fuel (fun n ↦ env (n + 1))
                { r with proto := p, frag := s } es' with _ | ⟨r', es'', ret⟩
              · rfl
              · dsimp only [Option.map_some]
                split_ifs
                · rfl
                · exact readExit_frag ..

end TuyaOpen.Ai
