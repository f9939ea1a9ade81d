import TuyaOpen.Lib.ByteMem
import TuyaOpen.Lib.Bytes
import TuyaOpen.Utilities.RingBuf

/-!
# The input ring of the agent

`tuya_ai_input_write` frames records in a ring of bytes, `tuya_ai_input_read` takes as many of
them as its buffer has room for.
-/

namespace TuyaOpen.Ai

open Bytes ByteMem RingBuf

def aiInputRingbufSize : ℕ := 20 * 1024

def aiInputBufSize : ℕ := 6 * 1024

/-- `SIZEOF(AI_RINGBUF_HEAD_T)`: the type is padded to the alignment of the 64-bit times. -/
def ringbufHeadSize : ℕ := 32

/-- `AI_RINGBUF_HEAD_T` as the bytes that are copied to the ring and back. -/
structure RingbufHead where
  bytes : List UInt8
  length_bytes : bytes.length = ringbufHeadSize
  deriving DecidableEq

namespace RingbufHead

def type (head : RingbufHead) : UInt8 := head.bytes.getD 0 0

/-- The times of a video or an audio, or the time of an image. -/
def biz (head : RingbufHead) : List UInt8 := (head.bytes.drop 8).take 16

def len (head : RingbufHead) : ℕ := decodeBE ((head.bytes.drop 24).take 4).reverse

/-- `head->len = n`, `head->total_len = n`. -/
def setLens (head : RingbufHead) (n : ℕ) : RingbufHead where
  bytes := head.bytes.take 24 ++ ((encodeBE 4 n).reverse ++ (encodeBE 4 n).reverse)
  length_bytes := by
    have := head.length_bytes
    simp only [List.length_append, List.length_take, List.length_reverse, length_encodeBE,
      ringbufHeadSize] at this ⊢
    omega

/-- What a copy of at most as many bytes leaves in the head. -/
def overwrite (head : RingbufHead) (copied : List UInt8) : RingbufHead where
  bytes := copied.take ringbufHeadSize ++ head.bytes.drop copied.length
  length_bytes := by
    have := head.length_bytes
    simp only [List.length_append, List.length_take, List.length_drop]
    omega

end RingbufHead

inductive AiInputState where
  | idle
  | startLazy
  | start
  | proc
  | stopping
  | stop
  deriving DecidableEq

structure AiInputCtx where
  state : AiInputState
  ringbuf : Option RingBuff

/-- What a write that was cut short ends in. -/
def inputFailed (ring : RingBuff) : AiInputCtx × OperateRet :=
  (⟨.stop, some (tuyaRingBuffReset ring)⟩, oprtComError)

/-- `data` is the memory at the caller's pointer; the free size of no ring is 0. -/
def tuyaAiInputWrite (ctx : AiInputCtx) (head : RingbufHead) (data : Option Mem) :
    AiInputCtx × OperateRet :=
  match data with
  | none => (ctx, oprtOk)
  | some data =>
      if head.len = 0 then (ctx, oprtOk)
      else if aiInputBufSize < head.len then (ctx, oprtInvalidParm)
      else
        match ctx.ringbuf with
        | none => (ctx, oprtResourceNotReady)
        | some ring =>
            if tuyaRingBuffFreeSizeGet ring < ringbufHeadSize + head.len then
              (ctx, oprtResourceNotReady)
            else
              let w := tuyaRingBuffWrite ring (some head.bytes) ringbufHeadSize
              if w.2 ≠ ringbufHeadSize then inputFailed w.1
              else
                let w := tuyaRingBuffWrite w.1 (some (slice data 0 head.len)) head.len
                if w.2 ≠ head.len then inputFailed w.1
                else ({ ctx with ringbuf := some w.1 }, oprtOk)

/-- What the loop of `tuya_ai_input_read` leaves: `out` are the first `total_len` bytes of the
buffer. -/
structure InputBatch where
  ring : RingBuff
  head : RingbufHead
  out : List UInt8
  rt : OperateRet

/-- The head is peeked into the caller's head before it is known whether the record fits. -/
def inputReadLoop (state : AiInputState) :
    ℕ → RingBuff → RingbufHead → List UInt8 → Option InputBatch
  | 0, _, _, _ => none
  | fuel + 1, ring, head, out =>
      if aiInputBufSize ≤ out.length then some ⟨ring, head, out, oprtOk⟩
      else if state = .stop then some ⟨ring, head, out, oprtOk⟩
      else
        let peeked := tuyaRingBuffPeek ring true ringbufHeadSize
        let head := head.overwrite peeked.1
        if peeked.2 ≠ ringbufHeadSize then some ⟨ring, head, out, oprtOk⟩
        else if aiInputBufSize < (head.len + out.length) % 2 ^ 32 then
          some ⟨ring, head, out, oprtOk⟩
        else
          let read := tuyaRingBuffRead ring true ringbufHeadSize
          let head := head.overwrite read.2.1
          if read.2.2 ≠ ringbufHeadSize then some ⟨read.1, head, out, oprtOk⟩
          else
            let data := tuyaRingBuffRead read.1 true head.len
            if data.2.2 ≠ head.len then some ⟨data.1, head, out, oprtComError⟩
            else inputReadLoop state fuel data.1 head (out ++ data.2.1)

/-- What is handed back: the head, and the bytes in the buffer. -/
structure InputRead where
  rt : OperateRet
  head : RingbufHead
  bytes : List UInt8

/-- A turn of the loop that goes on takes a head from the ring, so there are fewer turns than
bytes. -/
def tuyaAiInputRead (ctx : AiInputCtx) (head : RingbufHead) : Option (AiInputCtx × InputRead) :=
  match ctx.ringbuf with
  | none => some (ctx, ⟨oprtComError, head, []⟩)
  | some ring =>
      match inputReadLoop ctx.state (tuyaRingBuffUsedSizeGet ring + 1) ring head [] with
      | none => none
      | some batch =>
          some ({ ctx with ringbuf := some batch.ring },
            ⟨batch.rt, batch.head.setLens batch.out.length, batch.out⟩)

inductive InputCall where
  | write (head : RingbufHead) (data : Option Mem)
  | read (head : RingbufHead)

inductive InputOut where
  | wrote (rt : OperateRet)
  | read (r : InputRead)

/-- A read that does not return leaves nothing to speak of. -/
def inputMachine : Mealy AiInputCtx InputCall (Option InputOut) where
  step ctx
    | .write head data =>
        let r := tuyaAiInputWrite ctx head data
        (r.1, some (.wrote r.2))
    | .read head =>
        match tuyaAiInputRead ctx head with
        | none => (ctx, none)
        | some r => (r.1, some (.read r.2))

end TuyaOpen.Ai
