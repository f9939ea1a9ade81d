import Mathlib.Logic.Function.Basic
import TuyaOpen.Lib.Fifo

/-!
# Audio output

`tuya_ai_output.c`: callers start and stop a playback and write audio into a ring buffer, and a
thread hands it to the player.  Everybody looks at the status before it takes the mutex.
-/

namespace TuyaOpen.Ai

inductive AiOutputStatus where
  | stopped
  | playing
  | stopping
  | idle
  deriving DecidableEq

def aiOutputRingbufSize : ℕ := 20 * 1024
def aiOutputBufSize : ℕ := 5 * 1024

/-- A byte of audio.  `start` is history: how many START events came before the call that
writes it. -/
structure AudioByte where
  start : ℕ
  byte : UInt8
  deriving DecidableEq

/-- Where the output thread is: at the top of its loop, before its section with the status it
has seen, or in the sleep before AI_EVENT_END. -/
inductive OutputThread where
  | top
  | held (cur : AiOutputStatus)
  | ending
  deriving DecidableEq

/-- Where a caller is: before the check of a stop that belongs to a start, before the section of
a stop (and perhaps of a start behind it), before the section of a start, or in a write
with what is left of the data and the number of retries. -/
inductive OutputCall where
  | idle
  | stopCheck
  | stopping (force thenStart : Bool)
  | starting
  | writing (start : ℕ) (rest : List UInt8) (cnt : Option ℕ)
  deriving DecidableEq

/-- `AUDIO_PLAYER_CTX_T`, the locals of the thread, and the callers.  The ring buffer is the
queue it refines, and `buf` the used part of the output buffer.  What was written and what
the player took since the latest START is history. -/
structure AudioPlayer where
  status : AiOutputStatus
  ringbuf : Fifo AudioByte (aiOutputRingbufSize - 1)
  buf : List AudioByte
  thread : OutputThread
  lastState : AiOutputStatus
  lastOffset : ℕ
  calls : ℕ → OutputCall
  starts : ℕ
  written : List AudioByte
  taken : List AudioByte

inductive OutputEvent where
  | start
  | finish
  | media (data : List AudioByte)
  deriving DecidableEq

/-- What the player does with the data: it takes some of it and returns how much is left, or it
fails. -/
inductive MediaRet where
  | took (n : ℕ)
  | failed
  deriving DecidableEq

namespace AudioPlayer

def setCall (s : AudioPlayer) (t : ℕ) (call : OutputCall) : AudioPlayer :=
  { s with calls := Function.update s.calls t call }

/-! ## The output thread -/

/-- The thread looks at the status. -/
def sample (s : AudioPlayer) : AudioPlayer :=
  match s.status with
  | .stopped =>
      if s.lastState = .stopped then { s with buf := [] }
      else { s with buf := [], thread := .ending }
  | .idle => { s with lastState := .idle }
  | cur => { s with thread := .held cur }

/-- The end of the thread's section, from `tuya_ai_output_media` on. -/
def output (s : AudioPlayer) (cur : AiOutputStatus) (ret : MediaRet) :
    AudioPlayer × List OutputEvent :=
  let s := { s with lastState := cur, thread := .top }
  match ret with
  | .took n =>
      let left := s.buf.drop n
      if 0 < left.length then
        if cur = .stopping ∧ left.length = s.buf.length then
          ({ s with status := .stopped }, [.media s.buf])
        else ({ s with buf := left, taken := s.taken ++ s.buf.take n }, [.media s.buf])
      else
        let status := if cur = .stopping ∧ s.ringbuf.items = [] then .stopped else s.status
        ({ s with status := status, buf := [], taken := s.taken ++ s.buf.take n }, [.media s.buf])
  | .failed => ({ s with status := .stopped, ringbuf := .empty }, [.media s.buf])

/-- The thread's section; `late` says that ten seconds went by without data. -/
def play (s : AudioPlayer) (cur : AiOutputStatus) (late : Bool) (ret : MediaRet) :
    AudioPlayer × List OutputEvent :=
  let chunk := s.ringbuf.items.take (aiOutputBufSize - s.buf.length)
  let s := { s with ringbuf := s.ringbuf.drop (aiOutputBufSize - s.buf.length) }
  if cur = .playing ∧ chunk = [] then
    if s.buf = [] then ({ s with thread := .top }, [])
    else if s.lastOffset = s.buf.length then
      if late then
        ({ s with
          status := .stopped
          ringbuf := .empty
          lastOffset := 0
          lastState := cur
          thread := .top }, [])
      else s.output cur ret
    else { s with lastOffset := s.buf.length }.output cur ret
  else { s with lastOffset := 0, buf := s.buf ++ chunk }.output cur ret

/-! ## The callers -/

def startSection (s : AudioPlayer) (t : ℕ) : AudioPlayer × List OutputEvent :=
  ({ s.setCall t .idle with
    status := .playing
    buf := []
    ringbuf := .empty
    starts := s.starts + 1
    written := []
    taken := [] }, [.start])

def stopSection (s : AudioPlayer) (t : ℕ) (force thenStart : Bool) :
    AudioPlayer × List OutputEvent :=
  let s := s.setCall t (if thenStart then .starting else .idle)
  if force then ({ s with status := .idle, buf := [], ringbuf := .empty }, [.finish])
  else ({ s with status := .stopping }, [])

/-- One section of a write, which goes on when the ring buffer did not take everything and there
were not too many retries. -/
def writeSection (s : AudioPlayer) (t start : ℕ) (rest : List UInt8) (cnt : Option ℕ) :
    AudioPlayer :=
  let n := aiOutputRingbufSize - 1 - s.ringbuf.items.length
  let data := rest.map (AudioByte.mk start)
  let s := { s with ringbuf := s.ringbuf.write data, written := s.written ++ data.take n }
  match cnt with
  | none =>
      s.setCall t (if rest.drop n = [] then .idle else .writing start (rest.drop n) (some 0))
  | some cnt =>
      s.setCall t
        (if 500 < cnt ∨ rest.drop n = [] then .idle else .writing start (rest.drop n)
          (some (cnt + 1)))

end AudioPlayer

/-! ## Steps -/

inductive OutputStep where
  | sample
  | play (late : Bool) (ret : MediaRet)
  | finish
  | startCall (t : ℕ)
  | stopCheck (t : ℕ)
  | stopCall (t : ℕ) (force : Bool)
  | stopSection (t : ℕ)
  | startSection (t : ℕ)
  | writeCall (t : ℕ) (data : List UInt8)
  | writeSection (t : ℕ)

/-- A step that is not ready does nothing. -/
def outputStep (s : AudioPlayer) : OutputStep → AudioPlayer × List OutputEvent
  | .sample => if s.thread = .top then (s.sample, []) else (s, [])
  | .play late ret =>
      match s.thread with
      | .held cur => s.play cur late ret
      | _ => (s, [])
  | .finish =>
      if s.thread = .ending then ({ s with lastState := .stopped, thread := .top }, [.finish])
      else (s, [])
  | .startCall t =>
      if s.calls t = .idle then
        if s.status ≠ .stopped ∧ s.status ≠ .idle then (s.setCall t .stopCheck, [])
        else (s.setCall t .starting, [])
      else (s, [])
  | .stopCheck t =>
      if s.calls t = .stopCheck then
        if s.status = .stopped ∨ s.status = .idle then (s.setCall t .starting, [])
        else (s.setCall t (.stopping true true), [])
      else (s, [])
  | .stopCall t force =>
      if s.calls t = .idle ∧ s.status ≠ .stopped ∧ s.status ≠ .idle then
        (s.setCall t (.stopping force false), [])
      else (s, [])
  | .stopSection t =>
      match s.calls t with
      | .stopping force thenStart => s.stopSection t force thenStart
      | _ => (s, [])
  | .startSection t => if s.calls t = .starting then s.startSection t else (s, [])
  | .writeCall t data =>
      if s.calls t = .idle ∧ s.status = .playing then
        (s.setCall t (.writing s.starts data none), [])
      else (s, [])
  | .writeSection t =>
      match s.calls t with
      | .writing start rest cnt => (s.writeSection t start rest cnt, [])
      | _ => (s, [])

end TuyaOpen.Ai
