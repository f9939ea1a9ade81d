import Mathlib.Algebra.Ring.Int.Defs
import Mathlib.Algebra.Ring.Nat
import Mathlib.Data.Int.Init
import Mathlib.Data.Nat.Notation
import TuyaOpen.Lib.Splice

/-!
# File download

`http_download.c`: `http_file_download` asks for the bytes of a file that it has not received yet,
hands what comes to its handler behind the bytes that the handler left, and connects again when a
connection is lost.  The server answers with the range of the file that the header of the request
names.
-/

namespace TuyaOpen.Http

inductive DlState where
  | networkConnect
  | networkReconnect
  | filesizeGet
  | rangeRequest
  | dateGet
  | complete
  deriving DecidableEq

/-- `http_download_event_t` of a `DL_EVENT_ON_DATA`, with the `remain_len` that the handler
leaves. -/
structure DlData where
  data : List UInt8
  offset : ℕ
  fileSize : ℕ
  remainLen : ℕ
  deriving DecidableEq

inductive DlEvent where
  | start
  | onFilesize (fileSize : ℕ)
  | onData (data : DlData)
  | finish
  | fault
  deriving DecidableEq

/-- `http_download_t`.  `response` is where the server is in the file and where its answer ends,
`returned` that the loop is left, and `clock` is history: the time at the latest end of an
iteration. -/
structure HttpDownload where
  fileSize : ℕ
  receivedSize : ℕ
  remainLen : ℕ
  state : DlState
  buffer : List UInt8
  eventFileSize : ℕ
  response : ℕ × ℕ
  downloadTime : ℕ
  returned : Bool
  clock : ℕ

/-- What an iteration of the loop finds: whether the connect, the request for the size and the range
request succeed, how many bytes come and how many of its data the handler consumes, and the times
behind the data and at the end. -/
structure DlEnv where
  connects : Bool
  filesize : Bool
  request : Bool
  read : ℕ
  consumes : ℕ
  time : ℕ
  now : ℕ

def rangeRequestLengthDefault : ℕ := 8 * 1024

/-- The range length of the configuration. -/
def configRangeLength (rangeLength : ℕ) : ℕ :=
  if rangeLength = 0 then rangeRequestLengthDefault else rangeLength

def httpDownloadTimeout : ℕ := 180

/-- A `uint32_t` as an `int32_t`. -/
def int32 (n : ℕ) : ℤ := (n : ℤ).bmod (2 ^ 32)

/-- `HTTPClient_AddRangeHeader`, with the range of a file of that size: a negative start asks for
the last bytes, and the end -1 is that of the file. -/
def addRangeHeader (size : ℕ) (rangeStart rangeEnd : ℤ) : Option (ℕ × ℕ) :=
  if rangeEnd < -1 ∨ (rangeStart < 0 ∧ rangeEnd ≠ -1) ∨ (rangeEnd ≠ -1 ∧ rangeEnd < rangeStart) ∨
      rangeStart = -2 ^ 31 then none
  else if rangeStart < 0 then some (size - rangeStart.natAbs, size)
  else some (rangeStart.toNat, if rangeEnd = -1 then size else min (rangeEnd.toNat + 1) size)

/-- The bytes that the handler does not leave. -/
def DlData.consumed (d : DlData) : List UInt8 := d.data.take (d.data.length - d.remainLen)

def DlEvent.isFilesize : DlEvent → Bool
  | .onFilesize _ => true
  | _ => false

def DlEvent.data? : DlEvent → Option DlData
  | .onData data => some data
  | _ => none

namespace HttpDownload

variable (file : List UInt8) (rangeLength : ℕ) (s : HttpDownload) (env : DlEnv)

def reconnect : HttpDownload := { s with state := .networkReconnect }

/-- What `HTTPClient_Recv` reads. -/
def readSize : ℕ :=
  min env.read (min (rangeLength - s.remainLen) (s.response.2 - s.response.1))

/-- `DL_STATE_DATE_GET`. -/
def dateGet : HttpDownload × List DlEvent :=
  let readSize := s.readSize rangeLength env
  if readSize = 0 then (s.reconnect, [])
  else
    let buffer := s.buffer.splice s.remainLen ((file.drop s.response.1).take readSize)
    let dataLen := readSize + s.remainLen
    let remainLen := dataLen - env.consumes
    ({ s with
        buffer := buffer.splice 0 ((buffer.drop (dataLen - remainLen)).take remainLen)
        remainLen := remainLen
        receivedSize := s.receivedSize + readSize
        response := (s.response.1 + readSize, s.response.2)
        downloadTime := env.time
        state := if s.fileSize ≤ s.receivedSize + readSize then .complete else .dateGet },
      [.onData ⟨buffer.take dataLen, s.receivedSize - s.remainLen, s.eventFileSize, remainLen⟩])

/-- `http_download_range_request`: its `uint32_t` arguments are passed as `int32_t`. -/
def rangeRequest : Option (ℕ × ℕ) :=
  if env.request = true then addRangeHeader file.length (int32 s.receivedSize) (int32 s.fileSize)
  else none

/-- The size is known, or `http_download_filesize_get` gets it. -/
def Sizes : Prop := s.state = .filesizeGet ∧ (s.fileSize = 0 → env.filesize = true)

instance : Decidable (s.Sizes env) := inferInstanceAs (Decidable (_ ∧ (_ → _)))

/-- The `switch` of the loop. -/
def switchState : HttpDownload × List DlEvent :=
  match s.state with
  | .networkConnect =>
      ({ s with state := if env.connects = true then .filesizeGet else .networkReconnect }, [])
  | .filesizeGet =>
      if s.fileSize = 0 ∧ env.filesize = false then (s.reconnect, [])
      else
        let fileSize := if s.fileSize = 0 then file.length else s.fileSize
        ({ s with fileSize := fileSize, eventFileSize := fileSize, state := .rangeRequest },
          [.onFilesize fileSize])
  | .rangeRequest => match s.rangeRequest file env with
      | none => (s.reconnect, [])
      | some response =>
          { s with response := response, state := .dateGet }.dateGet file rangeLength env
  | .dateGet => s.dateGet file rangeLength env
  | .networkReconnect => ({ s with state := .networkConnect }, [])
  | .complete => ({ s with returned := true }, [.finish])

/-- The condition of the loop, in `TIME_T`. -/
def Timely : Prop := ((env.now : ℤ) - s.downloadTime) % 2 ^ 32 < httpDownloadTimeout

instance : Decidable (s.Timely env) := inferInstanceAs (Decidable (_ < _))

/-- The end of an iteration, and of the loop. -/
def endLoop : HttpDownload × List DlEvent :=
  if s.returned = true ∨ s.Timely env then ({ s with clock := env.now }, [])
  else ({ s with clock := env.now, returned := true }, [.fault])

end HttpDownload

/-- An iteration of the loop. -/
def downloadStep (file : List UInt8) (rangeLength : ℕ) (s : HttpDownload) (env : DlEnv) :
    HttpDownload × List DlEvent :=
  if s.returned = true then (s, [])
  else
    let (s', events) := s.switchState file rangeLength env
    let (s'', ends) := s'.endLoop env
    (s'', events ++ ends)

/-- Before the loop, with the memory that `tal_malloc` gave. -/
def downloadInit (fileSize : ℕ) (buffer : List UInt8) (clock : ℕ) : HttpDownload where
  fileSize := fileSize
  receivedSize := 0
  remainLen := 0
  state := .networkConnect
  buffer := buffer
  eventFileSize := 0
  response := (0, 0)
  downloadTime := clock
  returned := false
  clock := clock

end TuyaOpen.Http
