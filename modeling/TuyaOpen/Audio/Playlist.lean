import Mathlib.Algebra.Ring.Nat
import Mathlib.Data.Nat.Notation
import TuyaOpen.Common.ErrorCode

/-!
# Playlists

`svc_ai_playlist.c` over `svc_ai_player.c`: a request changes the index and stops the player, and
the thread of the player, when it has stopped, calls back to start the next item.  A request that
stops holds the mutex until the player has stopped; the callback takes the mutex behind it.
-/

namespace TuyaOpen.Audio

def invalidIndex : ℕ := 0xFFFFFFFF

/-- `AI_PLAYER_SRC_MEM`. -/
def aiPlayerSrcMem : ℕ := 0

/-- The length of the player's queue. -/
def playerQueueLen : ℕ := 2

/-- `AI_PLAYITEM_T`; `id` is its address. -/
structure PlayItem where
  id : ℕ
  src : ℕ
  value : List UInt8
  codec : ℕ
  deriving DecidableEq

/-- `AI_PLAYLIST_CTX_T`; `items` are the first `count` of `playlist`, and the others are freed. -/
structure Playlist where
  items : List PlayItem
  index : ℕ
  targetIndex : ℕ
  playing : Bool
  single : Bool
  loop : Bool
  autoPlay : Bool
  capacity : ℕ
  deriving DecidableEq

inductive PlayerState where
  | stopped
  | playing
  deriving DecidableEq

/-- `AI_PLAYER_MSG_T`; `slot` is history: where the item was in the list. -/
inductive PlayerCmd where
  | start (item : PlayItem) (slot : ℕ)
  | stop
  deriving DecidableEq

/-- The player's thread fetches commands and plays, or has stopped, by itself or not, and is to call
back. -/
inductive PlayerThread where
  | fetch
  | notify (eof : Bool)
  deriving DecidableEq

/-- `AI_PLAYER_T` with the queue and the thread; `current` is history. -/
structure Player where
  state : PlayerState
  queue : List PlayerCmd
  thread : PlayerThread
  current : Option (PlayItem × ℕ)
  deriving DecidableEq

inductive PlaylistReq where
  | next
  | prev
  | play (index : ℕ)
  | stop
  | restart
  | clear
  deriving DecidableEq

/-- `lock` is a request that holds the mutex and waits until the player has stopped. -/
structure PlaylistState where
  list : Playlist
  player : Player
  lock : Option PlaylistReq
  nextId : ℕ
  deriving DecidableEq

/-- The requests up to the stop and behind it, and the thread: a command, the end of an item, and
the callback. -/
inductive PlaylistStep where
  | add (src : ℕ) (value : Option (List UInt8)) (codec : ℕ) (alloc : Bool)
  | setLoop (loop single : Bool)
  | request (req : PlaylistReq)
  | resume
  | fetch
  | eof
  | notify
  deriving DecidableEq

/-- `wild` reads an item that is not there, or freed. -/
inductive PlaylistEvent where
  | returned (ret : OperateRet)
  | started (item : PlayItem) (slot : ℕ)
  | wild
  deriving DecidableEq

namespace Player

variable (player : Player)

def post (cmd : PlayerCmd) : Player :=
  if player.queue.length < playerQueueLen then { player with queue := player.queue ++ [cmd] }
    else player

/-- `tuya_ai_player_start`. -/
def start (item : PlayItem) (slot : ℕ) : Player :=
  if player.state ≠ .stopped then player
  else if item.src ≠ aiPlayerSrcMem ∧ item.value = [] then player
  else player.post (.start item slot)

/-- Whether `tuya_ai_player_stop` posts a command, and waits. -/
def Stops : Prop := player.state ≠ .stopped ∧ player.queue.length < playerQueueLen

instance : Decidable player.Stops := inferInstanceAs (Decidable (_ ∧ _))

end Player

namespace Playlist

variable (l : Playlist)

def count : ℕ := l.items.length

/-- The index of `tuya_ai_playlist_next`. -/
def nextIndex : ℕ :=
  let index := (l.index + 1) % 2 ^ 32
  if l.count ≤ index then
    if l.loop = true then 0 else if 1 ≤ l.count then l.count - 1 else 0
  else index

/-- The index of `tuya_ai_playlist_prev`. -/
def prevIndex : ℕ :=
  if 0 < l.index then l.index - 1
  else if l.loop = true then (l.count + 2 ^ 32 - 1) % 2 ^ 32
  else l.index

/-- The rest of a request, behind its stop or its start. -/
def rest : PlaylistReq → Playlist
  | .next => l
  | .prev => l
  | .play _ => { l with playing := true }
  | .stop => { l with playing := false }
  | .restart => { l with index := 0, playing := true }
  | .clear => { l with items := [], index := 0, playing := false }

/-- `playlist[count++] = item`. -/
def push (item : PlayItem) : Playlist := { l with items := l.items ++ [item] }

/-- `tuya_ai_playlist_set_loop`. -/
def setLoop (loop single : Bool) : Playlist :=
  { l with loop, single := if loop = true then single else false }

end Playlist

namespace PlaylistState

variable (s : PlaylistState)

/-- The start of `playlist[i]`. -/
def startAt (list : Playlist) (i : ℕ) : PlaylistState × List PlaylistEvent :=
  match list.items[i]? with
  | some item => ({ s with list, player := s.player.start item i }, [])
  | none => ({ s with list }, [.wild])

/-- `tuya_ai_playlist_add`. -/
def add (src : ℕ) (value : Option (List UInt8)) (codec : ℕ) (alloc : Bool) :
    PlaylistState × OperateRet :=
  match value with
  | none => (s, oprtInvalidParm)
  | some value =>
      if src = aiPlayerSrcMem then (s, oprtInvalidParm)
      else if s.list.capacity ≤ s.list.count then (s, oprtExceedUpperLimit)
      else if alloc = false then (s, oprtMallocFailed)
      else
        let item : PlayItem := ⟨s.nextId, src, value, codec⟩
        let list := s.list.push item
        if list.count = 1 ∧ list.autoPlay = true then
          ({ s with
            list := { list with playing := true }
            player := s.player.start item 0, nextId := s.nextId + 1 }, oprtOk)
        else ({ s with list, nextId := s.nextId + 1 }, oprtOk)

/-- `tuya_ai_player_stop` in a request. -/
def stopThen (list : Playlist) (req : PlaylistReq) : PlaylistState :=
  if s.player.Stops then { s with list, player := s.player.post .stop, lock := some req }
  else { s with list := list.rest req }

/-- A start in a request. -/
def startThen (list : Playlist) (i : ℕ) (req : PlaylistReq) : PlaylistState × List PlaylistEvent :=
  let (s, events) := s.startAt list i
  ({ s with list := s.list.rest req }, events)

/-- The requests, up to their stop. -/
def request : PlaylistReq → PlaylistState × List PlaylistEvent
  | .next => (s.stopThen { s.list with index := s.list.nextIndex } .next, [])
  | .prev => (s.stopThen { s.list with index := s.list.prevIndex } .prev, [])
  | .play index =>
      if s.list.count ≤ index then (s, [.returned oprtIndexOutOfBound])
      else if s.list.playing =
        true then (s.stopThen { s.list with targetIndex := index } (.play index), [])
      else s.startThen { s.list with index } index (.play index)
  | .stop => (s.stopThen s.list .stop, [])
  | .restart =>
      if s.list.playing = true then (s.stopThen s.list .restart, [])
      else if 0 < s.list.count then s.startThen s.list 0 .restart
      else ({ s with list := s.list.rest .restart }, [])
  | .clear =>
      if s.list.playing = true then (s.stopThen s.list .clear, [])
      else ({ s with list := s.list.rest .clear }, [])

/-- `__player_status_cb`, of a player that has stopped. -/
def playerStatusCb : PlaylistState × List PlaylistEvent :=
  let l := s.list
  if l.targetIndex ≠ invalidIndex ∧ l.targetIndex < l.count then
    s.startAt { l with index := l.targetIndex, targetIndex := invalidIndex } l.targetIndex
  else if l.single = true then s.startAt l l.index
  else
    let index := (l.index + 1) % 2 ^ 32
    if l.count ≤ index then
      if l.loop = true then s.startAt { l with index := 0 } 0
      else ({ s with list := { l with index := 0, playing := false } }, [])
    else s.startAt { l with index } index

/-- A command of the queue. -/
def fetch : PlaylistState × List PlaylistEvent :=
  match s.player.thread, s.player.queue with
  | .fetch, .start item slot :: queue =>
      ({ s with player :=
        { s.player with state := .playing, queue, current := some (item, slot) } },
        [.started item slot])
  | .fetch, .stop :: queue =>
      ({ s with player := { s.player with state := .stopped, queue, thread := .notify false } }, [])
  | _, _ => (s, [])

/-- The current item is at its end. -/
def eof : PlaylistState :=
  if s.player.thread = .fetch ∧ s.player.state = .playing then
    { s with player := { s.player with state := .stopped, thread := .notify true } }
  else s

end PlaylistState

/-- Whoever needs the mutex does nothing while a request holds it; an item is refused without it. -/
def playlistStep (s : PlaylistState) : PlaylistStep → PlaylistState × List PlaylistEvent
  | .add src value codec alloc =>
      let (added, ret) := s.add src value codec alloc
      if s.lock = none ∨ ret ≠ oprtOk then (added, [.returned ret]) else (s, [])
  | .setLoop loop single =>
    if s.lock = none then ({ s with list := s.list.setLoop loop single }, []) else (s, [])
  | .request req => if s.lock = none then s.request req else (s, [])
  | .resume =>
      match s.lock with
      | some req => if s.player.state =
        .stopped then ({ s with list := s.list.rest req, lock := none }, []) else (s, [])
      | none => (s, [])
  | .fetch => s.fetch
  | .eof => (s.eof, [])
  | .notify =>
      if s.player.thread ≠ .fetch ∧ s.lock = none then
        let (s, events) := s.playerStatusCb
        ({ s with player := { s.player with thread := .fetch } }, events)
      else (s, [])

/-- `AI_PLAYLIST_CFG_T`. -/
structure PlaylistCfg where
  loop : Bool
  autoPlay : Bool
  capacity : ℕ
  capacity_lt : capacity < 2 ^ 32

/-- Behind `tuya_ai_playlist_create`, for a player that was just created. -/
def playlistCreate (cfg : PlaylistCfg) : PlaylistState where
  list := ⟨[], 0, invalidIndex, false, false, cfg.loop, cfg.autoPlay, cfg.capacity⟩
  player := ⟨.stopped, [], .fetch, none⟩
  lock := none
  nextId := 0

end TuyaOpen.Audio
