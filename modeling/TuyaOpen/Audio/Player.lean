import Mathlib.Logic.Function.Basic
import TuyaOpen.Audio.Playlist

/-!
# Players

`svc_ai_player.c`: a call looks at the state of its player and posts a command, and one thread
carries the commands out in the order of the queue, and stops a player by itself at the end of its
data.
-/

namespace TuyaOpen.Audio

inductive AiPlayerMode where
  | foreground
  | background
  deriving DecidableEq

inductive AiPlayerState where
  | stopped
  | playing
  | paused
  deriving DecidableEq

/-- `AI_PLAYER_CMD_E`. -/
inductive AiPlayerCmd where
  | start (src : ℕ) (value : Option (List UInt8)) (codec : ℕ)
  | stop
  | pause
  | resume
  | exit
  deriving DecidableEq

/-- `AI_PLAYER_MSG_T`. -/
structure AiPlayerMsg where
  mode : AiPlayerMode
  cmd : AiPlayerCmd
  deriving DecidableEq

/-- `AI_PLAYER_T`; `opened` is history: the sink and the decoder were started since the latest
stop. -/
structure AiPlayer where
  state : AiPlayerState
  opened : Bool
  deriving DecidableEq

/-- `AI_PLAYER_CTX_T`; `exited` is history: the player was freed. -/
structure AiPlayerCtx where
  player : AiPlayerMode → Option AiPlayer
  queue : List AiPlayerMsg
  activePlayer : Option AiPlayerMode
  isPlaying : Bool
  exited : AiPlayerMode → Bool

/-- The calls, which look at a state and post, and the thread: a command of the queue with what the
sink and the decoder return to a start, and the end of the data of a player, or an error in it. -/
inductive AiPlayerStep where
  | start (mode : AiPlayerMode) (src : ℕ) (value : Option (List UInt8)) (codec : ℕ)
  | pause (mode : AiPlayerMode)
  | resume (mode : AiPlayerMode)
  | stop (mode : AiPlayerMode)
  | destroy (mode : AiPlayerMode)
  | fetch (sinkRet decoderRet : OperateRet)
  | eof (mode : AiPlayerMode)
  | readError
  deriving DecidableEq

/-- A command, or a stop of the thread itself, that is carried out on a player. -/
inductive AiPlayerEvent where
  | returned (ret : OperateRet)
  | carried (mode : AiPlayerMode) (cmd : AiPlayerCmd)
  deriving DecidableEq

namespace AiPlayer

variable (player : AiPlayer)

/-- `__cmd_player_start`. -/
def cmdPlayerStart (sinkRet decoderRet : OperateRet) : AiPlayer × OperateRet :=
  if sinkRet ≠ oprtOk then (player, sinkRet)
  else if decoderRet ≠ oprtOk then (player, decoderRet)
  else (⟨.playing, true⟩, oprtOk)

/-- `__cmd_player_stop`. -/
def cmdPlayerStop : AiPlayer := ⟨.stopped, false⟩

/-- `__cmd_player_pause`. -/
def cmdPlayerPause : AiPlayer := { player with state := .paused }

/-- `__cmd_player_resume`. -/
def cmdPlayerResume : AiPlayer := { player with state := .playing }

/-- The commands that keep the player, with a stop behind a failure. -/
def carryOut (sinkRet decoderRet : OperateRet) : AiPlayerCmd → Option AiPlayer
  | .start _ _ _ =>
      let (started, rt) := player.cmdPlayerStart sinkRet decoderRet
      some (if rt ≠ oprtOk then cmdPlayerStop else started)
  | .stop => some cmdPlayerStop
  | .pause => some player.cmdPlayerPause
  | .resume => some player.cmdPlayerResume
  | .exit => none

end AiPlayer

namespace AiPlayerCtx

variable (ctx : AiPlayerCtx)

def Plays (mode : AiPlayerMode) : Prop := (ctx.player mode).map AiPlayer.state = some .playing

instance (mode : AiPlayerMode) : Decidable (ctx.Plays mode) := inferInstanceAs (Decidable (_ = _))

/-- `__switch_player_mode`. -/
def switchPlayerMode : AiPlayerCtx :=
  let activePlayer :=
    if ctx.Plays .foreground then some .foreground
    else if ctx.Plays .background then some .background
    else none
  match activePlayer with
  | some mode =>
      if ctx.activePlayer ≠ some mode then { ctx with activePlayer := some mode, isPlaying := true }
        else ctx
  | none => { ctx with activePlayer := none, isPlaying := false }

def set (mode : AiPlayerMode) (player : Option AiPlayer) : AiPlayerCtx :=
  { ctx with player := Function.update ctx.player mode player }

/-- `tal_queue_post`, without waiting. -/
def post (mode : AiPlayerMode) (cmd : AiPlayerCmd) : AiPlayerCtx × OperateRet :=
  if ctx.queue.length < playerQueueLen then
    ({ ctx with queue := ctx.queue ++ [⟨mode, cmd⟩] }, oprtOk)
  else (ctx, oprtOsAdapterQueueSendFail)

/-- `tuya_ai_player_start`, up to its post. -/
def tuyaAiPlayerStart (mode : AiPlayerMode) (src : ℕ) (value : Option (List UInt8)) (codec : ℕ) :
    AiPlayerCtx × OperateRet :=
  match ctx.player mode with
  | none => (ctx, oprtInvalidParm)
  | some player =>
      if player.state ≠ .stopped then (ctx, oprtInvalidParm)
      else if src ≠ aiPlayerSrcMem ∧ (value = none ∨ value = some []) then (ctx, oprtInvalidParm)
      else ctx.post mode (.start src value codec)

def tuyaAiPlayerPause (mode : AiPlayerMode) : AiPlayerCtx × OperateRet :=
  match ctx.player mode with
  | none => (ctx, oprtInvalidParm)
  | some player => if player.state ≠ .playing then (ctx, oprtInvalidParm) else ctx.post mode .pause

def tuyaAiPlayerResume (mode : AiPlayerMode) : AiPlayerCtx × OperateRet :=
  match ctx.player mode with
  | none => (ctx, oprtInvalidParm)
  | some player => if player.state ≠ .paused then (ctx, oprtInvalidParm) else ctx.post mode .resume

/-- `tuya_ai_player_stop`, up to its wait. -/
def tuyaAiPlayerStop (mode : AiPlayerMode) : AiPlayerCtx × OperateRet :=
  match ctx.player mode with
  | none => (ctx, oprtInvalidParm)
  | some player => if player.state = .stopped then (ctx, oprtOk) else ctx.post mode .stop

def tuyaAiPlayerDestroy (mode : AiPlayerMode) : AiPlayerCtx × OperateRet :=
  match ctx.player mode with
  | none => (ctx, oprtInvalidParm)
  | some _ => ctx.post mode .exit

/-- A command of the queue in `__ai_player_thread_cb`; a player that is not there has its commands
skipped. -/
def fetch (sinkRet decoderRet : OperateRet) : AiPlayerCtx × List AiPlayerEvent :=
  match ctx.queue with
  | [] => (ctx, [])
  | msg :: queue =>
      let ctx := { ctx with queue }
      match ctx.player msg.mode with
      | none => (ctx, [])
      | some player =>
          let exited :=
            if msg.cmd = .exit then Function.update ctx.exited msg.mode true else ctx.exited
          ({ ctx.set msg.mode (player.carryOut sinkRet decoderRet msg.cmd) with
            exited }.switchPlayerMode, [.carried msg.mode msg.cmd])

/-- A stop by the thread itself. -/
def stopItself (mode : AiPlayerMode) : AiPlayerCtx × List AiPlayerEvent :=
  match ctx.player mode with
  | none => (ctx, [])
  | some _ => ((ctx.set mode (some AiPlayer.cmdPlayerStop)).switchPlayerMode, [.carried mode .stop])

/-- What is streamed: the active player, and with a mixer the background one beside it. -/
def Streams (mode : AiPlayerMode) : Prop :=
  ctx.isPlaying = true ∧ (ctx.activePlayer = some mode ∨
    (mode = .background ∧ ctx.activePlayer = some .foreground ∧ ctx.Plays .background))

instance (mode : AiPlayerMode) :
    Decidable (ctx.Streams mode) := inferInstanceAs (Decidable (_ ∧ (_ ∨ _ ∧ _ ∧ _)))

end AiPlayerCtx

/-- A call returns; the thread carries out what it does. -/
def aiPlayerStep (ctx : AiPlayerCtx) : AiPlayerStep → AiPlayerCtx × List AiPlayerEvent
  | .start mode src value codec =>
      let (posted, ret) := ctx.tuyaAiPlayerStart mode src value codec
      (posted, [.returned ret])
  | .pause mode =>
      let (posted, ret) := ctx.tuyaAiPlayerPause mode
      (posted, [.returned ret])
  | .resume mode =>
      let (posted, ret) := ctx.tuyaAiPlayerResume mode
      (posted, [.returned ret])
  | .stop mode =>
      let (posted, ret) := ctx.tuyaAiPlayerStop mode
      (posted, [.returned ret])
  | .destroy mode =>
      let (posted, ret) := ctx.tuyaAiPlayerDestroy mode
      (posted, [.returned ret])
  | .fetch sinkRet decoderRet => ctx.fetch sinkRet decoderRet
  | .eof mode => if ctx.Streams mode then ctx.stopItself mode else (ctx, [])
  | .readError =>
      match ctx.activePlayer with
      | some mode => if ctx.isPlaying = true then ctx.stopItself mode else (ctx, [])
      | none => (ctx, [])

/-- Behind `tuya_ai_player_service_init`, with the players that were created. -/
def aiPlayerCreate (created : AiPlayerMode → Bool) : AiPlayerCtx where
  player mode := if created mode = true then some ⟨.stopped, false⟩ else none
  queue := []
  activePlayer := none
  isPlaying := false
  exited _ := false

end TuyaOpen.Audio
