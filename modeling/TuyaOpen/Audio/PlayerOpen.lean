import TuyaOpen.Audio.Player
import TuyaOpen.Lib.Mealy

/-!
# A player that plays has its source open

A call is checked when it posts, and its command is carried out unchecked.  So what waits in the
queue has to fit the player as it will be then: no start behind a start, no pause or resume behind a
stop, whoever stops.
-/

namespace TuyaOpen.Audio

def aiPlayerMachine : Mealy AiPlayerCtx AiPlayerStep (List AiPlayerEvent) where
  step := aiPlayerStep

/-- A player that plays or pauses was started since its latest stop. -/
def AiPlayerCtx.Open (ctx : AiPlayerCtx) : Prop :=
  ∀ mode player, ctx.player mode = some player → player.state ≠ .stopped → player.opened = true

def AiPlayerCmd.isStart : AiPlayerCmd → Bool
  | .start _ _ _ => true
  | _ => false

/-- No start is carried out on an open source, and nothing on a player that was freed. -/
structure AiPlayerSound (ctx : AiPlayerCtx) (x : AiPlayerStep) : Prop where
  start : ∀ mode cmd player, .carried mode cmd ∈ (aiPlayerMachine.step ctx x).2 →
    cmd.isStart = true → ctx.player mode = some player → player.opened = false
  alive : ∀ mode cmd, .carried mode cmd ∈ (aiPlayerMachine.step ctx x).2 → ctx.exited mode = false

namespace AiPlayerCtx

variable (ctx : AiPlayerCtx)

/-- The commands in the queue for one player. -/
def waiting (mode : AiPlayerMode) : List AiPlayerCmd :=
  (ctx.queue.filter fun msg ↦ msg.mode = mode).map AiPlayerMsg.cmd

/-- The thread may stop the player: no pause or resume waits. -/
def MayStop (mode : AiPlayerMode) : Prop := .pause ∉ ctx.waiting mode ∧ .resume ∉ ctx.waiting mode

instance (mode : AiPlayerMode) : Decidable (ctx.MayStop mode) := inferInstanceAs (Decidable (_ ∧ _))

end AiPlayerCtx

/-- A start is called when no start waits, a pause or a resume when no stop waits, and the thread
stops a player by itself when no pause or resume waits. -/
def AiPlayerSafe (ctx : AiPlayerCtx) : AiPlayerStep → Prop
  | .start mode _ _ _ => ∀ cmd ∈ ctx.waiting mode, cmd.isStart = false
  | .pause mode => .stop ∉ ctx.waiting mode
  | .resume mode => .stop ∉ ctx.waiting mode
  | .eof mode => ctx.MayStop mode
  | .readError =>
      match ctx.activePlayer with
      | some mode => ctx.MayStop mode
      | none => True
  | _ => True

instance (ctx : AiPlayerCtx) (x : AiPlayerStep) : Decidable (AiPlayerSafe ctx x) :=
  match x with
  | .start _ _ _ _ => inferInstanceAs (Decidable (∀ _ ∈ _, _))
  | .pause _ | .resume _ => inferInstanceAs (Decidable (_ ∉ _))
  | .eof _ => inferInstanceAs (Decidable (AiPlayerCtx.MayStop _ _))
  | .readError =>
      match h : ctx.activePlayer with
      | some mode => by rw [AiPlayerSafe, h]; infer_instance
      | none => by rw [AiPlayerSafe, h]; infer_instance
  | .stop _ | .destroy _ | .fetch _ _ => isTrue trivial

/-! ## What waits for a player -/

/-- The commands fit a player whose source is open or not; a start may fail, and behind an exit all
are skipped. -/
def Serves : Bool → List AiPlayerCmd → Prop
  | _, [] => True
  | _, .stop :: rest => Serves false rest
  | _, .exit :: _ => True
  | opened, .start _ _ _ :: rest => opened = false ∧ Serves true rest ∧ Serves false rest
  | opened, .pause :: rest => opened = true ∧ Serves true rest
  | opened, .resume :: rest => opened = true ∧ Serves true rest

/-- A command that fits an open and a closed source may wait behind all others. -/
theorem Serves.append {opened : Bool} {cmds : List AiPlayerCmd} (h : Serves opened cmds)
    {cmd : AiPlayerCmd} (hcmd : ∀ opened, Serves opened [cmd]) :
    Serves opened (cmds ++ [cmd]) := by
  induction cmds generalizing opened with
  | nil => exact hcmd opened
  | cons other rest ih =>
      cases other with
      | stop => exact ih h
      | exit => trivial
      | start => exact ⟨h.1, ih h.2.1, ih h.2.2⟩
      | pause | resume => exact ⟨h.1, ih h.2⟩

theorem Serves.append_start {cmds : List AiPlayerCmd} (h : Serves false cmds)
    (hstart : ∀ cmd ∈ cmds, cmd.isStart = false) (src : ℕ) (value : Option (List UInt8))
    (codec : ℕ) :
    Serves false (cmds ++ [.start src value codec]) := by
  induction cmds with
  | nil => exact ⟨rfl, trivial, trivial⟩
  | cons cmd rest ih =>
      have hrest : ∀ cmd ∈ rest, cmd.isStart = false := fun cmd hcmd ↦
        hstart cmd (List.mem_cons_of_mem _ hcmd)
      cases cmd with
      | stop => exact ih h hrest
      | exit => trivial
      | start => cases hstart _ List.mem_cons_self
      | pause | resume => cases h.1

theorem Serves.append_open {cmds : List AiPlayerCmd} (h : Serves true cmds) (hstop : .stop ∉ cmds)
    {cmd : AiPlayerCmd} (hcmd : Serves true [cmd]) : Serves true (cmds ++ [cmd]) := by
  induction cmds with
  | nil => exact hcmd
  | cons other rest ih =>
      have hrest : .stop ∉ rest := fun hmem ↦ hstop (List.mem_cons_of_mem _ hmem)
      cases other with
      | stop => cases hstop List.mem_cons_self
      | exit => trivial
      | start => cases h.1
      | pause | resume => exact ⟨rfl, ih h.2 hrest⟩

theorem Serves.closed {opened : Bool} {cmds : List AiPlayerCmd} (h : Serves opened cmds)
    (hpause : .pause ∉ cmds) (hresume : .resume ∉ cmds) : Serves false cmds := by
  cases cmds with
  | nil => trivial
  | cons cmd rest =>
      cases cmd with
      | stop => exact h
      | exit => trivial
      | start => exact ⟨rfl, h.2⟩
      | pause => cases hpause List.mem_cons_self
      | resume => cases hresume List.mem_cons_self

/-! ## The invariant -/

/-- The source of a player is open unless it has stopped, what waits for it fits it, and a freed
player is not there. -/
structure AiPlayerInv (ctx : AiPlayerCtx) : Prop where
  opened : ∀ mode player, ctx.player mode = some player →
    (player.opened = true ↔ player.state ≠ .stopped)
  serves : ∀ mode player, ctx.player mode = some player → Serves player.opened (ctx.waiting mode)
  exited : ∀ mode, ctx.exited mode = true → ctx.player mode = none

namespace AiPlayerCtx

variable {ctx : AiPlayerCtx}

@[simp] theorem switchPlayerMode_player (ctx : AiPlayerCtx) :
    ctx.switchPlayerMode.player = ctx.player := by
  rw [switchPlayerMode]
  grind

@[simp] theorem switchPlayerMode_queue (ctx : AiPlayerCtx) :
    ctx.switchPlayerMode.queue = ctx.queue := by
  rw [switchPlayerMode]
  grind

@[simp] theorem switchPlayerMode_exited (ctx : AiPlayerCtx) :
    ctx.switchPlayerMode.exited = ctx.exited := by
  rw [switchPlayerMode]
  grind

@[simp] theorem waiting_switchPlayerMode (ctx : AiPlayerCtx) (mode : AiPlayerMode) :
    ctx.switchPlayerMode.waiting mode = ctx.waiting mode := by
  simp [waiting]

theorem waiting_cons {queue : List AiPlayerMsg} {msg : AiPlayerMsg}
    (hqueue : ctx.queue = msg :: queue) (mode : AiPlayerMode) :
    ctx.waiting mode = if msg.mode = mode then msg.cmd :: { ctx with queue }.waiting mode
      else { ctx with queue }.waiting mode := by
  rw [waiting, hqueue, List.filter_cons]
  split
  case isTrue hmode =>
    rw [if_pos (of_decide_eq_true hmode)]
    rfl
  case isFalse hmode =>
    rw [if_neg fun heq ↦ hmode (decide_eq_true heq)]
    rfl

theorem waiting_post (mode : AiPlayerMode) (cmd : AiPlayerCmd) (other : AiPlayerMode) :
    (ctx.post mode cmd).1.waiting other = ctx.waiting other ∨
      (mode = other ∧ (ctx.post mode cmd).1.waiting other = ctx.waiting other ++ [cmd]) := by
  rw [post]
  split
  case isFalse => exact Or.inl rfl
  case isTrue =>
    by_cases hmode : mode = other
    · exact Or.inr ⟨hmode, by simp [waiting, List.filter_append, hmode]⟩
    · exact Or.inl (by simp [waiting, List.filter_append, hmode])

theorem post_player (mode : AiPlayerMode) (cmd : AiPlayerCmd) :
    (ctx.post mode cmd).1.player = ctx.player := by
  rw [post]
  split
  case isTrue => rfl
  case isFalse => rfl

theorem post_exited (mode : AiPlayerMode) (cmd : AiPlayerCmd) :
    (ctx.post mode cmd).1.exited = ctx.exited := by
  rw [post]
  split
  case isTrue => rfl
  case isFalse => rfl

theorem fetch_carried {sinkRet decoderRet : OperateRet} {mode : AiPlayerMode} {cmd : AiPlayerCmd}
    (h : .carried mode cmd ∈ (ctx.fetch sinkRet decoderRet).2) :
    ∃ player rest, ctx.player mode = some player ∧ ctx.waiting mode = cmd :: rest := by
  cases hqueue : ctx.queue with
  | nil => simp [fetch, hqueue] at h
  | cons msg queue =>
      cases hplayer : ctx.player msg.mode with
      | none => simp [fetch, hqueue, hplayer] at h
      | some player =>
          have hmsg : mode = msg.mode ∧ cmd = msg.cmd := by simpa [fetch, hqueue, hplayer] using h
          obtain ⟨rfl, rfl⟩ := hmsg
          exact ⟨player, _, hplayer, (waiting_cons hqueue msg.mode).trans (if_pos rfl)⟩

theorem stopItself_carried {mode other : AiPlayerMode} {cmd : AiPlayerCmd}
    (h : .carried other cmd ∈ (ctx.stopItself mode).2) :
    cmd = .stop ∧ ∃ player, ctx.player other = some player := by
  cases hplayer : ctx.player mode with
  | none => simp [stopItself, hplayer] at h
  | some player =>
      have hsame : other = mode ∧ cmd = .stop := by simpa [stopItself, hplayer] using h
      exact ⟨hsame.2, player, hsame.1 ▸ hplayer⟩

end AiPlayerCtx

namespace AiPlayerInv

variable {ctx : AiPlayerCtx}

theorem create (created : AiPlayerMode → Bool) : AiPlayerInv (aiPlayerCreate created) := by
  have hplayer : ∀ mode player, (aiPlayerCreate created).player mode = some player →
      player = ⟨.stopped, false⟩ := by
    intro mode player hplayer
    rw [aiPlayerCreate] at hplayer
    grind
  refine ⟨?_, ?_, ?_⟩
  · intro mode player h
    simp [hplayer mode player h]
  · intro mode player h
    trivial
  · intro mode h
    cases h

theorem state_open (h : AiPlayerInv ctx) : ctx.Open :=
  fun mode player hplayer hstate ↦ (h.opened mode player hplayer).mpr hstate

theorem post (h : AiPlayerInv ctx) {mode : AiPlayerMode} {cmd : AiPlayerCmd} {player : AiPlayer}
    (hplayer : ctx.player mode = some player)
    (hcmd : Serves player.opened (ctx.waiting mode ++ [cmd])) :
    AiPlayerInv (ctx.post mode cmd).1 where
  opened := by
    rw [AiPlayerCtx.post_player]
    exact h.opened
  serves other found hfound := by
    rw [AiPlayerCtx.post_player] at hfound
    have hposted : (ctx.post mode cmd).1.waiting other = ctx.waiting other ∨
        (mode = other ∧ (ctx.post mode cmd).1.waiting other = ctx.waiting other ++ [cmd]) :=
      AiPlayerCtx.waiting_post mode cmd other
    rcases hposted with hsame | ⟨rfl, happend⟩
    · rw [hsame]
      exact h.serves other found hfound
    · rw [happend, ← Option.some.inj (hplayer.symm.trans hfound)]
      exact hcmd
  exited other hexited := by
    rw [AiPlayerCtx.post_exited] at hexited
    rw [AiPlayerCtx.post_player]
    exact h.exited other hexited

theorem replace (h : AiPlayerInv ctx) {after : AiPlayerCtx} {mode : AiPlayerMode}
    {player : Option AiPlayer} (hplayer : after.player = Function.update ctx.player mode player)
    (hwaiting : ∀ other, other ≠ mode → after.waiting other = ctx.waiting other)
    (hexited : ∀ other, other ≠ mode → after.exited other = ctx.exited other)
    (hnew : ∀ found, player = some found → (found.opened = true ↔ found.state ≠ .stopped) ∧
      Serves found.opened (after.waiting mode) ∧ after.exited mode = false) :
    AiPlayerInv after := by
  have hfound : ∀ other, after.player other =
      if other = mode then player else ctx.player other := by
    intro other
    rw [hplayer, Function.update_apply]
  refine ⟨?_, ?_, ?_⟩
  · intro other found hother
    rw [hfound] at hother
    split at hother
    case isTrue => exact (hnew found hother).1
    case isFalse => exact h.opened other found hother
  · intro other found hother
    rw [hfound] at hother
    split at hother
    case isTrue hmode =>
      rw [hmode]
      exact (hnew found hother).2.1
    case isFalse hmode =>
      rw [hwaiting other hmode]
      exact h.serves other found hother
  · intro other hother
    rw [hfound]
    split
    case isTrue hmode =>
      rw [Option.eq_none_iff_forall_ne_some]
      intro found hsome
      rw [hmode, (hnew found hsome).2.2] at hother
      cases hother
    case isFalse hmode =>
      rw [hexited other hmode] at hother
      exact h.exited other hother

theorem alive (h : AiPlayerInv ctx) {mode : AiPlayerMode} {player : AiPlayer}
    (hplayer : ctx.player mode = some player) : ctx.exited mode = false := by
  cases hexited : ctx.exited mode with
  | false => rfl
  | true =>
      rw [h.exited mode hexited] at hplayer
      cases hplayer

theorem stopItself (h : AiPlayerInv ctx) {mode : AiPlayerMode} (hstop : ctx.MayStop mode) :
    AiPlayerInv (ctx.stopItself mode).1 := by
  cases hplayer : ctx.player mode with
  | none =>
      rw [AiPlayerCtx.stopItself, hplayer]
      exact h
  | some player =>
      have hctx : (ctx.stopItself mode).1 =
          (ctx.set mode (some AiPlayer.cmdPlayerStop)).switchPlayerMode := by
        rw [AiPlayerCtx.stopItself, hplayer]
      have hserves := (h.serves mode player hplayer).closed hstop.1 hstop.2
      rw [hctx]
      apply h.replace (AiPlayerCtx.switchPlayerMode_player _)
      · exact fun other _ ↦ AiPlayerCtx.waiting_switchPlayerMode _ other
      · exact fun other _ ↦ congrFun (AiPlayerCtx.switchPlayerMode_exited _) other
      · intro found hfound
        rw [← Option.some.inj hfound, AiPlayerCtx.waiting_switchPlayerMode,
          AiPlayerCtx.switchPlayerMode_exited]
        exact ⟨(by simp [AiPlayer.cmdPlayerStop]), hserves, h.alive hplayer⟩

theorem carryOut {player : AiPlayer} {cmd : AiPlayerCmd} {rest : List AiPlayerCmd}
    (hserves : Serves player.opened (cmd :: rest)) (sinkRet decoderRet : OperateRet)
    {found : AiPlayer} (hfound : player.carryOut sinkRet decoderRet cmd = some found) :
    (found.opened = true ↔ found.state ≠ .stopped) ∧ Serves found.opened rest ∧ cmd ≠ .exit := by
  cases cmd with
  | start src value codec =>
      obtain ⟨-, hopen, hclosed⟩ := hserves
      rw [AiPlayer.carryOut, AiPlayer.cmdPlayerStart] at hfound
      have hcases : found = ⟨.playing, true⟩ ∨ found = AiPlayer.cmdPlayerStop := by
        grind
      rcases hcases with rfl | rfl
      · exact ⟨(by simp), hopen, (by simp)⟩
      · exact ⟨(by simp [AiPlayer.cmdPlayerStop]), hclosed, (by simp)⟩
  | stop =>
      rw [← Option.some.inj hfound]
      exact ⟨(by simp [AiPlayer.cmdPlayerStop]), hserves, (by simp)⟩
  | pause =>
      obtain ⟨htrue, hrest⟩ := hserves
      rw [← Option.some.inj hfound]
      exact ⟨(by simp [AiPlayer.cmdPlayerPause, htrue]), htrue ▸ hrest, (by simp)⟩
  | resume =>
      obtain ⟨htrue, hrest⟩ := hserves
      rw [← Option.some.inj hfound]
      exact ⟨(by simp [AiPlayer.cmdPlayerResume, htrue]), htrue ▸ hrest, (by simp)⟩
  | exit => cases hfound

theorem fetch (h : AiPlayerInv ctx) (sinkRet decoderRet : OperateRet) :
    AiPlayerInv (ctx.fetch sinkRet decoderRet).1 := by
  cases hqueue : ctx.queue with
  | nil =>
      rw [AiPlayerCtx.fetch, hqueue]
      exact h
  | cons msg queue =>
      have hwaiting := AiPlayerCtx.waiting_cons hqueue
      cases hplayer : ctx.player msg.mode with
      | none =>
          have hctx : (ctx.fetch sinkRet decoderRet).1 = { ctx with queue } := by
            simp [AiPlayerCtx.fetch, hqueue, hplayer]
          rw [hctx]
          refine ⟨h.opened, fun other found hfound ↦ ?_, h.exited⟩
          have hserves := h.serves other found hfound
          rw [hwaiting, if_neg] at hserves
          · exact hserves
          · intro hmode
            rw [← hmode, show ({ ctx with queue } : AiPlayerCtx).player = ctx.player from rfl,
              hplayer] at hfound
            cases hfound
      | some player =>
          have hctx : (ctx.fetch sinkRet decoderRet).1 =
            { ({ ctx with queue } : AiPlayerCtx).set msg.mode
              (player.carryOut sinkRet decoderRet msg.cmd) with
              exited := if msg.cmd = AiPlayerCmd.exit then Function.update ctx.exited msg.mode true
                else ctx.exited }.switchPlayerMode := by
            simp [AiPlayerCtx.fetch, hqueue, hplayer]
          have hserves := h.serves msg.mode player hplayer
          rw [hwaiting, if_pos rfl] at hserves
          rw [hctx]
          apply h.replace (AiPlayerCtx.switchPlayerMode_player _)
          · intro other hother
            rw [AiPlayerCtx.waiting_switchPlayerMode, hwaiting, if_neg hother.symm]
            rfl
          · intro other hother
            rw [AiPlayerCtx.switchPlayerMode_exited]
            split
            case isTrue => exact Function.update_of_ne hother _ _
            case isFalse => rfl
          · intro found hfound
            obtain ⟨hopened, hrest, hexit⟩ := carryOut hserves _ _ hfound
            rw [AiPlayerCtx.waiting_switchPlayerMode, AiPlayerCtx.switchPlayerMode_exited]
            exact ⟨hopened, hrest, (if_neg hexit ▸ h.alive hplayer)⟩

theorem start (h : AiPlayerInv ctx) {mode : AiPlayerMode} {src codec : ℕ}
    {value : Option (List UInt8)} (hsafe : AiPlayerSafe ctx (.start mode src value codec)) :
    AiPlayerInv (ctx.tuyaAiPlayerStart mode src value codec).1 := by
  rw [AiPlayerCtx.tuyaAiPlayerStart]
  cases hplayer : ctx.player mode with
  | none => exact h
  | some player =>
      have hserves := h.serves mode player hplayer
      dsimp only
      split
      case isTrue => exact h
      split
      case isTrue => exact h
      case isFalse hstopped _ =>
        have hclosed : player.opened = false := by
          have hopened := h.opened mode player hplayer
          simpa [not_not.mp hstopped] using hopened
        apply h.post hplayer
        rw [hclosed] at hserves ⊢
        exact hserves.append_start hsafe src value codec

theorem postOpen (h : AiPlayerInv ctx) {mode : AiPlayerMode} {player : AiPlayer}
    (hplayer : ctx.player mode = some player)
    (hstate : player.state ≠ .stopped) (hstop : .stop ∉ ctx.waiting mode) {cmd : AiPlayerCmd}
    (hcmd : Serves true [cmd]) : AiPlayerInv (ctx.post mode cmd).1 := by
  have hopened := (h.opened mode player hplayer).mpr hstate
  have hserves := h.serves mode player hplayer
  apply h.post hplayer
  rw [hopened] at hserves ⊢
  exact hserves.append_open hstop hcmd

theorem pause (h : AiPlayerInv ctx) {mode : AiPlayerMode} (hsafe : AiPlayerSafe ctx (.pause mode)) :
    AiPlayerInv (ctx.tuyaAiPlayerPause mode).1 := by
  rw [AiPlayerCtx.tuyaAiPlayerPause]
  cases hplayer : ctx.player mode with
  | none => exact h
  | some player =>
      dsimp only
      split
      case isTrue => exact h
      case isFalse hplaying =>
        have hstate : player.state ≠ .stopped := by simp [not_not.mp hplaying]
        exact h.postOpen hplayer hstate hsafe ⟨rfl, trivial⟩

theorem resume (h : AiPlayerInv ctx) {mode : AiPlayerMode}
    (hsafe : AiPlayerSafe ctx (.resume mode)) :
    AiPlayerInv (ctx.tuyaAiPlayerResume mode).1 := by
  rw [AiPlayerCtx.tuyaAiPlayerResume]
  cases hplayer : ctx.player mode with
  | none => exact h
  | some player =>
      dsimp only
      split
      case isTrue => exact h
      case isFalse hpaused =>
        have hstate : player.state ≠ .stopped := by simp [not_not.mp hpaused]
        exact h.postOpen hplayer hstate hsafe ⟨rfl, trivial⟩

theorem stop (h : AiPlayerInv ctx) (mode : AiPlayerMode) :
    AiPlayerInv (ctx.tuyaAiPlayerStop mode).1 := by
  rw [AiPlayerCtx.tuyaAiPlayerStop]
  cases hplayer : ctx.player mode with
  | none => exact h
  | some player =>
      dsimp only
      split
      case isTrue => exact h
      case isFalse => exact h.post hplayer ((h.serves mode player hplayer).append fun _ ↦ trivial)

theorem destroy (h : AiPlayerInv ctx) (mode : AiPlayerMode) :
    AiPlayerInv (ctx.tuyaAiPlayerDestroy mode).1 := by
  rw [AiPlayerCtx.tuyaAiPlayerDestroy]
  cases hplayer : ctx.player mode with
  | none => exact h
  | some player => exact h.post hplayer ((h.serves mode player hplayer).append fun _ ↦ trivial)

theorem step (h : AiPlayerInv ctx) {x : AiPlayerStep} (hsafe : AiPlayerSafe ctx x) :
    AiPlayerInv (aiPlayerMachine.step ctx x).1 := by
  cases x with
  | start => exact h.start hsafe
  | pause => exact h.pause hsafe
  | resume => exact h.resume hsafe
  | stop => exact h.stop _
  | destroy => exact h.destroy _
  | fetch => exact h.fetch _ _
  | eof mode =>
      have hstop : ctx.MayStop mode := hsafe
      change AiPlayerInv (if ctx.Streams mode then ctx.stopItself mode else (ctx, [])).1
      split
      case isTrue => exact h.stopItself hstop
      case isFalse => exact h
  | readError =>
      rw [AiPlayerSafe] at hsafe
      change AiPlayerInv (match ctx.activePlayer with
        | some mode => if ctx.isPlaying = true then ctx.stopItself mode else (ctx, [])
        | none => (ctx, [])).1
      cases hactive : ctx.activePlayer with
      | none => exact h
      | some mode =>
          rw [hactive] at hsafe
          dsimp only
          split
          case isTrue => exact h.stopItself hsafe
          case isFalse => exact h

theorem sound (h : AiPlayerInv ctx) (x : AiPlayerStep) : AiPlayerSound ctx x := by
  have hcarried : ∀ mode cmd, .carried mode cmd ∈ (aiPlayerMachine.step ctx x).2 →
      ∃ player, ctx.player mode = some player ∧ (cmd.isStart = true → player.opened = false) := by
    intro mode cmd hmem
    have hstop : ∀ stopped, .carried mode cmd ∈ (ctx.stopItself stopped).2 →
        ∃ player, ctx.player mode = some player ∧ (cmd.isStart = true → player.opened = false) := by
      intro stopped hstopped
      obtain ⟨rfl, player, hplayer⟩ := AiPlayerCtx.stopItself_carried hstopped
      exact ⟨player, hplayer, fun hstart ↦ (nomatch hstart)⟩
    cases x with
    | start | pause | resume | stop | destroy => cases List.mem_singleton.mp hmem
    | fetch sinkRet decoderRet =>
        obtain ⟨player, rest, hplayer, hwaiting⟩ := AiPlayerCtx.fetch_carried hmem
        refine ⟨player, hplayer, fun hstart ↦ ?_⟩
        have hserves := h.serves mode player hplayer
        rw [hwaiting] at hserves
        cases cmd with
        | start => exact hserves.1
        | stop | pause | resume | exit => cases hstart
    | eof other =>
        change .carried mode cmd ∈
          (if ctx.Streams other then ctx.stopItself other else (ctx, [])).2 at hmem
        split at hmem
        case isTrue => exact hstop other hmem
        case isFalse => cases hmem
    | readError =>
        change .carried mode cmd ∈ (match ctx.activePlayer with
          | some mode => if ctx.isPlaying = true then ctx.stopItself mode else (ctx, [])
          | none => (ctx, [])).2 at hmem
        cases hactive : ctx.activePlayer with
        | none =>
            rw [hactive] at hmem
            cases hmem
        | some other =>
            rw [hactive] at hmem
            dsimp only at hmem
            split at hmem
            case isTrue => exact hstop other hmem
            case isFalse => cases hmem
  refine ⟨?_, ?_⟩
  · intro mode cmd player hmem hstart hplayer
    obtain ⟨found, hfound, hclosed⟩ := hcarried mode cmd hmem
    rw [hplayer] at hfound
    rw [Option.some.inj hfound]
    exact hclosed hstart
  · intro mode cmd hmem
    obtain ⟨found, hfound, -⟩ := hcarried mode cmd hmem
    exact h.alive hfound

end AiPlayerInv

/-- In every run whose steps are safe, a player that plays or pauses has its source open in every
state, and each step is sound. -/
theorem ai_player_open (created : AiPlayerMode → Bool) (xs : List AiPlayerStep)
    (hxs : aiPlayerMachine.Guarded AiPlayerSafe (aiPlayerCreate created) xs) :
    (∀ k, (aiPlayerMachine.final (aiPlayerCreate created) (xs.take k)).Open) ∧
    ∀ k x, xs[k]? = some x →
      AiPlayerSound (aiPlayerMachine.final (aiPlayerCreate created) (xs.take k)) x := by
  have hinv : ∀ k, AiPlayerInv (aiPlayerMachine.final (aiPlayerCreate created) (xs.take k)) :=
    fun k ↦
    aiPlayerMachine.inv_final (fun _ _ h hx ↦ h.step hx) (AiPlayerInv.create created) (hxs.take k)
  exact ⟨fun k ↦ (hinv k).state_open, fun k x _ ↦ (hinv k).sound x⟩

/-- A start, a pause and a resume, an end, another start, a stop, and the end of the player. -/
def openedRun : List AiPlayerStep :=
  [.start .foreground 1 (some [97]) 0, .fetch 0 0, .pause .foreground, .fetch 0 0,
    .resume .foreground, .fetch 0 0,
    .eof .foreground, .start .foreground 1 (some [98]) 0, .fetch 0 0, .pause .foreground,
    .stop .foreground, .fetch 0 0, .fetch 0 0, .destroy .foreground, .fetch 0 0]

theorem ai_player_open_openedRun :
    aiPlayerMachine.Guarded AiPlayerSafe (aiPlayerCreate fun _ ↦ true) openedRun ∧
    (aiPlayerMachine.final (aiPlayerCreate fun _ ↦ true) (openedRun.take 4)).Open ∧
    AiPlayerSound (aiPlayerMachine.final (aiPlayerCreate fun _ ↦ true) (openedRun.take 8))
      (.fetch 0 0) :=
  have hxs : aiPlayerMachine.Guarded AiPlayerSafe (aiPlayerCreate fun _ ↦ true) openedRun := by
    decide +kernel
  ⟨hxs, (ai_player_open _ openedRun hxs).1 4, (ai_player_open _ openedRun hxs).2 8 _ rfl⟩

/-- The foreground player is playing. -/
def playingRun : List AiPlayerStep := [.start .foreground 1 (some [97]) 0, .fetch 0 0]

/-- A pause behind a stop, and a pause when the data is at its end, leave a stopped player paused;
and a second start is carried out on the open source of the first. -/
theorem ai_player_not_open :
    ¬ (aiPlayerMachine.final (aiPlayerCreate fun _ ↦ true)
      (playingRun ++ [.stop .foreground, .pause .foreground, .fetch 0 0, .fetch 0 0])).Open ∧
    ¬ (aiPlayerMachine.final (aiPlayerCreate fun _ ↦ true)
      (playingRun ++ [.pause .foreground, .eof .foreground, .fetch 0 0])).Open ∧
    ¬ AiPlayerSound (aiPlayerMachine.final (aiPlayerCreate fun _ ↦ true)
      [.start .foreground 1 (some [97]) 0, .start .foreground 1 (some [98]) 0, .fetch 0 0])
        (.fetch 0 0) := by
  refine ⟨fun h ↦ ?_, fun h ↦ ?_, fun h ↦ ?_⟩
  · exact absurd (h .foreground ⟨.paused, false⟩ (by decide +kernel) (by decide)) (by decide)
  · exact absurd (h .foreground ⟨.paused, false⟩ (by decide +kernel) (by decide)) (by decide)
  · have hclosed := h.start .foreground (.start 1 (some [98]) 0) ⟨.playing, true⟩
      (by decide +kernel) rfl (by decide +kernel)
    cases hclosed

end TuyaOpen.Audio
