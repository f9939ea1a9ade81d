import Mathlib.Data.List.Basic
import Mathlib.Data.Nat.Notation
import TuyaOpen.Common.ErrorCode
import TuyaOpen.Lib.Mealy

/-!
# Mixing two players

`__handle_player_streaming` of `svc_ai_player.c` takes what the two players have decoded and writes
the sum of as many samples as both have.  The samples left over of the longer one stay in one buffer
that both share, with a flag that says whose they are.
-/

namespace TuyaOpen.Audio

inductive PlayerMode where
  | foreground
  | background
  deriving DecidableEq

def aiPlayerDecodebufSize : ℕ := 8 * 1024

/-- What `__handle_player_streaming_source` does for a player: its code, and the samples of two
bytes that it leaves in `decode_buf`. -/
structure SourceRun (α : Type*) where
  rt : OperateRet
  decoded : List α
  fits : decoded.length * 2 ≤ aiPlayerDecodebufSize

structure StreamingCall (α : Type*) where
  active : PlayerMode
  bgPlaying : Bool
  mixerMode : Bool
  decoderMode : Bool
  fg : SourceRun α
  bg : SourceRun α

/-- `mixer_flag`, and the samples in the first `mixer_offset` bytes of `mixer_buf`. -/
structure MixerCtx (α : Type*) where
  mixerBuf : List α
  mixerFlag : ℕ
  deriving DecidableEq

/-- What a call writes, and what it had decoded for either player. -/
structure StreamingOut (α : Type*) where
  ctx : MixerCtx α
  written : List α
  fgDecoded : List α
  bgDecoded : List α

variable {α : Type*} (mix : α → α → α)

/-- What is left over goes into the buffer. -/
def hold (flag : ℕ) (rest : List α) : MixerCtx α :=
  match rest with
  | [] => ⟨[], 0⟩
  | x :: rest => ⟨x :: rest, flag⟩

/-- A branch of `__handle_player_streaming_mix`: `src` is mixed into `dst`, and the flags are those
of what may be left of `dst` and of `src`. -/
def mixInto (dstFlag srcFlag : ℕ) (src dst : List α) : MixerCtx α × List α :=
  if src.length ≤ dst.length then
    (hold dstFlag (dst.drop src.length), List.zipWith mix src dst)
  else (hold srcFlag (src.drop dst.length), List.zipWith mix src dst)

def handlePlayerStreamingMix (ctx : MixerCtx α) (fgPlayer bgPlayer : Option (List α)) :
    MixerCtx α × List α :=
  match fgPlayer, bgPlayer with
  | some fg, some bg => mixInto mix 1 2 bg fg
  | some fg, none => mixInto mix 1 2 ctx.mixerBuf fg
  | none, some bg => mixInto mix 2 1 ctx.mixerBuf bg
  | none, none => (ctx, [])

def SourceRun.ok (run : SourceRun α) : List α := if run.rt = oprtOk then run.decoded else []

def StreamingCall.mixes (call : StreamingCall α) : Prop :=
  call.mixerMode = true ∧ call.active = .foreground ∧ call.bgPlaying = true

instance (call : StreamingCall α) : Decidable call.mixes := inferInstanceAs (Decidable (_ ∧ _))

/-- The way without mixing. -/
def streamActive (ctx : MixerCtx α) (call : StreamingCall α) : StreamingOut α :=
  match call.active with
  | .foreground => ⟨ctx, call.fg.ok, call.fg.decoded, []⟩
  | .background => ⟨ctx, call.bg.ok, [], call.bg.decoded⟩

def handlePlayerStreaming (ctx : MixerCtx α) (call : StreamingCall α) : StreamingOut α :=
  if call.mixerMode = true ∧ call.active = .foreground then
    if call.bgPlaying then
      if ctx.mixerFlag = 0 then
        if call.decoderMode = false then
          ⟨ctx, call.bg.decoded ++ call.fg.decoded, call.fg.decoded, call.bg.decoded⟩
        else
          let r := handlePlayerStreamingMix mix ctx (some call.fg.decoded) (some call.bg.decoded)
          ⟨r.1, r.2, call.fg.decoded, call.bg.decoded⟩
      else if ctx.mixerFlag = 1 then
        if call.decoderMode = false then ⟨ctx, call.bg.ok, [], call.bg.decoded⟩
        else
          let r := handlePlayerStreamingMix mix ctx none (some call.bg.decoded)
          ⟨r.1, r.2, [], call.bg.decoded⟩
      else if call.decoderMode = false then ⟨ctx, call.fg.ok, call.fg.decoded, []⟩
      else
        let r := handlePlayerStreamingMix mix ctx (some call.fg.decoded) none
        ⟨r.1, r.2, call.fg.decoded, []⟩
    else streamActive ctx call
  else streamActive (if ctx.mixerBuf = [] then ctx else ⟨[], 0⟩) call

/-- A run: the context, what has been written, and what the players have decoded. -/
structure MixLog (α : Type*) where
  ctx : MixerCtx α
  written : List α
  fgDecoded : List α
  bgDecoded : List α

def mixMachine : Mealy (MixLog α) (StreamingCall α) Unit where
  step s call :=
    let out := handlePlayerStreaming mix s.ctx call
    (⟨out.ctx, s.written ++ out.written, s.fgDecoded ++ out.fgDecoded,
      s.bgDecoded ++ out.bgDecoded⟩, ())

def mixStart : MixLog α := ⟨⟨[], 0⟩, [], [], []⟩

/-- The flag says whose the samples in the buffer are, and the buffer is large enough. -/
structure MixerCtx.Ok (ctx : MixerCtx α) : Prop where
  flag : ctx.mixerFlag = 0 ∧ ctx.mixerBuf = [] ∨
    (ctx.mixerFlag = 1 ∨ ctx.mixerFlag = 2) ∧ ctx.mixerBuf ≠ []
  fits : ctx.mixerBuf.length * 2 ≤ aiPlayerDecodebufSize

theorem hold_ok {flag : ℕ} (hflag : flag = 1 ∨ flag = 2) {rest : List α}
    (hfits : rest.length * 2 ≤ aiPlayerDecodebufSize) : (hold flag rest).Ok := by
  cases rest with
  | nil => exact ⟨.inl ⟨rfl, rfl⟩, Nat.zero_le _⟩
  | cons x rest => exact ⟨.inr ⟨hflag, List.cons_ne_nil x rest⟩, hfits⟩

theorem mixInto_ok {dstFlag srcFlag : ℕ} (hdst : dstFlag = 1 ∨ dstFlag = 2)
    (hsrc : srcFlag = 1 ∨ srcFlag = 2) {src dst : List α}
    (hsrcFits : src.length * 2 ≤ aiPlayerDecodebufSize)
    (hdstFits : dst.length * 2 ≤ aiPlayerDecodebufSize) :
    (mixInto mix dstFlag srcFlag src dst).1.Ok := by
  rw [mixInto]
  split_ifs
  · apply hold_ok hdst
    rw [List.length_drop]
    omega
  · apply hold_ok hsrc
    rw [List.length_drop]
    omega

theorem handlePlayerStreaming_ok {ctx : MixerCtx α} (h : ctx.Ok) (call : StreamingCall α) :
    (handlePlayerStreaming mix ctx call).ctx.Ok := by
  have hactive : ∀ {ctx : MixerCtx α}, ctx.Ok → (streamActive ctx call).ctx.Ok := by
    intro ctx hctx
    rw [streamActive]
    split <;> exact hctx
  rw [handlePlayerStreaming]
  split_ifs
  · exact h
  · exact mixInto_ok mix (.inl rfl) (.inr rfl) call.bg.fits call.fg.fits
  · exact h
  · exact mixInto_ok mix (.inr rfl) (.inl rfl) h.fits call.bg.fits
  · exact h
  · exact mixInto_ok mix (.inl rfl) (.inr rfl) h.fits call.fg.fits
  · exact hactive h
  · exact hactive h
  · exact hactive ⟨.inl ⟨rfl, rfl⟩, Nat.zero_le _⟩

/-- In every run the flag is that of what the buffer holds, and the buffer never overflows. -/
theorem mixer_flag_of_buffer (calls : List (StreamingCall α)) :
    ((mixMachine mix).final mixStart calls).ctx.Ok := by
  apply (mixMachine mix).inv_final (G := fun _ _ ↦ True) (I := fun s ↦ s.ctx.Ok)
  · exact fun s call h _ ↦ handlePlayerStreaming_ok mix h call
  · exact ⟨.inl ⟨rfl, rfl⟩, Nat.zero_le _⟩
  · exact (mixMachine mix).guarded_true _ _

/-- Where a written sample comes from: one player alone, or one mixed into the other. -/
inductive MixedSample (α : Type*) where
  | fg (x : α)
  | bg (x : α)
  | intoFg (bg fg : α)
  | intoBg (fg bg : α)
  deriving DecidableEq

namespace MixedSample

def value : MixedSample α → α
  | fg x => x
  | bg x => x
  | intoFg b f => mix b f
  | intoBg f b => mix f b

def fg? : MixedSample α → Option α
  | fg x => some x
  | bg _ => none
  | intoFg _ f => some f
  | intoBg f _ => some f

def bg? : MixedSample α → Option α
  | fg _ => none
  | bg x => some x
  | intoFg b _ => some b
  | intoBg _ b => some b

theorem map_fg (xs : List α) : (xs.map fg).map (value mix) = xs ∧
    (xs.map fg).filterMap fg? = xs ∧ (xs.map fg).filterMap bg? = [] := by
  induction xs with
  | nil => exact ⟨rfl, rfl, rfl⟩
  | cons x xs ih => simpa [value, fg?, bg?] using ih

theorem map_bg (xs : List α) : (xs.map bg).map (value mix) = xs ∧
    (xs.map bg).filterMap fg? = [] ∧ (xs.map bg).filterMap bg? = xs := by
  induction xs with
  | nil => exact ⟨rfl, rfl, rfl⟩
  | cons x xs ih => simpa [value, fg?, bg?] using ih

theorem zip_intoFg (bs fs : List α) :
    (List.zipWith intoFg bs fs).map (value mix) = List.zipWith mix bs fs ∧
      (List.zipWith intoFg bs fs).filterMap fg? = fs.take bs.length ∧
      (List.zipWith intoFg bs fs).filterMap bg? = bs.take fs.length := by
  induction bs generalizing fs with
  | nil => simp
  | cons b bs ih =>
      cases fs with
      | nil => simp
      | cons f fs => simpa [value, fg?, bg?] using ih fs

theorem zip_intoBg (fs bs : List α) :
    (List.zipWith intoBg fs bs).map (value mix) = List.zipWith mix fs bs ∧
      (List.zipWith intoBg fs bs).filterMap fg? = fs.take bs.length ∧
      (List.zipWith intoBg fs bs).filterMap bg? = bs.take fs.length := by
  induction fs generalizing bs with
  | nil => simp
  | cons f fs ih =>
      cases bs with
      | nil => simp
      | cons b bs => simpa [value, fg?, bg?] using ih bs

end MixedSample

def MixerCtx.heldFg (ctx : MixerCtx α) : List α := if ctx.mixerFlag = 1 then ctx.mixerBuf else []
def MixerCtx.heldBg (ctx : MixerCtx α) : List α := if ctx.mixerFlag = 2 then ctx.mixerBuf else []

/-- The written samples are taken one by one from those of the foreground, all of them in order and
the rest still held, and from some of those of the background, in order. -/
def MixSound (s : MixLog α) : Prop :=
  ∃ parts : List (MixedSample α), s.written = parts.map (MixedSample.value mix) ∧
    s.fgDecoded = parts.filterMap MixedSample.fg? ++ s.ctx.heldFg ∧
    (parts.filterMap MixedSample.bg? ++ s.ctx.heldBg).Sublist s.bgDecoded

/-- While foreground samples are held the background goes on playing, and a source that fails has
decoded nothing. -/
def MixSafe (s : MixLog α) (call : StreamingCall α) : Prop :=
  (s.ctx.mixerFlag = 1 → call.mixes) ∧ (call.fg.rt ≠ oprtOk → call.fg.decoded = [])

instance (s : MixLog α) (call : StreamingCall α) [DecidableEq α] : Decidable (MixSafe s call) :=
  inferInstanceAs (Decidable (_ ∧ _))

theorem SourceRun.ok_of_imp {run : SourceRun α} (h : run.rt ≠ oprtOk → run.decoded = []) :
    run.ok = run.decoded := by
  rw [SourceRun.ok]
  split_ifs with hrt
  · rfl
  · exact (h hrt).symm

theorem SourceRun.ok_sublist (run : SourceRun α) : run.ok.Sublist run.decoded := by
  rw [SourceRun.ok]
  split_ifs
  · exact List.Sublist.refl _
  · exact List.nil_sublist _

@[simp] theorem heldFg_hold_one (rest : List α) : (hold 1 rest).heldFg = rest := by
  cases rest <;> rfl

@[simp] theorem heldFg_hold_two (rest : List α) : (hold 2 rest).heldFg = [] := by
  cases rest <;> rfl

@[simp] theorem heldBg_hold_one (rest : List α) : (hold 1 rest).heldBg = [] := by
  cases rest <;> rfl

@[simp] theorem heldBg_hold_two (rest : List α) : (hold 2 rest).heldBg = rest := by
  cases rest <;> rfl

theorem mixInto_fg (bs fs : List α) : ∃ parts : List (MixedSample α),
    (mixInto mix 1 2 bs fs).2 = parts.map (MixedSample.value mix) ∧
      parts.filterMap MixedSample.fg? ++ (mixInto mix 1 2 bs fs).1.heldFg = fs ∧
      parts.filterMap MixedSample.bg? ++ (mixInto mix 1 2 bs fs).1.heldBg = bs := by
  obtain ⟨hvalue, hfg, hbg⟩ := MixedSample.zip_intoFg mix bs fs
  refine ⟨List.zipWith .intoFg bs fs, ?_⟩
  rw [mixInto, hvalue, hfg, hbg]
  split_ifs with hle
  · refine ⟨rfl, ?_, ?_⟩
    · rw [heldFg_hold_one, List.take_append_drop]
    · rw [heldBg_hold_one, List.append_nil, List.take_of_length_le hle]
  · refine ⟨rfl, ?_, ?_⟩
    · rw [heldFg_hold_two, List.append_nil, List.take_of_length_le (Nat.le_of_not_le hle)]
    · rw [heldBg_hold_two, List.take_append_drop]

theorem mixInto_bg (fs bs : List α) : ∃ parts : List (MixedSample α),
    (mixInto mix 2 1 fs bs).2 = parts.map (MixedSample.value mix) ∧
      parts.filterMap MixedSample.fg? ++ (mixInto mix 2 1 fs bs).1.heldFg = fs ∧
      parts.filterMap MixedSample.bg? ++ (mixInto mix 2 1 fs bs).1.heldBg = bs := by
  obtain ⟨hvalue, hfg, hbg⟩ := MixedSample.zip_intoBg mix fs bs
  refine ⟨List.zipWith .intoBg fs bs, ?_⟩
  rw [mixInto, hvalue, hfg, hbg]
  split_ifs with hle
  · refine ⟨rfl, ?_, ?_⟩
    · rw [heldFg_hold_two, List.append_nil, List.take_of_length_le hle]
    · rw [heldBg_hold_two, List.take_append_drop]
  · refine ⟨rfl, ?_, ?_⟩
    · rw [heldFg_hold_one, List.take_append_drop]
    · rw [heldBg_hold_one, List.append_nil, List.take_of_length_le (Nat.le_of_not_le hle)]

/-- What one call does to the samples: those held before and those decoded are written or held. -/
def CallSound (ctx : MixerCtx α) (out : StreamingOut α) : Prop :=
  ∃ parts : List (MixedSample α), out.written = parts.map (MixedSample.value mix) ∧
    parts.filterMap MixedSample.fg? ++ out.ctx.heldFg = ctx.heldFg ++ out.fgDecoded ∧
    (parts.filterMap MixedSample.bg? ++ out.ctx.heldBg).Sublist (ctx.heldBg ++ out.bgDecoded)

theorem MixSound.append {s : MixLog α} {out : StreamingOut α} (h : MixSound mix s)
    (hout : CallSound mix s.ctx out) :
    MixSound mix ⟨out.ctx, s.written ++ out.written, s.fgDecoded ++ out.fgDecoded,
      s.bgDecoded ++ out.bgDecoded⟩ := by
  obtain ⟨parts, hwritten, hfg, hbg⟩ := h
  obtain ⟨parts', hwritten', hfg', hbg'⟩ := hout
  refine ⟨parts ++ parts', ?_, ?_, ?_⟩
  · rw [List.map_append, hwritten, hwritten']
  · rw [List.filterMap_append, List.append_assoc, hfg', hfg, List.append_assoc]
  · rw [List.filterMap_append, List.append_assoc]
    refine (hbg'.append_left _).trans ?_
    rw [← List.append_assoc]
    exact hbg.append_right _

theorem callSound_alone {ctx ctx' : MixerCtx α} (bs fs : List α) {bgDecoded : List α}
    (hfg : ctx.heldFg = []) (hfg' : ctx'.heldFg = []) (hbg : ctx'.heldBg.Sublist ctx.heldBg)
    (hkeep : bs = [] ∨ ctx'.heldBg = []) (hsub : bs.Sublist bgDecoded) :
    CallSound mix ctx ⟨ctx', bs ++ fs, fs, bgDecoded⟩ := by
  obtain ⟨hfvalue, hffg, hfbg⟩ := MixedSample.map_fg mix fs
  obtain ⟨hbvalue, hbfg, hbbg⟩ := MixedSample.map_bg mix bs
  refine ⟨bs.map .bg ++ fs.map .fg, ?_, ?_, ?_⟩
  · rw [List.map_append, hfvalue, hbvalue]
  · rw [List.filterMap_append, hffg, hbfg, hfg, hfg', List.append_nil]
  · rw [List.filterMap_append, hfbg, hbbg, List.append_nil]
    rcases hkeep with rfl | hnone
    · exact hbg.trans (List.sublist_append_left _ _)
    · rw [hnone, List.append_nil]
      exact hsub.trans (List.sublist_append_right _ _)

theorem callSound_streamActive {ctx ctx' : MixerCtx α} {call : StreamingCall α}
    (hfg : ctx.heldFg = []) (hfg' : ctx'.heldFg = []) (hbg : ctx'.heldBg.Sublist ctx.heldBg)
    (hkeep : call.active = .background → ctx'.heldBg = [])
    (hfail : call.fg.rt ≠ oprtOk → call.fg.decoded = []) :
    CallSound mix ctx (streamActive ctx' call) := by
  rw [streamActive]
  split
  · rw [SourceRun.ok_of_imp hfail]
    exact callSound_alone mix _ _ hfg hfg' hbg (.inl rfl) (List.nil_sublist _)
  · next hactive =>
      have halone := callSound_alone mix call.bg.ok [] hfg hfg' hbg
        (.inr (hkeep hactive)) call.bg.ok_sublist
      rwa [List.append_nil] at halone

theorem MixerCtx.Ok.heldBg_eq {ctx : MixerCtx α} (h : ctx.Ok) (hzero : ctx.mixerFlag ≠ 0)
    (hone : ctx.mixerFlag ≠ 1) : ctx.heldFg = [] ∧ ctx.heldBg = ctx.mixerBuf := by
  rcases h.flag with ⟨hflag, -⟩ | ⟨hflag | hflag, -⟩
  · exact absurd hflag hzero
  · exact absurd hflag hone
  · exact ⟨if_neg (by omega), if_pos hflag⟩

theorem handlePlayerStreaming_sound {ctx : MixerCtx α} {call : StreamingCall α} (h : ctx.Ok)
    (hheld : ctx.mixerFlag = 1 → call.mixes)
    (hfail : call.fg.rt ≠ oprtOk → call.fg.decoded = []) :
    CallSound mix ctx (handlePlayerStreaming mix ctx call) := by
  rw [handlePlayerStreaming]
  split_ifs with hmode hplaying hzero hraw hone hraw hraw hempty
  -- nothing is held, and both sources have run
  · have hnone : ctx.heldFg = [] ∧ ctx.heldBg = [] := ⟨if_neg (by omega), if_neg (by omega)⟩
    exact callSound_alone mix _ _ hnone.1 hnone.1 (List.Sublist.refl _) (.inr hnone.2)
      (List.Sublist.refl _)
  · obtain ⟨parts, hwritten, hfg, hbg⟩ := mixInto_fg mix call.bg.decoded call.fg.decoded
    have hnone : ctx.heldFg = [] ∧ ctx.heldBg = [] := ⟨if_neg (by omega), if_neg (by omega)⟩
    refine ⟨parts, hwritten, ?_, ?_⟩
    · rw [hnone.1]
      exact hfg
    · rw [hnone.2]
      exact hbg.symm ▸ List.Sublist.refl _
  -- samples of the foreground are held, and only the background is decoded
  · obtain ⟨hvalue, hfg, hbg⟩ := MixedSample.map_bg mix call.bg.ok
    have hnone : ctx.heldBg = [] := if_neg (by omega)
    refine ⟨call.bg.ok.map .bg, hvalue.symm, ?_, ?_⟩
    · rw [hfg]
      exact (List.append_nil _).symm
    · rw [hbg, hnone, List.append_nil]
      exact call.bg.ok_sublist
  · obtain ⟨parts, hwritten, hfg, hbg⟩ := mixInto_bg mix ctx.mixerBuf call.bg.decoded
    have hsome : ctx.heldFg = ctx.mixerBuf ∧ ctx.heldBg = [] := ⟨if_pos hone, if_neg (by omega)⟩
    refine ⟨parts, hwritten, ?_, ?_⟩
    · rw [hsome.1, List.append_nil]
      exact hfg
    · rw [hsome.2]
      exact hbg.symm ▸ List.Sublist.refl _
  -- samples of the background are held, and only the foreground is decoded
  · have hnone := (h.heldBg_eq hzero hone).1
    rw [SourceRun.ok_of_imp hfail]
    exact callSound_alone mix _ _ hnone hnone (List.Sublist.refl _) (.inl rfl) (List.nil_sublist _)
  · obtain ⟨parts, hwritten, hfg, hbg⟩ := mixInto_fg mix ctx.mixerBuf call.fg.decoded
    obtain ⟨hnone, hsome⟩ := h.heldBg_eq hzero hone
    refine ⟨parts, hwritten, ?_, ?_⟩
    · rw [hnone]
      exact hfg
    · rw [hsome, List.append_nil]
      exact hbg ▸ List.Sublist.refl _
  -- no mixing
  · have hnone : ctx.heldFg = [] := if_neg fun hone ↦ hplaying (hheld hone).2.2
    exact callSound_streamActive mix hnone hnone (List.Sublist.refl _)
      (fun hactive ↦ by simp [hmode.2] at hactive) hfail
  · have hnone : ctx.heldFg = [] ∧ ctx.heldBg = [] := by
      rw [MixerCtx.heldFg, MixerCtx.heldBg, hempty, ite_self, ite_self]
      exact ⟨rfl, rfl⟩
    exact callSound_streamActive mix hnone.1 hnone.1 (List.Sublist.refl _) (fun _ ↦ hnone.2) hfail
  · have hnone : ctx.heldFg = [] := if_neg fun hone ↦ hmode ⟨(hheld hone).1, (hheld hone).2.1⟩
    exact callSound_streamActive mix hnone rfl (List.nil_sublist _) (fun _ ↦ rfl) hfail

/-- While the background does not leave the foreground with samples held, every sample of the
foreground is written once and in order. -/
theorem mixing_keeps_foreground {calls : List (StreamingCall α)}
    (h : (mixMachine mix).Guarded MixSafe mixStart calls) :
    MixSound mix ((mixMachine mix).final mixStart calls) := by
  have hboth := (mixMachine mix).inv_final (G := MixSafe)
    (I := fun s ↦ s.ctx.Ok ∧ MixSound mix s) (s := mixStart) ?_ ?_ h
  · exact hboth.2
  · rintro s call ⟨hok, hsound⟩ ⟨hheld, hfail⟩
    exact ⟨handlePlayerStreaming_ok mix hok call,
      hsound.append mix (handlePlayerStreaming_sound mix hok hheld hfail)⟩
  · exact ⟨⟨.inl ⟨rfl, rfl⟩, Nat.zero_le _⟩, [], rfl, rfl, List.Sublist.refl _⟩

def clampS16 (x : ℤ) : ℤ := if 32767 < x then 32767 else if x < -32768 then -32768 else x

/-- One turn of `mix_pcm_s16_mono_16k`. -/
def mixPcmS16 (src dst : ℤ) : ℤ := clampS16 (src + dst)

/-- A call in mixer mode in which the players have decoded these samples. -/
def mixedCall (fg bg : List ℤ) (hfg : fg.length * 2 ≤ aiPlayerDecodebufSize)
    (hbg : bg.length * 2 ≤ aiPlayerDecodebufSize) : StreamingCall ℤ :=
  ⟨.foreground, true, true, true, ⟨oprtOk, fg, hfg⟩, ⟨oprtOk, bg, hbg⟩⟩

theorem mixing_keeps_foreground_some :
    MixSound mixPcmS16 ((mixMachine mixPcmS16).final mixStart
      [mixedCall [1, 2, 3] [10] (by decide) (by decide),
        mixedCall [4] [20, 30, 40] (by decide) (by decide)]) :=
  mixing_keeps_foreground mixPcmS16 (by decide)

end TuyaOpen.Audio
