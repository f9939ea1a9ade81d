import Mathlib.Algebra.BigOperators.Group.List.Basic
import Mathlib.Algebra.Order.Ring.Int
import Mathlib.Data.Nat.Notation
import Mathlib.Logic.Function.Basic
import Mathlib.Tactic.Ring
import TuyaOpen.Common.ErrorCode

/-!
# Resampling to 16 kHz

`resample_fixed.c` walks over the input at a position with sixteen fractional bits, one output
sample a step.  The player passes one buffer for input and output, so that a sample may be read
after another has been written in its place.  Samples are integers of 16 bits, two bytes each.
-/

namespace TuyaOpen.Audio

def clip16FromI64 (v : ℤ) : ℤ := if 32767 < v then 32767 else if v < -32768 then -32768 else v

/-- The mean of the channels of a frame, with the division of C. -/
def frameMean (buf : ℕ → ℤ) (channels idx : ℕ) : ℤ :=
  ((List.range channels).map fun c ↦ buf (idx * channels + c)).sum.tdiv channels

/-- The sample at a position. -/
def interpolate (buf : ℕ → ℤ) (frames channels pos : ℕ) : ℤ :=
  let idx := pos / 65536
  let frac := pos % 65536
  let s0 := if idx < frames then frameMean buf channels idx else 0
  let s1 := if idx + 1 < frames then frameMean buf channels (idx + 1) else 0
  clip16FromI64 ((s0 * (65536 - frac) + s1 * frac) / 65536)

/-- The step before it is cut to 32 bits. -/
def wideStep (rate : ℕ) : ℕ := rate * 65536 / 16000

/-- The loop from sample `j` on, with the output buffer and how many samples have been written.
Without an input of its own it reads what the output buffer holds by then. -/
def resampleLoop (input : Option (ℕ → ℤ)) (frames rate channels : ℕ) :
    ℕ → ℕ → ℕ → (ℕ → ℤ) → (ℕ → ℤ) × ℕ
  | 0, j, _, out => (out, j)
  | n + 1, j, pos, out =>
    let out' := Function.update out j (interpolate (input.getD out) frames channels pos)
    let pos' := (pos + wideStep rate % 2 ^ 32) % 2 ^ 32
    if frames ≤ pos' / 65536 then (out', j + 1)
    else resampleLoop input frames rate channels n (j + 1) pos' out'

structure ResampleOut where
  ret : OperateRet
  outSize : ℤ
  out : ℕ → ℤ
  written : ℕ

/-- `resample_to_16k_fixed`; the frames it reports are half of `outSize`.  `outFrames` is what the
quotient of `frames * 16000` and `rate`, taken in doubles, comes to: its floor, or less. -/
def resampleTo16kFixed (outFrames : ℕ) (input : Option (ℕ → ℤ)) (frames rate channels : ℕ)
    (out : ℕ → ℤ) (outSize : ℤ) : ResampleOut :=
  if frames = 0 ∨ rate = 0 ∨ channels = 0 then ⟨-1, outSize, out, 0⟩
  else
    let loop := resampleLoop input frames rate channels outFrames 0 0 out
    ⟨oprtOk, outFrames * 2, loop.1, loop.2⟩

/-- `ai_player_resample_process`. -/
def aiPlayerResampleProcess (outFrames : ℕ) (input : Option (ℕ → ℤ)) (frames rate channels : ℕ)
    (out : ℕ → ℤ) (outSize : ℤ) : ResampleOut :=
  if outSize ≤ 0 then ⟨oprtInvalidParm, outSize, out, 0⟩
  else resampleTo16kFixed outFrames input frames rate channels out outSize

def Pcm16 (buf : ℕ → ℤ) : Prop := ∀ i, -32768 ≤ buf i ∧ buf i ≤ 32767

/-- A call in place and one with a fresh buffer, of `size` bytes, give the samples of the
positions. -/
structure ResampleSound (outFrames frames rate channels size : ℕ) (outSize : ℤ)
    (input fresh : ℕ → ℤ) : Prop where
  inPlace : ∀ j < outFrames,
    (aiPlayerResampleProcess outFrames none frames rate channels input outSize).out j =
      (aiPlayerResampleProcess outFrames (some input) frames rate channels fresh outSize).out j
  sample : ∀ j < outFrames,
    (aiPlayerResampleProcess outFrames (some input) frames rate channels fresh outSize).out j =
      interpolate input frames channels (j * wideStep rate)
  reported : (aiPlayerResampleProcess outFrames none frames rate channels input outSize).outSize =
    2 * (aiPlayerResampleProcess outFrames none frames rate channels input outSize).written
  fits : (aiPlayerResampleProcess outFrames none frames rate channels input outSize).outSize ≤ size

/-- No frame that is still read has been overwritten with another value: the output runs behind the
input, or there is too little of it. -/
def BehindInput (outFrames frames rate channels : ℕ) : Prop :=
  16000 ≤ rate ∨ outFrames ≤ 1 ∨
    channels = 1 ∧ (frames = 1 ∨ outFrames ≤ 2)

instance (outFrames frames rate channels : ℕ) :
    Decidable (BehindInput outFrames frames rate channels) :=
  inferInstanceAs (Decidable (_ ∨ _))

/-- The position at sample `j`, in 32 bits. -/
def positionAt (rate j : ℕ) : ℕ := j * wideStep rate % 2 ^ 32

theorem positionAt_succ (rate j : ℕ) :
    (positionAt rate j + wideStep rate % 2 ^ 32) % 2 ^ 32 = positionAt rate (j + 1) := by
  rw [positionAt, positionAt, ← Nat.add_mod, Nat.succ_mul]

theorem position_lt {outFrames frames rate j : ℕ} (hfloor : outFrames ≤ frames * 16000 / rate)
    (hj : j < outFrames) : j * wideStep rate < frames * 65536 := by
  have hj' : j < frames * 16000 / rate := Nat.lt_of_lt_of_le hj hfloor
  have hstep : wideStep rate * 16000 ≤ rate * 65536 := Nat.div_mul_le_self _ _
  have hrate : 0 < rate := by
    rcases Nat.eq_zero_or_pos rate with rfl | hpos
    · exact absurd hj' (by simp)
    · exact hpos
  have hframes : (j + 1) * rate ≤ frames * 16000 := (Nat.le_div_iff_mul_le hrate).mp hj'
  have hmul : j * wideStep rate * 16000 ≤ j * rate * 65536 := by
    rw [mul_assoc, mul_assoc]
    exact Nat.mul_le_mul_left j hstep
  rw [Nat.succ_mul] at hframes
  omega

section Loop

variable {outFrames frames rate channels : ℕ} {input : Option (ℕ → ℤ)} {out : ℕ → ℤ}

theorem resampleLoop_behind (n : ℕ) {i j : ℕ} (hij : i < j) (pos : ℕ) :
    (resampleLoop input frames rate channels n j pos out).1 i = out i := by
  induction n generalizing j pos out with
  | zero => rfl
  | succ n ih =>
      rw [resampleLoop]
      split_ifs
      · exact Function.update_of_ne (Nat.ne_of_lt hij) _ _
      · rw [ih (Nat.lt_succ_of_lt hij)]
        exact Function.update_of_ne (Nat.ne_of_lt hij) _ _

theorem resampleLoop_written (input' : Option (ℕ → ℤ)) (out' : ℕ → ℤ) (n j pos : ℕ) :
    (resampleLoop input frames rate channels n j pos out).2 =
      (resampleLoop input' frames rate channels n j pos out').2 := by
  induction n generalizing j pos out out' with
  | zero => rfl
  | succ n ih =>
      rw [resampleLoop, resampleLoop]
      split_ifs
      · rfl
      · exact ih _ _ _

theorem resampleLoop_turn {n j : ℕ}
    (hfull : (resampleLoop input frames rate channels (n + 1) j (positionAt rate j) out).2 =
      j + (n + 1)) :
    resampleLoop input frames rate channels (n + 1) j (positionAt rate j) out =
      resampleLoop input frames rate channels n (j + 1) (positionAt rate (j + 1))
        (Function.update out j
          (interpolate (input.getD out) frames channels (positionAt rate j))) := by
  rw [resampleLoop, positionAt_succ] at hfull ⊢
  split_ifs at hfull ⊢
  · obtain rfl : n = 0 := by omega
    rfl
  · rfl

theorem resampleLoop_sample {n j i : ℕ}
    (hfull : (resampleLoop input frames rate channels n j (positionAt rate j) out).2 = j + n)
    (hji : j ≤ i) (hi : i < j + n) :
    (resampleLoop input frames rate channels n j (positionAt rate j) out).1 i =
      interpolate
        (input.getD fun w ↦
          if w < i then (resampleLoop input frames rate channels n j (positionAt rate j) out).1 w
          else out w) frames channels (positionAt rate i) := by
  induction n generalizing j out with
  | zero => exact absurd hji (Nat.not_le_of_lt hi)
  | succ n ih =>
      rw [resampleLoop_turn hfull]
      rcases Nat.eq_or_lt_of_le hji with rfl | hlt
      · rw [resampleLoop_behind n (Nat.lt_succ_self j), Function.update_self]
        congr 1
        cases input with
        | some input => rfl
        | none =>
            funext w
            simp only [Option.getD_none]
            split_ifs with hw
            · rw [resampleLoop_behind n (Nat.lt_succ_of_lt hw),
                Function.update_of_ne (Nat.ne_of_lt hw)]
            · rfl
      · have hrest : (resampleLoop input frames rate channels n (j + 1) (positionAt rate (j + 1))
            (Function.update out j (interpolate (input.getD out) frames channels
              (positionAt rate j)))).2 = j + 1 + n := by
          rw [← resampleLoop_turn hfull, hfull]
          omega
        rw [ih hrest hlt (by omega)]
        congr 1
        cases input with
        | some input => rfl
        | none =>
            funext w
            simp only [Option.getD_none]
            split_ifs with hw
            · rfl
            · exact Function.update_of_ne (by omega) _ _

theorem resampleLoop_full (hfloor : outFrames ≤ frames * 16000 / rate)
    (hwrap : ∀ i < outFrames, i * wideStep rate < 2 ^ 32)
    {n j : ℕ} (hn : j + n = outFrames) :
    (resampleLoop input frames rate channels n j (positionAt rate j) out).2 = j + n := by
  induction n generalizing j out with
  | zero => rfl
  | succ n ih =>
      rw [resampleLoop, positionAt_succ]
      split_ifs with hbreak
      · rcases Nat.eq_zero_or_pos n with rfl | hpos
        · rfl
        · have hlt : j + 1 < outFrames := by omega
          have hpos := position_lt hfloor hlt
          rw [positionAt, Nat.mod_eq_of_lt (hwrap _ hlt)] at hbreak
          omega
      · rw [ih (by omega)]
        omega

end Loop

section Sound

variable {outFrames frames rate channels size : ℕ} {outSize : ℤ} {input fresh buf buf' : ℕ → ℤ}

theorem aiPlayerResampleProcess_eq (outFrames : ℕ) (hframes : 1 ≤ frames) (hrate : 1 ≤ rate)
    (hchannels : 1 ≤ channels) (hsize : 0 < outSize) (input : Option (ℕ → ℤ)) (out : ℕ → ℤ) :
    aiPlayerResampleProcess outFrames input frames rate channels out outSize =
      ⟨oprtOk, outFrames * 2,
        (resampleLoop input frames rate channels outFrames 0 (positionAt rate 0) out).1,
        (resampleLoop input frames rate channels outFrames 0 (positionAt rate 0) out).2⟩ := by
  have hzero : positionAt rate 0 = 0 := by simp [positionAt]
  rw [aiPlayerResampleProcess, if_neg (not_le.mpr hsize), resampleTo16kFixed,
    if_neg (by omega), hzero]

theorem frameMean_congr {idx : ℕ}
    (h : ∀ c < channels, buf (idx * channels + c) = buf' (idx * channels + c)) :
    frameMean buf channels idx = frameMean buf' channels idx := by
  have hmap : (List.range channels).map (fun c ↦ buf (idx * channels + c)) =
      (List.range channels).map fun c ↦ buf' (idx * channels + c) :=
    List.map_congr_left fun c hc ↦ h c (List.mem_range.mp hc)
  rw [frameMean, frameMean, hmap]

theorem interpolate_congr {pos : ℕ}
    (h : ∀ idx < frames, idx = pos / 65536 ∨ idx = pos / 65536 + 1 → ∀ c < channels,
      buf (idx * channels + c) = buf' (idx * channels + c)) :
    interpolate buf frames channels pos = interpolate buf' frames channels pos := by
  have hmean : ∀ idx, idx = pos / 65536 ∨ idx = pos / 65536 + 1 →
      (if idx < frames then frameMean buf channels idx else 0) =
        if idx < frames then frameMean buf' channels idx else 0 := by
    intro idx hidx
    split_ifs with hlt
    · exact frameMean_congr (h idx hlt hidx)
    · rfl
  simp only [interpolate]
  rw [hmean _ (.inl rfl), hmean _ (.inr rfl)]

theorem interpolate_zero_mono (hpcm : Pcm16 buf) (hframes : 1 ≤ frames) :
    interpolate buf frames 1 0 = buf 0 := by
  have hmean : frameMean buf 1 0 = buf 0 := by simp [frameMean]
  obtain ⟨hlow, hhigh⟩ := hpcm 0
  simp only [interpolate, Nat.zero_div, Nat.zero_mod,
    if_pos (Nat.lt_of_lt_of_le Nat.zero_lt_one hframes),
    hmean, Nat.cast_zero, mul_zero, add_zero, sub_zero]
  rw [Int.mul_ediv_cancel _ (by decide), clip16FromI64, if_neg (not_lt.mpr hhigh),
    if_neg (not_lt.mpr hlow)]

/-- What a turn reads has not been overwritten, or is the one sample that keeps its value. -/
theorem BehindInput.read (h : BehindInput outFrames frames rate channels) {j idx c : ℕ}
    (hchannels : 1 ≤ channels) (hj : j < outFrames) (hidx : idx < frames)
    (hread : idx = j * wideStep rate / 65536 ∨ idx = j * wideStep rate / 65536 + 1)
    (hc : c < channels) : j ≤ idx * channels + c ∨ channels = 1 ∧ idx * channels + c = 0 := by
  rcases h with hrate | hfew | ⟨rfl, rfl | hfew⟩
  · have hstep : 65536 ≤ wideStep rate := by
      rw [wideStep]
      omega
    have hmul : j * 65536 ≤ j * wideStep rate := Nat.mul_le_mul_left j hstep
    have hle : j ≤ idx := by omega
    exact .inl (hle.trans ((Nat.le_mul_of_pos_right idx hchannels).trans (Nat.le_add_right _ c)))
  · exact .inl (by omega)
  · exact .inr ⟨rfl, by omega⟩
  · by_cases hzero : idx = 0
    · exact .inr ⟨rfl, by omega⟩
    · exact .inl (by omega)

theorem resample_sound (hframes : 1 ≤ frames) (hrate : 1 ≤ rate) (hchannels : 1 ≤ channels)
    (hsize : 0 < outSize) (hfloor : outFrames ≤ frames * 16000 / rate)
    (hwrap : ∀ j < outFrames, j * wideStep rate < 2 ^ 32)
    (hbehind : BehindInput outFrames frames rate channels) (hfits : outFrames * 2 ≤ size)
    (hpcm : Pcm16 input) :
    ResampleSound outFrames frames rate channels size outSize input fresh := by
  have hrun := aiPlayerResampleProcess_eq outFrames hframes hrate hchannels hsize
  have hfull : ∀ (input : Option (ℕ → ℤ)) (out : ℕ → ℤ),
      (resampleLoop input frames rate channels outFrames 0 (positionAt rate 0) out).2 =
        0 + outFrames :=
    fun _ _ ↦ resampleLoop_full hfloor hwrap (Nat.zero_add _)
  have hposition : ∀ j < outFrames, positionAt rate j = j * wideStep rate :=
    fun j hj ↦ Nat.mod_eq_of_lt (hwrap j hj)
  have hsample : ∀ j < outFrames,
      (resampleLoop (some input) frames rate channels outFrames 0 (positionAt rate 0)
        fresh).1 j = interpolate input frames channels (j * wideStep rate) := by
    intro j hj
    rw [resampleLoop_sample (hfull _ _) (Nat.zero_le j) (by omega), hposition j hj]
    rfl
  have hplace : ∀ j < outFrames,
      (resampleLoop none frames rate channels outFrames 0 (positionAt rate 0)
        input).1 j = interpolate input frames channels (j * wideStep rate) := by
    intro j hj
    induction j using Nat.strong_induction_on with
    | _ j ih =>
        rw [resampleLoop_sample (hfull _ _) (Nat.zero_le j) (by omega), hposition j hj]
        apply interpolate_congr
        intro idx hidx hread c hc
        simp only [Option.getD_none]
        split_ifs with hlt
        · rcases hbehind.read hchannels hj hidx hread hc with hle | ⟨rfl, hzero⟩
          · exact absurd hle (Nat.not_le_of_lt hlt)
          · rw [hzero, ih 0 (by omega) (by omega), Nat.zero_mul, interpolate_zero_mono hpcm hframes]
        · rfl
  constructor
  · intro j hj
    rw [hrun, hrun]
    exact (hplace j hj).trans (hsample j hj).symm
  · intro j hj
    rw [hrun]
    exact hsample j hj
  · rw [hrun]
    simp only [hfull]
    push_cast
    ring
  · rw [hrun]
    dsimp only
    exact_mod_cast hfits

theorem interpolate_of {pos : ℕ} (s0 s1 : ℤ)
    (h0 : (if pos / 65536 < frames then frameMean buf channels (pos / 65536) else 0) = s0)
    (h1 : (if pos / 65536 + 1 < frames then frameMean buf channels (pos / 65536 + 1) else 0) = s1) :
    interpolate buf frames channels pos =
      clip16FromI64 ((s0 * (65536 - (pos % 65536 : ℕ)) + s1 * (pos % 65536 : ℕ)) / 65536) := by
  simp only [interpolate, h0, h1]

theorem frameMean_const (hchannels : 1 ≤ channels) {idx : ℕ} {x : ℤ}
    (h : ∀ c < channels, buf (idx * channels + c) = x) : frameMean buf channels idx = x := by
  have hmap : (List.range channels).map (fun c ↦ buf (idx * channels + c)) =
      List.replicate channels x := by
    rw [List.eq_replicate_iff]
    refine ⟨by simp, ?_⟩
    intro y hy
    obtain ⟨c, hc, rfl⟩ := List.mem_map.mp hy
    exact h c (List.mem_range.mp hc)
  rw [frameMean, hmap, List.sum_replicate, nsmul_eq_mul]
  exact Int.mul_tdiv_cancel_left x (by omega)

/-- Silence but for one frame. -/
def frameSpike (channels idx : ℕ) (w : ℕ) : ℤ := if w / channels = idx then -32768 else 0

theorem frameMean_frameSpike (hchannels : 1 ≤ channels) (idx i : ℕ) :
    frameMean (frameSpike channels idx) channels i = if i = idx then -32768 else 0 := by
  apply frameMean_const hchannels
  intro c hc
  have hdiv : (i * channels + c) / channels = i := by
    rw [Nat.mul_comm, Nat.mul_add_div hchannels, Nat.div_eq_of_lt hc, Nat.add_zero]
  rw [frameSpike, hdiv]

theorem wrapped_frame {a : ℕ} (h : 2 ^ 32 ≤ a) :
    a % 2 ^ 32 / 65536 ≠ a / 65536 ∧ a % 2 ^ 32 / 65536 + 1 ≠ a / 65536 := by
  omega

theorem interpolate_frameSpike_other (hchannels : 1 ≤ channels) {idx pos : ℕ}
    (h : pos / 65536 ≠ idx) (h' : pos / 65536 + 1 ≠ idx) :
    interpolate (frameSpike channels idx) frames channels pos = 0 := by
  rw [interpolate_of 0 0]
  · simp [clip16FromI64]
  · rw [frameMean_frameSpike hchannels, if_neg h, ite_self]
  · rw [frameMean_frameSpike hchannels, if_neg h', ite_self]

theorem interpolate_frameSpike_self (hchannels : 1 ≤ channels) {pos : ℕ}
    (hpos : pos / 65536 < frames) :
    interpolate (frameSpike channels (pos / 65536)) frames channels pos < 0 := by
  have hfrac : pos % 65536 < 65536 := Nat.mod_lt _ (by decide)
  rw [interpolate_of (-32768) 0, zero_mul, add_zero, clip16FromI64]
  · split_ifs <;> omega
  · rw [frameMean_frameSpike hchannels, if_pos hpos, if_pos rfl]
  · rw [frameMean_frameSpike hchannels, if_neg (Nat.succ_ne_self _), ite_self]

theorem no_wrap_of_sound (hframes : 1 ≤ frames) (hrate : 1 ≤ rate) (hchannels : 1 ≤ channels)
    (hsize : 0 < outSize) (hfloor : outFrames ≤ frames * 16000 / rate)
    (hall : ∀ input fresh, Pcm16 input →
      ResampleSound outFrames frames rate channels size outSize input fresh)
    {j : ℕ} (hj : j < outFrames) : j * wideStep rate < 2 ^ 32 := by
  by_contra hwrap
  have hidx : j * wideStep rate / 65536 < frames :=
    (Nat.div_lt_iff_lt_mul (by decide)).mpr (position_lt hfloor hj)
  obtain ⟨hother, hother'⟩ := wrapped_frame (not_lt.mp hwrap)
  set spike := frameSpike channels (j * wideStep rate / 65536) with hspike
  have hpcm : Pcm16 spike := by
    intro w
    rw [hspike, frameSpike]
    split_ifs <;> decide
  have hsound := hall spike (fun _ ↦ 0) hpcm
  have hreported := hsound.reported
  have hsample := hsound.sample j hj
  rw [aiPlayerResampleProcess_eq outFrames hframes hrate hchannels hsize] at hreported hsample
  have hfull : (resampleLoop (some spike) frames rate channels outFrames 0
      (positionAt rate 0) fun _ ↦ 0).2 = 0 + outFrames := by
    rw [resampleLoop_written none spike, Nat.zero_add]
    exact_mod_cast (mul_left_cancel₀ two_ne_zero ((mul_comm 2 _).trans hreported)).symm
  have hread := resampleLoop_sample hfull (Nat.zero_le j) (by rwa [Nat.zero_add])
  dsimp only at hsample
  rw [hsample, Option.getD_some, hspike, positionAt,
    interpolate_frameSpike_other hchannels hother hother'] at hread
  exact absurd hread (interpolate_frameSpike_self hchannels hidx).ne

/-- Silence behind two samples. -/
def twoSamples (x y : ℤ) (w : ℕ) : ℤ := if w = 0 then x else if w = 1 then y else 0

theorem frameMean_twoSamples_mono (x y : ℤ) (idx : ℕ) :
    frameMean (twoSamples x y) 1 idx = twoSamples x y idx := by
  simp [frameMean]

theorem frameMean_twoSamples_stereo (x y : ℤ) (idx : ℕ) :
    frameMean (twoSamples x y) 2 idx = if idx = 0 then (x + y).tdiv 2 else 0 := by
  have hsum : (List.range 2).map (fun c ↦ twoSamples x y (idx * 2 + c)) =
      [twoSamples x y (idx * 2), twoSamples x y (idx * 2 + 1)] := rfl
  rw [frameMean, hsum]
  by_cases hidx : idx = 0
  · subst hidx
    simp [twoSamples]
  · rw [if_neg hidx, twoSamples, twoSamples, if_neg (by omega), if_neg (by omega),
      if_neg (by omega), if_neg (by omega)]
    rfl

theorem interpolate_stereo (hframes : 1 ≤ frames) (x y : ℤ) {pos : ℕ} (hpos : pos < 65536) :
    interpolate (twoSamples x y) frames 2 pos =
      clip16FromI64 ((x + y).tdiv 2 * (65536 - pos) / 65536) := by
  have hidx : pos / 65536 = 0 := Nat.div_eq_of_lt hpos
  rw [interpolate_of ((x + y).tdiv 2) 0, Nat.mod_eq_of_lt hpos, zero_mul, add_zero]
  · rw [hidx, if_pos (by omega), frameMean_twoSamples_stereo, if_pos rfl]
  · rw [hidx, frameMean_twoSamples_stereo, if_neg (show ¬ 0 + 1 = 0 by decide), ite_self]

theorem interpolate_mono (hframes : 2 ≤ frames) (x y : ℤ) {pos : ℕ} (hpos : pos < 65536) :
    interpolate (twoSamples x y) frames 1 pos =
      clip16FromI64 ((x * (65536 - pos) + y * pos) / 65536) := by
  have hidx : pos / 65536 = 0 := Nat.div_eq_of_lt hpos
  rw [interpolate_of x y, Nat.mod_eq_of_lt hpos]
  · rw [hidx, if_pos (by omega), frameMean_twoSamples_mono]
    rfl
  · rw [hidx, if_pos (by omega), frameMean_twoSamples_mono]
    rfl

theorem interpolate_mono_next (hframes : 2 ≤ frames) (x y : ℤ) {pos : ℕ} (hlow : 65536 ≤ pos)
    (hhigh : pos < 131072) :
    interpolate (twoSamples x y) frames 1 pos =
      clip16FromI64 (y * (131072 - pos) / 65536) := by
  have hidx : pos / 65536 = 1 := by omega
  have hfrac : (65536 : ℤ) - (pos % 65536 : ℕ) = 131072 - pos := by omega
  rw [interpolate_of y 0, hfrac, zero_mul, add_zero]
  · rw [hidx, if_pos (by omega), frameMean_twoSamples_mono]
    rfl
  · have hzero : twoSamples x y (1 + 1) = 0 := rfl
    rw [hidx, frameMean_twoSamples_mono, hzero, ite_self]

theorem twoSamples_turn (res : ℕ → ℤ) {i : ℕ} (hi : 1 ≤ i) (htwo : i ≤ 2) :
    (fun w ↦ if w < i then res w else twoSamples (-32768) 0 w) =
      twoSamples (res 0) (if i = 2 then res 1 else 0) := by
  funext w
  rcases w with _ | _ | w
  · exact if_pos hi
  · by_cases h : i = 2
    · rw [if_pos (by omega), if_pos h]
      rfl
    · rw [if_neg (by omega), if_neg h]
      rfl
  · rw [if_neg (by omega), twoSamples, twoSamples, if_neg (by omega), if_neg (by omega),
      if_neg (by omega), if_neg (by omega)]

theorem clip16FromI64_small {v : ℤ} (hlow : -32768 ≤ v) (hhigh : v ≤ 32767) :
    clip16FromI64 v = v := by
  rw [clip16FromI64, if_neg (by omega), if_neg (by omega)]

/-- Two channels at a step below one frame: the first sample is in the way of the second. -/
theorem stereo_clash (hframes : 1 ≤ frames) {step : ℕ} (hstep : step ≤ 65531) {x : ℤ}
    (hx : x = interpolate (twoSamples (-32768) 0) frames 2 0) :
    interpolate (twoSamples (-32768) 0) frames 2 step ≠
      interpolate (twoSamples x 0) frames 2 step := by
  rw [interpolate_stereo hframes _ _ (by decide)] at hx
  have hfirst : x = -16384 := hx.trans (by decide)
  rw [hfirst, interpolate_stereo hframes _ _ (by omega), interpolate_stereo hframes _ _ (by omega)]
  have hmean : ((-32768 : ℤ) + 0).tdiv 2 = -16384 ∧ ((-16384 : ℤ) + 0).tdiv 2 = -8192 := by decide
  rw [hmean.1, hmean.2, clip16FromI64_small (by omega) (by omega),
    clip16FromI64_small (by omega) (by omega)]
  omega

theorem mono_clash (hframes : 2 ≤ frames) {step : ℕ} (hlow : 4 ≤ step) (hstep : step ≤ 65531)
    {x y : ℤ} (hx : x = interpolate (twoSamples (-32768) 0) frames 1 0)
    (hy : y = interpolate (twoSamples (-32768) 0) frames 1 step) :
    interpolate (twoSamples (-32768) 0) frames 1 (2 * step) ≠
      interpolate (twoSamples x y) frames 1 (2 * step) := by
  rw [interpolate_mono hframes _ _ (by decide)] at hx
  have hfirst : x = -32768 := hx.trans (by decide)
  rw [interpolate_mono hframes _ _ (by omega), zero_mul, add_zero,
    clip16FromI64_small (by omega) (by omega)] at hy
  rw [hfirst]
  by_cases hhalf : 2 * step < 65536
  · have hmul : y * (2 * step : ℕ) ≤ -16384 * (2 * step : ℕ) :=
      mul_le_mul_of_nonneg_right (by omega) (Int.natCast_nonneg _)
    rw [interpolate_mono hframes _ _ hhalf, interpolate_mono hframes _ _ hhalf, zero_mul, add_zero,
      clip16FromI64_small (v := -32768 * (65536 - (2 * step : ℕ)) / 65536) (by omega) (by omega),
      clip16FromI64]
    split_ifs <;> omega
  · have hmul : y * (131072 - (2 * step : ℕ)) ≤ -1 * (131072 - (2 * step : ℕ)) :=
      mul_le_mul_of_nonneg_right (by omega) (by omega)
    rw [interpolate_mono_next hframes _ _ (by omega) (by omega),
      interpolate_mono_next hframes _ _ (by omega) (by omega), zero_mul, Int.zero_ediv,
      clip16FromI64_small (v := 0) (by decide) (by decide), clip16FromI64]
    split_ifs <;> omega

theorem behindInput_of_sound (hframes : 1 ≤ frames) (hrate : 1 ≤ rate)
    (hchannels : channels = 1 ∨ channels = 2) (hsize : 0 < outSize)
    (hfloor : outFrames ≤ frames * 16000 / rate)
    (hall : ∀ input fresh, Pcm16 input →
      ResampleSound outFrames frames rate channels size outSize input fresh) :
    BehindInput outFrames frames rate channels := by
  have hpos : 1 ≤ channels := by omega
  have hwrap : ∀ i < outFrames, i * wideStep rate < 2 ^ 32 := fun i hi ↦
    no_wrap_of_sound hframes hrate hpos hsize hfloor hall hi
  have hpcm : Pcm16 (twoSamples (-32768) 0) := by
    intro w
    rw [twoSamples]
    split_ifs <;> decide
  have hsound := hall _ (fun _ ↦ 0) hpcm
  set res := (resampleLoop none frames rate channels outFrames 0 (positionAt rate 0)
    (twoSamples (-32768) 0)).1 with hres
  have hsame : ∀ i < outFrames,
      res i = interpolate (twoSamples (-32768) 0) frames channels (i * wideStep rate) := by
    intro i hi
    have hplace := hsound.inPlace i hi
    rw [hsound.sample i hi, aiPlayerResampleProcess_eq outFrames hframes hrate hpos hsize] at hplace
    exact hplace
  have hturn : ∀ i < outFrames,
      res i = interpolate (fun w ↦ if w < i then res w else twoSamples (-32768) 0 w) frames channels
        (i * wideStep rate) := by
    intro i hi
    have hfull : (resampleLoop none frames rate channels outFrames 0
        (positionAt rate 0) (twoSamples (-32768) 0)).2 = 0 + outFrames :=
      resampleLoop_full hfloor hwrap (Nat.zero_add _)
    have hrun := resampleLoop_sample hfull (Nat.zero_le i) (by omega)
    have hposition : positionAt rate i = i * wideStep rate := Nat.mod_eq_of_lt (hwrap i hi)
    rwa [hposition] at hrun
  by_contra hbehind
  rw [BehindInput, not_or, not_or, not_le, not_le] at hbehind
  obtain ⟨hslow, hmany, hmono⟩ := hbehind
  have hstep : 4 ≤ wideStep rate ∧ wideStep rate ≤ 65531 := by
    rw [wideStep]
    omega
  have hfirst := hsame 0 (by omega)
  have hsecond := hsame 1 hmany
  rw [Nat.zero_mul] at hfirst
  rw [Nat.one_mul] at hsecond
  rcases hchannels with rfl | rfl
  · have hthree : frames ≠ 1 ∧ 2 < outFrames := by
      rw [← not_le, ← not_or]
      exact fun h ↦ hmono ⟨rfl, h⟩
    have hclash := (hsame 2 hthree.2).symm.trans (hturn 2 hthree.2)
    rw [twoSamples_turn res (by decide) (by decide), if_pos rfl] at hclash
    exact mono_clash (by omega) hstep.1 hstep.2 hfirst hsecond hclash
  · have hclash := (hsame 1 hmany).symm.trans (hturn 1 hmany)
    rw [twoSamples_turn res (by decide) (by decide), if_neg (by decide), Nat.one_mul] at hclash
    exact stereo_clash hframes hstep.2 hfirst hclash

end Sound

/-- The resampler keeps its promise for every content of the buffer just when the position stays in
32 bits, the output runs behind the input and the output fits. -/
theorem resample_sound_iff {outFrames frames rate channels size : ℕ} {outSize : ℤ}
    (hframes : 1 ≤ frames) (hrate : 1 ≤ rate) (hchannels : channels = 1 ∨ channels = 2)
    (hsize : 0 < outSize) (hfloor : outFrames ≤ frames * 16000 / rate) :
    (∀ input fresh, Pcm16 input →
        ResampleSound outFrames frames rate channels size outSize input fresh) ↔
      (∀ j < outFrames, j * wideStep rate < 2 ^ 32) ∧
        BehindInput outFrames frames rate channels ∧ outFrames * 2 ≤ size := by
  have hpos : 1 ≤ channels := by omega
  constructor
  · intro hall
    refine ⟨fun j hj ↦ no_wrap_of_sound hframes hrate hpos hsize hfloor hall hj,
      behindInput_of_sound hframes hrate hchannels hsize hfloor hall, ?_⟩
    have hzero : Pcm16 fun _ ↦ 0 := by
      intro
      change (-32768 : ℤ) ≤ 0 ∧ (0 : ℤ) ≤ 32767
      decide
    have hfits := (hall (fun _ ↦ 0) (fun _ ↦ 0) hzero).fits
    rw [aiPlayerResampleProcess_eq outFrames hframes hrate hpos hsize] at hfits
    dsimp only at hfits
    exact_mod_cast hfits
  · rintro ⟨hwrap, hbehind, hfits⟩ input fresh hpcm
    exact resample_sound hframes hrate hpos hsize hfloor hwrap hbehind hfits hpcm

/-- A decode buffer of 8192 bytes with 1152 frames of two channels at 44100 Hz. -/
theorem resample_sound_mp3 :
    ResampleSound 417 1152 44100 2 8192 4608 (twoSamples (-32768) 32767) fun _ ↦ 0 := by
  have hwrap : ∀ j < 417, j * wideStep 44100 < 2 ^ 32 := by
    intro j hj
    have hstep : wideStep 44100 = 180633 := by decide
    rw [hstep]
    omega
  refine (resample_sound_iff (by decide) (by decide) (.inr rfl) (by decide) (by decide)).mpr
    ⟨hwrap, by decide, by decide⟩ _ _ fun i ↦ ?_
  rw [twoSamples]
  split_ifs <;> decide

end TuyaOpen.Audio
