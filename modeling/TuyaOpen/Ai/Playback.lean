import TuyaOpen.Ai.Output

/-!
# Events and audio of a playback

Runs of the callers and the output thread: the events they give and the audio that is handed
to the player.
-/

namespace TuyaOpen.Ai

def outputMachine : Mealy AudioPlayer OutputStep (List OutputEvent) where
  step := outputStep

def outputInit : AudioPlayer where
  status := .stopped
  ringbuf := .empty
  buf := []
  thread := .top
  lastState := .stopped
  lastOffset := 0
  calls _ := .idle
  starts := 0
  written := []
  taken := []

/-! ## What a run should look like -/

/-- Whether a playback is open behind the events, when START and END alternate in them. -/
def track : Bool → List OutputEvent → Option Bool
  | opened, [] => some opened
  | opened, .start :: events => if opened then none else track true events
  | opened, .finish :: events => if opened then track false events else none
  | opened, .media _ :: events => track opened events

/-- The audio that a step hands out goes on behind what the player took since the latest START:
it was written since then, by calls that began since then, and in this order. -/
def HandsOutAudio (s : AudioPlayer) (x : OutputStep) : Prop :=
  ∀ data, .media data ∈ (outputStep s x).2 →
    (s.taken ++ data).Sublist s.written ∧ ∀ b ∈ data, b.start = s.starts

/-- The section of a start comes when nothing is played and no END is due; the section of a stop
still finds something to stop, which the thread has not seen ended, and a forced one does
not find the thread with the status STOPPING in hand; and no section of a write comes behind
a start or a forced stop that came behind its call. -/
def Undisturbed (s : AudioPlayer) : OutputStep → Prop
  | .startSection t =>
      s.calls t = .starting → s.status = .idle ∨ s.status = .stopped ∧ s.lastState = .stopped
  | .stopSection t =>
      ∀ force thenStart, s.calls t = .stopping force thenStart →
        (s.status = .playing ∨ s.status = .stopping ∨
          s.status = .stopped ∧ s.lastState ≠ .stopped ∧ s.thread = .top) ∧
        (force = true → s.thread ≠ .held .stopping)
  | .writeSection t =>
      ∀ start rest cnt, s.calls t = .writing start rest cnt →
        start = s.starts ∧ s.status ≠ .idle
  | _ => True

/-! ## Tracking events -/

theorem track_append (opened : Bool) (events events' : List OutputEvent) :
    track opened (events ++ events') = (track opened events).bind fun o ↦ track o events' := by
  induction events generalizing opened with
  | nil => rfl
  | cons e events ih =>
      cases e with
      | start =>
          cases opened
          · exact ih true
          · rfl
      | finish =>
          cases opened
          · rfl
          · exact ih false
      | media data => exact ih opened

/-- A playback is open while something is played or an END is due. -/
def AudioPlayer.opened (s : AudioPlayer) : Bool :=
  match s.status with
  | .playing => true
  | .stopping => true
  | .stopped => s.lastState ≠ .stopped
  | .idle => false

/-! ## The invariant -/

/-- What the thread has in hand is still so, except that a playback it saw PLAYING may have been
stopped, and then there is nothing to read. -/
structure ThreadInv (s : AudioPlayer) : Prop where
  ending : s.thread = .ending → s.status = .stopped ∧ s.lastState ≠ .stopped
  stopping : s.thread = .held .stopping → s.status = .stopping
  playing : s.thread = .held .playing →
    s.status ≠ .stopped ∧ (s.status = .idle → s.buf = [] ∧ s.ringbuf.items = [])
  held : ∀ cur, s.thread = .held cur → cur = .playing ∨ cur = .stopping

/-- What was taken, what is in the output buffer and what is in the ring buffer was written in
this order, by calls that began since the latest START. -/
structure AudioInv (s : AudioPlayer) : Prop where
  order : (s.taken ++ s.buf ++ s.ringbuf.items).Sublist s.written
  current : ∀ b ∈ s.written, b.start = s.starts

structure PlayerInv (s : AudioPlayer) : Prop where
  thread : ThreadInv s
  audio : AudioInv s

theorem playerInv_init : PlayerInv outputInit where
  thread := ⟨by simp [outputInit], by simp [outputInit], by simp [outputInit], by simp [outputInit]⟩
  audio := ⟨List.Sublist.refl _, by simp [outputInit]⟩

theorem threadInv_top {s : AudioPlayer} (h : s.thread = .top) : ThreadInv s :=
  ⟨by simp [h], by simp [h], by simp [h], by simp [h]⟩

/-- The status of a playback that is on. -/
def AiOutputStatus.Active (status : AiOutputStatus) : Prop := status = .playing ∨ status = .stopping

theorem AudioPlayer.opened_of_active {s : AudioPlayer} (h : s.status.Active) : s.opened = true := by
  rcases h with h | h <;> simp [AudioPlayer.opened, h]

/-! ## The output thread -/

section Thread

variable {s : AudioPlayer}

theorem AudioInv.drop_buf (h : AudioInv s) :
    (s.taken ++ s.ringbuf.items).Sublist s.written := by
  refine List.Sublist.trans ?_ h.order
  rw [List.append_assoc]
  exact List.Sublist.append_left (List.sublist_append_right ..) _

theorem AudioInv.drop_ring (h : AudioInv s) : (s.taken ++ s.buf).Sublist s.written :=
  (List.sublist_append_left ..).trans h.order

theorem AudioInv.only_taken (h : AudioInv s) : s.taken.Sublist s.written :=
  (List.sublist_append_left ..).trans h.drop_ring

theorem AudioInv.output (h : AudioInv s) (cur : AiOutputStatus) (ret : MediaRet) :
    AudioInv (s.output cur ret).1 := by
  have htaken : ∀ n, s.taken ++ s.buf.take n ++ s.buf.drop n = s.taken ++ s.buf := by
    intro n
    rw [List.append_assoc, List.take_append_drop]
  cases ret with
  | failed => exact ⟨by simpa [AudioPlayer.output, Fifo.empty] using h.drop_ring, h.current⟩
  | took n =>
      simp only [AudioPlayer.output]
      split_ifs
      · exact ⟨h.order, h.current⟩
      · refine ⟨?_, h.current⟩
        dsimp only
        rw [htaken]
        exact h.order
      · refine ⟨?_, h.current⟩
        dsimp only
        rw [List.append_nil]
        refine List.Sublist.trans ?_ h.order
        exact (List.Sublist.append_left (List.take_sublist ..) _).append_right _
      · refine ⟨?_, h.current⟩
        dsimp only
        rw [List.append_nil]
        refine List.Sublist.trans ?_ h.order
        exact (List.Sublist.append_left (List.take_sublist ..) _).append_right _

theorem output_thread (s : AudioPlayer) (cur : AiOutputStatus) (ret : MediaRet) :
    (s.output cur ret).1.thread = .top := by
  cases ret with
  | failed => rfl
  | took n =>
      simp only [AudioPlayer.output]
      split_ifs <;> rfl

theorem output_events (s : AudioPlayer) (cur : AiOutputStatus) (ret : MediaRet) :
    (s.output cur ret).2 = [.media s.buf] := by
  cases ret with
  | failed => rfl
  | took n =>
      simp only [AudioPlayer.output]
      split_ifs <;> rfl

theorem output_opened (hactive : s.status.Active) {cur : AiOutputStatus} (hcur : cur ≠ .stopped)
    (ret : MediaRet) : (s.output cur ret).1.opened = true := by
  have hended : ∀ {s' : AudioPlayer}, s'.status = .stopped → s'.lastState = cur →
      s'.opened = true := by
    intro s' hstatus hlast
    simp [AudioPlayer.opened, hstatus, hlast, hcur]
  cases ret with
  | failed => exact hended rfl rfl
  | took n =>
      simp only [AudioPlayer.output]
      split_ifs
      · exact hended rfl rfl
      · exact AudioPlayer.opened_of_active hactive
      · exact hended rfl rfl
      · exact AudioPlayer.opened_of_active hactive

/-- What the player gets was written since the latest START. -/
def AudioPlayer.Presents (s : AudioPlayer) (events : List OutputEvent) : Prop :=
  ∀ data, .media data ∈ events →
    (s.taken ++ data).Sublist s.written ∧ ∀ b ∈ data, b.start = s.starts

/-- A section that leaves the invariant behind it, with events that fit. -/
structure SectionOk (s : AudioPlayer) (r : AudioPlayer × List OutputEvent) : Prop where
  inv : PlayerInv r.1
  events : track s.opened r.2 = some r.1.opened
  audio : s.Presents r.2

theorem AudioInv.presents (h : AudioInv s) (data : List AudioByte)
    (hdata : (s.taken ++ data).Sublist s.written) : s.Presents [.media data] := by
  intro data' hmem
  obtain rfl : data' = data := by simpa using hmem
  refine ⟨hdata, fun b hb ↦ h.current b (hdata.subset ?_)⟩
  exact List.mem_append_right _ hb

theorem sectionOk_output {s' : AudioPlayer} (h : AudioInv s') (hactive : s'.status.Active)
    (hstatus : s'.status = s.status) (htaken : s'.taken = s.taken)
    (hwritten : s'.written = s.written)
    (hstarts : s'.starts = s.starts) {cur : AiOutputStatus} (hcur : cur ≠ .stopped)
    (ret : MediaRet) : SectionOk s (s'.output cur ret) where
  inv := ⟨threadInv_top (output_thread ..), h.output cur ret⟩
  events := by
    rw [output_events, output_opened hactive hcur, AudioPlayer.opened_of_active (hstatus ▸ hactive)]
    rfl
  audio := by
    rw [output_events]
    have hpresents := h.presents s'.buf h.drop_ring
    rw [AudioPlayer.Presents, htaken, hwritten, hstarts] at hpresents
    exact hpresents

theorem AudioInv.fetch (h : AudioInv s) (n offset : ℕ) :
    AudioInv { s with
      ringbuf := s.ringbuf.drop n
      lastOffset := offset
      buf := s.buf ++ s.ringbuf.items.take n } where
  order := by
    have hsame : s.taken ++ (s.buf ++ s.ringbuf.items.take n) ++ s.ringbuf.items.drop n =
        s.taken ++ s.buf ++ s.ringbuf.items := by
      simp only [List.append_assoc, List.take_append_drop]
    change (s.taken ++ (s.buf ++ s.ringbuf.items.take n) ++ s.ringbuf.items.drop n).Sublist
      s.written
    rw [hsame]
    exact h.order
  current := h.current

theorem sectionOk_play (h : PlayerInv s) {cur : AiOutputStatus} (hheld : s.thread = .held cur)
    (late : Bool) (ret : MediaRet) : SectionOk s (s.play cur late ret) := by
  have hcur : cur ≠ .stopped := by
    rcases h.thread.held cur hheld with rfl | rfl <;> decide
  -- with something to hand out the playback is on
  have hactive : s.buf ≠ [] ∨ s.ringbuf.items ≠ [] ∨ cur ≠ .playing → s.status.Active := by
    intro hsome
    rcases h.thread.held cur hheld with rfl | rfl
    · obtain ⟨hstopped, hidle⟩ := h.thread.playing hheld
      cases hstatus : s.status with
      | playing => exact .inl rfl
      | stopping => exact .inr rfl
      | stopped => exact absurd hstatus hstopped
      | idle =>
          obtain ⟨hbuf, hring⟩ := hidle hstatus
          simp [hbuf, hring] at hsome
    · exact .inr (h.thread.stopping hheld)
  set n := aiOutputBufSize - s.buf.length with hn
  have hfetch := h.audio.fetch n
  rw [AudioPlayer.play]
  simp only [← hn]
  split_ifs with hempty hbuf hoffset hlate
  · -- nothing to do
    have hkeep : (s.taken ++ s.buf ++ s.ringbuf.items.drop n).Sublist s.written :=
      (List.Sublist.append_left (List.drop_sublist ..) _).trans h.audio.order
    exact ⟨⟨threadInv_top rfl, ⟨hkeep, h.audio.current⟩⟩, rfl, by simp [AudioPlayer.Presents]⟩
  · refine ⟨⟨threadInv_top rfl, ?_⟩, ?_, by simp [AudioPlayer.Presents]⟩
    · exact ⟨by simpa [Fifo.empty] using h.audio.drop_ring, h.audio.current⟩
    · rw [AudioPlayer.opened_of_active (hactive (.inl hbuf))]
      simp [track, AudioPlayer.opened, hcur]
  · have hsame := hfetch s.lastOffset
    rw [hempty.2, List.append_nil] at hsame
    exact sectionOk_output (s := s) hsame (hactive (.inl hbuf)) rfl rfl rfl rfl hcur ret
  · have hsame := hfetch s.buf.length
    rw [hempty.2, List.append_nil] at hsame
    exact sectionOk_output (s := s) hsame (hactive (.inl hbuf)) rfl rfl rfl rfl hcur ret
  · have hon : s.status.Active := by
      apply hactive
      by_cases hplaying : cur = .playing
      · right
        left
        intro hitems
        exact hempty ⟨hplaying, by simp [hitems]⟩
      · exact .inr (.inr hplaying)
    exact sectionOk_output (s := s) (hfetch 0) hon rfl rfl rfl rfl hcur ret

theorem sectionOk_sample (h : PlayerInv s) (htop : s.thread = .top) :
    SectionOk s (s.sample, []) := by
  have hempty : AudioInv { s with buf := [] } :=
    ⟨by simpa using h.audio.drop_buf, h.audio.current⟩
  rw [AudioPlayer.sample.eq_def]
  split
  · rename_i hstatus
    split_ifs with hlast
    · exact ⟨⟨threadInv_top htop, hempty⟩, rfl, by simp [AudioPlayer.Presents]⟩
    · refine ⟨⟨⟨fun _ ↦ ⟨hstatus, hlast⟩, ?_, ?_, ?_⟩, ⟨hempty.order, hempty.current⟩⟩, rfl,
        by simp [AudioPlayer.Presents]⟩
      · intro hheld
        cases hheld
      · intro hheld
        cases hheld
      · intro cur hheld
        cases hheld
  · rename_i hstatus
    refine ⟨⟨threadInv_top htop, ⟨h.audio.order, h.audio.current⟩⟩,
      ?_, by simp [AudioPlayer.Presents]⟩
    simp [track, AudioPlayer.opened, hstatus]
  · rename_i hstopped hidle
    refine ⟨⟨⟨?_, ?_, ?_, ?_⟩, ⟨h.audio.order, h.audio.current⟩⟩,
      rfl, by simp [AudioPlayer.Presents]⟩
    · intro hheld
      cases hheld
    · intro hheld
      exact OutputThread.held.inj hheld
    · intro _
      exact ⟨hstopped, fun hstatus ↦ absurd hstatus hidle⟩
    · intro cur hheld
      obtain rfl := OutputThread.held.inj hheld
      cases hstatus : s.status with
      | playing => exact .inl rfl
      | stopping => exact .inr rfl
      | stopped => exact absurd hstatus hstopped
      | idle => exact absurd hstatus hidle

end Thread

/-! ## The callers -/

section Callers

variable {s : AudioPlayer} {t : ℕ}

theorem sectionOk_setCall (h : PlayerInv s) (t : ℕ) (call : OutputCall) :
    SectionOk s (s.setCall t call, []) where
  inv := ⟨⟨h.thread.ending, h.thread.stopping, h.thread.playing, h.thread.held⟩,
    ⟨h.audio.order, h.audio.current⟩⟩
  events := rfl
  audio := by simp [AudioPlayer.Presents]

theorem sectionOk_same (h : PlayerInv s) : SectionOk s (s, []) where
  inv := h
  events := rfl
  audio := by simp [AudioPlayer.Presents]

theorem sectionOk_start (h : PlayerInv s)
    (hquiet : s.status = .idle ∨ s.status = .stopped ∧ s.lastState = .stopped) :
    SectionOk s (s.startSection t) where
  inv := by
    refine ⟨⟨?_, ?_, ?_, h.thread.held⟩, ⟨List.Sublist.refl _, by simp [AudioPlayer.startSection]⟩⟩
    · intro hending
      obtain ⟨hstopped, hlast⟩ := h.thread.ending hending
      rcases hquiet with hidle | ⟨-, hsame⟩
      · cases hidle.symm.trans hstopped
      · exact absurd hsame hlast
    · intro hheld
      have hstopping := h.thread.stopping hheld
      rcases hquiet with hidle | ⟨hstopped, -⟩
      · cases hidle.symm.trans hstopping
      · cases hstopped.symm.trans hstopping
    · intro _
      exact ⟨by simp [AudioPlayer.startSection], by simp [AudioPlayer.startSection]⟩
  events := by
    have hclosed : s.opened = false := by
      rcases hquiet with hidle | ⟨hstopped, hlast⟩
      · simp [AudioPlayer.opened, hidle]
      · simp [AudioPlayer.opened, hstopped, hlast]
    rw [hclosed]
    rfl
  audio := by simp [AudioPlayer.Presents, AudioPlayer.startSection]

theorem sectionOk_stop (h : PlayerInv s) {force thenStart : Bool}
    (hstatus : s.status = .playing ∨ s.status = .stopping ∨
      s.status = .stopped ∧ s.lastState ≠ .stopped ∧ s.thread = .top)
    (hforce : force = true → s.thread ≠ .held .stopping) :
    SectionOk s (s.stopSection t force thenStart) := by
  have hopened : s.opened = true := by
    rcases hstatus with hplaying | hstopping | ⟨hstopped, hlast, -⟩
    · simp [AudioPlayer.opened, hplaying]
    · simp [AudioPlayer.opened, hstopping]
    · simp [AudioPlayer.opened, hstopped, hlast]
  have hending : s.thread ≠ .ending := by
    intro hending
    have hstopped := (h.thread.ending hending).1
    rcases hstatus with hplaying | hstopping | ⟨-, -, htop⟩
    · cases hplaying.symm.trans hstopped
    · cases hstopping.symm.trans hstopped
    · cases htop.symm.trans hending
  rw [AudioPlayer.stopSection]
  cases force with
  | true =>
      refine ⟨⟨⟨?_, ?_, ?_, h.thread.held⟩, ?_⟩, ?_, by simp [AudioPlayer.Presents]⟩
      · intro hheld
        exact absurd hheld hending
      · intro hheld
        exact absurd hheld (hforce rfl)
      · intro _
        exact ⟨by simp, fun _ ↦ ⟨rfl, rfl⟩⟩
      · refine ⟨?_, h.audio.current⟩
        change (s.taken ++ [] ++ []).Sublist s.written
        rw [List.append_nil, List.append_nil]
        exact h.audio.only_taken
      · rw [hopened]
        rfl
  | false =>
      refine ⟨⟨⟨?_, fun _ ↦ rfl, ?_, h.thread.held⟩, ?_⟩, ?_, by simp [AudioPlayer.Presents]⟩
      · intro hheld
        exact absurd hheld hending
      · intro _
        exact ⟨by simp, by simp⟩
      · exact ⟨h.audio.order, h.audio.current⟩
      · rw [hopened]
        rfl

theorem sectionOk_write (h : PlayerInv s) {start : ℕ} (hstart : start = s.starts)
    (hidle : s.status ≠ .idle) (rest : List UInt8) (cnt : Option ℕ) :
    SectionOk s (s.writeSection t start rest cnt, []) := by
  set data := rest.map (AudioByte.mk start) with hdata
  set n := aiOutputRingbufSize - 1 - s.ringbuf.items.length with hn
  have hinv : PlayerInv
      { s with ringbuf := s.ringbuf.write data, written := s.written ++ data.take n } := by
    refine ⟨⟨h.thread.ending, h.thread.stopping, fun hheld ↦ ?_, h.thread.held⟩, ?_, ?_⟩
    · exact ⟨(h.thread.playing hheld).1, fun hstatus ↦ absurd hstatus hidle⟩
    · change (s.taken ++ s.buf ++ (s.ringbuf.items ++ data.take n)).Sublist
        (s.written ++ data.take n)
      rw [← List.append_assoc]
      exact h.audio.order.append_right _
    · intro b hb
      rcases List.mem_append.mp hb with hold | hnew
      · exact h.audio.current b hold
      · obtain ⟨byte, -, rfl⟩ := List.mem_map.mp (List.mem_of_mem_take hnew)
        exact hstart
  cases cnt with
  | none => exact ⟨(sectionOk_setCall hinv t _).inv, rfl, by simp [AudioPlayer.Presents]⟩
  | some cnt => exact ⟨(sectionOk_setCall hinv t _).inv, rfl, by simp [AudioPlayer.Presents]⟩

theorem PlayerInv.step (h : PlayerInv s) {x : OutputStep} (hq : Undisturbed s x) :
    SectionOk s (outputStep s x) := by
  cases x with
  | sample =>
      rw [outputStep]
      split_ifs with htop
      · exact sectionOk_sample h htop
      · exact sectionOk_same h
  | play late ret =>
      rw [outputStep]
      split
      · rename_i cur hheld
        exact sectionOk_play h hheld late ret
      · exact sectionOk_same h
  | finish =>
      rw [outputStep]
      split_ifs with hending
      · obtain ⟨hstopped, hlast⟩ := h.thread.ending hending
        refine ⟨⟨threadInv_top rfl, ⟨h.audio.order, h.audio.current⟩⟩,
          ?_, by simp [AudioPlayer.Presents]⟩
        have hopened : s.opened = true := by simp [AudioPlayer.opened, hstopped, hlast]
        rw [hopened]
        simp [track, AudioPlayer.opened, hstopped]
      · exact sectionOk_same h
  | startCall t =>
      rw [outputStep]
      split_ifs
      · exact sectionOk_setCall h ..
      · exact sectionOk_setCall h ..
      · exact sectionOk_same h
  | stopCheck t =>
      rw [outputStep]
      split_ifs
      · exact sectionOk_setCall h ..
      · exact sectionOk_setCall h ..
      · exact sectionOk_same h
  | stopCall t force =>
      rw [outputStep]
      split_ifs
      · exact sectionOk_setCall h ..
      · exact sectionOk_same h
  | stopSection t =>
      rw [outputStep]
      split
      · rename_i force thenStart hcall
        obtain ⟨hstatus, hforce⟩ := hq force thenStart hcall
        exact sectionOk_stop h hstatus hforce
      · exact sectionOk_same h
  | startSection t =>
      rw [outputStep]
      split_ifs with hcall
      · exact sectionOk_start h (hq hcall)
      · exact sectionOk_same h
  | writeCall t data =>
      rw [outputStep]
      split_ifs
      · exact sectionOk_setCall h ..
      · exact sectionOk_same h
  | writeSection t =>
      rw [outputStep]
      split
      · rename_i start rest cnt hcall
        obtain ⟨hstart, hidle⟩ := hq start rest cnt hcall
        exact sectionOk_write h hstart hidle rest cnt
      · exact sectionOk_same h

end Callers

theorem track_outputs {s : AudioPlayer} (h : PlayerInv s) {steps : List OutputStep}
    (hq : outputMachine.Guarded Undisturbed s steps) :
    track s.opened (outputMachine.outputs s steps).flatten =
      some (outputMachine.final s steps).opened := by
  induction steps generalizing s with
  | nil => rfl
  | cons x steps ih =>
      have hstep := h.step hq.1
      have hevents : track s.opened (outputMachine.step s x).2 =
          some (outputMachine.step s x).1.opened := hstep.events
      rw [Mealy.outputs_cons, List.flatten_cons, track_append, hevents, Option.bind_some,
        Mealy.final_cons]
      exact ih hstep.inv hq.2

/-- In every undisturbed run START and END alternate, and the audio that is handed out was
written since the latest START, in order and once. -/
theorem playback_well_formed {steps : List OutputStep}
    (h : outputMachine.Guarded Undisturbed outputInit steps) :
    (track false (outputMachine.outputs outputInit steps).flatten).isSome ∧
      ∀ k x, steps[k]? = some x →
        HandsOutAudio (outputMachine.final outputInit (steps.take k)) x := by
  constructor
  · have hrun := track_outputs playerInv_init h
    change track false _ = _ at hrun
    rw [hrun]
    rfl
  · intro k x hx
    obtain ⟨hk, hguard⟩ := h.step_at hx
    have hinv : PlayerInv (outputMachine.final outputInit (steps.take k)) :=
      outputMachine.inv_final (fun _ _ hs hq ↦ (hs.step hq).inv) playerInv_init hk
    exact (hinv.step hguard).audio

/-! ## Runs -/

/-- A playback that is written, handed out and stopped when it is through. -/
def wholePlayback : List OutputStep :=
  [.startCall 0, .startSection 0, .writeCall 1 [1, 2], .writeSection 1, .sample,
    .play false (.took 2), .stopCall 0 false, .stopSection 0, .sample, .play false (.took 0),
    .sample, .finish]

theorem playback_well_formed_wholePlayback :
    (track false (outputMachine.outputs outputInit wholePlayback).flatten).isSome ∧
      HandsOutAudio (outputMachine.final outputInit (wholePlayback.take 5))
        (.play false (.took 2)) ∧
      (outputMachine.outputs outputInit wholePlayback).flatten =
        [.start, .media [⟨1, 1⟩, ⟨1, 2⟩], .media [], .finish] := by
  have hguard : outputMachine.Guarded Undisturbed outputInit wholePlayback := by
    refine ⟨trivial, fun _ ↦ .inr ⟨rfl, rfl⟩, trivial, ?_, trivial, trivial, trivial, ?_, trivial,
      trivial, trivial, trivial, trivial⟩
    · intro start rest cnt hcall
      cases hcall
      exact ⟨rfl, by decide⟩
    · intro force thenStart hcall
      cases hcall
      exact ⟨.inl rfl, fun hforce ↦ by cases hforce⟩
  obtain ⟨hevents, haudio⟩ := playback_well_formed hguard
  exact ⟨hevents, haudio 5 _ rfl, rfl⟩

/-- A start while the thread sleeps before the END of the playback before. -/
def earlyStart : List OutputStep :=
  [.startCall 0, .startSection 0, .stopCall 0 false, .stopSection 0, .sample, .play false (.took 0),
    .sample, .startCall 0, .startSection 0, .finish]

/-- A write that began before a forced stop and the next start goes on behind them. -/
def lateWrite : List OutputStep :=
  [.startCall 0, .startSection 0, .writeCall 1 [1, 2], .stopCall 0 true, .stopSection 0,
    .startCall 0, .startSection 0, .writeSection 1, .sample]

theorem playback_not_well_formed :
    ¬(track false (outputMachine.outputs outputInit earlyStart).flatten).isSome ∧
      ¬HandsOutAudio (outputMachine.final outputInit lateWrite) (.play false (.took 2)) := by
  constructor
  · have hevents : (outputMachine.outputs outputInit earlyStart).flatten =
        [.start, .media [], .start, .finish] := rfl
    rw [hevents]
    decide
  · intro h
    obtain ⟨-, hstart⟩ := h [⟨1, 1⟩, ⟨1, 2⟩] (List.mem_singleton.mpr rfl)
    exact absurd (hstart ⟨1, 1⟩ (by simp)) (by decide)

end TuyaOpen.Ai
