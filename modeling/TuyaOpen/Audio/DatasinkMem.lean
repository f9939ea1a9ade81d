import TuyaOpen.Lib.Mealy
import TuyaOpen.Utilities.RingBuf

/-!
# Feeding a player from memory

One thread feeds blocks into the ring buffer of `datasink_mem.c` and another reads it.  A section
under the mutex is one step, and so is the test of `eof`, which a read makes outside of it.
-/

namespace TuyaOpen.Audio

open RingBuf

/-- The feeding thread: between two calls, or in the loop of a call with what is left to write. -/
inductive Feeder
  | idle
  | writing (data : List UInt8) (cnt : ℕ)
  deriving DecidableEq

/-- The reading thread: between two calls, or in one that has read `rt` bytes. -/
inductive Reader
  | idle
  | tests (rt : ℕ)
  deriving DecidableEq

structure MemDatasinkCtx where
  ringbuf : RingBuff
  eof : Bool

/-- The sink and its two threads, with the bytes of all blocks fed so far, the bytes read so far,
and whether a read has returned `OPRT_NOT_FOUND`. -/
structure SinkState where
  ctx : MemDatasinkCtx
  feeder : Feeder
  reader : Reader
  fed : List UInt8
  got : List UInt8
  ended : Bool

inductive SinkEvent
  | feed (data : List UInt8)
  | feedAgain
  | feedEof
  | read (len : ℕ)
  | readTest

/-- A write of the feeder, and what is left of its data. -/
def sinkWrite (ctx : MemDatasinkCtx) (data : List UInt8) : MemDatasinkCtx × List UInt8 :=
  let r := tuyaRingBuffWrite ctx.ringbuf (some data) data.length
  ({ ctx with ringbuf := r.1 }, data.drop r.2)

/-- `datasink_mem_feed` with data, up to its loop. -/
def datasinkMemFeed (ctx : MemDatasinkCtx) (data : List UInt8) : MemDatasinkCtx × Feeder :=
  if data = [] then (ctx, .idle)
  else
    let r := sinkWrite ctx data
    (r.1, if r.2 = [] then .idle else .writing r.2 0)

/-- A turn of the loop, which gives up in the end and returns `OPRT_OK` all the same. -/
def datasinkMemFeedTurn (ctx : MemDatasinkCtx) (data : List UInt8) (cnt : ℕ) :
    MemDatasinkCtx × Feeder :=
  let r := sinkWrite ctx data
  (r.1, if 500 < cnt then .idle else if r.2 = [] then .idle else .writing r.2 (cnt + 1))

/-- The end of `datasink_mem_read`. -/
def datasinkMemReadRet (ctx : MemDatasinkCtx) (rt : ℕ) : OperateRet :=
  if rt = 0 ∧ ctx.eof = true then oprtNotFound else oprtOk

def sinkMachine : Mealy SinkState SinkEvent Unit where
  step s
    | .feed data =>
      match s.feeder with
      | .idle =>
        let r := datasinkMemFeed s.ctx data
        ({ s with ctx := r.1, feeder := r.2, fed := s.fed ++ data }, ())
      | .writing _ _ => (s, ())
    | .feedAgain =>
      match s.feeder with
      | .idle => (s, ())
      | .writing data cnt =>
        let r := datasinkMemFeedTurn s.ctx data cnt
        ({ s with ctx := r.1, feeder := r.2 }, ())
    | .feedEof =>
      match s.feeder with
      | .idle => ({ s with ctx.eof := true }, ())
      | .writing _ _ => (s, ())
    | .read len =>
      match s.reader with
      | .idle =>
        if len = 0 then (s, ())
        else
          let r := tuyaRingBuffRead s.ctx.ringbuf true len
          ({ s with ctx.ringbuf := r.1, reader := .tests r.2.2, got := s.got ++ r.2.1 }, ())
      | .tests _ => (s, ())
    | .readTest =>
      match s.reader with
      | .idle => (s, ())
      | .tests rt =>
        let ended := decide (datasinkMemReadRet s.ctx rt = oprtNotFound)
        ({ s with reader := .idle, ended := s.ended || ended }, ())

def sinkStart (ringbuf : RingBuff) : SinkState := ⟨⟨ringbuf, false⟩, .idle, .idle, [], [], false⟩

def Feeder.left : Feeder → List UInt8
  | .idle => []
  | .writing data _ => data

/-! ## Writes and reads -/

variable {ctx : MemDatasinkCtx}

theorem sinkWrite_content (h : Wf ctx.ringbuf) (data : List UInt8) :
    Wf (sinkWrite ctx data).1.ringbuf ∧ (sinkWrite ctx data).1.eof = ctx.eof ∧
      content (sinkWrite ctx data).1.ringbuf ++ (sinkWrite ctx data).2 =
        content ctx.ringbuf ++ data := by
  obtain ⟨hwf, -, hcontent, hcount⟩ := write_spec h data
  refine ⟨hwf, rfl, ?_⟩
  dsimp only [sinkWrite]
  rw [hcontent, hcount, List.append_assoc, List.take_eq_take_min, List.take_append_drop]

theorem datasinkMemFeed_content (h : Wf ctx.ringbuf) (data : List UInt8) :
    Wf (datasinkMemFeed ctx data).1.ringbuf ∧ (datasinkMemFeed ctx data).1.eof = ctx.eof ∧
      content (datasinkMemFeed ctx data).1.ringbuf ++ (datasinkMemFeed ctx data).2.left =
        content ctx.ringbuf ++ data := by
  obtain ⟨hwf, heof, hcontent⟩ := sinkWrite_content h data
  rw [datasinkMemFeed]
  split_ifs with hdata
  · subst hdata
    exact ⟨h, rfl, rfl⟩
  · refine ⟨hwf, heof, ?_⟩
    dsimp only
    split_ifs with hrest
    · rw [hrest] at hcontent
      exact hcontent
    · exact hcontent

/-- A turn keeps the order, and loses what is left of the block when it gives up. -/
theorem datasinkMemFeedTurn_content (h : Wf ctx.ringbuf) (data : List UInt8) (cnt : ℕ) :
    Wf (datasinkMemFeedTurn ctx data cnt).1.ringbuf ∧
      (datasinkMemFeedTurn ctx data cnt).1.eof = ctx.eof ∧
      ∃ lost, content (datasinkMemFeedTurn ctx data cnt).1.ringbuf ++
          ((datasinkMemFeedTurn ctx data cnt).2.left ++ lost) = content ctx.ringbuf ++ data ∧
        (500 < cnt → tuyaRingBuffFreeSizeGet ctx.ringbuf < data.length ∨ lost = []) ∧
        (¬500 < cnt → lost = []) := by
  obtain ⟨hwf, heof, hcontent⟩ := sinkWrite_content h data
  refine ⟨hwf, heof, ?_⟩
  rw [datasinkMemFeedTurn]
  dsimp only
  split_ifs with hcnt hrest
  · refine ⟨(sinkWrite ctx data).2, hcontent, fun _ ↦ ?_, fun h ↦ absurd hcnt h⟩
    by_cases hroom : tuyaRingBuffFreeSizeGet ctx.ringbuf < data.length
    · exact .inl hroom
    · right
      rw [sinkWrite, (write_spec h data).2.2.2]
      apply List.drop_of_length_le
      omega
  · exact ⟨[], by rw [hrest] at hcontent; exact hcontent, fun h ↦ absurd h hcnt, fun _ ↦ rfl⟩
  · exact ⟨[], by rw [List.append_nil]; exact hcontent, fun h ↦ absurd h hcnt, fun _ ↦ rfl⟩

theorem read_content {r : RingBuff} (h : Wf r) (len : ℕ) :
    Wf (tuyaRingBuffRead r true len).1 ∧
      (tuyaRingBuffRead r true len).2.1 ++ content (tuyaRingBuffRead r true len).1 = content r ∧
      ((tuyaRingBuffRead r true len).2.2 = 0 → len = 0 ∨ content r = []) := by
  rw [read_eq h]
  refine ⟨wf_advance_out h (min_le_left _ _), ?_, ?_⟩
  · rw [content_advance_out h (min_le_left _ _), ← length_content, min_comm,
      ← List.drop_eq_drop_min, List.take_append_drop]
  · intro hzero
    rw [← length_content] at hzero
    rcases Nat.min_eq_zero_iff.mp hzero with hnil | hlen
    · exact .inr (List.eq_nil_of_length_eq_zero hnil)
    · exact .inl hlen

/-! ## Every interleaving -/

/-- Nothing is read twice, out of order or without having been fed. -/
structure SinkOrder (s : SinkState) : Prop where
  wf : Wf s.ctx.ringbuf
  order : (s.got ++ (content s.ctx.ringbuf ++ s.feeder.left)).Sublist s.fed

theorem sinkOrder_step (s : SinkState) (ev : SinkEvent) (h : SinkOrder s) :
    SinkOrder (sinkMachine.step s ev).1 := by
  cases ev with
  | feed data =>
      cases hfeeder : s.feeder with
      | writing rest cnt => simpa only [sinkMachine, hfeeder] using h
      | idle =>
          obtain ⟨hwf, -, hcontent⟩ := datasinkMemFeed_content h.wf data
          have horder := h.order
          rw [hfeeder, Feeder.left, List.append_nil] at horder
          simp only [sinkMachine, hfeeder]
          refine ⟨hwf, ?_⟩
          rw [hcontent, ← List.append_assoc]
          exact horder.append_right _
  | feedAgain =>
      cases hfeeder : s.feeder with
      | idle => simpa only [sinkMachine, hfeeder] using h
      | writing rest cnt =>
          obtain ⟨hwf, -, lost, hcontent, -⟩ := datasinkMemFeedTurn_content h.wf rest cnt
          have horder := h.order
          rw [hfeeder, Feeder.left, ← hcontent] at horder
          simp only [sinkMachine, hfeeder]
          refine ⟨hwf, List.Sublist.trans ?_ horder⟩
          exact ((List.sublist_append_left _ _).append_left _).append_left _
  | feedEof =>
      cases hfeeder : s.feeder with
      | idle => simp only [sinkMachine, hfeeder]; exact ⟨h.wf, hfeeder ▸ h.order⟩
      | writing rest cnt => simpa only [sinkMachine, hfeeder] using h
  | read len =>
      cases hreader : s.reader with
      | tests rt => simpa only [sinkMachine, hreader] using h
      | idle =>
          obtain ⟨hwf, hcontent, -⟩ := read_content h.wf len
          simp only [sinkMachine, hreader]
          split_ifs
          · exact h
          · refine ⟨hwf, ?_⟩
            have horder := h.order
            rw [← hcontent] at horder
            rw [List.append_assoc] at horder ⊢
            exact horder
  | readTest =>
      cases hreader : s.reader with
      | idle => simpa only [sinkMachine, hreader] using h
      | tests rt => simp only [sinkMachine, hreader]; exact ⟨h.wf, h.order⟩

theorem sinkOrder_start {len : ℕ} {type : RingbuffType} {malloc : Option (ℕ → UInt8)}
    {ringbuf : RingBuff} (h : tuyaRingBuffCreate len type malloc = .ok ringbuf) :
    SinkOrder (sinkStart ringbuf) := by
  have hrefines := refines_create h
  refine ⟨hrefines.wf, ?_⟩
  rw [sinkStart, hrefines.content_eq]
  exact List.Sublist.refl _

/-! ## Interleavings in which nothing is lost -/

def Feeder.GivesUp (free : ℕ) : Feeder → Prop
  | .idle => False
  | .writing data cnt => 500 < cnt ∧ free < data.length

instance (free : ℕ) : (feeder : Feeder) → Decidable (feeder.GivesUp free)
  | .idle => inferInstanceAs (Decidable False)
  | .writing _ _ => inferInstanceAs (Decidable (_ ∧ _))

/-- The stream is fed to its end and not beyond it, no call gives up with data left, and the end
does not come between an empty read and its test while there are bytes in the buffer. -/
def SinkSafe (s : SinkState) : SinkEvent → Prop
  | .feed _ => s.ctx.eof = false
  | .feedAgain => ¬s.feeder.GivesUp (tuyaRingBuffFreeSizeGet s.ctx.ringbuf)
  | .feedEof => s.reader = .tests 0 → content s.ctx.ringbuf = []
  | .read _ => True
  | .readTest => True

instance (s : SinkState) : (ev : SinkEvent) → Decidable (SinkSafe s ev)
  | .feed _ => inferInstanceAs (Decidable (_ = _))
  | .feedAgain => inferInstanceAs (Decidable (¬_))
  | .feedEof => inferInstanceAs (Decidable (_ → _))
  | .read _ => inferInstanceAs (Decidable True)
  | .readTest => inferInstanceAs (Decidable True)

structure SinkSound (s : SinkState) : Prop where
  wf : Wf s.ctx.ringbuf
  whole : s.got ++ (content s.ctx.ringbuf ++ s.feeder.left) = s.fed
  closed : s.ctx.eof = true → s.feeder = .idle
  /-- a read that finds the end has found the buffer empty -/
  tested : s.ctx.eof = true → s.reader = .tests 0 → content s.ctx.ringbuf = []
  ended : s.ended = true → s.ctx.eof = true ∧ content s.ctx.ringbuf = []

theorem sinkSound_step (s : SinkState) (ev : SinkEvent) (h : SinkSound s) (hsafe : SinkSafe s ev) :
    SinkSound (sinkMachine.step s ev).1 := by
  cases ev with
  | feed data =>
      have hopen : s.ctx.eof = false := hsafe
      cases hfeeder : s.feeder with
      | writing rest cnt => simpa only [sinkMachine, hfeeder] using h
      | idle =>
          obtain ⟨hwf, heof, hcontent⟩ := datasinkMemFeed_content h.wf data
          have hwhole := h.whole
          rw [hfeeder, Feeder.left, List.append_nil] at hwhole
          have hnot : ¬(datasinkMemFeed s.ctx data).1.eof = true := by
            rw [heof, hopen]
            exact Bool.false_ne_true
          simp only [sinkMachine, hfeeder]
          refine ⟨hwf, ?_, fun heof' ↦ absurd heof' hnot, fun heof' ↦ absurd heof' hnot, ?_⟩
          · rw [hcontent, ← List.append_assoc, hwhole]
          · intro hended
            exact absurd (h.ended hended).1 (by simp [hopen])
  | feedAgain =>
      cases hfeeder : s.feeder with
      | idle => simpa only [sinkMachine, hfeeder] using h
      | writing rest cnt =>
          obtain ⟨hwf, heof, lost, hcontent, hgives, hstays⟩ :=
            datasinkMemFeedTurn_content h.wf rest cnt
          have hlost : lost = [] := by
            by_cases hcnt : 500 < cnt
            · refine (hgives hcnt).resolve_left fun hroom ↦ hsafe ?_
              rw [hfeeder]
              exact ⟨hcnt, hroom⟩
            · exact hstays hcnt
          have hwhole := h.whole
          rw [hfeeder, Feeder.left, ← hcontent, hlost, List.append_nil] at hwhole
          have hnot : ¬s.ctx.eof = true := by
            intro heof'
            rw [h.closed heof'] at hfeeder
            cases hfeeder
          have hnot' : ¬(datasinkMemFeedTurn s.ctx rest cnt).1.eof = true := heof ▸ hnot
          simp only [sinkMachine, hfeeder]
          exact ⟨hwf, hwhole, fun heof' ↦ absurd heof' hnot', fun heof' ↦ absurd heof' hnot',
            fun hended ↦ absurd (h.ended hended).1 hnot⟩
  | feedEof =>
      cases hfeeder : s.feeder with
      | writing rest cnt => simpa only [sinkMachine, hfeeder] using h
      | idle =>
          simp only [sinkMachine, hfeeder]
          exact ⟨h.wf, hfeeder ▸ h.whole, fun _ ↦ rfl, fun _ ↦ hsafe,
            fun hended ↦ ⟨rfl, (h.ended hended).2⟩⟩
  | read len =>
      cases hreader : s.reader with
      | tests rt => simpa only [sinkMachine, hreader] using h
      | idle =>
          obtain ⟨hwf, hcontent, hzero⟩ := read_content h.wf len
          have hempty : content s.ctx.ringbuf = [] →
              content (tuyaRingBuffRead s.ctx.ringbuf true len).1 = [] := by
            intro hnil
            rw [hnil] at hcontent
            exact (List.append_eq_nil_iff.mp hcontent).2
          simp only [sinkMachine, hreader]
          split_ifs with hlen
          · exact h
          · refine ⟨hwf, ?_, h.closed, ?_, fun hended ↦
              ⟨(h.ended hended).1, hempty (h.ended hended).2⟩⟩
            · rw [← h.whole, List.append_assoc, ← List.append_assoc _ (content _), hcontent]
            · intro _ htests
              exact hempty ((hzero (Reader.tests.inj htests)).resolve_left hlen)
  | readTest =>
      cases hreader : s.reader with
      | idle => simpa only [sinkMachine, hreader] using h
      | tests rt =>
          simp only [sinkMachine, hreader]
          refine ⟨h.wf, h.whole, h.closed, nofun, ?_⟩
          intro hended
          rcases Bool.or_eq_true_iff.mp hended with hbefore | hnow
          · exact h.ended hbefore
          · have hret := of_decide_eq_true hnow
            rw [datasinkMemReadRet] at hret
            split_ifs at hret with hfound
            · exact ⟨hfound.2, h.tested hfound.2 (hfound.1 ▸ hreader)⟩
            · cases hret

section Run

variable {len : ℕ} {type : RingbuffType} {malloc : Option (ℕ → UInt8)} {ringbuf : RingBuff}

/-- However the two threads interleave, what has been read and what is in the buffer is some of what
has been fed, in order. -/
theorem sink_keeps_order (h : tuyaRingBuffCreate len type malloc = .ok ringbuf)
    (events : List SinkEvent) :
    let s := sinkMachine.final (sinkStart ringbuf) events
    (s.got ++ content s.ctx.ringbuf).Sublist s.fed := by
  have horder := (sinkMachine.inv_final (fun s ev hs _ ↦ sinkOrder_step s ev hs)
    (sinkOrder_start h) (sinkMachine.guarded_true _ events)).order
  rw [← List.append_assoc] at horder
  exact (List.sublist_append_left _ _).trans horder

/-- In an interleaving in which nothing is lost, what has been read is the beginning of what has
been fed, a call of the feeder returns with its whole block in the buffer, and `OPRT_NOT_FOUND`
comes when everything has been read. -/
theorem sink_delivers (h : tuyaRingBuffCreate len type malloc = .ok ringbuf)
    {events : List SinkEvent} (hsafe : sinkMachine.Guarded SinkSafe (sinkStart ringbuf) events) :
    let s := sinkMachine.final (sinkStart ringbuf) events
    s.got <+: s.fed ∧ (s.feeder = .idle → s.got ++ content s.ctx.ringbuf = s.fed) ∧
      (s.ended = true → s.got = s.fed) := by
  intro s
  have hrefines := refines_create h
  have hsound : SinkSound s := by
    apply sinkMachine.inv_final (fun s ev hs hsafe ↦ sinkSound_step s ev hs hsafe) _ hsafe
    refine ⟨hrefines.wf, ?_, nofun, nofun, nofun⟩
    rw [sinkStart, hrefines.content_eq]
    rfl
  have hwhole := hsound.whole
  refine ⟨⟨_, hwhole⟩, fun hidle ↦ ?_, fun hended ↦ ?_⟩
  · rw [hidle, Feeder.left, List.append_nil] at hwhole
    exact hwhole
  · obtain ⟨heof, hnil⟩ := hsound.ended hended
    rw [hnil, hsound.closed heof] at hwhole
    exact (List.append_nil _).symm.trans hwhole

end Run

/-- A ring of four bytes, of which three can be used. -/
def smallRing : RingBuff := ⟨.overflowStopType, 0, 0, 4, [0, 0, 0, 0]⟩

/-- A block that does not fit at once, read while its call waits. -/
def waitingFeed : List SinkEvent :=
  [.feed [1, 2, 3, 4, 5], .read 2, .readTest, .feedAgain, .read 9, .readTest, .feedEof, .read 9,
    .readTest]

theorem smallRing_created :
    tuyaRingBuffCreate 4 .overflowStopType (some fun _ ↦ 0) = .ok smallRing := rfl

theorem sink_keeps_order_small :
    let s := sinkMachine.final (sinkStart smallRing) [.feed [1, 2, 3, 4, 5], .read 2]
    (s.got ++ content s.ctx.ringbuf).Sublist s.fed :=
  sink_keeps_order smallRing_created _

theorem sink_delivers_small :
    (sinkMachine.final (sinkStart smallRing) waitingFeed).got =
      (sinkMachine.final (sinkStart smallRing) waitingFeed).fed := by
  have hsafe : sinkMachine.Guarded SinkSafe (sinkStart smallRing) waitingFeed := by decide
  exact (sink_delivers smallRing_created hsafe).2.2 (by decide)

/-- The end of the stream comes between an empty read and its test, with a block before it. -/
example : (sinkMachine.final (sinkStart smallRing)
    [.read 9, .feed [1], .feedEof, .readTest]).ended = true := by decide

end TuyaOpen.Audio
