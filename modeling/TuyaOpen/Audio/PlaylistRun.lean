import TuyaOpen.Audio.PlaylistOrder

/-!
# Runs of a playlist

Between two steps a safe run is idle, starts an item, plays it, stops it for a request, or awaits
the callback.
-/

namespace TuyaOpen.Audio

/-- Where a safe run is between two steps. -/
inductive Phase : LoggedPlaylist → Prop where
  | idle (l : Playlist) (current : Option (PlayItem × ℕ)) (nextId : ℕ) (expect : Expect) (hl : l.Ok)
      (target : l.targetIndex = invalidIndex) (he : ∀ slot, expect ≠ .item slot) :
      Phase (⟨l, ⟨.stopped, [], .fetch, current⟩, none, nextId⟩, expect)
  | starting (l : Playlist) (current : Option (PlayItem × ℕ)) (nextId : ℕ) (expect : Expect)
      (item : PlayItem) (slot : ℕ) (hl : l.At item slot)
      (he : expect = .free ∨ expect = .item slot) :
      Phase (⟨l, ⟨.stopped, [.start item slot], .fetch, current⟩, none, nextId⟩, expect)
  | playing (l : Playlist) (nextId : ℕ) (item : PlayItem) (slot : ℕ) (hl : l.At item slot) :
      Phase (⟨l, ⟨.playing, [], .fetch, some (item, slot)⟩, none, nextId⟩, .following)
  | posted (l : Playlist) (current : Option (PlayItem × ℕ)) (req : PlaylistReq) (nextId : ℕ)
      (expect : Expect) (hl : (l.rest req).Meets expect) :
      Phase (⟨l, ⟨.playing, [.stop], .fetch, current⟩, some req, nextId⟩, expect)
  | stopped (l : Playlist) (current : Option (PlayItem × ℕ)) (req : PlaylistReq) (nextId : ℕ)
      (expect : Expect) (hl : (l.rest req).Meets expect) :
      Phase (⟨l, ⟨.stopped, [], .notify false, current⟩, some req, nextId⟩, expect)
  | ended (l : Playlist) (nextId : ℕ) (item : PlayItem) (slot : ℕ) (hl : l.At item slot) :
      Phase (⟨l, ⟨.stopped, [], .notify true, some (item, slot)⟩, none, nextId⟩, .following)
  | ending (l : Playlist) (current : Option (PlayItem × ℕ)) (eof : Bool) (nextId : ℕ)
      (expect : Expect) (hl : l.Meets expect) :
      Phase (⟨l, ⟨.stopped, [], .notify eof, current⟩, none, nextId⟩, expect)

namespace Phase

theorem done {s : LoggedPlaylist} (h : Phase s) (hquiet : s.1.Quiet) (slot : ℕ) :
    s.2 ≠ .item slot := by
  cases h with
  | idle _ _ _ _ _ _ he => exact he slot
  | playing => simp
  | starting => cases hquiet.1
  | posted => cases hquiet.1
  | stopped => cases hquiet.2.1
  | ended => cases hquiet.2.1
  | ending => cases hquiet.2.1

end Phase

namespace PlaylistState

variable {s : PlaylistState}

theorem add_cases (s : PlaylistState) (src : ℕ) (value : Option (List UInt8)) (codec : ℕ)
    (alloc : Bool) :
    ((s.add src value codec alloc).2 ≠ oprtOk ∧ (s.add src value codec alloc).1 = s) ∨
    ∃ item : PlayItem, value = some item.value ∧ s.list.count < s.list.capacity ∧
      (s.add src value codec alloc).2 = oprtOk ∧
      (s.add src value codec alloc).1 = if s.list.count = 0 ∧ s.list.autoPlay = true then
        { s with
          list := { s.list.push item with playing := true }
          player := s.player.start item 0
          nextId := s.nextId + 1 }
      else { s with list := s.list.push item, nextId := s.nextId + 1 } := by
  cases value with
  | none =>
      have hret : oprtInvalidParm ≠ oprtOk := by decide
      exact Or.inl ⟨hret, rfl⟩
  | some value =>
      by_cases hsrc : src = aiPlayerSrcMem
      · have hret : oprtInvalidParm ≠ oprtOk := by decide
        rw [add, if_pos hsrc]
        exact Or.inl ⟨hret, rfl⟩
      by_cases hcapacity : s.list.capacity ≤ s.list.count
      · have hret : oprtExceedUpperLimit ≠ oprtOk := by decide
        rw [add, if_neg hsrc, if_pos hcapacity]
        exact Or.inl ⟨hret, rfl⟩
      cases alloc with
      | false =>
          have hret : oprtMallocFailed ≠ oprtOk := by decide
          rw [add, if_neg hsrc, if_neg hcapacity]
          exact Or.inl ⟨hret, rfl⟩
      | true =>
          right
          let item : PlayItem := ⟨s.nextId, src, value, codec⟩
          have hcount : (s.list.push item).count = s.list.count + 1 := List.length_append
          refine ⟨item, rfl, by omega, ?_⟩
          rw [add, if_neg hsrc, if_neg hcapacity, if_neg (by simp)]
          by_cases hfirst : s.list.count = 0 ∧ s.list.autoPlay = true
          · have hauto : (s.list.push item).count = 1 ∧ (s.list.push item).autoPlay = true :=
              ⟨by omega, hfirst.2⟩
            rw [if_pos hfirst]
            dsimp only
            rw [if_pos hauto]
            exact ⟨rfl, rfl⟩
          · have hauto : ¬ ((s.list.push item).count = 1 ∧ (s.list.push item).autoPlay = true) :=
              fun hand ↦ hfirst ⟨by omega, hand.2⟩
            rw [if_neg hfirst]
            dsimp only
            rw [if_neg hauto]
            exact ⟨rfl, rfl⟩

theorem start_stopped {player : Player} (hstate : player.state = .stopped)
    (hqueue : player.queue = []) {item : PlayItem} (hvalue : item.value ≠ []) (slot : ℕ) :
    player.start item slot = { player with queue := [.start item slot] } := by
  rw [Player.start, if_neg (by simp [hstate]), if_neg fun hand ↦ hvalue hand.2, Player.post, hqueue]
  rfl

theorem startAt_stopped (hstate : s.player.state = .stopped) (hqueue : s.player.queue = [])
    (list : Playlist)
    {item : PlayItem} {i : ℕ} (hitem : list.items[i]? = some item) (hvalue : item.value ≠ []) :
    s.startAt list i = ({ s with list, player := { s.player with queue := [.start item i] } },
      []) := by
  rw [startAt, hitem]
  dsimp only
  rw [start_stopped hstate hqueue hvalue]

theorem stopThen_stopped (hstate : s.player.state = .stopped) (list : Playlist)
    (req : PlaylistReq) :
    s.stopThen list req = { s with list := list.rest req } :=
  if_neg fun hstops ↦ hstops.1 hstate

theorem stopThen_playing (hstate : s.player.state = .playing) (hqueue : s.player.queue = [])
    (list : Playlist) (req : PlaylistReq) :
    s.stopThen list req =
      { s with list, player := { s.player with queue := [.stop] }, lock := some req } := by
  have hstops : s.player.Stops := by
    rw [Player.Stops, hstate, hqueue]
    decide
  rw [stopThen, if_pos hstops, Player.post, if_pos hstops.2, hqueue]
  rfl

theorem request_refused {req : PlaylistReq} (h : s.list.Refuses req) :
    s.request req = (s, [.returned oprtIndexOutOfBound]) := by
  cases req with
  | play k => exact if_pos h
  | next | prev | stop | restart | clear => cases h

theorem request_safe {req : PlaylistReq} (hreq : ¬ s.list.Refuses req)
    (hsafe : s.list.PlayingSafe req) (hstate : s.player.state = .stopped ∨ s.list.playing = true) :
    s.request req = (s.stopThen (s.list.aimed req) req, []) := by
  cases req with
  | next | prev | stop => rfl
  | play k => exact (if_neg hreq).trans (if_pos hsafe)
  | restart => exact if_pos hsafe.2.1
  | clear =>
      rw [request]
      split
      case isTrue => rfl
      case isFalse hplaying => rw [stopThen_stopped (hstate.resolve_right hplaying)]; rfl

end PlaylistState

/-- A step leads to a phase, and starts only what was asked for. -/
structure Kept (s : LoggedPlaylist) (x : PlaylistStep) : Prop where
  phase : Phase (playlistMachine.step s x).1
  answers : ∀ event ∈ (playlistMachine.step s x).2, event.Answers s

namespace Phase

variable {s : LoggedPlaylist}

theorem kept_nil {x : PlaylistStep} {t : LoggedPlaylist}
    (hstep : playlistMachine.step s x = (t, [])) (ht : Phase t) :
    Kept s x := by
  refine ⟨?_, fun event hevent ↦ ?_⟩
  · rwa [hstep]
  · rw [hstep] at hevent
    cases hevent

theorem kept_returned {x : PlaylistStep} {t : LoggedPlaylist} {ret : OperateRet}
    (hstep : playlistMachine.step s x = (t, [.returned ret])) (ht : Phase t) : Kept s x := by
  refine ⟨?_, fun event hevent ↦ ?_⟩
  · rwa [hstep]
  · rw [hstep] at hevent
    rw [List.mem_singleton.mp hevent]
    trivial

theorem push (h : Phase s) (hlock : s.1.lock = none) {item : PlayItem} (hvalue : item.value ≠ [])
    (hcapacity : s.1.list.count < s.1.list.capacity)
    (hquiet : s.1.list.count = 0 → s.1.list.autoPlay = true → s.1.Quiet)
    (hadd : AwaitsCallback s → s.1.list.AddSafe) :
    Phase (if s.1.list.count = 0 ∧ s.1.list.autoPlay = true then
      ({ s.1 with
        list := { s.1.list.push item with playing := true }
        player := s.1.player.start item 0
        nextId := s.1.nextId + 1 }, Expect.free)
      else ({ s.1 with list := s.1.list.push item, nextId := s.1.nextId + 1 }, s.2)) := by
  cases h with
  | idle l current nextId expect hl target he =>
      have hpush := hl.push hcapacity hvalue
      split
      case isTrue hfirst =>
        rw [PlaylistState.start_stopped rfl rfl hvalue]
        have hitems : l.items = [] := List.length_eq_zero_iff.mp hfirst.1
        have hindex : l.index = 0 := by
          rcases hl.index_lt with hlt | ⟨-, hzero⟩
          · simp [hfirst.1] at hlt
          · exact hzero
        apply starting
        · refine ⟨?_, hindex, ?_, target, rfl⟩
          · exact ⟨hpush.length_le, hpush.capacity_lt, hpush.single_loop, hpush.values,
              hpush.index_lt⟩
          · simp [Playlist.push, hitems]
        · exact Or.inl rfl
      case isFalse => exact idle _ _ _ _ hpush target he
  | starting l current nextId expect other slot hl he =>
      rw [if_neg hl.not_first]
      exact starting _ _ _ _ _ _ (hl.push hcapacity hvalue) he
  | playing l nextId other slot hl =>
      rw [if_neg hl.not_first]
      exact playing _ _ _ _ (hl.push hcapacity hvalue)
  | posted => cases hlock
  | stopped => cases hlock
  | ended l nextId other slot hl =>
      rw [if_neg hl.not_first]
      exact ended _ _ _ _ (hl.push hcapacity hvalue)
  | ending l current eof nextId expect hl =>
      have hfirst : ¬ (l.count = 0 ∧ l.autoPlay = true) := by
        rintro ⟨hzero, hauto⟩
        cases (hquiet hzero hauto).2.1
      rw [if_neg hfirst]
      have hawaits : AwaitsCallback (⟨l, ⟨.stopped, [], .notify eof, current⟩, none, nextId⟩,
          expect) :=
        ⟨rfl, (by simp), hl.ne_following⟩
      exact ending _ _ _ _ _ (hl.push (hadd hawaits) hcapacity hvalue)

theorem add (h : Phase s) {src : ℕ} {value : Option (List UInt8)} {codec : ℕ} {alloc : Bool}
    (hsafe : PlaylistSafe s (.add src value codec alloc)) :
    Kept s (.add src value codec alloc) := by
  rcases s.1.add_cases src value codec alloc with
    ⟨hret, hsame⟩ | ⟨item, hvalue, hcapacity, hret, hadded⟩
  · have hstep : playlistMachine.step s (.add src value codec alloc) =
        (s, [.returned (s.1.add src value codec alloc).2]) := by
      simp [playlistMachine, playlistStep, expectStep, hret, hsame]
    exact kept_returned hstep h
  by_cases hlock : s.1.lock = none
  · have hitem : item.value ≠ [] := fun hnil ↦ hsafe.1 (hnil ▸ hvalue)
    have hpush := h.push hlock hitem hcapacity (hsafe.2.1 hlock) hsafe.2.2
    by_cases hfirst : s.1.list.count = 0 ∧ s.1.list.autoPlay = true
    · rw [if_pos hfirst] at hadded hpush
      refine kept_returned (?_ : playlistMachine.step s _ = (_, [.returned oprtOk])) hpush
      simp [playlistMachine, playlistStep, expectStep, hlock, hret, hadded, hfirst]
    · rw [if_neg hfirst] at hadded hpush
      refine kept_returned (?_ : playlistMachine.step s _ = (_, [.returned oprtOk])) hpush
      simp [playlistMachine, playlistStep, expectStep, hlock, hret, hadded, hfirst]
  · have hstep : playlistMachine.step s (.add src value codec alloc) = (s, []) := by
      simp [playlistMachine, playlistStep, expectStep, hlock, hret]
    exact kept_nil hstep h

theorem request_step (hlock : s.1.lock = none) {req : PlaylistReq} {t : PlaylistState}
    {events : List PlaylistEvent} (hreq : s.1.request req = (t, events)) {expect : Expect}
    (hexpect : expectStep s (.request req) = expect) :
    playlistMachine.step s (.request req) = ((t, expect), events) := by
  simp [playlistMachine, playlistStep, hlock, hreq, hexpect]

theorem expect_playing (hlock : s.1.lock = none) {slot : ℕ} (hslot : playingSlot s = some slot)
    (req : PlaylistReq) :
    expectStep s (.request req) = s.1.list.expectRequest slot s.2 req := by
  rw [expectStep, if_pos hlock, hslot]

theorem expect_idle (hlock : s.1.lock = none) (hslot : playingSlot s = none) (req : PlaylistReq) :
    expectStep s (.request req) = s.1.list.expectIdle s.2 req := by
  rw [expectStep, if_pos hlock, hslot]

theorem refused (h : Phase s) (hlock : s.1.lock = none) {req : PlaylistReq}
    (hreq : s.1.list.Refuses req) :
    Kept s (.request req) := by
  have hexpect : expectStep s (.request req) = s.2 := by
    cases hslot : playingSlot s with
    | none => rw [expect_idle hlock hslot, Playlist.expectIdle_refused hreq]
    | some slot => rw [expect_playing hlock hslot, Playlist.expectRequest_refused hreq]
  exact kept_returned (request_step hlock (PlaylistState.request_refused hreq) hexpect) h

theorem request_idle {l : Playlist} {current : Option (PlayItem × ℕ)} {nextId : ℕ} {expect : Expect}
    (hl : l.Ok) (target : l.targetIndex = invalidIndex) {req : PlaylistReq} (hreq : ¬ l.Refuses req)
    (hsafe : l.IdleSafe req) :
    Kept (⟨l, ⟨.stopped, [], .fetch, current⟩, none, nextId⟩, expect) (.request req) := by
  let s : PlaylistState := ⟨l, ⟨.stopped, [], .fetch, current⟩, none, nextId⟩
  have hslot : playingSlot (s, expect) = none := by simp [playingSlot, s]
  have hexpect : expectStep (s, expect) (.request req) = l.expectIdle expect req :=
    expect_idle rfl hslot req
  cases req with
  | next =>
      have hreq : s.request .next = ({ s with list := { l with index := l.nextIndex } }, []) := rfl
      refine kept_nil (request_step rfl hreq hexpect) ?_
      exact idle _ _ _ _ hl.next target (by simp [Playlist.expectIdle])
  | prev =>
      have hreq : s.request .prev = ({ s with list := { l with index := l.prevIndex } }, []) := rfl
      refine kept_nil (request_step rfl hreq hexpect) ?_
      exact idle _ _ _ _ (hl.prev hsafe) target (by simp [Playlist.expectIdle])
  | play k =>
      have hk : k < l.count := Nat.lt_of_not_le hreq
      have hplaying : ¬ l.playing = true := ne_true_of_eq_false hsafe
      obtain ⟨item, hvalue, hitem, hat⟩ := hl.at_start target hk
      have hstart := PlaylistState.startAt_stopped (s := s) rfl rfl
        { l with index := k } hitem hvalue
      have hreq : s.request (.play k) = ({ s with
          list := { l with index := k, playing := true }
          player := { s.player with queue := [.start item k] } }, []) := by
        have hplay : s.request (.play k) = s.startThen { l with index := k } k (.play k) :=
          (if_neg hreq).trans (if_neg hplaying)
        rw [hplay, PlaylistState.startThen, hstart]
        rfl
      refine kept_nil (request_step rfl hreq hexpect) ?_
      exact starting _ _ _ _ _ _ hat (Or.inr (if_pos hk))
  | stop =>
      have hreq : s.request .stop = ({ s with list := l.rest .stop }, []) := rfl
      refine kept_nil (request_step rfl hreq hexpect) ?_
      exact idle _ _ _ _ (hl.rest .stop) target (by simp [Playlist.expectIdle])
  | restart =>
      by_cases hplaying : l.playing = true
      · have hreq : s.request .restart = ({ s with list := l.rest .restart }, []) := if_pos hplaying
        have hcount : l.count = 0 := hsafe hplaying
        refine kept_nil (request_step rfl hreq hexpect) ?_
        exact idle _ _ _ _ (hl.rest .restart) target (by simp [Playlist.expectIdle, hcount])
      by_cases hcount : 0 < l.count
      · obtain ⟨item, hvalue, hitem, hat⟩ := hl.at_start target hcount
        have hstart := PlaylistState.startAt_stopped (s := s) rfl rfl l hitem hvalue
        have hreq : s.request .restart = ({ s with
            list := l.rest .restart
            player := { s.player with queue := [.start item 0] } }, []) := by
          rw [PlaylistState.request, if_neg hplaying, if_pos hcount,
            PlaylistState.startThen, hstart]
        refine kept_nil (request_step rfl hreq hexpect) ?_
        exact starting _ _ _ _ _ _ hat (Or.inr (if_pos hcount))
      · have hreq : s.request .restart = ({ s with list := l.rest .restart }, []) :=
          (if_neg hplaying).trans (if_neg hcount)
        refine kept_nil (request_step rfl hreq hexpect) ?_
        exact idle _ _ _ _ (hl.rest .restart) target (by simp [Playlist.expectIdle, hcount])
  | clear =>
      have hreq : s.request .clear = ({ s with list := l.rest .clear }, []) := by
        rw [PlaylistState.request]
        split
        case isTrue => rfl
        case isFalse => rfl
      refine kept_nil (request_step rfl hreq hexpect) ?_
      exact idle _ _ _ _ (hl.rest .clear) target (by simp [Playlist.expectIdle])

theorem request (h : Phase s) {req : PlaylistReq} (hsafe : PlaylistSafe s (.request req)) :
    Kept s (.request req) := by
  by_cases hlock : s.1.lock = none
  case neg =>
    have hstep : playlistMachine.step s (.request req) = (s, []) := by
      simp [playlistMachine, playlistStep, expectStep, hlock]
    exact kept_nil hstep h
  by_cases hreq : s.1.list.Refuses req
  · exact h.refused hlock hreq
  obtain ⟨hqueue, hsafe⟩ := (hsafe hlock).resolve_left hreq
  cases h with
  | idle l current nextId expect hl target he =>
      rw [if_neg (by simp)] at hsafe
      exact request_idle hl target hreq hsafe
  | starting => cases hqueue
  | playing l nextId item slot hl =>
      rw [if_pos (by simp)] at hsafe
      have hslot : playingSlot (⟨l, ⟨.playing, [], .fetch, some (item, slot)⟩, none,
          nextId⟩, .following) = some slot := by
        simp [playingSlot, PlaylistState.currentSlot, hl.item_eq]
      have hexpect := expect_playing rfl hslot req
      have hstop := PlaylistState.request_safe hreq hsafe (Or.inr hl.isPlaying)
      rw [PlaylistState.stopThen_playing rfl rfl] at hstop
      refine kept_nil (request_step rfl hstop hexpect) ?_
      exact posted _ _ _ _ _ (hl.meets_request hreq hsafe _)
  | posted => cases hlock
  | stopped => cases hlock
  | ended l nextId item slot hl =>
      rw [if_pos (by simp)] at hsafe
      have hslot : playingSlot (⟨l, ⟨.stopped, [], .notify true, some (item, slot)⟩, none, nextId⟩,
          .following) = some slot := by
        simp [playingSlot, PlaylistState.currentSlot, hl.item_eq]
      have hexpect := expect_playing rfl hslot req
      have hstop := PlaylistState.request_safe hreq hsafe (Or.inl rfl)
      rw [PlaylistState.stopThen_stopped rfl] at hstop
      refine kept_nil (request_step rfl hstop hexpect) ?_
      exact ending _ _ _ _ _ (hl.meets_request hreq hsafe _)
  | ending l current eof nextId expect hl =>
      rw [if_pos (by simp)] at hsafe
      have hslot : playingSlot (⟨l, ⟨.stopped, [], .notify eof, current⟩, none, nextId⟩, expect) =
          none := by
        simp [playingSlot, hl.ne_following]
      have hexpect := expect_idle rfl hslot req
      have hstop := PlaylistState.request_safe hreq hsafe (Or.inl rfl)
      rw [PlaylistState.stopThen_stopped rfl] at hstop
      refine kept_nil (request_step rfl hstop hexpect) ?_
      exact ending _ _ _ _ _ (hl.meets_idle hreq hsafe _)

theorem setLoop (h : Phase s) {loop single : Bool} (hsafe : PlaylistSafe s (.setLoop loop single)) :
    Kept s (.setLoop loop single) := by
  cases h with
  | idle l current nextId expect hl target he =>
    exact kept_nil rfl (idle _ _ _ _ (hl.setLoop loop single) target he)
  | starting l current nextId expect item slot hl he =>
      exact kept_nil rfl (starting _ _ _ _ _ _ (hl.setLoop loop single) he)
  | playing l nextId item slot hl => exact kept_nil rfl (playing _ _ _ _ (hl.setLoop loop single))
  | posted l current req nextId expect hl => exact kept_nil rfl (posted _ _ _ _ _ hl)
  | stopped l current req nextId expect hl => exact kept_nil rfl (stopped _ _ _ _ _ hl)
  | ended l nextId item slot hl => exact kept_nil rfl (ended _ _ _ _ (hl.setLoop loop single))
  | ending l current eof nextId expect hl =>
      have hawaits : AwaitsCallback (⟨l, ⟨.stopped, [], .notify eof, current⟩, none, nextId⟩,
          expect) :=
        ⟨rfl, (by simp), hl.ne_following⟩
      exact kept_nil rfl (ending _ _ _ _ _ (hl.setLoop (hsafe hawaits)))

theorem resume (h : Phase s) : Kept s .resume := by
  have hsame := h
  cases h with
  | stopped l current req nextId expect hl => exact kept_nil rfl (ending _ _ _ _ _ hl)
  | idle | starting | playing | posted | ended | ending => exact kept_nil rfl hsame

theorem fetch (h : Phase s) : Kept s .fetch := by
  have hsame := h
  cases h with
  | starting l current nextId expect item slot hl he =>
      refine ⟨playing _ _ _ _ hl, fun event hevent ↦ ?_⟩
      rw [List.mem_singleton.mp hevent]
      exact ⟨hl.item_eq, he⟩
  | posted l current req nextId expect hl => exact kept_nil rfl (stopped _ _ _ _ _ hl)
  | idle | playing | stopped | ended | ending => exact kept_nil rfl hsame

theorem eof (h : Phase s) (hsafe : PlaylistSafe s .eof) : Kept s .eof := by
  have hsame := h
  cases h with
  | playing l nextId item slot hl => exact kept_nil rfl (ended _ _ _ _ hl)
  | posted => cases hsafe rfl
  | idle | starting | stopped | ended | ending => exact kept_nil rfl hsame

theorem called {l : Playlist} {expect : Expect} (hl : l.Meets expect)
    (current : Option (PlayItem × ℕ)) (eof : Bool) (nextId : ℕ) :
    let s : PlaylistState := ⟨l, ⟨.stopped, [], .notify eof, current⟩, none, nextId⟩
    (playlistStep s .notify).2 = [] ∧ Phase ((playlistStep s .notify).1, expect) := by
  intro s
  have hstep : playlistStep s .notify =
      ({ s.playerStatusCb.1 with player := { s.playerStatusCb.1.player with thread := .fetch } },
        s.playerStatusCb.2) := rfl
  cases hgoal : l.goal with
  | none =>
      have hcb := PlaylistState.playerStatusCb_none (s := s) hl.toReady hgoal
      have hnext : ({ l with index := 0, playing := false } : Playlist).Ok := by
        refine ⟨hl.length_le, hl.capacity_lt, hl.single_loop, hl.values, ?_⟩
        rcases hl.index_lt with hlt | ⟨hitems, -⟩
        · exact Or.inl (Nat.zero_lt_of_lt hlt)
        · exact Or.inr ⟨hitems, rfl⟩
      have htarget : l.targetIndex = invalidIndex := by
        apply hl.target.resolve_right
        intro hlt
        rw [Playlist.goal, if_pos hlt] at hgoal
        cases hgoal
      rw [hstep, hcb]
      refine ⟨rfl, idle _ _ _ _ hnext htarget fun slot hslot ↦ ?_⟩
      have hsome := hl.item_eq slot hslot
      rw [hgoal] at hsome
      cases hsome
  | some slot =>
      obtain ⟨item, hvalue, hat⟩ := hl.toReady.turned_at hgoal
      have hcb := PlaylistState.playerStatusCb_some (s := s) hl.toReady hgoal
      rw [PlaylistState.startAt_stopped rfl rfl _ hat.item_eq hvalue] at hcb
      rw [hstep, hcb]
      refine ⟨rfl, starting _ _ _ _ _ _ hat ?_⟩
      cases expect with
      | free => exact Or.inl rfl
      | item i =>
          have hi := hl.item_eq i rfl
          rw [hgoal] at hi
          exact Or.inr (congrArg Expect.item (Option.some.inj hi).symm)
      | nothing =>
          have hnone := hl.nothing_eq rfl
          rw [hgoal] at hnone
          cases hnone
      | following => exact absurd rfl hl.ne_following

theorem kept_called {expect : Expect} (hexpect : expectStep s .notify = expect)
    (hcalled : (playlistStep s.1 .notify).2 = [] ∧ Phase ((playlistStep s.1 .notify).1, expect)) :
    Kept s .notify := by
  obtain ⟨hevents, hphase⟩ := hcalled
  rw [← hexpect] at hphase
  exact kept_nil (Prod.ext rfl hevents) hphase

theorem notify (h : Phase s) : Kept s .notify := by
  have hsame := h
  cases h with
  | idle | starting | playing | posted | stopped => exact kept_nil rfl hsame
  | ended l nextId item slot hl =>
      have hexpect : expectStep (⟨l, ⟨.stopped, [], .notify true, some (item, slot)⟩, none, nextId⟩,
          .following) .notify = l.expectEnd slot := by
        simp [expectStep, PlaylistState.currentSlot, hl.item_eq]
      exact kept_called hexpect (called hl.meets_end (some (item, slot)) true nextId)
  | ending l current eof nextId expect hl =>
      have hexpect : expectStep (⟨l, ⟨.stopped, [], .notify eof, current⟩, none, nextId⟩, expect)
          .notify = expect :=
        if_neg fun hand ↦ hl.ne_following hand.2.2
      exact kept_called hexpect (called hl current eof nextId)

theorem step (h : Phase s) (x : PlaylistStep) (hsafe : PlaylistSafe s x) : Kept s x := by
  cases x with
  | add => exact h.add hsafe
  | setLoop => exact h.setLoop hsafe
  | request => exact h.request hsafe
  | resume => exact h.resume
  | fetch => exact h.fetch
  | eof => exact h.eof hsafe
  | notify => exact h.notify

theorem create (cfg : PlaylistCfg) : Phase (playlistCreate cfg, .nothing) := by
  apply idle
  · exact ⟨Nat.zero_le _, cfg.capacity_lt, (by simp), (by simp), Or.inr ⟨rfl, rfl⟩⟩
  · rfl
  · simp

end Phase

/-- In every safe run each step is sound. -/
theorem playlist_sound (cfg : PlaylistCfg) (xs : List PlaylistStep)
    (hxs : playlistMachine.Guarded PlaylistSafe (playlistCreate cfg, .nothing) xs) (k : ℕ)
    (x : PlaylistStep) (hx : xs[k]? = some x) :
    PlaylistSound (playlistMachine.final (playlistCreate cfg, .nothing) (xs.take k)) x := by
  obtain ⟨hbefore, hsafe⟩ := hxs.step_at hx
  have hphase : Phase (playlistMachine.final (playlistCreate cfg, .nothing) (xs.take k)) := by
    apply playlistMachine.inv_final _ (Phase.create cfg) hbefore
    intro s y hs hy
    exact (hs.step y hy).phase
  have hkept := hphase.step x hsafe
  exact ⟨hkept.answers, hkept.phase.done⟩

def smallPlaylist : PlaylistCfg := ⟨false, false, 4, (by decide)⟩

/-- The first of three items is playing. -/
def threeItems : List PlaylistStep :=
  [.add 2 (some [97]) 0 true, .add 2 (some [98]) 0 true, .add 2 (some [99]) 0 true,
    .request (.play 0), .fetch]

/-- An end, a play behind another, a next in single mode, an end, and a stop at the last item. -/
def answeredRun : List PlaylistStep :=
  threeItems ++ [.eof, .notify, .fetch, .request (.play 2), .fetch, .resume, .request (.play 0),
    .notify, .fetch,
    .setLoop true true, .request .next, .fetch, .resume, .notify, .fetch, .setLoop false false,
    .eof, .notify, .fetch, .request .stop, .fetch, .resume, .notify]

theorem playlist_sound_answeredRun :
    playlistMachine.Guarded PlaylistSafe (playlistCreate smallPlaylist, .nothing) answeredRun ∧
    ∀ k x, answeredRun[k]? = some x →
      PlaylistSound (playlistMachine.final (playlistCreate smallPlaylist, .nothing)
        (answeredRun.take k)) x :=
  have hxs : playlistMachine.Guarded PlaylistSafe (playlistCreate smallPlaylist, .nothing)
      answeredRun := by
    decide +kernel
  ⟨hxs, playlist_sound smallPlaylist answeredRun hxs⟩

/-- While the first of three items is playing, next starts the third; and a clear in single mode
leaves the callback with a freed item. -/
theorem playlist_not_sound :
    ¬ PlaylistSound (playlistMachine.final (playlistCreate smallPlaylist, .nothing)
      (threeItems ++ [.request .next, .fetch, .resume, .notify])) .fetch ∧
    ¬ PlaylistSound (playlistMachine.final (playlistCreate smallPlaylist, .nothing)
      (threeItems ++ [.setLoop true true, .request .clear, .fetch, .resume])) .notify := by
  constructor
  · intro h
    have hanswers := h.answers (.started ⟨2, 2, [99], 0⟩ 2) (by decide +kernel)
    exact absurd hanswers.2 (by decide +kernel)
  · intro h
    exact h.answers .wild (by decide +kernel)

end TuyaOpen.Audio
