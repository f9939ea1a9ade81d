import TuyaOpen.Audio.Playlist
import TuyaOpen.Lib.Mealy

/-!
# What a playlist starts next

The callback of a stop goes on by one, whoever has stopped the player.  So a request that sets the
index and stops finds itself one item further, and only a request with a target, or in single mode,
is answered with the item it asks for.
-/

namespace TuyaOpen.Audio

/-- What may be started next: anything, the item of a slot, nothing, or what follows the end of the
current item. -/
inductive Expect where
  | free
  | item (slot : ℕ)
  | nothing
  | following
  deriving DecidableEq

abbrev LoggedPlaylist := PlaylistState × Expect

namespace PlaylistState

variable (s : PlaylistState)

/-- The slot of the latest item, as long as the list has it. -/
def currentSlot : Option ℕ :=
  match s.player.current with
  | some (item, slot) => if s.list.items[slot]? = some item then some slot else none
  | none => none

/-- No stop, start or callback is under way. -/
def Quiet : Prop := s.player.queue = [] ∧ s.player.thread = .fetch ∧ s.lock = none

instance : Decidable s.Quiet := inferInstanceAs (Decidable (_ ∧ _ ∧ _))

end PlaylistState

/-- Item `i` is playing, or its end was not heard of. -/
def playingSlot (s : LoggedPlaylist) : Option ℕ :=
  if s.1.player.state = .playing ∨ (s.1.player.thread = .notify true ∧ s.2 = .following) then
    s.1.currentSlot else none

namespace Playlist

variable (l : Playlist)

/-- What a request asks for while item `i` is playing. -/
def expectRequest (i : ℕ) (before : Expect) : PlaylistReq → Expect
  | .next => .item (if i + 1 < l.count then i + 1 else if l.loop = true then 0 else l.count - 1)
  | .prev => if 0 < i then .item (i - 1) else .free
  | .play k => if k < l.count then .item k else before
  | .stop => .nothing
  | .restart => .item 0
  | .clear => .nothing

/-- What a request asks for while nothing is playing. -/
def expectIdle (before : Expect) : PlaylistReq → Expect
  | .next => .free
  | .prev => .free
  | .play k => if k < l.count then .item k else before
  | .stop => .nothing
  | .restart => if 0 < l.count then .item 0 else .free
  | .clear => .nothing

/-- What follows the end of item `i`. -/
def expectEnd (i : ℕ) : Expect :=
  if l.single = true then .item i
  else if i + 1 < l.count then .item (i + 1)
  else if l.loop = true then .item 0
  else .nothing

end Playlist

/-- An end is heard of when the callback takes the mutex. -/
def expectStep (s : LoggedPlaylist) : PlaylistStep → Expect
  | .add src value codec alloc =>
      if s.1.lock = none ∧ (s.1.add src value codec alloc).2 = oprtOk ∧ s.1.list.count = 0 ∧
        s.1.list.autoPlay = true
      then .free else s.2
  | .request req =>
      if s.1.lock = none then
        match playingSlot s with
        | some i => s.1.list.expectRequest i s.2 req
        | none => s.1.list.expectIdle s.2 req
      else s.2
  | .fetch =>
      match s.1.player.thread, s.1.player.queue with
      | .fetch, .start _ _ :: _ => .following
      | _, _ => s.2
  | .notify =>
      if s.1.player.thread ≠ .fetch ∧ s.1.lock = none ∧ s.2 = .following then
        match s.1.currentSlot with
        | some i => s.1.list.expectEnd i
        | none => .free
      else s.2
  | _ => s.2

def playlistMachine : Mealy LoggedPlaylist PlaylistStep (List PlaylistEvent) where
  step s x := (((playlistStep s.1 x).1, expectStep s x), (playlistStep s.1 x).2)

/-- What is started is in the list, and was asked for; and no item is read that is not in the
list. -/
def PlaylistEvent.Answers (s : LoggedPlaylist) : PlaylistEvent → Prop
  | .returned _ => True
  | .started item slot => s.1.list.items[slot]? = some item ∧ (s.2 = .free ∨ s.2 = .item slot)
  | .wild => False

/-- What was asked for is started before all is quiet. -/
structure PlaylistSound (s : LoggedPlaylist) (x : PlaylistStep) : Prop where
  answers : ∀ event ∈ (playlistMachine.step s x).2, event.Answers s
  done : (playlistMachine.step s x).1.1.Quiet → ∀ slot, (playlistMachine.step s x).1.2 ≠ .item slot

namespace Playlist

variable (l : Playlist)

/-- A play that is refused. -/
def Refuses : PlaylistReq → Prop
  | .play k => l.count ≤ k
  | _ => False

/-- While an item is playing, or stops: the callback's step is not one too many. -/
def PlayingSafe : PlaylistReq → Prop
  | .next => l.single = true ∨ (l.loop = true ∧ l.count = 1)
  | .prev => l.playing = true ∧ (l.single = true ∨ l.index = 0)
  | .play _ => l.playing = true
  | .stop => l.targetIndex = invalidIndex ∧ l.loop = false ∧ l.index + 1 = l.count
  | .restart => l.targetIndex = invalidIndex ∧ l.playing = true ∧
    (l.single = true ∨ (l.loop = true ∧ l.count = 1))
  | .clear => l.targetIndex = invalidIndex ∧ l.loop = false

/-- While nothing is playing. -/
def IdleSafe : PlaylistReq → Prop
  | .prev => l.loop = true → 0 < l.count
  | .play _ => l.playing = false
  | .restart => l.playing = true → l.count = 0
  | _ => True

/-- What the callback starts is the same behind an item more. -/
def AddSafe : Prop := l.targetIndex ≠ invalidIndex ∨ l.single = true ∨ l.index + 1 ≠ l.count

/-- What the callback starts is the same in the other mode. -/
def SetLoopSafe (loop single : Bool) :
    Prop := l.targetIndex ≠ invalidIndex ∨ l.setLoop loop single = l

instance (req : PlaylistReq) : Decidable (l.Refuses req) :=
  match req with
  | .play _ => inferInstanceAs (Decidable (_ ≤ _))
  | .next | .prev | .stop | .restart | .clear => isFalse (fun h ↦ h)

instance (req : PlaylistReq) : Decidable (l.PlayingSafe req) :=
  match req with
  | .next => inferInstanceAs (Decidable (_ ∨ _ ∧ _))
  | .prev => inferInstanceAs (Decidable (_ ∧ (_ ∨ _)))
  | .play _ => inferInstanceAs (Decidable (_ = _))
  | .stop => inferInstanceAs (Decidable (_ ∧ _ ∧ _))
  | .restart => inferInstanceAs (Decidable (_ ∧ _ ∧ (_ ∨ _ ∧ _)))
  | .clear => inferInstanceAs (Decidable (_ ∧ _))

instance (req : PlaylistReq) : Decidable (l.IdleSafe req) :=
  match req with
  | .prev => inferInstanceAs (Decidable (_ → _))
  | .play _ => inferInstanceAs (Decidable (_ = _))
  | .restart => inferInstanceAs (Decidable (_ → _))
  | .next | .stop | .clear => isTrue trivial

instance : Decidable l.AddSafe := inferInstanceAs (Decidable (_ ∨ _ ∨ _))

instance (loop single : Bool) :
    Decidable (l.SetLoopSafe loop single) := inferInstanceAs (Decidable (_ ∨ _))

end Playlist

/-- A stop that was asked for is behind, and its callback is not. -/
def AwaitsCallback (s : LoggedPlaylist) : Prop :=
  s.1.lock = none ∧ s.1.player.thread ≠ .fetch ∧ s.2 ≠ .following

instance (s : LoggedPlaylist) :
    Decidable (AwaitsCallback s) := inferInstanceAs (Decidable (_ ∧ _ ∧ _))

/-- A request comes when no start or stop is in the queue, and, while an item is playing or stops,
asks for what the callback starts; an item that is added has a value, the first is added when all is
quiet, and between a stop and its callback neither an item nor a mode changes what is started; and
an item does not end while its stop is in the queue. -/
def PlaylistSafe (s : LoggedPlaylist) : PlaylistStep → Prop
  | .add _ value _ _ => value ≠ some [] ∧
      (s.1.lock = none → s.1.list.count = 0 → s.1.list.autoPlay = true → s.1.Quiet) ∧
      (AwaitsCallback s → s.1.list.AddSafe)
  | .setLoop loop single => AwaitsCallback s → s.1.list.SetLoopSafe loop single
  | .request req => s.1.lock = none → s.1.list.Refuses req ∨ (s.1.player.queue = [] ∧
      if s.1.player.state = .playing ∨ s.1.player.thread ≠ .fetch then s.1.list.PlayingSafe req
      else s.1.list.IdleSafe req)
  | .eof => s.1.player.state = .playing → s.1.player.queue = []
  | _ => True

instance (s : LoggedPlaylist) (x : PlaylistStep) : Decidable (PlaylistSafe s x) :=
  match x with
  | .add _ _ _ _ => inferInstanceAs (Decidable (_ ∧ (_ → _ → _ → _) ∧ (_ → _)))
  | .setLoop _ _ => inferInstanceAs (Decidable (_ → _))
  | .request req => inferInstanceAs
    (Decidable (s.1.lock = none → s.1.list.Refuses req ∨ (s.1.player.queue = [] ∧
      if s.1.player.state = .playing ∨ s.1.player.thread ≠ .fetch then s.1.list.PlayingSafe req
      else s.1.list.IdleSafe req)))
  | .eof => inferInstanceAs (Decidable (_ → _))
  | .resume | .fetch | .notify => isTrue trivial

namespace Playlist

/-- What holds of the list in every safe run. -/
structure Ok (l : Playlist) : Prop where
  length_le : l.count ≤ l.capacity
  capacity_lt : l.capacity < 2 ^ 32
  single_loop : l.single = true → l.loop = true
  values : ∀ item ∈ l.items, item.value ≠ []
  index_lt : l.index < l.count ∨ (l.items = [] ∧ l.index = 0)

/-- The item of the index is playing, or is to be started. -/
structure At (l : Playlist) (item : PlayItem) (slot : ℕ) : Prop extends l.Ok where
  index_eq : l.index = slot
  item_eq : l.items[slot]? = some item
  target : l.targetIndex = invalidIndex
  isPlaying : l.playing = true

/-- What the callback starts. -/
def goal (l : Playlist) : Option ℕ :=
  if l.targetIndex < l.count then some l.targetIndex
  else if l.single = true then some l.index
  else if l.index + 1 < l.count then some (l.index + 1)
  else if l.loop = true then some 0
  else none

/-- A list that the callback may find. -/
structure Ready (l : Playlist) : Prop extends l.Ok where
  target : l.targetIndex = invalidIndex ∨ l.targetIndex < l.count
  nonempty : l.playing = true → 0 < l.count
  isPlaying : ∀ slot, l.goal = some slot → l.playing = true

/-- The callback starts what is expected. -/
structure Meets (l : Playlist) (expect : Expect) : Prop extends l.Ready where
  ne_following : expect ≠ .following
  item_eq : ∀ slot, expect = .item slot → l.goal = some slot
  nothing_eq : expect = .nothing → l.goal = none

/-- The list as a request leaves it at its stop. -/
def aimed (l : Playlist) : PlaylistReq → Playlist
  | .next => { l with index := l.nextIndex }
  | .prev => { l with index := l.prevIndex }
  | .play k => { l with targetIndex := k }
  | _ => l

variable {l : Playlist}

theorem Ok.count_lt (h : l.Ok) : l.count < 2 ^ 32 := Nat.lt_of_le_of_lt h.length_le h.capacity_lt

theorem Ok.invalid_ge (h : l.Ok) : ¬ invalidIndex < l.count := by
  have hcount := h.count_lt
  rw [invalidIndex]
  omega

theorem Ok.nextIndex_eq (h : l.Ok) :
    l.nextIndex = if l.index + 1 < l.count then l.index + 1
      else if l.loop = true then 0 else l.count - 1 := by
  have hcount := h.count_lt
  have hmod : (l.index + 1) % 2 ^ 32 = l.index + 1 := by
    apply Nat.mod_eq_of_lt
    rcases h.index_lt with hlt | ⟨-, hzero⟩
    · omega
    · omega
  rw [nextIndex, hmod]
  grind

theorem Ok.prevIndex_lt (h : l.Ok) (hcount : 0 < l.count) : l.prevIndex < l.count := by
  have hlt := h.count_lt
  rcases h.index_lt with hindex | ⟨hitems, -⟩
  · rw [prevIndex]
    grind
  · simp [count, hitems] at hcount

theorem At.slot_lt {item : PlayItem} {slot : ℕ} (h : l.At item slot) : slot < l.count :=
  (List.getElem?_eq_some_iff.mp h.item_eq).1

theorem At.not_first {item : PlayItem} {slot : ℕ} (h : l.At item slot) :
    ¬ (l.count = 0 ∧ l.autoPlay = true) :=
  fun hfirst ↦ Nat.not_lt_zero slot (hfirst.1 ▸ h.slot_lt)

theorem At.ready {item : PlayItem} {slot : ℕ} (h : l.At item slot) : l.Ready where
  toOk := h.toOk
  target := Or.inl h.target
  nonempty _ := Nat.zero_lt_of_lt h.slot_lt
  isPlaying _ _ := h.isPlaying

theorem At.meets_end {item : PlayItem} {slot : ℕ} (h : l.At item slot) :
    l.Meets (l.expectEnd slot) := by
  have hinvalid := h.invalid_ge
  have hgoal : l.goal = if l.single = true then some slot else if slot + 1 <
    l.count then some (slot + 1)
      else if l.loop = true then some 0 else none := by
    rw [goal, h.target, if_neg hinvalid, h.index_eq]
  refine ⟨h.ready, ?_, ?_, ?_⟩
  · rw [expectEnd]
    grind
  · intro i hi
    rw [expectEnd] at hi
    rw [hgoal]
    grind
  · intro hnothing
    rw [expectEnd] at hnothing
    rw [hgoal]
    grind

theorem Ready.goal_lt (h : l.Ready) {slot : ℕ} (hgoal : l.goal = some slot) : slot < l.count := by
  have hcount := h.nonempty (h.isPlaying slot hgoal)
  have hindex : l.index < l.count := by
    rcases h.index_lt with hlt | ⟨hitems, -⟩
    · exact hlt
    · simp [count, hitems] at hcount
  rw [goal] at hgoal
  grind

theorem Ok.setLoop (h : l.Ok) (loop single : Bool) : (l.setLoop loop single).Ok where
  length_le := h.length_le
  capacity_lt := h.capacity_lt
  single_loop := by
    rw [Playlist.setLoop]
    grind
  values := h.values
  index_lt := h.index_lt

theorem Ok.push (h : l.Ok) {item : PlayItem} (hcapacity : l.count < l.capacity)
    (hvalue : item.value ≠ []) :
    (l.push item).Ok where
  length_le := by simpa [Playlist.push, count] using Nat.succ_le_of_lt hcapacity
  capacity_lt := h.capacity_lt
  single_loop := h.single_loop
  values := by
    intro other hother
    rcases List.mem_append.mp hother with hmem | hmem
    · exact h.values other hmem
    · rwa [List.mem_singleton.mp hmem]
  index_lt := by
    left
    rcases h.index_lt with hlt | ⟨-, hzero⟩
    · simp only [Playlist.push, count, List.length_append] at hlt ⊢
      omega
    · simp [Playlist.push, count, hzero]

theorem Ok.nextIndex_lt (h : l.Ok) (hcount : 0 < l.count) : l.nextIndex < l.count := by
  rw [h.nextIndex_eq]
  grind

theorem Ok.withIndex (h : l.Ok) {i : ℕ} (hi : i < l.count ∨ (l.items = [] ∧ i = 0)) :
    { l with index := i }.Ok where
  length_le := h.length_le
  capacity_lt := h.capacity_lt
  single_loop := h.single_loop
  values := h.values
  index_lt := hi

theorem Ok.next (h : l.Ok) : { l with index := l.nextIndex }.Ok := by
  apply h.withIndex
  rcases Nat.eq_zero_or_pos l.count with hzero | hpos
  · refine Or.inr ⟨List.length_eq_zero_iff.mp hzero, ?_⟩
    rw [h.nextIndex_eq, hzero]
    grind
  · exact Or.inl (h.nextIndex_lt hpos)

theorem Ok.prev (h : l.Ok) (hloop : l.loop = true → 0 < l.count) :
    { l with index := l.prevIndex }.Ok := by
  apply h.withIndex
  rcases Nat.eq_zero_or_pos l.count with hzero | hpos
  · refine Or.inr ⟨List.length_eq_zero_iff.mp hzero, ?_⟩
    have hindex := h.index_lt
    rw [prevIndex]
    grind
  · exact Or.inl (h.prevIndex_lt hpos)

theorem Ok.rest (h : l.Ok) (req : PlaylistReq) : (l.rest req).Ok := by
  cases req with
  | next | prev => exact h
  | play | stop => exact ⟨h.length_le, h.capacity_lt, h.single_loop, h.values, h.index_lt⟩
  | restart =>
      refine ⟨h.length_le, h.capacity_lt, h.single_loop, h.values, ?_⟩
      rcases h.index_lt with hlt | ⟨hitems, -⟩
      · exact Or.inl (Nat.zero_lt_of_lt hlt)
      · exact Or.inr ⟨hitems, rfl⟩
  | clear => exact ⟨Nat.zero_le _, h.capacity_lt,
    h.single_loop, by simp [Playlist.rest], Or.inr ⟨rfl, rfl⟩⟩

theorem Ready.asked (h : l.Ready) {req : PlaylistReq} (hreq : ¬ l.Refuses req)
    (hsafe : l.PlayingSafe req) :
    ((l.aimed req).rest req).Ready := by
  have hplaying := h.isPlaying
  have htarget := h.target
  have hnonempty := h.nonempty
  cases req with
  | next =>
      refine ⟨h.next, htarget, hnonempty, fun slot _ ↦ ?_⟩
      rw [goal] at hplaying
      rw [PlayingSafe] at hsafe
      grind [aimed, Playlist.rest]
  | prev => exact ⟨h.prev fun _ ↦ hnonempty hsafe.1, htarget, hnonempty, fun _ _ ↦ hsafe.1⟩
  | play k =>
      have hk : k < l.count := Nat.lt_of_not_le hreq
      refine ⟨?_, Or.inr hk, fun _ ↦ Nat.zero_lt_of_lt hk, fun _ _ ↦ rfl⟩
      exact ⟨h.length_le, h.capacity_lt, h.single_loop, h.values, h.index_lt⟩
  | stop =>
      have hinvalid := h.invalid_ge
      have hsingle := h.single_loop
      refine ⟨h.toOk.rest .stop, htarget, fun hfalse ↦ (by cases hfalse), fun slot hgoal ↦ ?_⟩
      rw [PlayingSafe] at hsafe
      rw [goal] at hgoal
      grind [aimed, Playlist.rest, count]
  | restart => exact ⟨h.toOk.rest .restart, htarget, fun _ ↦ hnonempty hsafe.2.1, fun _ _ ↦ rfl⟩
  | clear =>
      have hsingle := h.single_loop
      refine ⟨h.toOk.rest .clear, Or.inl hsafe.1, fun hfalse ↦ (by cases hfalse),
        fun slot hgoal ↦ ?_⟩
      rw [PlayingSafe] at hsafe
      rw [goal] at hgoal
      grind [aimed, Playlist.rest, count]

theorem expectRequest_refused {req : PlaylistReq} (h : l.Refuses req) (i : ℕ) (before : Expect) :
    l.expectRequest i before req = before := by
  cases req with
  | play k => exact if_neg (Nat.not_lt.mpr h)
  | next | prev | stop | restart | clear => cases h

theorem expectIdle_refused {req : PlaylistReq} (h : l.Refuses req) (before : Expect) :
    l.expectIdle before req = before := by
  cases req with
  | play k => exact if_neg (Nat.not_lt.mpr h)
  | next | prev | stop | restart | clear => cases h

theorem Ready.meets_free (h : l.Ready) : l.Meets .free :=
  ⟨h, (by simp), fun _ hi ↦ (by cases hi), fun hi ↦ (by cases hi)⟩

theorem Ready.meets_item (h : l.Ready) {slot : ℕ} (hgoal : l.goal = some slot) :
    l.Meets (.item slot) := by
  refine ⟨h, (by simp), fun i hi ↦ ?_, fun hi ↦ (by cases hi)⟩
  cases hi
  exact hgoal

theorem Ready.meets_nothing (h : l.Ready) (hgoal : l.goal = none) : l.Meets .nothing :=
  ⟨h, (by simp), fun _ hi ↦ (by cases hi), fun _ ↦ hgoal⟩

theorem Ready.meets_idle (h : l.Ready) {req : PlaylistReq} (hreq : ¬ l.Refuses req)
    (hsafe : l.PlayingSafe req)
    (before : Expect) : ((l.aimed req).rest req).Meets (l.expectIdle before req) := by
  have hready := h.asked hreq hsafe
  have hinvalid := h.invalid_ge
  have hsingle := h.single_loop
  cases req with
  | next | prev => exact hready.meets_free
  | play k =>
      have hk : k < l.count := Nat.lt_of_not_le hreq
      rw [expectIdle, if_pos hk]
      exact hready.meets_item (if_pos hk)
  | stop =>
      apply hready.meets_nothing
      rw [PlayingSafe] at hsafe
      rw [goal]
      grind [aimed, Playlist.rest, count]
  | restart =>
      have hcount := h.nonempty hsafe.2.1
      rw [expectIdle, if_pos hcount]
      apply hready.meets_item
      rw [PlayingSafe] at hsafe
      rw [goal]
      grind [aimed, Playlist.rest, count]
  | clear =>
      apply hready.meets_nothing
      rw [PlayingSafe] at hsafe
      rw [goal]
      grind [aimed, Playlist.rest, count]

theorem At.meets_request {item : PlayItem} {slot : ℕ} (h : l.At item slot) {req : PlaylistReq}
    (hreq : ¬ l.Refuses req) (hsafe : l.PlayingSafe req) (before : Expect) :
    ((l.aimed req).rest req).Meets (l.expectRequest slot before req) := by
  have hready := h.ready.asked hreq hsafe
  have hinvalid := h.invalid_ge
  have hcount := Nat.zero_lt_of_lt h.slot_lt
  have hidle := h.ready.meets_idle hreq hsafe before
  cases req with
  | next =>
      have hnext := h.nextIndex_eq
      have hindex := h.index_eq
      have htarget := h.target
      apply hready.meets_item
      rw [PlayingSafe] at hsafe
      rw [goal]
      grind [aimed, Playlist.rest, count]
  | prev =>
      rw [expectRequest]
      split
      case isTrue hpos =>
        have htarget := h.target
        have hindex := h.index_eq
        apply hready.meets_item
        rw [PlayingSafe] at hsafe
        rw [goal]
        grind [aimed, Playlist.rest, count, prevIndex]
      case isFalse => exact hready.meets_free
  | play k => exact hidle
  | stop => exact hidle
  | restart =>
      rw [expectIdle, if_pos hcount] at hidle
      exact hidle
  | clear => exact hidle

/-- The condition is exact: any other request while an item is playing is answered by another item,
or none, or where nothing was to be started. -/
theorem At.meets_request_iff {item : PlayItem} {slot : ℕ} (h : l.At item slot) {req : PlaylistReq}
    (hreq : ¬ l.Refuses req) (before : Expect) :
    ((l.aimed req).rest req).Meets (l.expectRequest slot before req) ↔ l.PlayingSafe req := by
  refine ⟨fun hmeets ↦ ?_, fun hsafe ↦ h.meets_request hreq hsafe before⟩
  have hinvalid := h.invalid_ge
  have hslot := h.slot_lt
  have hindex := h.index_eq
  have htarget := h.target
  have hplaying := h.isPlaying
  have hitem := hmeets.item_eq
  have hnothing := hmeets.nothing_eq
  cases req with
  | next =>
      have hnext := h.nextIndex_eq
      have hgoal := hitem _ rfl
      rw [goal] at hgoal
      rw [PlayingSafe]
      grind [aimed, Playlist.rest, count]
  | prev =>
      rw [PlayingSafe]
      by_cases hpos : 0 < slot
      · have hgoal := hitem (slot - 1) (if_pos hpos)
        rw [goal] at hgoal
        grind [aimed, Playlist.rest, count, prevIndex]
      · grind
  | play k => exact hplaying
  | stop =>
      have hgoal := hnothing rfl
      rw [goal] at hgoal
      rw [PlayingSafe]
      grind [aimed, Playlist.rest, count]
  | restart =>
      have hgoal := hitem 0 rfl
      rw [goal] at hgoal
      rw [PlayingSafe]
      grind [aimed, Playlist.rest, count]
  | clear =>
      have hgoal := hnothing rfl
      rw [goal] at hgoal
      rw [PlayingSafe]
      grind [aimed, Playlist.rest, count]

theorem Meets.congr {expect : Expect} (h : l.Meets expect) {l' : Playlist} (hok : l'.Ok)
    (htarget : l'.targetIndex = l.targetIndex) (hcount : l.count ≤ l'.count)
    (hplaying : l'.playing = l.playing) (hgoal : l'.goal = l.goal) : l'.Meets expect where
  toOk := hok
  target := by
    rw [htarget]
    exact h.target.imp_right fun hlt ↦ Nat.lt_of_lt_of_le hlt hcount
  nonempty hp := Nat.lt_of_lt_of_le (h.nonempty (hplaying ▸ hp)) hcount
  isPlaying slot hslot := by
    rw [hplaying]
    exact h.isPlaying slot (hgoal ▸ hslot)
  ne_following := h.ne_following
  item_eq slot hslot := hgoal.trans (h.item_eq slot hslot)
  nothing_eq hnothing := hgoal.trans (h.nothing_eq hnothing)

theorem Meets.push {expect : Expect} (h : l.Meets expect) (hsafe : l.AddSafe) {item : PlayItem}
    (hcapacity : l.count < l.capacity) (hvalue : item.value ≠ []) : (l.push item).Meets expect := by
  have hok := h.toOk.push hcapacity hvalue
  have hcount : (l.push item).count = l.count + 1 := List.length_append
  apply h.congr hok rfl (by omega) rfl
  have hinvalid := hok.invalid_ge
  have htarget := h.target
  have hindex := h.index_lt
  have hnone : l.count = 0 → l.goal = none := by
    intro hzero
    rw [Option.eq_none_iff_forall_ne_some]
    intro slot hslot
    have hlt := h.goal_lt hslot
    omega
  rw [AddSafe] at hsafe
  rw [goal] at hnone ⊢
  rw [goal, hcount]
  grind [Playlist.push, count]

theorem Meets.setLoop {expect : Expect} (h : l.Meets expect) {loop single : Bool}
    (hsafe : l.SetLoopSafe loop single) : (l.setLoop loop single).Meets expect := by
  rcases hsafe with htarget | hsame
  · have hlt := h.target.resolve_left htarget
    apply h.congr (h.toOk.setLoop loop single) rfl (Nat.le_refl _) rfl
    rw [goal, goal, if_pos hlt]
    exact if_pos hlt
  · rwa [hsame]

theorem At.push {item : PlayItem} {slot : ℕ} (h : l.At item slot) {other : PlayItem}
    (hcapacity : l.count < l.capacity) (hvalue : other.value ≠ []) :
    (l.push other).At item slot where
  toOk := h.toOk.push hcapacity hvalue
  index_eq := h.index_eq
  item_eq := by
    rw [Playlist.push, List.getElem?_append_left h.slot_lt]
    exact h.item_eq
  target := h.target
  isPlaying := h.isPlaying

theorem At.setLoop {item : PlayItem} {slot : ℕ} (h : l.At item slot) (loop single : Bool) :
    (l.setLoop loop single).At item slot :=
  ⟨h.toOk.setLoop loop single, h.index_eq, h.item_eq, h.target, h.isPlaying⟩

/-- The list as the callback leaves it when it starts an item. -/
def turned (l : Playlist) (slot : ℕ) :
    Playlist := { l with index := slot, targetIndex := invalidIndex }

theorem Ok.at_start (h : l.Ok) (htarget : l.targetIndex = invalidIndex) {i : ℕ} (hi : i < l.count) :
    ∃ item, item.value ≠ [] ∧ l.items[i]? = some item ∧
      ({ l with index := i, playing := true } : Playlist).At item i := by
  have hitem : l.items[i]? = some l.items[i] := List.getElem?_eq_getElem hi
  refine ⟨l.items[i], h.values _ (List.getElem_mem hi), hitem, ?_, rfl, hitem, htarget, rfl⟩
  exact ⟨h.length_le, h.capacity_lt, h.single_loop, h.values, Or.inl hi⟩

theorem turned_eq (h : l.targetIndex = invalidIndex) (slot : ℕ) :
    l.turned slot = { l with index := slot } := by
  rw [turned, ← h]

theorem Ready.turned_at (h : l.Ready) {slot : ℕ} (hgoal : l.goal = some slot) :
    ∃ item, item.value ≠ [] ∧ (l.turned slot).At item slot := by
  have hlt := h.goal_lt hgoal
  refine ⟨l.items[slot], h.values _ (List.getElem_mem hlt), ?_, rfl, ?_, rfl,
    h.isPlaying slot hgoal⟩
  · exact ⟨h.length_le, h.capacity_lt, h.single_loop, h.values, Or.inl hlt⟩
  · exact List.getElem?_eq_getElem hlt

end Playlist

namespace PlaylistState

variable {s : PlaylistState}

theorem playerStatusCb_some (h : s.list.Ready) {slot : ℕ} (hgoal : s.list.goal = some slot) :
    s.playerStatusCb = s.startAt (s.list.turned slot) slot := by
  have hcount := h.count_lt
  have hinvalid := h.invalid_ge
  have hlt := h.goal_lt hgoal
  have hindex := h.index_lt
  by_cases htarget : s.list.targetIndex < s.list.count
  · have hne : s.list.targetIndex ≠ invalidIndex := fun heq ↦ hinvalid (heq ▸ htarget)
    have hslot : s.list.targetIndex = slot := by
      rw [Playlist.goal, if_pos htarget] at hgoal
      exact Option.some.inj hgoal
    rw [playerStatusCb, if_pos ⟨hne, htarget⟩, hslot]
    rfl
  · have hfree := h.target.resolve_right htarget
    have hmod : (s.list.index + 1) % 2 ^ 32 = s.list.index + 1 := by
      apply Nat.mod_eq_of_lt
      omega
    rw [Playlist.goal, if_neg htarget] at hgoal
    rw [playerStatusCb, if_neg fun hand ↦ hand.1 hfree, hmod, Playlist.turned_eq hfree]
    by_cases hsingle : s.list.single = true
    · rw [if_pos hsingle] at hgoal
      rw [if_pos hsingle, ← Option.some.inj hgoal]
    · grind

theorem playerStatusCb_none (h : s.list.Ready) (hgoal : s.list.goal = none) :
    s.playerStatusCb = ({ s with list := { s.list with index := 0, playing := false } }, []) := by
  have hcount := h.count_lt
  have hindex := h.index_lt
  have hmod : (s.list.index + 1) % 2 ^ 32 = s.list.index + 1 := by
    apply Nat.mod_eq_of_lt
    omega
  rw [Playlist.goal] at hgoal
  rw [playerStatusCb, hmod]
  grind

end PlaylistState

end TuyaOpen.Audio
