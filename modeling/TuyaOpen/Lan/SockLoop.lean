import Mathlib.Data.Finset.Basic
import Mathlib.Data.Finset.Insert
import Mathlib.Data.Int.Notation
import Mathlib.Logic.Function.Basic

/-!
# The socket loop, `lan_sock.c`

Sockets are registered and unregistered by messages: the loop takes one message
in each round and enters the socket in its table of readers, or closes it and
takes it out.  The queue and the table are bounded, and both refuse silently or
with a code that the caller has to look at.

A descriptor has at most one holder (a session, or a service that listens).  What
the loop owes to the holders is stated over any type of holders.
-/

namespace TuyaOpen.Lan

def lanUdpReaderCnt : ℕ := 5
def lanQueueNum : ℕ := 6

/-- The callbacks that sockets are registered with. -/
inductive SockRead
  | tcpServ
  | tcpClient
  | udpServ
  | monitor
  deriving DecidableEq

/-- A message or a reader; a message without a callback asks to unregister. -/
structure SloopSock where
  sock : ℤ
  read : Option SockRead
  deriving DecidableEq

/-- The loop, with the descriptors that are open in the network layer. -/
structure LanSloop where
  maxSock : ℤ
  cnt : ℤ
  readers : List SloopSock
  queue : List SloopSock
  opened : Finset ℤ

def freeReader : SloopSock := ⟨-1, none⟩

def tySockGetReaderNum (clientNum : ℕ) : ℕ := lanUdpReaderCnt + clientNum

def tuyaSockLoopInit (clientNum : ℕ) : LanSloop where
  maxSock := 0
  cnt := 0
  readers := List.replicate (tySockGetReaderNum clientNum) freeReader
  queue := []
  opened := ∅

def talNetClose (s : LanSloop) (sock : ℤ) : LanSloop :=
  { s with opened := s.opened.erase sock }

def tyAddSockReader (s : LanSloop) (info : SloopSock) : LanSloop :=
  let s := { s with maxSock := if s.maxSock < info.sock then info.sock else s.maxSock }
  match s.readers.findIdx? fun r ↦ r.sock = info.sock ∧ r.read = info.read with
  | some idx => { s with readers := s.readers.set idx info }
  | none =>
    match s.readers.findIdx? fun r ↦ r.sock = -1 with
    | some idx => { s with readers := s.readers.set idx info, cnt := s.cnt + 1 }
    | none => s

def tyDelSockReader (s : LanSloop) (sock : ℤ) : LanSloop :=
  match s.readers.findIdx? fun r ↦ r.sock = sock with
  | some idx =>
    { talNetClose s sock with readers := s.readers.set idx freeReader, cnt := s.cnt - 1 }
  | none => s

/-- The queue refuses a message when it is full. -/
def talQueuePost (s : LanSloop) (info : SloopSock) : Option LanSloop :=
  if s.queue.length < lanQueueNum then some { s with queue := s.queue ++ [info] } else none

def tuyaRegLanSock (s : LanSloop) (info : SloopSock) : Option LanSloop := talQueuePost s info

/-- No caller looks at the code. -/
def tuyaUnregLanSock (s : LanSloop) (sock : ℤ) : LanSloop :=
  (talQueuePost s ⟨sock, none⟩).getD s

/-- The part of a round of `tuya_sock_loop_run` before it selects. -/
def tuyaSockLoopFetch (s : LanSloop) : LanSloop :=
  match s.queue with
  | [] => s
  | info :: queue =>
    if info.read.isSome then tyAddSockReader { s with queue := queue } info
    else tyDelSockReader { s with queue := queue } info.sock

def hasRoom (s : LanSloop) : Bool := s.readers.any fun r ↦ r.sock = -1

/-! ## The table of readers -/

/-- No two readers have one socket. -/
def ReadersDistinct (readers : List SloopSock) : Prop :=
  ∀ (i j : ℕ) (a b : SloopSock), readers[i]? = some a → readers[j]? = some b →
    a.sock = b.sock → a.sock ≠ -1 → i = j

theorem readersDistinct_set {readers : List SloopSock} (h : ReadersDistinct readers) (idx : ℕ)
    {info : SloopSock} (hnew : ∀ r ∈ readers, r.sock = info.sock → info.sock = -1) :
    ReadersDistinct (readers.set idx info) := by
  intro i j a b hi hj hab hne
  rw [List.getElem?_set] at hi hj
  split_ifs at hi hj with hii hil hjj hjl hjj
  · exact hii.symm.trans hjj
  · obtain rfl := Option.some.inj hi
    exact absurd (hnew b (List.mem_of_getElem? hj) hab.symm) hne
  · obtain rfl := Option.some.inj hj
    exact absurd (hab.trans (hnew a (List.mem_of_getElem? hi) hab)) hne
  · exact h i j a b hi hj hab hne

theorem mem_set_of_ne {readers : List SloopSock} {idx : ℕ} {r info old : SloopSock}
    (hold : readers[idx]? = some old) (hr : r ∈ readers) (hne : r ≠ old) :
    r ∈ readers.set idx info := by
  obtain ⟨i, hi⟩ := List.mem_iff_getElem?.mp hr
  refine List.mem_iff_getElem?.mpr ⟨i, ?_⟩
  have hidx : idx ≠ i := by
    rintro rfl
    exact hne (Option.some.inj (hi.symm.trans hold))
  rw [List.getElem?_set_ne hidx, hi]

theorem getElem?_of_findIdx? {readers : List SloopSock} {p : SloopSock → Bool} {idx : ℕ}
    (h : readers.findIdx? p = some idx) : ∃ r, readers[idx]? = some r ∧ p r = true := by
  obtain ⟨hlt, hp, -⟩ := List.findIdx?_eq_some_iff_getElem.mp h
  exact ⟨readers[idx], List.getElem?_eq_getElem hlt, hp⟩

/-- What entering a socket that is not in the table does to the table. -/
structure Entered (info : SloopSock) (s s' : LanSloop) : Prop where
  queue : s'.queue = s.queue
  opened : s'.opened = s.opened
  distinct : ReadersDistinct s.readers → ReadersDistinct s'.readers
  old : ∀ r ∈ s'.readers, r = info ∨ r ∈ s.readers
  kept : ∀ r ∈ s.readers, r.sock ≠ -1 → r ∈ s'.readers
  entered : hasRoom s = true → info ∈ s'.readers

theorem tyAddSockReader_entered {s : LanSloop} {info : SloopSock}
    (hnew : ∀ r ∈ s.readers, r.sock ≠ info.sock) : Entered info s (tyAddSockReader s info) := by
  have hnone : (s.readers.findIdx? fun r ↦ r.sock = info.sock ∧ r.read = info.read) = none := by
    rw [List.findIdx?_eq_none_iff]
    intro r hr
    simp [hnew r hr]
  simp only [tyAddSockReader, hnone]
  cases hfree : s.readers.findIdx? fun r ↦ r.sock = -1 with
  | none =>
      refine ⟨rfl, rfl, id, fun r hr ↦ Or.inr hr, fun r hr _ ↦ hr, fun hroom ↦ ?_⟩
      obtain ⟨r, hr, hsock⟩ := List.any_eq_true.mp hroom
      have := List.findIdx?_eq_none_iff.mp hfree r hr
      simp_all
  | some idx =>
      obtain ⟨old, hold, hsock⟩ := getElem?_of_findIdx? hfree
      have hlt : idx < s.readers.length := (List.findIdx?_eq_some_iff_getElem.mp hfree).1
      refine ⟨rfl, rfl, fun h ↦ ?_, fun r hr ↦ ?_, fun r hr hne ↦ ?_, fun _ ↦ ?_⟩
      · exact readersDistinct_set h idx fun r hr heq ↦ absurd heq (hnew r hr)
      · exact (List.mem_or_eq_of_mem_set hr).symm
      · refine mem_set_of_ne hold hr ?_
        rintro rfl
        exact hne (of_decide_eq_true hsock)
      · exact List.mem_set hlt info

/-- What the end of a socket's registration does: the socket is closed with it. -/
structure Deleted (sock : ℤ) (s s' : LanSloop) : Prop where
  queue : s'.queue = s.queue
  opened : ∀ fd ∈ s.opened, fd ≠ sock → fd ∈ s'.opened
  distinct : ReadersDistinct s.readers → ReadersDistinct s'.readers
  old : ReadersDistinct s.readers → sock ≠ -1 → ∀ r ∈ s'.readers,
    r.sock = -1 ∨ (r ∈ s.readers ∧ r.sock ≠ sock)
  kept : ∀ r ∈ s.readers, r.sock ≠ sock → r ∈ s'.readers

theorem tyDelSockReader_deleted (s : LanSloop) (sock : ℤ) :
    Deleted sock s (tyDelSockReader s sock) := by
  rw [tyDelSockReader]
  cases hfind : s.readers.findIdx? fun r ↦ r.sock = sock with
  | none =>
      refine ⟨rfl, fun _ h _ ↦ h, id, fun _ _ r hr ↦ Or.inr ⟨hr, ?_⟩, fun r hr _ ↦ hr⟩
      simpa using List.findIdx?_eq_none_iff.mp hfind r hr
  | some idx =>
      obtain ⟨old, hold, hsock⟩ := getElem?_of_findIdx? hfind
      have holdsock : old.sock = sock := of_decide_eq_true hsock
      refine ⟨rfl, fun fd hfd hne ↦ Finset.mem_erase.mpr ⟨hne, hfd⟩, fun h ↦ ?_,
        fun h hsock1 r hr ↦ ?_, fun r hr hne ↦ ?_⟩
      · exact readersDistinct_set h idx fun r hr heq ↦ rfl
      · obtain ⟨i, hi⟩ := List.mem_iff_getElem?.mp hr
        by_cases hidx : idx = i
        · left
          subst hidx
          rw [List.getElem?_set_self (List.findIdx?_eq_some_iff_getElem.mp hfind).1] at hi
          rw [← Option.some.inj hi]
          rfl
        · right
          rw [List.getElem?_set_ne hidx] at hi
          refine ⟨List.mem_of_getElem? hi, fun heq ↦ hidx ?_⟩
          exact h idx i old r hold hi (holdsock.trans heq.symm) (holdsock ▸ hsock1)
      · refine mem_set_of_ne hold hr ?_
        rintro rfl
        exact hne holdsock

/-! ## Holders of descriptors -/

/-- Of two messages about one socket the first registers it and the second does not. -/
def InOrder (a b : SloopSock) : Prop := a.sock = b.sock → a.read.isSome ∧ b.read = none

section Holders

variable {η : Type*}

/-- The holders have descriptors of their own, which are open and stay so, and nothing
is left in the queue or in the table about a descriptor that is not open. -/
structure SloopSound (holder : η → Option ℤ) (s : LanSloop) : Prop where
  held : ∀ h fd, holder h = some fd → 0 ≤ fd ∧ fd ∈ s.opened ∧ ⟨fd, none⟩ ∉ s.queue
  distinct : ∀ h h' fd, holder h = some fd → holder h' = some fd → h = h'
  queued : ∀ e ∈ s.queue, 0 ≤ e.sock ∧ e.sock ∈ s.opened
  ordered : s.queue.Pairwise InOrder
  readers : ∀ r ∈ s.readers, r.sock ≠ -1 → r.sock ∈ s.opened
  readersDistinct : ReadersDistinct s.readers
  unread : ∀ e ∈ s.queue, e.read.isSome → ∀ r ∈ s.readers, r.sock ≠ e.sock

/-- The socket is registered, or its registration is in the queue. -/
def Served (s : LanSloop) (info : SloopSock) : Prop := info ∈ s.readers ∨ info ∈ s.queue

variable {holder : η → Option ℤ} {s : LanSloop}

theorem sloopSound_init (clientNum : ℕ) :
    SloopSound (fun _ : η ↦ none) (tuyaSockLoopInit clientNum) where
  held h fd hfd := by cases hfd
  distinct h h' fd hfd := by cases hfd
  queued e he := by cases he
  ordered := List.Pairwise.nil
  readers r hr hne := absurd (congrArg SloopSock.sock (List.eq_of_mem_replicate hr)) hne
  readersDistinct i j a b hi hj hab hne :=
    absurd (congrArg SloopSock.sock (List.eq_of_mem_replicate (List.mem_of_getElem? hi))) hne
  unread e he := by cases he

theorem SloopSound.release [DecidableEq η] (hs : SloopSound holder s) {h : η} {fd : ℤ}
    (hfd : holder h = some fd) :
    SloopSound (Function.update holder h none) (tuyaUnregLanSock s fd) := by
  have hother : ∀ h' fd', Function.update holder h none h' = some fd' →
      holder h' = some fd' ∧ fd' ≠ fd := by
    intro h' fd' hh'
    rcases eq_or_ne h' h with rfl | hne
    · simp at hh'
    · rw [Function.update_of_ne hne] at hh'
      refine ⟨hh', ?_⟩
      rintro rfl
      exact hne (hs.distinct h' h _ hh' hfd)
  have hdistinct : ∀ h₁ h₂ fd', Function.update holder h none h₁ = some fd' →
      Function.update holder h none h₂ = some fd' → h₁ = h₂ := fun h₁ h₂ fd' h₁' h₂' ↦
    hs.distinct h₁ h₂ fd' (hother h₁ fd' h₁').1 (hother h₂ fd' h₂').1
  obtain ⟨hnonneg, hopened, hpending⟩ := hs.held h fd hfd
  rw [tuyaUnregLanSock, talQueuePost]
  split_ifs
  · refine ⟨fun h' fd' hh' ↦ ?_, hdistinct, fun e he ↦ ?_, ?_, hs.readers, hs.readersDistinct,
      fun e he hreg ↦ ?_⟩
    · obtain ⟨hold, hne⟩ := hother h' fd' hh'
      obtain ⟨h0, hop, hnot⟩ := hs.held h' fd' hold
      refine ⟨h0, hop, ?_⟩
      simp [hnot, hne]
    · rcases List.mem_append.mp he with he | he
      · exact hs.queued e he
      · obtain rfl := List.mem_singleton.mp he
        exact ⟨hnonneg, hopened⟩
    · refine List.pairwise_append.mpr ⟨hs.ordered, List.pairwise_singleton _ _, ?_⟩
      intro a ha b hb hab
      obtain rfl := List.mem_singleton.mp hb
      refine ⟨?_, rfl⟩
      -- a message that unregisters would be one about a descriptor that is held
      by_contra hnone
      refine hpending ?_
      rw [Option.not_isSome_iff_eq_none] at hnone
      have : a = ⟨fd, none⟩ := by cases a; simp_all
      exact this ▸ ha
    · rcases List.mem_append.mp he with he | he
      · exact hs.unread e he hreg
      · obtain rfl := List.mem_singleton.mp he
        cases hreg
  · refine ⟨fun h' fd' hh' ↦ hs.held h' fd' (hother h' fd' hh').1, hdistinct, hs.queued,
      hs.ordered, hs.readers, hs.readersDistinct, hs.unread⟩

theorem Served.unreg {info : SloopSock} (h : Served s info) (fd : ℤ) :
    Served (tuyaUnregLanSock s fd) info := by
  rw [tuyaUnregLanSock, talQueuePost]
  split_ifs
  · exact h.imp id fun he ↦ List.mem_append_left _ he
  · exact h

theorem SloopSound.unknown (hs : SloopSound holder s) {fd : ℤ} (hnew : fd ∉ s.opened) :
    (∀ h, holder h ≠ some fd) ∧ (∀ e ∈ s.queue, e.sock ≠ fd) ∧
      (0 ≤ fd → ∀ r ∈ s.readers, r.sock ≠ fd) := by
  refine ⟨fun h hfd ↦ hnew (hs.held h fd hfd).2.1, fun e he hfd ↦ ?_, fun hnonneg r hr hfd ↦ ?_⟩
  · exact hnew (hfd ▸ (hs.queued e he).2)
  · exact hnew (hfd ▸ hs.readers r hr (by omega))

theorem SloopSound.acquire [DecidableEq η] (hs : SloopSound holder s) (h : η) {fd : ℤ}
    (read : SockRead) (hnonneg : 0 ≤ fd) (hnew : fd ∉ s.opened) :
    SloopSound (Function.update holder h (some fd))
      { s with queue := s.queue ++ [⟨fd, some read⟩], opened := insert fd s.opened } := by
  obtain ⟨hholder, hqueue, hreaders⟩ := hs.unknown hnew
  have hcases : ∀ h' fd', Function.update holder h (some fd) h' = some fd' →
      (h' = h ∧ fd' = fd) ∨ (h' ≠ h ∧ holder h' = some fd') := by
    intro h' fd' hh'
    rcases eq_or_ne h' h with rfl | hne
    · rw [Function.update_self] at hh'
      exact Or.inl ⟨rfl, (Option.some.inj hh').symm⟩
    · rw [Function.update_of_ne hne] at hh'
      exact Or.inr ⟨hne, hh'⟩
  refine ⟨fun h' fd' hh' ↦ ?_, fun h₁ h₂ fd' h₁' h₂' ↦ ?_, fun e he ↦ ?_, ?_, fun r hr hne ↦ ?_,
    hs.readersDistinct, fun e he hreg ↦ ?_⟩
  · rcases hcases h' fd' hh' with ⟨-, rfl⟩ | ⟨-, hold⟩
    · refine ⟨hnonneg, Finset.mem_insert_self _ _, ?_⟩
      simpa using fun hmem ↦ hqueue _ hmem rfl
    · obtain ⟨h0, hop, hnot⟩ := hs.held h' fd' hold
      refine ⟨h0, Finset.mem_insert_of_mem hop, ?_⟩
      simpa using hnot
  · rcases hcases h₁ fd' h₁' with ⟨rfl, rfl⟩ | ⟨-, hold₁⟩ <;>
      rcases hcases h₂ _ h₂' with ⟨rfl, heq⟩ | ⟨-, hold₂⟩
    · rfl
    · exact absurd hold₂ (hholder h₂)
    · exact absurd (heq ▸ hold₁) (hholder h₁)
    · exact hs.distinct h₁ h₂ fd' hold₁ hold₂
  · rcases List.mem_append.mp he with he | he
    · exact ⟨(hs.queued e he).1, Finset.mem_insert_of_mem (hs.queued e he).2⟩
    · obtain rfl := List.mem_singleton.mp he
      exact ⟨hnonneg, Finset.mem_insert_self _ _⟩
  · refine List.pairwise_append.mpr ⟨hs.ordered, List.pairwise_singleton _ _, ?_⟩
    intro a ha b hb hab
    obtain rfl := List.mem_singleton.mp hb
    exact absurd hab (hqueue a ha)
  · exact Finset.mem_insert_of_mem (hs.readers r hr hne)
  · rcases List.mem_append.mp he with he | he
    · exact hs.unread e he hreg
    · obtain rfl := List.mem_singleton.mp he
      exact hreaders hnonneg

section Fetch

variable {info : SloopSock} {queue : List SloopSock}

theorem SloopSound.fetch_add (hs : SloopSound holder s) (hqueue : s.queue = info :: queue)
    (hreg : info.read.isSome = true) :
    SloopSound holder (tyAddSockReader { s with queue := queue } info) := by
  have hmem : ∀ e ∈ queue, e ∈ s.queue := fun e he ↦ hqueue ▸ List.mem_cons_of_mem _ he
  have hhead : info ∈ s.queue := hqueue ▸ List.mem_cons_self
  have hordered := hs.ordered
  rw [hqueue, List.pairwise_cons] at hordered
  have hadd := tyAddSockReader_entered (s := { s with queue := queue }) (hs.unread info hhead hreg)
  generalize tyAddSockReader { s with queue := queue } info = s' at hadd ⊢
  have hopened : s'.opened = s.opened := hadd.opened
  have hqueue' : s'.queue = queue := hadd.queue
  refine ⟨fun h fd hfd ↦ ?_, hs.distinct, fun e he ↦ ?_, ?_, fun r hr hne ↦ ?_,
    hadd.distinct hs.readersDistinct, fun e he hsome r hr ↦ ?_⟩
  · obtain ⟨h0, hop, hnot⟩ := hs.held h fd hfd
    exact ⟨h0, hopened ▸ hop, fun hpend ↦ hnot (hmem _ (hqueue' ▸ hpend))⟩
  · rw [hopened]
    exact hs.queued e (hmem e (hqueue' ▸ he))
  · rw [hqueue']
    exact hordered.2
  · rw [hopened]
    rcases hadd.old r hr with rfl | hr
    · exact (hs.queued r hhead).2
    · exact hs.readers r hr hne
  · rw [hqueue'] at he
    rcases hadd.old r hr with rfl | hr
    · intro heq
      have := (hordered.1 e he heq).2
      rw [this] at hsome
      cases hsome
    · exact hs.unread e (hmem e he) hsome r hr

theorem SloopSound.fetch_del (hs : SloopSound holder s) (hqueue : s.queue = info :: queue)
    (hreg : ¬info.read.isSome = true) :
    SloopSound holder (tyDelSockReader { s with queue := queue } info.sock) := by
  have hmem : ∀ e ∈ queue, e ∈ s.queue := fun e he ↦ hqueue ▸ List.mem_cons_of_mem _ he
  have hhead : info ∈ s.queue := hqueue ▸ List.mem_cons_self
  have hordered := hs.ordered
  rw [hqueue, List.pairwise_cons] at hordered
  have hnone : info.read = none := Option.not_isSome_iff_eq_none.mp hreg
  have hinfo : info = ⟨info.sock, none⟩ := by rw [← hnone]
  have hnonneg := (hs.queued info hhead).1
  have hrest : ∀ e ∈ queue, e.sock ≠ info.sock := by
    intro e he heq
    exact hreg (hordered.1 e he heq.symm).1
  have hdel := tyDelSockReader_deleted { s with queue := queue } info.sock
  generalize tyDelSockReader { s with queue := queue } info.sock = s' at hdel ⊢
  have hqueue' : s'.queue = queue := hdel.queue
  have hold := hdel.old hs.readersDistinct (by omega)
  refine ⟨fun h fd hfd ↦ ?_, hs.distinct, fun e he ↦ ?_, ?_, fun r hr hne ↦ ?_,
    hdel.distinct hs.readersDistinct, fun e he hsome r hr ↦ ?_⟩
  · obtain ⟨h0, hop, hnot⟩ := hs.held h fd hfd
    refine ⟨h0, hdel.opened fd hop ?_, fun hpend ↦ hnot (hmem _ (hqueue' ▸ hpend))⟩
    rintro rfl
    exact hnot (hinfo ▸ hhead)
  · rw [hqueue'] at he
    obtain ⟨h0, hop⟩ := hs.queued e (hmem e he)
    exact ⟨h0, hdel.opened _ hop (hrest e he)⟩
  · rw [hqueue']
    exact hordered.2
  · obtain h1 | ⟨hr, hsock⟩ := hold r hr
    · exact absurd h1 hne
    · exact hdel.opened _ (hs.readers r hr hne) hsock
  · rw [hqueue'] at he
    obtain h1 | ⟨hr, -⟩ := hold r hr
    · rw [h1]
      have := (hs.queued e (hmem e he)).1
      omega
    · exact hs.unread e (hmem e he) hsome r hr

end Fetch

theorem SloopSound.fetch (hs : SloopSound holder s) : SloopSound holder (tuyaSockLoopFetch s) := by
  rw [tuyaSockLoopFetch]
  cases hqueue : s.queue with
  | nil => exact hs
  | cons info queue =>
      dsimp only
      split_ifs with hreg
      · exact hs.fetch_add hqueue hreg
      · exact hs.fetch_del hqueue hreg

theorem SloopSound.fetch_served (hs : SloopSound holder s) {info : SloopSock} {h : η}
    (hfd : holder h = some info.sock) (hsome : info.read.isSome = true) (hserved : Served s info)
    (hroom : s.queue.head? = some info → hasRoom s = true) :
    Served (tuyaSockLoopFetch s) info := by
  obtain ⟨hnonneg, -, hpending⟩ := hs.held h info.sock hfd
  rw [tuyaSockLoopFetch]
  cases hqueue : s.queue with
  | nil => exact hserved
  | cons e queue =>
      have hhead : e ∈ s.queue := hqueue ▸ List.mem_cons_self
      have hcases : info ∈ s.readers ∨ info = e ∨ info ∈ queue := by
        rcases hserved with hr | hq
        · exact Or.inl hr
        · rw [hqueue] at hq
          exact Or.inr (List.mem_cons.mp hq)
      dsimp only
      split_ifs with hreg
      · have hadd := tyAddSockReader_entered (s := { s with queue := queue })
          (hs.unread e hhead hreg)
        rcases hcases with hr | rfl | hq
        · exact Or.inl (hadd.kept info hr (by omega))
        · exact Or.inl (hadd.entered (hroom (by rw [hqueue]; rfl)))
        · exact Or.inr (hadd.queue ▸ hq)
      · have hnone : e.read = none := Option.not_isSome_iff_eq_none.mp hreg
        have hdel := tyDelSockReader_deleted { s with queue := queue } e.sock
        rcases hcases with hr | rfl | hq
        · refine Or.inl (hdel.kept info hr fun heq ↦ hpending ?_)
          rw [heq, ← hnone]
          exact hhead
        · exact absurd hsome hreg
        · exact Or.inr (hdel.queue ▸ hq)

end Holders

end TuyaOpen.Lan
