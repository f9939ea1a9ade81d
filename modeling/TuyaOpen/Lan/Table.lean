import TuyaOpen.Lan.Session
import TuyaOpen.Lan.SockLoop
import TuyaOpen.Lib.Mealy
import Mathlib.Data.Finset.Card
import Mathlib.Order.Interval.Finset.Nat

/-!
# The session table and the socket loop

The table of sessions, the counter of sessions and the loop's own table of readers
are kept by different functions, some of which run later than others.  Here they
run together, in any order.  Other users of the loop register and unregister
sockets of their own, and share its queue.
-/

namespace TuyaOpen.Lan

/-- The slots of `service` are descriptors outside of the session table: slot 0 is
`tcp_serv_fd`, slot 1 is `udp_serv_fd`, the others belong to other users of the loop. -/
structure LanTable where
  lan : LanMgr
  service : ℕ → ℤ
  sloop : LanSloop

def tcpServ : ℕ := 0
def udpServ : ℕ := 1

def serviceRead : ℕ → SockRead
  | 0 => .tcpServ
  | 1 => .udpServ
  | _ => .monitor

def lanTableStart (cfg : LanCfg) (isActivated : Bool) (localkey : List UInt8) : LanTable where
  lan := tuyaLanInit cfg isActivated localkey
  service _ := -1
  sloop := tuyaSockLoopInit cfg.clientNum

namespace LanTable

/-- A call of the session code, with the descriptors it asks the loop to unregister. -/
def runLan (t : LanTable) (f : LanMgr → LanMgr) : LanTable :=
  let lan := f { t.lan with unregPosts := [] }
  { t with lan := lan, sloop := lan.unregPosts.foldl tuyaUnregLanSock t.sloop }

def lanTcpServSockRead (t : LanTable) (cfd : ℤ) (time sequenceOut : ℕ) : LanTable :=
  if cfd < 0 then t
  else
    let sloop := { t.sloop with opened := insert cfd t.sloop.opened }
    if t.lan.cfg.clientNum ≤ t.lan.fdNum then { t with sloop := talNetClose sloop cfd }
    else
      let lan := lanSesisonAdd t.lan cfd time sequenceOut
      match tuyaRegLanSock sloop ⟨cfd, some .tcpClient⟩ with
      | some sloop => { t with lan := lan, sloop := sloop }
      | none => { t with lan := lan, sloop := talNetClose sloop cfd }

/-- A service opens a socket and registers it, as `lan_tcp_create_serv_socket` does. -/
def serviceOpen (t : LanTable) (k : ℕ) (sock : ℤ) : LanTable :=
  if t.service k ≠ -1 ∨ sock < 0 then t
  else
    let sloop := { t.sloop with opened := insert sock t.sloop.opened }
    match tuyaRegLanSock sloop ⟨sock, some (serviceRead k)⟩ with
    | some sloop => { t with service := Function.update t.service k sock, sloop := sloop }
    | none => { t with sloop := talNetClose sloop sock }

def serviceClose (t : LanTable) (k : ℕ) : LanTable :=
  if t.service k = -1 then t
  else
    { t with
      service := Function.update t.service k (-1)
      sloop := tuyaUnregLanSock t.sloop (t.service k) }

def lanSessionCloseAll (t : LanTable) : LanTable :=
  ((t.serviceClose tcpServ).serviceClose udpServ).runLan Lan.lanSessionCloseAll

end LanTable

inductive TableEvent
  | accept (cfd : ℤ) (time sequenceOut : ℕ)
  | close (slot : ℕ)
  | closeAll
  | timeCheck (time : ℕ)
  | fault (slot : ℕ)
  | fetch
  | serviceOpen (k : ℕ) (sock : ℤ)
  | serviceClose (k : ℕ)

def LanTable.step (t : LanTable) : TableEvent → LanTable
  | .accept cfd time sequenceOut => t.lanTcpServSockRead cfd time sequenceOut
  | .close slot => t.runLan (lanSessionClose · slot)
  | .closeAll => t.lanSessionCloseAll
  | .timeCheck time => t.runLan (lanSessionTimeCheck · time)
  | .fault slot => t.runLan (lanSessionFaultSet · slot)
  | .fetch => { t with sloop := tuyaSockLoopFetch t.sloop }
  | .serviceOpen k sock => t.serviceOpen k sock
  | .serviceClose k => t.serviceClose k

def lanTable : Mealy LanTable TableEvent Unit where
  step t event := (t.step event, ())

/-- The network layer gives descriptors that are not in use. -/
def freshDescriptor (t : LanTable) : TableEvent → Bool
  | .accept cfd _ _ => decide (cfd ∉ t.sloop.opened)
  | .serviceOpen _ sock => decide (sock ∉ t.sloop.opened)
  | _ => true

def isActiveFd (lan : LanMgr) (fd : ℤ) : Bool :=
  (List.range lan.cfg.clientNum).any fun i ↦
  (lan.session i).active && decide ((lan.session i).fd = fd)

/-- A connection that takes a slot finds room in the queue, and the registration of a
session finds room in the table of readers. -/
def registers (t : LanTable) : TableEvent → Bool
  | .accept cfd _ _ =>
    decide (cfd < 0 ∨ t.lan.cfg.clientNum ≤ t.lan.fdNum ∨ t.sloop.queue.length < lanQueueNum)
  | .fetch =>
    t.sloop.queue.head?.all fun info ↦
      hasRoom t.sloop || !(decide (info.read = some .tcpClient) && isActiveFd t.lan info.sock)
  | _ => true

def activeSlots (lan : LanMgr) : Finset ℕ :=
  (Finset.range lan.cfg.clientNum).filter fun i ↦ (lan.session i).active = true

structure TableConsistent (t : LanTable) : Prop where
  count : t.lan.fdNum = (activeSlots t.lan).card
  limit : t.lan.fdNum ≤ t.lan.cfg.clientNum
  distinct : ∀ i ∈ activeSlots t.lan, ∀ j ∈ activeSlots t.lan,
    (t.lan.session i).fd = (t.lan.session j).fd → i = j
  nonneg : ∀ i ∈ activeSlots t.lan, 0 ≤ (t.lan.session i).fd
  opened : ∀ i ∈ activeSlots t.lan, (t.lan.session i).fd ∈ t.sloop.opened
  served : ∀ i ∈ activeSlots t.lan, Served t.sloop ⟨(t.lan.session i).fd, some .tcpClient⟩

/-! ## The invariant -/

/-- Who holds a descriptor: a slot of the session table, or a service. -/
def LanTable.holder (t : LanTable) : ℕ ⊕ ℕ → Option ℤ
  | .inl i => if (t.lan.session i).active then some (t.lan.session i).fd else none
  | .inr k => if t.service k = -1 then none else some (t.service k)

structure Linked (t : LanTable) : Prop where
  sound : SloopSound t.holder t.sloop
  slot : ∀ i, (t.lan.session i).active = true → i < t.lan.cfg.clientNum
  served : ∀ i, (t.lan.session i).active = true →
    Served t.sloop ⟨(t.lan.session i).fd, some .tcpClient⟩

def Counted (lan : LanMgr) : Prop := lan.fdNum = (activeSlots lan).card

theorem mem_activeSlots {lan : LanMgr} {i : ℕ} :
    i ∈ activeSlots lan ↔ i < lan.cfg.clientNum ∧ (lan.session i).active = true := by
  rw [activeSlots, Finset.mem_filter, Finset.mem_range]

theorem holder_session {t : LanTable} {i : ℕ} (h : (t.lan.session i).active = true) :
    t.holder (.inl i) = some (t.lan.session i).fd := if_pos h

theorem Linked.consistent {t : LanTable} (h : Linked t) (hcount : Counted t.lan) :
    TableConsistent t where
  count := hcount
  limit := by
    rw [hcount]
    exact (Finset.card_filter_le _ _).trans (Finset.card_range _).le
  distinct i hi j hj hfd := by
    have hi' := holder_session (mem_activeSlots.mp hi).2
    have hj' := holder_session (mem_activeSlots.mp hj).2
    exact Sum.inl.inj (h.sound.distinct _ _ _ hi' (hfd ▸ hj'))
  nonneg i hi := (h.sound.held _ _ (holder_session (mem_activeSlots.mp hi).2)).1
  opened i hi := (h.sound.held _ _ (holder_session (mem_activeSlots.mp hi).2)).2.1
  served i hi := h.served i (mem_activeSlots.mp hi).2

/-! ## Sessions that end -/

/-- The table with a manager that has messages for the loop. -/
def LanTable.posted (t : LanTable) (lan : LanMgr) : LanTable :=
  { t with lan := lan, sloop := lan.unregPosts.foldl tuyaUnregLanSock t.sloop }

/-- The slot is wiped and its descriptor is posted. -/
structure Wipes (i : ℕ) (lan lan' : LanMgr) : Prop where
  active : (lan.session i).active = true
  session : lan'.session = Function.update lan.session i freedSession
  unregPosts : lan'.unregPosts = lan.unregPosts ++ [(lan.session i).fd]
  clientNum : lan'.cfg.clientNum = lan.cfg.clientNum

theorem Wipes.activeSlots {i : ℕ} {lan lan' : LanMgr} (h : Wipes i lan lan') :
    activeSlots lan' = (activeSlots lan).erase i := by
  ext j
  rw [Finset.mem_erase, mem_activeSlots, mem_activeSlots, h.session, h.clientNum]
  rcases eq_or_ne j i with rfl | hne
  · simp [freedSession]
  · simp [hne]

theorem Wipes.linked {i : ℕ} {lan lan' : LanMgr} {t : LanTable} (h : Wipes i lan lan')
    (ht : Linked (t.posted lan)) : Linked (t.posted lan') := by
  have hsloop : (t.posted lan').sloop =
      tuyaUnregLanSock (t.posted lan).sloop (lan.session i).fd := by
    simp only [LanTable.posted, h.unregPosts, List.foldl_append, List.foldl_cons, List.foldl_nil]
  have hholder : (t.posted lan').holder =
      Function.update (t.posted lan).holder (.inl i) none := by
    funext x
    rcases x with j | k
    · rcases eq_or_ne j i with rfl | hne
      · simp [LanTable.holder, LanTable.posted, h.session, freedSession]
      · simp [LanTable.holder, LanTable.posted, h.session, hne]
    · rfl
  have hactive : ∀ j, ((t.posted lan').lan.session j).active = true →
      (lan.session j).active = true ∧ (t.posted lan').lan.session j = lan.session j := by
    intro j hj
    simp only [LanTable.posted, h.session] at hj ⊢
    rcases eq_or_ne j i with rfl | hne
    · rw [Function.update_self] at hj
      cases hj
    · rw [Function.update_of_ne hne] at hj ⊢
      exact ⟨hj, rfl⟩
  refine ⟨?_, fun j hj ↦ ?_, fun j hj ↦ ?_⟩
  · rw [hsloop, hholder]
    exact ht.sound.release (holder_session h.active)
  · have hlt := ht.slot j (hactive j hj).1
    simpa only [LanTable.posted, h.clientNum] using hlt
  · rw [(hactive j hj).2, hsloop]
    exact (ht.served j (hactive j hj).1).unreg _

theorem lanSessionClose_cases (lan : LanMgr) (i : ℕ) :
    lanSessionClose lan i = lan ∨
      Wipes i lan (lanSessionClose lan i) ∧ (lanSessionClose lan i).fdNum = lan.fdNum - 1 := by
  rw [lanSessionClose]
  split_ifs with hidle hfd
  · exact Or.inl rfl
  · exact Or.inl rfl
  · refine Or.inr ⟨⟨?_, rfl, rfl, rfl⟩, rfl⟩
    simpa using (not_or.mp hidle).2

theorem lanSessionClose_linked {t : LanTable} {lan : LanMgr} (i : ℕ) (h : Linked (t.posted lan)) :
    Linked (t.posted (lanSessionClose lan i)) := by
  rcases lanSessionClose_cases lan i with heq | ⟨hwipes, -⟩
  · rwa [heq]
  · exact hwipes.linked h

theorem lanSessionClose_counted {t : LanTable} {lan : LanMgr} (i : ℕ) (h : Linked (t.posted lan))
    (hcount : Counted lan) : Counted (lanSessionClose lan i) := by
  rcases lanSessionClose_cases lan i with heq | ⟨hwipes, hnum⟩
  · rwa [heq]
  · have hmem : i ∈ activeSlots lan := mem_activeSlots.mpr ⟨h.slot i hwipes.active, hwipes.active⟩
    rw [Counted, hnum, hwipes.activeSlots, Finset.card_erase_of_mem hmem, hcount]

theorem lanSessionTimeCheck_linked {t : LanTable} {lan : LanMgr} (time : ℕ)
    (h : Linked (t.posted lan)) (hcount : Counted lan) :
    Linked (t.posted (lanSessionTimeCheck lan time)) ∧ Counted (lanSessionTimeCheck lan time) := by
  rw [lanSessionTimeCheck]
  split_ifs
  · exact ⟨h, hcount⟩
  · refine List.foldlRecOn (motive := fun lan ↦ Linked (t.posted lan) ∧ Counted lan) _ _
      ⟨h, hcount⟩ ?_
    rintro lan ⟨h, hcount⟩ i -
    split_ifs
    · exact ⟨lanSessionClose_linked i h, lanSessionClose_counted i h hcount⟩
    · exact ⟨h, hcount⟩

/-- The body of the loop in `lan_session_close_all`. -/
def closeSlot (lan : LanMgr) (i : ℕ) : LanMgr :=
  if (lan.session i).active then
    { lan.setSession i freedSession with unregPosts := lan.unregPosts ++ [(lan.session i).fd] }
  else lan

theorem lanSessionCloseAll_eq (lan : LanMgr) : lanSessionCloseAll lan =
    { (List.range lan.cfg.clientNum).foldl closeSlot lan with fdNum := 0 } := rfl

theorem closeSlots_linked {t : LanTable} {lan : LanMgr} (slots : List ℕ)
    (h : Linked (t.posted lan)) :
    Linked (t.posted (slots.foldl closeSlot lan)) ∧
    ∀ i, ((slots.foldl closeSlot lan).session i).active = true →
      (lan.session i).active = true ∧ i ∉ slots := by
  induction slots generalizing lan with
  | nil => exact ⟨h, fun i hi ↦ ⟨hi, List.not_mem_nil⟩⟩
  | cons j slots ih =>
      rw [List.foldl_cons, closeSlot]
      split_ifs with hactive
      · have hwipes : Wipes j lan { lan.setSession j freedSession with
            unregPosts := lan.unregPosts ++ [(lan.session j).fd] } := ⟨hactive, rfl, rfl, rfl⟩
        obtain ⟨hlinked, hrest⟩ := ih (hwipes.linked h)
        refine ⟨hlinked, fun i hi ↦ ?_⟩
        obtain ⟨hi, hnot⟩ := hrest i hi
        rcases eq_or_ne i j with rfl | hne
        · simp [LanMgr.setSession, freedSession] at hi
        · simp only [LanMgr.setSession, Function.update_of_ne hne] at hi
          exact ⟨hi, by simp [hne, hnot]⟩
      · obtain ⟨hlinked, hrest⟩ := ih h
        refine ⟨hlinked, fun i hi ↦ ?_⟩
        obtain ⟨hi, hnot⟩ := hrest i hi
        refine ⟨hi, ?_⟩
        rw [List.mem_cons, not_or]
        refine ⟨?_, hnot⟩
        rintro rfl
        exact hactive hi

theorem lanSessionCloseAll_linked {t : LanTable} {lan : LanMgr} (h : Linked (t.posted lan)) :
    Linked (t.posted (lanSessionCloseAll lan)) ∧ Counted (lanSessionCloseAll lan) := by
  obtain ⟨hlinked, hclosed⟩ := closeSlots_linked (List.range lan.cfg.clientNum) h
  rw [lanSessionCloseAll_eq]
  refine ⟨⟨hlinked.sound, hlinked.slot, hlinked.served⟩, ?_⟩
  have hnone : activeSlots { (List.range lan.cfg.clientNum).foldl closeSlot lan with
      fdNum := 0 } = ∅ := by
    refine Finset.filter_eq_empty_iff.mpr fun i _ hi ↦ ?_
    obtain ⟨hactive, hnot⟩ := hclosed i hi
    exact hnot (List.mem_range.mpr (h.slot i hactive))
  rw [Counted, hnone]
  rfl

theorem Linked.congr {t : LanTable} {lan lan' : LanMgr} (h : Linked (t.posted lan))
    (hcount : Counted lan)
    (hsame : ∀ j, (lan'.session j).active = (lan.session j).active ∧
      (lan'.session j).fd = (lan.session j).fd)
    (hposts : lan'.unregPosts = lan.unregPosts) (hcfg : lan'.cfg = lan.cfg)
    (hnum : lan'.fdNum = lan.fdNum) : Linked (t.posted lan') ∧ Counted lan' := by
  have hholder : (t.posted lan').holder = (t.posted lan).holder := by
    funext x
    rcases x with j | k
    · by_cases hactive : (lan.session j).active <;>
        simp [LanTable.holder, LanTable.posted, hsame j, hactive]
    · rfl
  have hslots : activeSlots lan' = activeSlots lan := by
    ext j
    rw [mem_activeSlots, mem_activeSlots, (hsame j).1, hcfg]
  have hsloop : (t.posted lan').sloop = (t.posted lan).sloop := by
    simp only [LanTable.posted, hposts]
  refine ⟨⟨?_, fun j hj ↦ ?_, fun j hj ↦ ?_⟩, ?_⟩
  · rw [hholder, hsloop]
    exact h.sound
  · have hlt := h.slot j ((hsame j).1 ▸ hj)
    simpa only [LanTable.posted, hcfg] using hlt
  · have hserved := h.served j ((hsame j).1 ▸ hj)
    rw [hsloop]
    simpa only [LanTable.posted, (hsame j).2] using hserved
  · rw [Counted, hslots, hnum]
    exact hcount

theorem lanSessionFaultSet_linked {t : LanTable} {lan : LanMgr} (i : ℕ) (h : Linked (t.posted lan))
    (hcount : Counted lan) : Linked (t.posted (lanSessionFaultSet lan i)) ∧
      Counted (lanSessionFaultSet lan i) := by
  rw [lanSessionFaultSet]
  split_ifs
  · exact ⟨h, hcount⟩
  · refine h.congr hcount (fun j ↦ ?_) rfl rfl rfl
    rcases eq_or_ne j i with rfl | hne
    · simp [LanMgr.setSession]
    · simp [LanMgr.setSession, hne]

/-! ## Steps -/

theorem Linked.cleared {t : LanTable} (h : Linked t) :
    Linked (t.posted { t.lan with unregPosts := [] }) :=
  ⟨h.sound, h.slot, h.served⟩

theorem Linked.serviceClose {t : LanTable} (h : Linked t) (k : ℕ) : Linked (t.serviceClose k) := by
  rw [LanTable.serviceClose]
  split_ifs with hnone
  · exact h
  · have hholder : t.holder (.inr k) = some (t.service k) := if_neg hnone
    refine ⟨?_, h.slot, fun i hi ↦ (h.served i hi).unreg _⟩
    convert h.sound.release hholder using 1
    funext x
    rcases x with i | j
    · rfl
    · rcases eq_or_ne j k with rfl | hne
      · simp [LanTable.holder]
      · simp [LanTable.holder, hne]

theorem Linked.serviceOpen {t : LanTable} (h : Linked t) (k : ℕ) {sock : ℤ}
    (hfresh : sock ∉ t.sloop.opened) : Linked (t.serviceOpen k sock) := by
  rw [LanTable.serviceOpen]
  split_ifs with hguard
  · exact h
  · have hnonneg : 0 ≤ sock := by omega
    dsimp only [tuyaRegLanSock, talQueuePost]
    split_ifs
    · refine ⟨?_, h.slot, fun i hi ↦ (h.served i hi).imp id fun he ↦ List.mem_append_left _ he⟩
      convert h.sound.acquire (.inr k) (serviceRead k) hnonneg hfresh using 1
      funext x
      rcases x with i | j
      · rfl
      · rcases eq_or_ne j k with rfl | hne
        · have : sock ≠ -1 := by omega
          simp [LanTable.holder, this]
        · simp [LanTable.holder, hne]
    · dsimp only [talNetClose]
      rw [Finset.erase_insert hfresh]
      exact h

theorem freeSlot_some {lan : LanMgr} (hcount : Counted lan)
    (hroom : lan.fdNum < lan.cfg.clientNum) : ∃ i, freeSlot lan = some i := by
  refine Option.isSome_iff_exists.mp ?_
  by_contra hnone
  rw [Option.not_isSome_iff_eq_none, freeSlot, List.find?_eq_none] at hnone
  have hall : activeSlots lan = Finset.range lan.cfg.clientNum := by
    refine Finset.filter_true_of_mem fun i hi ↦ ?_
    simpa using hnone i (List.mem_range.mpr (Finset.mem_range.mp hi))
  rw [hcount, hall, Finset.card_range] at hroom
  omega

theorem Linked.accept {t : LanTable} (h : Linked t) (hcount : Counted t.lan) {cfd : ℤ}
    (time sequenceOut : ℕ) (hfresh : cfd ∉ t.sloop.opened)
    (hreg : registers t (.accept cfd time sequenceOut) = true) :
    Linked (t.lanTcpServSockRead cfd time sequenceOut) ∧
      Counted (t.lanTcpServSockRead cfd time sequenceOut).lan := by
  rw [LanTable.lanTcpServSockRead]
  split_ifs with hneg hfull
  · exact ⟨h, hcount⟩
  · dsimp only [talNetClose]
    rw [Finset.erase_insert hfresh]
    exact ⟨h, hcount⟩
  · have hroom : t.sloop.queue.length < lanQueueNum := by
      rcases of_decide_eq_true hreg with h | h | h
      · exact absurd h hneg
      · exact absurd h hfull
      · exact h
    obtain ⟨i, hi⟩ := freeSlot_some hcount (not_le.mp hfull)
    have hfound := List.find?_some hi
    have hlt : i < t.lan.cfg.clientNum := List.mem_range.mp (List.mem_of_find?_eq_some hi)
    have hidle : (t.lan.session i).active = false := of_decide_eq_true hfound
    simp only [tuyaRegLanSock, talQueuePost, if_pos hroom, lanSesisonAdd,
      if_neg (not_or.mpr ⟨hneg, hfull⟩), hi]
    refine ⟨⟨?_, fun j hj ↦ ?_, fun j hj ↦ ?_⟩, ?_⟩
    · convert h.sound.acquire (.inl i) .tcpClient (not_lt.mp hneg) hfresh using 1
      funext x
      rcases x with j | k
      · rcases eq_or_ne j i with rfl | hne
        · simp [LanTable.holder, LanMgr.setSession]
        · simp [LanTable.holder, LanMgr.setSession, hne]
      · rfl
    · rcases eq_or_ne j i with rfl | hne
      · exact hlt
      · simp only [LanMgr.setSession, Function.update_of_ne hne] at hj
        exact h.slot j hj
    · rcases eq_or_ne j i with rfl | hne
      · simp [Served, LanMgr.setSession]
      · simp only [LanMgr.setSession, Function.update_of_ne hne] at hj ⊢
        exact (h.served j hj).imp id fun he ↦ List.mem_append_left _ he
    · have hnot : i ∉ activeSlots t.lan := fun hmem ↦ by
        have := (mem_activeSlots.mp hmem).2
        rw [hidle] at this
        cases this
      rw [Counted]
      dsimp only
      rw [hcount, ← Finset.card_insert_of_notMem hnot]
      congr 1
      ext j
      rw [Finset.mem_insert, mem_activeSlots, mem_activeSlots]
      rcases eq_or_ne j i with rfl | hne
      · simp [LanMgr.setSession, hlt]
      · simp [LanMgr.setSession, hne]

theorem Linked.fetch {t : LanTable} (h : Linked t) (hreg : registers t .fetch = true) :
    Linked { t with sloop := tuyaSockLoopFetch t.sloop } := by
  refine ⟨h.sound.fetch, h.slot, fun i hi ↦ ?_⟩
  refine h.sound.fetch_served (holder_session hi) rfl (h.served i hi) fun hhead ↦ ?_
  have hactive : isActiveFd t.lan (t.lan.session i).fd = true := by
    refine List.any_eq_true.mpr ⟨i, List.mem_range.mpr (h.slot i hi), ?_⟩
    have hi' : (t.lan.session i).active = true := hi
    simp [hi']
  simpa [registers, hhead, hactive] using hreg

theorem Linked.step {t : LanTable} (h : Linked t) (hcount : Counted t.lan) {event : TableEvent}
    (hfresh : freshDescriptor t event = true) (hreg : registers t event = true) :
    Linked (t.step event) ∧ Counted (t.step event).lan := by
  have hcount' : Counted { t.lan with unregPosts := [] } := hcount
  cases event with
  | accept cfd time sequenceOut =>
      exact h.accept hcount time sequenceOut (of_decide_eq_true hfresh) hreg
  | close slot =>
      exact ⟨lanSessionClose_linked slot h.cleared, lanSessionClose_counted slot h.cleared hcount'⟩
  | closeAll =>
      exact lanSessionCloseAll_linked ((h.serviceClose tcpServ).serviceClose udpServ).cleared
  | timeCheck time => exact lanSessionTimeCheck_linked time h.cleared hcount'
  | fault slot => exact lanSessionFaultSet_linked slot h.cleared hcount'
  | fetch => exact ⟨h.fetch hreg, hcount⟩
  | serviceOpen k sock =>
      refine ⟨h.serviceOpen k (of_decide_eq_true hfresh), ?_⟩
      simp only [LanTable.step, LanTable.serviceOpen]
      split_ifs
      · exact hcount
      · split <;> exact hcount
  | serviceClose k =>
      refine ⟨h.serviceClose k, ?_⟩
      simp only [LanTable.step, LanTable.serviceClose]
      split_ifs <;> exact hcount

theorem linked_start (cfg : LanCfg) (isActivated : Bool) (localkey : List UInt8) :
    Linked (lanTableStart cfg isActivated localkey) ∧
      Counted (lanTableStart cfg isActivated localkey).lan := by
  refine ⟨⟨?_, fun i hi ↦ (nomatch hi), fun i hi ↦ (nomatch hi)⟩, ?_⟩
  · have hholder : (lanTableStart cfg isActivated localkey).holder = fun _ ↦ none := by
      funext x
      rcases x with i | k <;> rfl
    rw [hholder]
    exact sloopSound_init cfg.clientNum
  · have hnone : activeSlots (lanTableStart cfg isActivated localkey).lan = ∅ :=
      Finset.filter_eq_empty_iff.mpr fun i _ hi ↦ nomatch hi
    rw [Counted, hnone]
    rfl

/-- In every run in which each connection that takes a slot gets its registration into the
queue, and each session's registration finds room in the table of readers, the session table
is consistent with its counter and with the loop in every state. -/
theorem session_table_consistent (cfg : LanCfg) (isActivated : Bool) (localkey : List UInt8)
    (events : List TableEvent)
    (hrun : lanTable.Guarded
      (fun t event ↦ freshDescriptor t event = true ∧ registers t event = true)
      (lanTableStart cfg isActivated localkey) events) :
    TableConsistent (lanTable.final (lanTableStart cfg isActivated localkey) events) := by
  have hinv : Linked (lanTable.final (lanTableStart cfg isActivated localkey) events) ∧
      Counted (lanTable.final (lanTableStart cfg isActivated localkey) events).lan := by
    refine lanTable.inv_final (I := fun t ↦ Linked t ∧ Counted t.lan) ?_ ?_ hrun
    · rintro t event ⟨h, hcount⟩ ⟨hfresh, hreg⟩
      exact h.step hcount hfresh hreg
    · exact linked_start cfg isActivated localkey
  exact hinv.1.consistent hinv.2

/-- Three applications and the three sockets of a monitor are connected.  The applications
time out, and the monitor stops, before the loop looks at its queue again. -/
def fillQueue : List TableEvent :=
  [.serviceOpen 0 3, .serviceOpen 1 4, .fetch, .fetch,
    .accept 5 0 0, .fetch, .accept 6 0 0, .fetch, .accept 7 0 0, .fetch,
    .serviceOpen 2 8, .fetch, .serviceOpen 3 9, .fetch, .serviceOpen 4 10, .fetch,
    .timeCheck 30, .serviceClose 2, .serviceClose 3, .serviceClose 4]

theorem session_table_consistent_full :
    lanTable.Guarded (fun t event ↦ freshDescriptor t event = true ∧ registers t event = true)
      (lanTableStart sLanCfg true []) fillQueue ∧
    TableConsistent (lanTable.final (lanTableStart sLanCfg true []) fillQueue) := by
  have hrun : lanTable.Guarded
      (fun t event ↦ freshDescriptor t event = true ∧ registers t event = true)
      (lanTableStart sLanCfg true []) fillQueue := by
    simp only [fillQueue, Mealy.guarded_cons, Mealy.guarded_nil, and_true]
    decide +kernel
  exact ⟨hrun, session_table_consistent sLanCfg true [] fillQueue hrun⟩

/-- One more connection: its registration is refused, its descriptor is closed, and its
session stays. -/
theorem refused_registration_leaves_session :
    ¬ TableConsistent (lanTable.final (lanTableStart sLanCfg true [])
      (fillQueue ++ [.accept 11 31 0])) := by
  intro h
  have hactive : 0 ∈ activeSlots (lanTable.final (lanTableStart sLanCfg true [])
      (fillQueue ++ [.accept 11 31 0])).lan := by decide +kernel
  have hclosed : ((lanTable.final (lanTableStart sLanCfg true [])
      (fillQueue ++ [.accept 11 31 0])).lan.session 0).fd ∉
      (lanTable.final (lanTableStart sLanCfg true [])
        (fillQueue ++ [.accept 11 31 0])).sloop.opened := by decide +kernel
  exact hclosed (h.opened 0 hactive)

end TuyaOpen.Lan
