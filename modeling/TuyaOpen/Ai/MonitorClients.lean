import TuyaOpen.Common.ErrorCode
import TuyaOpen.Lan.SockLoop
import TuyaOpen.Lib.Mealy
import TuyaOpen.Lib.Slots

/-!
# The client table of the monitor

`tuya_ai_monitor.c` keeps its clients in slots, and their sockets with the loop of
`lan_sock.c`, which closes what is unregistered when it comes to it.
-/

namespace TuyaOpen.Ai

open Lan

/-- `ai_monitor_client_t`: its socket, and whether there is a receive buffer. -/
structure MonitorSlot where
  fd : ℤ
  connected : Bool
  recvBuf : Bool
  deriving DecidableEq

/-- `ai_monitor_server_t`, with the loop that its sockets are registered with. -/
structure AiMonitorServer where
  maxClients : UInt32
  clients : List MonitorSlot
  clientCount : UInt32
  serverFd : ℤ
  sloop : LanSloop

def tuyaAiMonitorInit (maxClients : UInt32) (sloop : LanSloop) : AiMonitorServer where
  maxClients := maxClients
  clients := List.replicate maxClients.toNat ⟨-1, false, false⟩
  clientCount := 0
  serverFd := -1
  sloop := sloop

/-- The slot is connected before its buffer is allocated. -/
def initClient (fd : ℤ) (malloc : Bool) : MonitorSlot × OperateRet :=
  if malloc = true then (⟨fd, true, true⟩, oprtOk) else (⟨fd, true, false⟩, oprtMallocFailed)

def cleanupClient (sloop : LanSloop) (client : MonitorSlot) : LanSloop × MonitorSlot :=
  if 0 ≤ client.fd then (tuyaUnregLanSock sloop client.fd, ⟨-1, false, false⟩)
  else (sloop, ⟨client.fd, false, false⟩)

def findClientByFd (clients : List MonitorSlot) (fd : ℤ) : Option ℕ :=
  clients.findIdx? fun client ↦ client.fd = fd

namespace AiMonitorServer

/-- `malloc` says whether there is memory for the buffer, `posted` whether the loop's queue is
up; it may be full beside that. -/
def acceptHandler (s : AiMonitorServer) (clientFd : ℤ) (malloc posted : Bool) : AiMonitorServer :=
  if clientFd < 0 then s
  else
    let sloop := { s.sloop with opened := insert clientFd s.sloop.opened }
    let closed := { s with sloop := talNetClose sloop clientFd }
    if s.maxClients ≤ s.clientCount then closed
    else
      match s.clients.findIdx? fun client ↦ client.connected = false with
      | none => closed
      | some idx =>
          let r := initClient clientFd malloc
          if r.2 ≠ oprtOk then { closed with clients := s.clients.set idx r.1 }
          else
            match if posted = true then tuyaRegLanSock sloop
              ⟨clientFd, some .monitor⟩ else none with
            | none =>
                let c := cleanupClient sloop r.1
                { s with clients := s.clients.set idx c.2, sloop := c.1 }
            | some sloop =>
                { s with
                  clients := s.clients.set idx r.1, clientCount := s.clientCount + 1,
                    sloop := sloop }

/-- A client is cleaned up and no longer counted. -/
def dropClient (s : AiMonitorServer) (sock : ℤ) : AiMonitorServer :=
  match findClientByFd s.clients sock with
  | none => s
  | some idx =>
      let c := cleanupClient s.sloop (s.clients.getD idx ⟨-1, false, false⟩)
      { s with clients := s.clients.set idx c.2, clientCount := s.clientCount - 1, sloop := c.1 }

/-- What is received changes nothing that a slot has here. -/
def socketReadHandler (s : AiMonitorServer) (sock recvLen : ℤ) : AiMonitorServer :=
  if recvLen ≤ 0 then s.dropClient sock else s

def socketErrorHandler (s : AiMonitorServer) (sock : ℤ) : AiMonitorServer := s.dropClient sock

/-- Every connected client is unregistered here and in its cleanup. -/
def closeClients (sloop : LanSloop) : List MonitorSlot → LanSloop × List MonitorSlot
  | [] => (sloop, [])
  | client :: rest =>
      if client.connected = true then
        let c := cleanupClient (tuyaUnregLanSock sloop client.fd) client
        let r := closeClients c.1 rest
        (r.1, c.2 :: r.2)
      else
        let r := closeClients sloop rest
        (r.1, client :: r.2)

def sessionCloseAll (s : AiMonitorServer) : AiMonitorServer :=
  let sloop := if 0 ≤ s.serverFd then tuyaUnregLanSock s.sloop s.serverFd else s.sloop
  let r := closeClients sloop s.clients
  { s with
    clients := r.2, clientCount := 0, sloop := r.1
    serverFd := if 0 ≤ s.serverFd then -1 else s.serverFd }

/-- `__tcp_create_serv_fd`, on the timer; a socket that could not be made is negative. -/
def tcpCreateServFd (s : AiMonitorServer) (sock : ℤ) (posted : Bool) : AiMonitorServer :=
  if 0 ≤ s.serverFd ∨ sock < 0 then s
  else
    let sloop := { s.sloop with opened := insert sock s.sloop.opened }
    match if posted = true then tuyaRegLanSock sloop ⟨sock, some .monitor⟩ else none with
    | none => { s with sloop := talNetClose sloop sock, serverFd := -1 }
    | some sloop => { s with sloop := sloop, serverFd := sock }

end AiMonitorServer

/-- What happens to the table: the handlers, with what the calls to the system return, and a
round of the loop. -/
inductive MonitorCall where
  | accept (clientFd : ℤ) (malloc posted : Bool)
  | read (sock recvLen : ℤ)
  | error (sock : ℤ)
  | closeAll
  | serve (sock : ℤ) (posted : Bool)
  | fetch

def monitorTableMachine : Mealy AiMonitorServer MonitorCall Unit where
  step s
    | .accept clientFd malloc posted => (s.acceptHandler clientFd malloc posted, ())
    | .read sock recvLen => (s.socketReadHandler sock recvLen, ())
    | .error sock => (s.socketErrorHandler sock, ())
    | .closeAll => (s.sessionCloseAll, ())
    | .serve sock posted => (s.tcpCreateServFd sock posted, ())
    | .fetch => ({ s with sloop := tuyaSockLoopFetch s.sloop }, ())

/-!
## The client table is consistent

The counter is the number of connected slots, and these have descriptors of their own and
buffers, as long as every client that finds a slot also gets a buffer.
-/

open Lan Slots

/-! ## What the table should be like -/

structure TableOk (s : AiMonitorServer) : Prop where
  count : s.clientCount.toNat = s.clients.countP MonitorSlot.connected
  max : s.clientCount ≤ s.maxClients
  slots : ∀ c ∈ s.clients, c.connected = true → 0 ≤ c.fd ∧ c.recvBuf = true
  distinct : s.clients.Pairwise fun c c' ↦
    c.connected = true → c'.connected = true → c.fd ≠ c'.fd

/-- A new socket is not one that is open, and the loop calls the handlers with sockets. -/
def MonitorCall.Possible (s : AiMonitorServer) : MonitorCall → Prop
  | .accept clientFd _ _ => clientFd ∉ s.sloop.opened
  | .read sock _ => 0 ≤ sock
  | .error sock => 0 ≤ sock
  | .serve sock _ => sock ∉ s.sloop.opened
  | _ => True

/-- A client that is accepted while a slot is free gets a buffer. -/
def MonitorCall.Buffered (s : AiMonitorServer) : MonitorCall → Prop
  | .accept clientFd malloc _ =>
      0 ≤ clientFd → (∃ c ∈ s.clients, c.connected = false) → malloc = true
  | _ => True

instance (s : AiMonitorServer) (call : MonitorCall) : Decidable (call.Possible s) :=
  match call with
  | .accept clientFd _ _ => inferInstanceAs (Decidable (clientFd ∉ s.sloop.opened))
  | .read sock _ => inferInstanceAs (Decidable (0 ≤ sock))
  | .error sock => inferInstanceAs (Decidable (0 ≤ sock))
  | .serve sock _ => inferInstanceAs (Decidable (sock ∉ s.sloop.opened))
  | .closeAll => inferInstanceAs (Decidable True)
  | .fetch => inferInstanceAs (Decidable True)

def StaysOk (s : AiMonitorServer) (call : MonitorCall) : Prop :=
  TableOk (monitorTableMachine.step s call).1

/-! ## Sockets that are held -/

/-- Held descriptors are open, and stay open: a message that still unregisters one finds no
reader. -/
structure SloopKeeps (held : ℤ → Prop) (s : LanSloop) : Prop where
  opened : ∀ fd, held fd → fd ∈ s.opened
  stale : ∀ fd, held fd → ⟨fd, none⟩ ∈ s.queue → ∀ r ∈ s.readers, r.sock ≠ fd
  settled : ∀ fd, held fd → s.queue.Pairwise fun a b ↦
    a.sock = fd → b.sock = fd → a.read.isSome → b.read.isSome
  queued : ∀ e ∈ s.queue, 0 ≤ e.sock
  regs : ∀ e ∈ s.queue, e.read.isSome → e.sock ∈ s.opened ∧ ∀ r ∈ s.readers, r.sock ≠ e.sock
  once : s.queue.Pairwise fun a b ↦ a.sock = b.sock → a.read.isSome → b.read = none
  readers : ∀ r ∈ s.readers, r.sock ≠ -1 → r.sock ∈ s.opened
  readersDistinct : ReadersDistinct s.readers

section Loop

variable {held : ℤ → Prop} {s : LanSloop} {fd : ℤ}

theorem sloopKeeps_init (clientNum : ℕ) (held : ℤ → Prop) (hnone : ∀ fd, ¬held fd) :
    SloopKeeps held (tuyaSockLoopInit clientNum) where
  opened fd h := absurd h (hnone fd)
  stale fd h := absurd h (hnone fd)
  settled fd h := absurd h (hnone fd)
  queued e he := by cases he
  regs e he := by cases he
  once := List.Pairwise.nil
  readers r hr hne := absurd (congrArg SloopSock.sock (List.eq_of_mem_replicate hr)) hne
  readersDistinct i j a b hi hj hab hne :=
    absurd (congrArg SloopSock.sock (List.eq_of_mem_replicate (List.mem_of_getElem? hi))) hne

theorem SloopKeeps.mono (h : SloopKeeps held s) {held' : ℤ → Prop}
    (hsub : ∀ fd, held' fd → held fd) : SloopKeeps held' s where
  opened fd hfd := h.opened fd (hsub fd hfd)
  stale fd hfd := h.stale fd (hsub fd hfd)
  settled fd hfd := h.settled fd (hsub fd hfd)
  queued := h.queued
  regs := h.regs
  once := h.once
  readers := h.readers
  readersDistinct := h.readersDistinct

theorem SloopKeeps.unreg (h : SloopKeeps held s) (hfd : 0 ≤ fd) (hfree : ¬held fd) :
    SloopKeeps held (tuyaUnregLanSock s fd) := by
  rw [tuyaUnregLanSock, talQueuePost]
  split_ifs
  · refine ⟨h.opened, fun fd' hfd' hmem ↦ ?_, fun fd' hfd' ↦ ?_, fun e he ↦ ?_, fun e he hsome ↦ ?_,
      ?_, h.readers, h.readersDistinct⟩
    · rcases List.mem_append.mp hmem with hold | hnew
      · exact h.stale fd' hfd' hold
      · cases List.mem_singleton.mp hnew
        exact absurd hfd' hfree
    · refine List.pairwise_append.mpr ⟨h.settled fd' hfd', List.pairwise_singleton _ _, ?_⟩
      intro a _ b hb _ hsock
      cases List.mem_singleton.mp hb
      have hsame : fd = fd' := hsock
      exact absurd (hsame ▸ hfd') hfree
    · rcases List.mem_append.mp he with hold | hnew
      · exact h.queued e hold
      · cases List.mem_singleton.mp hnew
        exact hfd
    · rcases List.mem_append.mp he with hold | hnew
      · exact h.regs e hold hsome
      · cases List.mem_singleton.mp hnew
        cases hsome
    · refine List.pairwise_append.mpr ⟨h.once, List.pairwise_singleton _ _, ?_⟩
      intro a _ b hb _ _
      cases List.mem_singleton.mp hb
      rfl
  · exact h

theorem SloopKeeps.open (h : SloopKeeps held s) (fd : ℤ) :
    SloopKeeps held { s with opened := insert fd s.opened } where
  opened fd' hfd := Finset.mem_insert_of_mem (h.opened fd' hfd)
  stale := h.stale
  settled := h.settled
  queued := h.queued
  regs e he hsome := (h.regs e he hsome).imp_left Finset.mem_insert_of_mem
  once := h.once
  readers r hr hne := Finset.mem_insert_of_mem (h.readers r hr hne)
  readersDistinct := h.readersDistinct

theorem close_new (hnew : fd ∉ s.opened) :
    talNetClose { s with opened := insert fd s.opened } fd = s := by
  rw [talNetClose]
  dsimp only
  rw [Finset.erase_insert hnew]

/-- A new descriptor, whose registration the queue takes: what is left about it in the queue is
older. -/
theorem SloopKeeps.reg (h : SloopKeeps held s) (hfd : 0 ≤ fd) (hnew : fd ∉ s.opened)
    (read : SockRead) :
    SloopKeeps (fun fd' ↦ held fd' ∨ fd' = fd)
      { s with queue := s.queue ++ [⟨fd, some read⟩], opened := insert fd s.opened } := by
  have hreaders : ∀ r ∈ s.readers, r.sock ≠ fd := by
    rintro r hr rfl
    exact hnew (h.readers r hr (by omega))
  have hqueue : ∀ e ∈ s.queue, e.read.isSome = true → e.sock ≠ fd := by
    rintro e he hsome rfl
    exact hnew (h.regs e he hsome).1
  refine ⟨fun fd' hfd' ↦ ?_, fun fd' hfd' hmem ↦ ?_, fun fd' hfd' ↦ ?_, fun e he ↦ ?_,
    fun e he hsome ↦ ?_, ?_, fun r hr hne ↦ Finset.mem_insert_of_mem (h.readers r hr hne),
    h.readersDistinct⟩
  · rcases hfd' with hheld | rfl
    · exact Finset.mem_insert_of_mem (h.opened fd' hheld)
    · exact Finset.mem_insert_self _ _
  · rcases List.mem_append.mp hmem with hold | hlast
    · rcases hfd' with hheld | rfl
      · exact h.stale fd' hheld hold
      · exact hreaders
    · cases List.mem_singleton.mp hlast
  · refine List.pairwise_append.mpr ⟨?_, List.pairwise_singleton _ _, ?_⟩
    · rcases hfd' with hheld | rfl
      · exact h.settled fd' hheld
      · refine List.pairwise_of_forall_mem_list fun a ha b _ hsock _ hsome ↦ ?_
        exact absurd hsock (hqueue a ha hsome)
    · intro a _ b hb _ _ _
      cases List.mem_singleton.mp hb
      rfl
  · rcases List.mem_append.mp he with hold | hlast
    · exact h.queued e hold
    · cases List.mem_singleton.mp hlast
      exact hfd
  · rcases List.mem_append.mp he with hold | hlast
    · exact (h.regs e hold hsome).imp_left Finset.mem_insert_of_mem
    · cases List.mem_singleton.mp hlast
      exact ⟨Finset.mem_insert_self _ _, hreaders⟩
  · refine List.pairwise_append.mpr ⟨h.once, List.pairwise_singleton _ _, ?_⟩
    intro a ha b hb hsock hsome
    cases List.mem_singleton.mp hb
    exact absurd hsock (hqueue a ha hsome)

section Fetch

variable {info : SloopSock} {queue : List SloopSock}

theorem SloopKeeps.tail (h : SloopKeeps held s) (hqueue : s.queue = info :: queue) :
    SloopKeeps held { s with queue := queue } := by
  have hmem : ∀ e ∈ queue, e ∈ s.queue := fun e he ↦ hqueue ▸ List.mem_cons_of_mem _ he
  have hsub : List.Sublist queue s.queue := hqueue ▸ List.sublist_cons_self _ _
  exact ⟨h.opened, fun fd hfd hpend ↦ h.stale fd hfd (hmem _ hpend),
    fun fd hfd ↦ (h.settled fd hfd).sublist hsub, fun e he ↦ h.queued e (hmem e he),
    fun e he ↦ h.regs e (hmem e he), h.once.sublist hsub, h.readers, h.readersDistinct⟩

theorem SloopKeeps.fetch_add (h : SloopKeeps held s) (hqueue : s.queue = info :: queue)
    (hreg : info.read.isSome = true) :
    SloopKeeps held (tyAddSockReader { s with queue := queue } info) := by
  have hhead : info ∈ s.queue := hqueue ▸ List.mem_cons_self
  have htail := h.tail hqueue
  have honce := h.once
  rw [hqueue, List.pairwise_cons] at honce
  obtain ⟨hopen, hunread⟩ := h.regs info hhead hreg
  have hadd := @tyAddSockReader_entered { s with queue := queue } info hunread
  generalize tyAddSockReader { s with queue := queue } info = s' at hadd ⊢
  have hqueue' : s'.queue = queue := hadd.queue
  have hopened : s'.opened = s.opened := hadd.opened
  refine ⟨fun fd hfd ↦ hopened ▸ h.opened fd hfd, fun fd hfd hpend r hr ↦ ?_, fun fd hfd ↦ ?_,
    fun e he ↦ ?_, fun e he hsome ↦ ⟨?_, fun r hr ↦ ?_⟩, ?_, fun r hr hne ↦ ?_,
    hadd.distinct h.readersDistinct⟩
  · rw [hqueue'] at hpend
    rcases hadd.old r hr with rfl | hold
    · -- the registration came after whatever unregisters the descriptor
      rintro rfl
      have hsettled := h.settled _ hfd
      rw [hqueue, List.pairwise_cons] at hsettled
      cases hsettled.1 _ hpend rfl rfl hreg
    · exact htail.stale fd hfd hpend r hold
  · rw [hqueue']
    exact htail.settled fd hfd
  · exact htail.queued e (hqueue' ▸ he)
  · rw [hopened]
    exact (htail.regs e (hqueue' ▸ he) hsome).1
  · rcases hadd.old r hr with rfl | hold
    · intro hsock
      rw [honce.1 e (hqueue' ▸ he) hsock hreg] at hsome
      cases hsome
    · exact (htail.regs e (hqueue' ▸ he) hsome).2 r hold
  · rw [hqueue']
    exact honce.2
  · rw [hopened]
    rcases hadd.old r hr with rfl | hold
    · exact hopen
    · exact h.readers r hold hne

theorem SloopKeeps.fetch_del (h : SloopKeeps held s) (hqueue : s.queue = info :: queue)
    (hreg : ¬info.read.isSome = true) :
    SloopKeeps held (tyDelSockReader { s with queue := queue } info.sock) := by
  have hhead : info ∈ s.queue := hqueue ▸ List.mem_cons_self
  have htail := h.tail hqueue
  have hinfo : info = ⟨info.sock, none⟩ := by
    rw [← Option.not_isSome_iff_eq_none.mp hreg]
  by_cases hreader : ∃ r ∈ s.readers, r.sock = info.sock
  case neg =>
    have hnone : (s.readers.findIdx? fun r ↦ r.sock = info.sock) = none := by
      rw [List.findIdx?_eq_none_iff]
      exact fun r hr ↦ decide_eq_false fun hsock ↦ hreader ⟨r, hr, hsock⟩
    rw [tyDelSockReader]
    dsimp only
    rw [hnone]
    exact htail
  obtain ⟨r₀, hr₀, hsock₀⟩ := hreader
  have hnonneg := h.queued info hhead
  have hfree : ¬held info.sock := fun hheld ↦ h.stale _ hheld (hinfo ▸ hhead) r₀ hr₀ hsock₀
  have hdel := tyDelSockReader_deleted { s with queue := queue } info.sock
  generalize tyDelSockReader { s with queue := queue } info.sock = s' at hdel ⊢
  have hqueue' : s'.queue = queue := hdel.queue
  have hold := hdel.old h.readersDistinct (by omega)
  refine ⟨fun fd hfd ↦ ?_, fun fd hfd hpend r hr ↦ ?_, fun fd hfd ↦ ?_, fun e he ↦ ?_,
    fun e he hsome ↦ ⟨?_, fun r hr ↦ ?_⟩, ?_, fun r hr hne ↦ ?_, hdel.distinct h.readersDistinct⟩
  · refine hdel.opened fd (h.opened fd hfd) ?_
    rintro rfl
    exact hfree hfd
  · rcases hold r hr with hnone | ⟨hr, -⟩
    · have hpos := htail.queued _ (hqueue' ▸ hpend)
      intro hsock
      dsimp only at hpos
      omega
    · exact htail.stale fd hfd (hqueue' ▸ hpend) r hr
  · rw [hqueue']
    exact htail.settled fd hfd
  · exact htail.queued e (hqueue' ▸ he)
  · obtain ⟨hopen, hunread⟩ := htail.regs e (hqueue' ▸ he) hsome
    exact hdel.opened e.sock hopen fun hsock ↦ hunread r₀ hr₀ (hsock₀.trans hsock.symm)
  · have hpos := htail.queued e (hqueue' ▸ he)
    rcases hold r hr with hnone | ⟨hr, -⟩
    · rw [hnone]
      omega
    · exact (htail.regs e (hqueue' ▸ he) hsome).2 r hr
  · rw [hqueue']
    exact htail.once
  · rcases hold r hr with hnone | ⟨hr, hsock⟩
    · exact absurd hnone hne
    · exact hdel.opened r.sock (h.readers r hr hne) hsock

end Fetch

theorem SloopKeeps.fetch (h : SloopKeeps held s) : SloopKeeps held (tuyaSockLoopFetch s) := by
  rw [tuyaSockLoopFetch]
  cases hqueue : s.queue with
  | nil => exact h
  | cons info queue =>
      dsimp only
      split_ifs with hreg
      · exact h.fetch_add hqueue hreg
      · exact h.fetch_del hqueue hreg

end Loop

/-! ## The handlers -/

def Holds (clients : List MonitorSlot) (fd : ℤ) : Prop :=
  ∃ c ∈ clients, c.connected = true ∧ c.fd = fd

structure TableInv (s : AiMonitorServer) : Prop where
  ok : TableOk s
  length : s.clients.length = s.maxClients.toNat
  idle : ∀ c ∈ s.clients, c.connected = false → c.fd < 0
  sloop : SloopKeeps (Holds s.clients) s.sloop

def freeSlot : MonitorSlot := ⟨-1, false, false⟩

section Slots

variable {clients : List MonitorSlot} {idx : ℕ} {old c : MonitorSlot}

theorem holds_set_free (hc : c.connected = false) {fd : ℤ} (h : Holds (clients.set idx c) fd) :
    Holds clients fd := by
  obtain ⟨x, hx, hconn, hfd⟩ := h
  rcases List.mem_or_eq_of_mem_set hx with hx | rfl
  · exact ⟨x, hx, hconn, hfd⟩
  · rw [hc] at hconn
    cases hconn

theorem not_holds_set (hdistinct : clients.Pairwise fun c c' ↦
      c.connected = true → c'.connected = true → c.fd ≠ c'.fd)
    (hold : clients[idx]? = some old) (hconn : old.connected = true) (hc : c.connected = false) :
    ¬Holds (clients.set idx c) old.fd := by
  rintro ⟨x, hx, hxconn, hxfd⟩
  obtain ⟨i, hi⟩ := List.mem_iff_getElem?.mp hx
  by_cases hidx : idx = i
  · subst hidx
    rw [List.getElem?_set_self (List.getElem?_eq_some_iff.mp hold).1] at hi
    rw [← Option.some.inj hi, hc] at hxconn
    cases hxconn
  · rw [List.getElem?_set_ne hidx] at hi
    obtain ⟨hlt, rfl⟩ := List.getElem?_eq_some_iff.mp hold
    obtain ⟨hlt', rfl⟩ := List.getElem?_eq_some_iff.mp hi
    rw [List.pairwise_iff_getElem] at hdistinct
    rcases Nat.lt_or_gt_of_ne hidx with hij | hij
    · exact hdistinct idx i hlt hlt' hij hconn hxconn hxfd.symm
    · exact hdistinct i idx hlt' hlt hij hxconn hconn hxfd

end Slots

section Handlers

variable {s : AiMonitorServer}

theorem TableInv.clear (h : TableInv s) {idx : ℕ} {count : UInt32} {sloop : LanSloop}
    (hcount : count.toNat = (s.clients.set idx freeSlot).countP MonitorSlot.connected)
    (hsloop : SloopKeeps (Holds (s.clients.set idx freeSlot)) sloop) :
    TableInv { s with
      clients := s.clients.set idx freeSlot, clientCount := count, sloop := sloop } := by
  have hlen : (s.clients.set idx freeSlot).length = s.clients.length := List.length_set
  refine ⟨⟨hcount, ?_, fun c hc hconn ↦ ?_, ?_⟩, hlen.trans h.length, fun c hc hconn ↦ ?_, hsloop⟩
  · have hle := @List.countP_le_length _ MonitorSlot.connected (s.clients.set idx freeSlot)
    rw [← hcount, hlen, h.length] at hle
    exact hle
  · rcases List.mem_or_eq_of_mem_set hc with hc | rfl
    · exact h.ok.slots c hc hconn
    · cases hconn
  · exact pairwise_set h.ok.distinct (fun a _ _ hconn ↦ by cases hconn)
      (fun a _ hconn ↦ by cases hconn) idx
  · rcases List.mem_or_eq_of_mem_set hc with hc | rfl
    · exact h.idle c hc hconn
    · decide

theorem TableInv.drop (h : TableInv s) {sock : ℤ} (hsock : 0 ≤ sock) :
    TableInv (s.dropClient sock) := by
  rw [AiMonitorServer.dropClient]
  cases hfind : findClientByFd s.clients sock with
  | none => exact h
  | some idx =>
      obtain ⟨old, hold, hfd⟩ := slot_of_findIdx? hfind
      have hfd : old.fd = sock := of_decide_eq_true hfd
      have hmem := List.mem_of_getElem? hold
      have hconn : old.connected = true := by
        rw [← Bool.not_eq_false]
        intro hidle
        have hneg := h.idle old hmem hidle
        omega
      have hcountP := @countP_set_of_pos _ _ MonitorSlot.connected idx old freeSlot hold hconn rfl
      dsimp only
      rw [List.getD_eq_getElem?_getD, hold, Option.getD_some, cleanupClient,
        if_pos (hfd.symm ▸ hsock)]
      refine h.clear ?_ ?_
      · have hcount := h.ok.count
        have hle : (1 : UInt32) ≤ s.clientCount := by
          rw [UInt32.le_iff_toNat_le, hcount, ← hcountP]
          exact Nat.le_add_left 1 _
        rw [UInt32.toNat_sub_of_le _ _ hle, hcount, ← hcountP]
        rfl
      · refine (h.sloop.mono fun fd hheld ↦ holds_set_free rfl hheld).unreg (hfd.symm ▸ hsock) ?_
        exact not_holds_set h.ok.distinct hold hconn rfl

theorem closeClients_spec {clients : List MonitorSlot} {sloop : LanSloop}
    (hfds : ∀ c ∈ clients, c.connected = true → 0 ≤ c.fd)
    (hsloop : SloopKeeps (fun _ ↦ False) sloop) :
    SloopKeeps (fun _ ↦ False) (AiMonitorServer.closeClients sloop clients).1 ∧
      (AiMonitorServer.closeClients sloop clients).2 =
        clients.map fun c ↦ if c.connected = true then freeSlot else c := by
  induction clients generalizing sloop with
  | nil => exact ⟨hsloop, rfl⟩
  | cons c rest ih =>
      have hrest : ∀ c ∈ rest, c.connected = true → 0 ≤ c.fd := fun x hx ↦
        hfds x (List.mem_cons_of_mem c hx)
      rw [AiMonitorServer.closeClients]
      by_cases hconn : c.connected = true
      · have hfd := hfds c List.mem_cons_self hconn
        have hunreg := (hsloop.unreg hfd id).unreg hfd id
        obtain ⟨hkeeps, hclients⟩ := ih hrest hunreg
        rw [if_pos hconn, cleanupClient, if_pos hfd, List.map_cons, if_pos hconn]
        exact ⟨hkeeps, congrArg (freeSlot :: ·) hclients⟩
      · obtain ⟨hkeeps, hclients⟩ := ih hrest hsloop
        rw [if_neg hconn, List.map_cons, if_neg hconn]
        exact ⟨hkeeps, congrArg (c :: ·) hclients⟩

theorem TableInv.closeAll (h : TableInv s) : TableInv s.sessionCloseAll := by
  have hempty : SloopKeeps (fun _ ↦ False) s.sloop := h.sloop.mono fun _ hfalse ↦ hfalse.elim
  have hserver : SloopKeeps (fun _ ↦ False)
      (if 0 ≤ s.serverFd then tuyaUnregLanSock s.sloop s.serverFd else s.sloop) := by
    split_ifs with hfd
    · exact hempty.unreg hfd id
    · exact hempty
  obtain ⟨hkeeps, hclients⟩ :=
    closeClients_spec (fun c hc hconn ↦ (h.ok.slots c hc hconn).1) hserver
  have hidle : ∀ c ∈ s.clients.map fun c ↦ if c.connected = true then freeSlot else c,
      c.connected = false ∧ c.fd < 0 := by
    intro c hc
    obtain ⟨x, hx, rfl⟩ := List.mem_map.mp hc
    split_ifs with hconn
    · exact ⟨rfl, by decide⟩
    · have hfalse := eq_false_of_ne_true hconn
      exact ⟨hfalse, h.idle x hx hfalse⟩
  rw [AiMonitorServer.sessionCloseAll, hclients]
  have hnone : ∀ c ∈ s.clients.map (fun c ↦ if c.connected = true then freeSlot else c),
      ¬c.connected = true := by
    intro c hc
    rw [(hidle c hc).1]
    exact Bool.false_ne_true
  refine ⟨⟨?_, UInt32.le_iff_toNat_le.mpr (Nat.zero_le _), fun c hc hconn ↦
    absurd hconn (hnone c hc),
    List.pairwise_of_forall_mem_list fun c hc _ _ hconn ↦ absurd hconn (hnone c hc)⟩,
    (List.length_map _).trans h.length, fun c hc _ ↦ (hidle c hc).2, hkeeps.mono ?_⟩
  · exact (List.countP_eq_zero.mpr hnone).symm
  · rintro fd ⟨c, hc, hconn, -⟩
    exact hnone c hc hconn

theorem TableInv.serve (h : TableInv s) {sock : ℤ} (hnew : sock ∉ s.sloop.opened) (posted : Bool) :
    TableInv (s.tcpCreateServFd sock posted) := by
  rw [AiMonitorServer.tcpCreateServFd]
  by_cases hskip : 0 ≤ s.serverFd ∨ sock < 0
  · rw [if_pos hskip]
    exact h
  have hsock : 0 ≤ sock := by omega
  rw [if_neg hskip]
  dsimp only
  rw [tuyaRegLanSock, talQueuePost]
  split
  · rw [close_new hnew]
    exact ⟨⟨h.ok.count, h.ok.max, h.ok.slots, h.ok.distinct⟩, h.length, h.idle, h.sloop⟩
  · next sloop hpost =>
      split_ifs at hpost
      cases hpost
      refine ⟨⟨h.ok.count, h.ok.max, h.ok.slots, h.ok.distinct⟩, h.length, h.idle, ?_⟩
      exact (h.sloop.reg hsock hnew .monitor).mono fun fd hfd ↦ .inl hfd

theorem TableInv.connect (h : TableInv s) {idx : ℕ} {old : MonitorSlot}
    (hold : s.clients[idx]? = some old) (hidle : old.connected = false) {fd : ℤ} (hfd : 0 ≤ fd)
    (hnew : fd ∉ s.sloop.opened) (hroom : s.clientCount < s.maxClients) :
    TableInv { s with
      clients := s.clients.set idx ⟨fd, true, true⟩, clientCount := s.clientCount + 1
      sloop := { s.sloop with
        queue := s.sloop.queue ++ [⟨fd, some .monitor⟩],
          opened := insert fd s.sloop.opened } } := by
  have hcountP := @countP_set_of_not _ _ MonitorSlot.connected idx old hold hidle ⟨fd, true, true⟩
  have hlt := UInt32.lt_iff_toNat_lt.mp hroom
  have hmax := s.maxClients.toNat_lt
  have hsum : (s.clientCount + 1).toNat = s.clientCount.toNat + 1 := by
    rw [UInt32.toNat_add]
    exact Nat.mod_eq_of_lt (by change _ + 1 < _; omega)
  have hother : ∀ c ∈ s.clients, c.connected = true → c.fd ≠ fd := by
    rintro c hc hconn rfl
    exact hnew (h.sloop.opened c.fd ⟨c, hc, hconn, rfl⟩)
  refine ⟨⟨?_, ?_, fun c hc hconn ↦ ?_, ?_⟩, List.length_set.trans h.length,
    fun c hc hconn ↦ ?_, ?_⟩
  · rw [hsum, h.ok.count]
    exact hcountP.symm
  · rw [UInt32.le_iff_toNat_le, hsum]
    exact hlt
  · rcases List.mem_or_eq_of_mem_set hc with hc | rfl
    · exact h.ok.slots c hc hconn
    · exact ⟨hfd, rfl⟩
  · exact pairwise_set h.ok.distinct (fun a ha hconn _ ↦ hother a ha hconn)
      (fun a ha _ hconn ↦ (hother a ha hconn).symm) idx
  · rcases List.mem_or_eq_of_mem_set hc with hc | rfl
    · exact h.idle c hc hconn
    · cases hconn
  · refine (h.sloop.reg hfd hnew .monitor).mono ?_
    rintro fd' ⟨c, hc, hconn, rfl⟩
    rcases List.mem_or_eq_of_mem_set hc with hc | rfl
    · exact .inl ⟨c, hc, hconn, rfl⟩
    · exact .inr rfl

theorem TableInv.free_slot (h : TableInv s) (hroom : s.clientCount < s.maxClients) :
    ∃ idx old, (s.clients.findIdx? fun c ↦ c.connected = false) = some idx ∧
      s.clients[idx]? = some old ∧ old.connected = false := by
  have hlt := UInt32.lt_iff_toNat_lt.mp hroom
  rw [h.ok.count, ← h.length] at hlt
  obtain ⟨c, hc, hconn⟩ := List.countP_lt_length_iff.mp hlt
  have hsome : (s.clients.findIdx? fun c ↦ c.connected = false).isSome = true := by
    rw [List.findIdx?_isSome, List.any_eq_true]
    exact ⟨c, hc, decide_eq_true hconn⟩
  obtain ⟨idx, hfind⟩ := Option.isSome_iff_exists.mp hsome
  obtain ⟨old, hold, hidle⟩ := slot_of_findIdx? hfind
  exact ⟨idx, old, hfind, hold, of_decide_eq_true hidle⟩

theorem TableInv.rejected (h : TableInv s) {fd : ℤ} (hnew : fd ∉ s.sloop.opened) :
    TableInv
      { s with sloop := talNetClose { s.sloop with opened := insert fd s.sloop.opened } fd } := by
  rw [close_new hnew]
  exact h

theorem accept_spec (h : TableInv s) {fd : ℤ} (hnew : fd ∉ s.sloop.opened) (malloc posted : Bool) :
    (TableOk (s.acceptHandler fd malloc posted) ↔
        MonitorCall.Buffered s (.accept fd malloc posted)) ∧
      (MonitorCall.Buffered s (.accept fd malloc posted) →
        TableInv (s.acceptHandler fd malloc posted)) := by
  rw [AiMonitorServer.acceptHandler, MonitorCall.Buffered]
  by_cases hneg : fd < 0
  · rw [if_pos hneg]
    exact ⟨iff_of_true h.ok fun hfd ↦ absurd hneg (by omega), fun _ ↦ h⟩
  have hfd : 0 ≤ fd := by omega
  rw [if_neg hneg, imp_iff_right hfd]
  dsimp only
  by_cases hfull : s.maxClients ≤ s.clientCount
  · have hinv := h.rejected hnew
    have hnone : ¬∃ c ∈ s.clients, c.connected = false := by
      rintro ⟨c, hc, hconn⟩
      have hlt : s.clients.countP MonitorSlot.connected < s.clients.length :=
        List.countP_lt_length_iff.mpr ⟨c, hc, hconn⟩
      have hle := UInt32.le_iff_toNat_le.mp hfull
      rw [← h.ok.count, h.length] at hlt
      omega
    rw [if_pos hfull]
    exact ⟨iff_of_true hinv.ok fun hfree ↦ absurd hfree hnone, fun _ ↦ hinv⟩
  have hroom := UInt32.not_le.mp hfull
  obtain ⟨idx, old, hfind, hold, hidle⟩ := h.free_slot hroom
  have hmem := List.mem_of_getElem? hold
  rw [if_neg hfull, hfind, imp_iff_right ⟨old, hmem, hidle⟩]
  dsimp only
  cases malloc with
  | false =>
      rw [initClient, if_neg Bool.false_ne_true, if_pos (by decide : oprtMallocFailed ≠ oprtOk)]
      refine ⟨iff_of_false (fun hok ↦ ?_) Bool.false_ne_true, fun hfalse ↦ by cases hfalse⟩
      have hslot := List.mem_set (List.getElem?_eq_some_iff.mp hold).1
        (⟨fd, true, false⟩ : MonitorSlot)
      cases (hok.slots _ hslot rfl).2
  | true =>
      rw [initClient, if_pos rfl, if_neg (not_not_intro rfl)]
      dsimp only
      have hinv : TableInv (match if posted = true then
          tuyaRegLanSock { s.sloop with opened := insert fd s.sloop.opened } ⟨fd, some .monitor⟩
          else none with
        | none => { s with
            clients := s.clients.set idx (cleanupClient
              { s.sloop with opened := insert fd s.sloop.opened } ⟨fd, true, true⟩).2
            sloop := (cleanupClient
              { s.sloop with opened := insert fd s.sloop.opened } ⟨fd, true, true⟩).1 }
        | some sloop => { s with
            clients := s.clients.set idx ⟨fd, true, true⟩, clientCount := s.clientCount + 1
            sloop := sloop }) := by
        rw [tuyaRegLanSock, talQueuePost]
        split
        · rw [cleanupClient, if_pos hfd]
          refine h.clear ?_ ?_
          · rw [countP_set_of_not hold hidle, h.ok.count]
            rfl
          · have hheld := (h.sloop.open fd).mono fun fd'
              (hfd' : Holds (s.clients.set idx freeSlot) fd') ↦
              holds_set_free rfl hfd'
            refine hheld.unreg hfd fun hholds ↦ ?_
            exact hnew (h.sloop.opened fd (holds_set_free rfl hholds))
        · next sloop hpost =>
            split_ifs at hpost
            cases hpost
            exact h.connect hold hidle hfd hnew hroom
      exact ⟨iff_of_true hinv.ok rfl, fun _ ↦ hinv⟩

theorem monitorCall_spec (h : TableInv s) {call : MonitorCall} (hcall : call.Possible s) :
    (StaysOk s call ↔ call.Buffered s) ∧
      (call.Buffered s → TableInv (monitorTableMachine.step s call).1) := by
  have hkept : ∀ {t : AiMonitorServer}, TableInv t → (TableOk t ↔ True) ∧ (True → TableInv t) :=
    fun ht ↦ ⟨iff_of_true ht.ok trivial, fun _ ↦ ht⟩
  cases call with
  | accept fd malloc posted => exact accept_spec h hcall malloc posted
  | read sock recvLen =>
      have hinv : TableInv (s.socketReadHandler sock recvLen) := by
        rw [AiMonitorServer.socketReadHandler]
        split_ifs
        · exact h.drop hcall
        · exact h
      exact hkept hinv
  | error sock => exact hkept (h.drop hcall)
  | closeAll => exact hkept h.closeAll
  | serve sock posted => exact hkept (h.serve hcall posted)
  | fetch =>
      exact hkept ⟨⟨h.ok.count, h.ok.max, h.ok.slots, h.ok.distinct⟩, h.length, h.idle,
        h.sloop.fetch⟩

end Handlers

/-! ## Runs -/

theorem tableInv_init (maxClients : UInt32) (clientNum : ℕ) :
    TableInv (tuyaAiMonitorInit maxClients (tuyaSockLoopInit clientNum)) := by
  have hslot : ∀ c ∈ List.replicate maxClients.toNat freeSlot, c = freeSlot := fun c hc ↦
    List.eq_of_mem_replicate hc
  have hnone : ∀ c ∈ List.replicate maxClients.toNat freeSlot, ¬c.connected = true := fun c hc ↦ by
    rw [hslot c hc]
    exact Bool.false_ne_true
  refine ⟨⟨(List.countP_eq_zero.mpr hnone).symm, UInt32.le_iff_toNat_le.mpr (Nat.zero_le _),
    fun c hc hconn ↦ absurd hconn (hnone c hc),
    List.pairwise_of_forall_mem_list fun c hc _ _ hconn ↦ absurd hconn (hnone c hc)⟩,
    List.length_replicate, fun c hc _ ↦ ?_, sloopKeeps_init clientNum _ ?_⟩
  · rw [hslot c hc]
    decide
  · rintro fd ⟨c, hc, hconn, -⟩
    exact hnone c hc hconn

/-- Over a whole run, the table is as it should be after every call exactly when every client that
is accepted while a slot is free gets its buffer. -/
theorem monitor_table_ok_iff (maxClients : UInt32) (clientNum : ℕ) {calls : List MonitorCall}
    (hcalls : monitorTableMachine.Guarded (fun s call ↦ call.Possible s)
      (tuyaAiMonitorInit maxClients (tuyaSockLoopInit clientNum)) calls) :
    monitorTableMachine.Guarded StaysOk
        (tuyaAiMonitorInit maxClients (tuyaSockLoopInit clientNum)) calls ↔
      monitorTableMachine.Guarded (fun s call ↦ call.Buffered s)
        (tuyaAiMonitorInit maxClients (tuyaSockLoopInit clientNum)) calls := by
  have hiff : ∀ s (call : MonitorCall), TableInv s → call.Possible s →
      (StaysOk s call ↔ call.Buffered s) := fun s call h hcall ↦ (monitorCall_spec h hcall).1
  have hstep : ∀ s (call : MonitorCall), TableInv s → call.Possible s → call.Buffered s →
      TableInv (monitorTableMachine.step s call).1 := fun s call h hcall ↦
        (monitorCall_spec h hcall).2
  exact monitorTableMachine.guarded_congr hiff hstep (tableInv_init maxClients clientNum) hcalls

/-- Three clients come, the last of them to a full table, and one goes. -/
theorem monitor_table_ok_iff_three :
    monitorTableMachine.Guarded StaysOk (tuyaAiMonitorInit 2 (tuyaSockLoopInit 3))
      [.accept 7 true true, .accept 8 true true, .fetch, .fetch, .accept 9 false true,
        .read 7 0] := by
  refine (monitor_table_ok_iff 2 3 ?_).mpr ?_
  · exact ⟨by decide, by decide, trivial, trivial, by decide, (by decide : (0 : ℤ) ≤ 7), trivial⟩
  · refine ⟨fun _ _ ↦ rfl, fun _ _ ↦ rfl, trivial, trivial, fun _ hfree ↦ ?_, trivial, trivial⟩
    revert hfree
    decide

/-- A client that gets no buffer keeps its slot. -/
theorem slot_without_buffer :
    ¬monitorTableMachine.Guarded StaysOk (tuyaAiMonitorInit 3 (tuyaSockLoopInit 3))
      [.accept 7 false true] := by
  rintro ⟨hok, -⟩
  have hslot := (hok.slots ⟨7, true, false⟩ (by decide) rfl).2
  cases hslot

end TuyaOpen.Ai
