import Mathlib.Algebra.Ring.Nat
import TuyaOpen.Common.ErrorCode
import TuyaOpen.Lib.Fifo
import TuyaOpen.Lib.LinkRing
import TuyaOpen.Tal.WorkQueue

/-!
# Queues, `tuya_queue.c`

The items of a queue stand behind the nodes of a list of `tuya_list.c`, and a
counter says how many more there may be.  Addresses are natural numbers and 0
is `NULL`; what `tkl_system_malloc` returns is part of a call.
-/

namespace TuyaOpen.Queues

/-! ## Lists, `tuya_list.c` -/

def initListHead (L : Links ℕ) (ptr : ℕ) : Links ℕ := (L.setNext ptr ptr).setPrev ptr ptr

def tuyaListAdd (L : Links ℕ) (new head : ℕ) : Links ℕ := L.insert new head (L.next head)

def tuyaListAddTail (L : Links ℕ) (new head : ℕ) : Links ℕ := L.insert new (L.prev head) head

def tuyaListDel (L : Links ℕ) (entry : ℕ) : Links ℕ := L.bridge (L.prev entry) (L.next entry)

/-! ## Queues -/

/-- `TUYA_QUEUE_T` with the links and the data that stand at the addresses of nodes. -/
structure Queue (α : Type*) where
  itemSize : ℕ
  queueLen : ℕ
  queueFree : ℕ
  head : ℕ
  links : Links ℕ
  data : ℕ → α

inductive EnqueuePolicy
  | sendToBack
  | sendToFront
  deriving DecidableEq

/-- What a call returns, and the items that it copied to the buffer of the caller, each
with the byte offset it was copied to. -/
structure QueueReply (α : Type*) where
  ret : OperateRet
  copies : List (ℕ × α)
  deriving DecidableEq

variable {α : Type*}

def reply (ret : OperateRet) : QueueReply α where
  ret := ret
  copies := []

def tuyaQueueCreate (queueLen itemSize : ℕ) (node : Option ℕ) (lock : OperateRet) (L : Links ℕ)
    (data : ℕ → α) : Except OperateRet (Queue α) :=
  if queueLen = 0 ∨ itemSize = 0 then .error oprtInvalidParm
  else match node with
    | none => .error oprtMallocFailed
    | some head =>
      if lock ≠ oprtOk then .error oprtComError
      else .ok
        { itemSize := itemSize
          queueLen := queueLen
          queueFree := queueLen
          head := head
          links := initListHead L head
          data := data }

variable (queue : Queue α)

def enqueue (item : Option α) (policy : EnqueuePolicy) (node : Option ℕ) :
    Queue α × QueueReply α :=
  match item with
  | none => (queue, reply oprtInvalidParm)
  | some item => match node with
    | none => (queue, reply oprtMallocFailed)
    | some queueItem =>
      let queue :=
        { queue with
          links := initListHead queue.links queueItem
          data := Function.update queue.data queueItem item }
      if 0 < queue.queueFree then
        let links := match policy with
          | .sendToBack => tuyaListAddTail queue.links queueItem queue.head
          | .sendToFront => tuyaListAdd queue.links queueItem queue.head
        ({ queue with links := links, queueFree := queue.queueFree - 1 }, reply oprtOk)
      else (queue, reply oprtExceedUpperLimit)

def tuyaQueueInput (item : Option α) (node : Option ℕ) : Queue α × QueueReply α :=
  enqueue queue item .sendToBack node

def tuyaQueueInputInstant (item : Option α) (node : Option ℕ) : Queue α × QueueReply α :=
  enqueue queue item .sendToFront node

/-- Without a buffer the item is discarded. -/
def tuyaQueueOutput (buffer : Bool) : Queue α × QueueReply α :=
  if queue.queueFree < queue.queueLen then
    let queueItem := queue.links.next queue.head
    ({ queue with
        links := tuyaListDel queue.links queueItem
        queueFree := queue.queueFree + 1 },
      { ret := oprtOk, copies := if buffer then [(0, queue.data queueItem)] else [] })
  else (queue, reply oprtNotFound)

def tuyaQueuePeek (buffer : Bool) : QueueReply α :=
  if buffer = false then reply oprtInvalidParm
  else if queue.queueFree < queue.queueLen then
    { ret := oprtOk, copies := [(0, queue.data (queue.links.next queue.head))] }
  else reply oprtNotFound

/-- The turns that a walk over the list may take; a list that does not come back to its
head is walked for ever, which is `none`. -/
def walkFuel : ℕ := queue.queueLen + 1

def clearLoop (head : ℕ) : ℕ → ℕ → Links ℕ → Option (Links ℕ)
  | 0, _, _ => none
  | k + 1, p, L => if p = head then some L else clearLoop head k (L.next p) (tuyaListDel L p)

def tuyaQueueClear : Option (Queue α) :=
  (clearLoop queue.head (walkFuel queue) (queue.links.next queue.head) queue.links).map
    fun links ↦ { queue with links := links, queueFree := queue.queueLen }

/-- The offset is the product of two `uint32_t`. -/
@[grind =] def getBatchLoop (start num : ℕ) :
    ℕ → ℕ → ℕ → ℕ → List (ℕ × α) → Option (ℕ × ℕ × List (ℕ × α))
  | 0, _, _, _, _ => none
  | k + 1, p, index, count, copies =>
    if p ≠ 0 ∧ p ≠ queue.head then
      if index < start then getBatchLoop start num k (queue.links.next p) (index + 1) count copies
      else if num ≤ count then some (index, count, copies)
      else getBatchLoop start num k (queue.links.next p) index (count + 1)
        (copies ++ [(count * queue.itemSize % 2 ^ 32, queue.data p)])
    else some (index, count, copies)

def tuyaQueueGetBatch (start : ℕ) (buffer : Bool) (num : ℕ) : Option (QueueReply α) :=
  if buffer = false ∨ num = 0 then some (reply oprtInvalidParm)
  else
    (getBatchLoop queue start num (walkFuel queue) (queue.links.next queue.head) 0 0 []).map
      fun (index, count, copies) ↦
        { ret := if index ≠ start ∨ count ≠ num then oprtNotFound else oprtOk
          copies := copies }

def deleteBatchLoop : ℕ → Queue α → OperateRet → Queue α × OperateRet
  | 0, queue, ret => (queue, ret)
  | count + 1, queue, ret =>
    if ret = oprtOk then
      deleteBatchLoop count (tuyaQueueOutput queue false).1 (tuyaQueueOutput queue false).2.ret
    else (queue, ret)

def tuyaQueueDeleteBatch (num : ℕ) : Queue α × QueueReply α :=
  if num = 0 then (queue, reply oprtInvalidParm)
  else
    let r := deleteBatchLoop num queue oprtOk
    (r.1, reply r.2)

/-- The data behind the nodes of the list. -/
def items : List α :=
  (queue.links.walk queue.head queue.queueLen (queue.links.next queue.head)).map queue.data

end TuyaOpen.Queues

/-!
## A queue is a bounded deque

The nodes of the list stand in a ring, and the counter leaves exactly the room
that they do not take.  Each call keeps both, so in every run the data behind
the nodes are those of a deque that the same calls are made to.
-/

namespace TuyaOpen.Queues

variable {α : Type*} {n itemSize : ℕ} {s : Queue α} {q : Deque α n}

/-- The queue holds the items of the deque. -/
structure Holds (s : Queue α) (itemSize : ℕ) (q : Deque α n) : Prop where
  size : s.itemSize = itemSize
  len : s.queueLen = n
  ring : ∃ nodes, s.links.Ring s.head nodes ∧ nodes.map s.data = q.items ∧ ∀ p ∈ nodes, p ≠ 0
  count : s.queueFree + q.items.length = n

theorem Holds.items_eq (h : Holds s itemSize q) : items s = q.items := by
  obtain ⟨nodes, hring, hdata, -⟩ := h.ring
  have hle : nodes.length ≤ s.queueLen := by
    rw [h.len, ← @List.length_map _ _ nodes s.data, hdata]
    exact q.length_le
  rw [items, hring.walk_eq hle, hdata]

/-! ## Insertion -/

theorem initListHead_ring {L : Links ℕ} {h p : ℕ} {nodes : List ℕ} (hr : L.Ring h nodes)
    (hp : p ∉ h :: nodes) : (initListHead L p).Ring h nodes := by
  refine ⟨hr.1, hr.2.congr (fun c hc ↦ ?_) fun c hc ↦ ?_⟩
  · have hne : c ≠ p := fun heq ↦ hp (heq ▸ hc)
    simp [initListHead, Links.setNext, Links.setPrev, hne]
  · have hne : c ≠ p := by
      rintro rfl
      rw [List.mem_append, List.mem_singleton] at hc
      rw [List.mem_cons, not_or] at hp
      exact hc.elim hp.2 hp.1
    simp [initListHead, Links.setNext, Links.setPrev, hne]

theorem map_update {data : ℕ → α} {p : ℕ} {x : α} {nodes : List ℕ} (hp : p ∉ nodes) :
    nodes.map (Function.update data p x) = nodes.map data :=
  List.map_congr_left fun c hc ↦ by
    have hne : c ≠ p := fun heq ↦ hp (heq ▸ hc)
    rw [Function.update_of_ne hne]

/-- The node is new: it is not `NULL`, not the head and not in the list. -/
def NewNode (s : Queue α) (p : ℕ) : Prop :=
  p ≠ 0 ∧ p ≠ s.head ∧ p ∉ s.links.walk s.head s.queueLen (s.links.next s.head)

theorem Holds.new_node {p : ℕ} {nodes : List ℕ} (h : Holds s itemSize q) (hp : NewNode s p)
    (hring : s.links.Ring s.head nodes) (hdata : nodes.map s.data = q.items) :
    p ∉ s.head :: nodes := by
  have hle : nodes.length ≤ s.queueLen := by
    rw [h.len, ← @List.length_map _ _ nodes s.data, hdata]
    exact q.length_le
  obtain ⟨-, hhead, hnodes⟩ := hp
  rw [hring.walk_eq hle] at hnodes
  exact fun hmem ↦ (List.mem_cons.mp hmem).elim hhead hnodes

theorem Holds.enqueue {p : ℕ} (h : Holds s itemSize q) (policy : EnqueuePolicy) (x : α)
    (hp : NewNode s p) :
    let r := Queues.enqueue s (some x) policy (some p)
    let q' := q.tryPush (policy = .sendToFront) x
    Holds r.1 itemSize q'.1 ∧ r.2 = reply (if q'.2 then oprtOk else oprtExceedUpperLimit) := by
  obtain ⟨nodes, hring, hdata, hzero⟩ := h.ring
  have hfresh := h.new_node hp hring hdata
  have hring' := initListHead_ring hring hfresh
  have hnodes : p ∉ nodes := fun hmem ↦ hfresh (List.mem_cons_of_mem _ hmem)
  have hcount := h.count
  have hkept : nodes.map (Function.update s.data p x) = q.items := (map_update hnodes).trans hdata
  by_cases hroom : 0 < s.queueFree
  · have hlt : q.items.length < n := by omega
    simp only [Queues.enqueue, Deque.tryPush, if_pos hroom, dif_pos hlt, if_true]
    refine ⟨⟨h.size, h.len, ?_, ?_⟩, trivial⟩
    · cases policy with
      | sendToBack =>
          refine ⟨nodes ++ [p], hring'.insert_back hfresh, ?_, ?_⟩
          · simp [Deque.push, hkept]
          · simpa [or_imp, forall_and, hp.1] using hzero
      | sendToFront =>
          refine ⟨p :: nodes, hring'.insert_front hfresh, ?_, ?_⟩
          · simp [Deque.push, hkept]
          · simpa [hp.1] using hzero
    · cases policy <;> simp [Deque.push] <;> omega
  · have hfull : ¬ q.items.length < n := by omega
    simp only [Queues.enqueue, Deque.tryPush, if_neg hroom, dif_neg hfull]
    exact ⟨⟨h.size, h.len, ⟨nodes, hring', hkept, hzero⟩, hcount⟩, rfl⟩

/-! ## Removal -/

theorem Holds.output (h : Holds s itemSize q) (buffer : Bool) :
    Holds (tuyaQueueOutput s buffer).1 itemSize (q.drop 1) ∧
      (tuyaQueueOutput s buffer).2 =
        { ret := if 1 ≤ q.items.length then oprtOk else oprtNotFound
          copies := if buffer then (q.items.take 1).map fun x ↦ (0, x) else [] } := by
  obtain ⟨nodes, hring, hdata, hzero⟩ := h.ring
  have hcount := h.count
  have hlen := h.len
  cases nodes with
  | nil =>
      have hnil : q.items = [] := hdata.symm
      rw [hnil, List.length_nil] at hcount
      have hempty : ¬ s.queueFree < s.queueLen := by omega
      rw [tuyaQueueOutput, if_neg hempty]
      refine ⟨⟨h.size, h.len, ⟨[], hring, ?_, hzero⟩, ?_⟩, ?_⟩
      · simp [Deque.drop, hnil]
      · simp [Deque.drop, hnil, hcount]
      · cases buffer <;> simp [hnil, reply]
  | cons p nodes =>
      have hitems : q.items = s.data p :: nodes.map s.data := hdata.symm
      rw [hitems, List.length_cons, List.length_map] at hcount
      have hfull : s.queueFree < s.queueLen := by omega
      have hnext : s.links.next s.head = p := hring.next_head
      rw [tuyaQueueOutput, if_pos hfull]
      dsimp only
      rw [hnext]
      refine ⟨⟨h.size, h.len, ⟨nodes, hring.bridge_front, ?_, ?_⟩, ?_⟩, ?_⟩
      · simp [Deque.drop, hitems]
      · exact fun c hc ↦ hzero c (List.mem_cons_of_mem p hc)
      · simp only [Deque.drop, hitems, List.drop_succ_cons, List.drop_zero, List.length_map]
        omega
      · simp [hitems]

theorem deleteBatchLoop_of_ne {ret : OperateRet} (hret : ret ≠ oprtOk) (num : ℕ) :
    deleteBatchLoop num s ret = (s, ret) := by
  cases num with
  | zero => rfl
  | succ num => rw [deleteBatchLoop, if_neg hret]

theorem Holds.deleteBatch {num : ℕ} (h : Holds s itemSize q) :
    Holds (deleteBatchLoop num s oprtOk).1 itemSize (q.drop num) ∧
      (deleteBatchLoop num s oprtOk).2 =
        if num ≤ q.items.length then oprtOk else oprtNotFound := by
  induction num generalizing s q with
  | zero =>
      have hsame : q.drop 0 = q := rfl
      rw [hsame]
      exact ⟨h, rfl⟩
  | succ num ih =>
      obtain ⟨hout, hreply⟩ := h.output false
      have hret : (tuyaQueueOutput s false).2.ret =
          if 1 ≤ q.items.length then oprtOk else oprtNotFound := by rw [hreply]
      rw [deleteBatchLoop, if_pos rfl, hret]
      by_cases hone : 1 ≤ q.items.length
      · rw [if_pos hone]
        obtain ⟨hrest, hrestRet⟩ := ih hout
        have hdrop : (q.drop 1).drop num = q.drop (num + 1) := by
          simp only [Deque.drop, List.drop_drop, Nat.add_comm]
        rw [hdrop] at hrest
        refine ⟨hrest, ?_⟩
        have hiff : num ≤ (q.drop 1).items.length ↔ num + 1 ≤ q.items.length := by
          simp only [Deque.drop, List.length_drop]
          omega
        rw [hrestRet]
        simp only [hiff]
      · have hnil : q.items = [] := List.eq_nil_of_length_eq_zero (by omega)
        have hne : oprtNotFound ≠ oprtOk := by decide
        have hdrop : q.drop 1 = q.drop (num + 1) := by simp [Deque.drop, hnil]
        rw [if_neg hone, deleteBatchLoop_of_ne hne]
        refine ⟨hdrop ▸ hout, ?_⟩
        rw [if_neg (by omega)]

theorem clearLoop_ring {L : Links ℕ} {h k : ℕ} {nodes : List ℕ} (hr : L.Ring h nodes)
    (hk : nodes.length < k) :
    ∃ L', clearLoop h k (L.next h) L = some L' ∧ L'.Ring h [] := by
  induction nodes generalizing L k with
  | nil =>
      obtain ⟨k, rfl⟩ : ∃ j, k = j + 1 := ⟨k - 1, by simp at hk; omega⟩
      have hback : L.next h = h := hr.next_head
      exact ⟨L, by rw [clearLoop, if_pos hback], hr⟩
  | cons p nodes ih =>
      obtain ⟨k, rfl⟩ : ∃ j, k = j + 1 := ⟨k - 1, by simp at hk; omega⟩
      have hnext : L.next h = p := hr.next_head
      have hne : p ≠ h := fun heq ↦ (List.nodup_cons.mp hr.1).1 (heq ▸ List.mem_cons_self)
      have hafter : L.next p = nodes.headD h := @Links.Ring.next_node ℕ L h p [] nodes hr
      have hrest := hr.bridge_front
      rw [List.length_cons] at hk
      obtain ⟨L', hloop, hr'⟩ := ih hrest (Nat.lt_of_succ_lt_succ hk)
      refine ⟨L', ?_, hr'⟩
      rw [hnext, clearLoop, if_neg hne, hafter, ← hrest.next_head]
      exact hloop

theorem Holds.clear (h : Holds s itemSize q) :
    ∃ s', tuyaQueueClear s = some s' ∧ Holds s' itemSize (Deque.empty : Deque α n) := by
  obtain ⟨nodes, hring, hdata, -⟩ := h.ring
  have hlen := h.len
  have hle : nodes.length < walkFuel s := by
    have hcap := q.length_le
    rw [← hdata, List.length_map] at hcap
    rw [walkFuel]
    omega
  obtain ⟨L, hloop, hring'⟩ := clearLoop_ring hring hle
  refine ⟨{ s with links := L, queueFree := s.queueLen }, ?_, ⟨h.size, hlen, ?_, hlen⟩⟩
  · rw [tuyaQueueClear, hloop, Option.map_some]
  · exact ⟨[], hring', rfl, by simp⟩

/-! ## Slices -/

/-- The copies of the items `xs`, the first of which is item `count` of the batch. -/
@[grind =] def batchCopies (itemSize count : ℕ) (xs : List α) : List (ℕ × α) :=
  (xs.zipIdx count).map fun x ↦ (x.2 * itemSize % 2 ^ 32, x.1)

theorem batchCopies_cons (itemSize count : ℕ) (x : α) (xs : List α) :
    batchCopies itemSize count (x :: xs) =
      (count * itemSize % 2 ^ 32, x) :: batchCopies itemSize (count + 1) xs := by
  simp [batchCopies]

theorem map_snd_batchCopies (itemSize count : ℕ) (xs : List α) :
    (batchCopies itemSize count xs).map Prod.snd = xs := by
  induction xs generalizing count with
  | nil => rfl
  | cons x xs ih => rw [batchCopies_cons, List.map_cons, ih]

theorem getBatchLoop_copy {nodes us vs : List ℕ} {start num k count : ℕ} {copies : List (ℕ × α)}
    (hring : s.links.Ring s.head nodes) (hzero : ∀ p ∈ nodes, p ≠ 0) (hnodes : nodes = us ++ vs)
    (hk : vs.length < k) (hcount : count ≤ num) :
    getBatchLoop s start num k (vs.headD s.head) start count copies =
      some (start, count + min (num - count) vs.length,
        copies ++ batchCopies s.itemSize count ((vs.take (num - count)).map s.data)) := by
  induction vs generalizing us k count copies with
  | nil =>
      obtain ⟨k, rfl⟩ : ∃ j, k = j + 1 := ⟨k - 1, by simp at hk; omega⟩
      simp [getBatchLoop, batchCopies]
  | cons p vs ih =>
      obtain ⟨k, rfl⟩ : ∃ j, k = j + 1 := ⟨k - 1, by simp at hk; omega⟩
      have hmem : p ∈ nodes := by simp [hnodes]
      have hne : p ≠ s.head := by
        rintro rfl
        exact (List.nodup_cons.mp hring.1).1 hmem
      have hnext : s.links.next p = vs.headD s.head := (hnodes ▸ hring).next_node
      rw [List.headD_cons, getBatchLoop, if_pos ⟨hzero p hmem, hne⟩, if_neg (Nat.lt_irrefl start)]
      by_cases hdone : num ≤ count
      · have hzeroLeft : num - count = 0 := by omega
        simp [if_pos hdone, hzeroLeft, batchCopies]
      · have hleft : num - count = num - (count + 1) + 1 := by omega
        have hnodes' : nodes = us ++ [p] ++ vs := by simp [hnodes]
        rw [List.length_cons] at hk
        rw [if_neg hdone, hnext, ih hnodes' (by omega) (by omega), hleft, List.take_succ_cons,
          List.map_cons, batchCopies_cons, List.append_assoc, List.length_cons]
        simp only [List.singleton_append, Option.some.injEq, Prod.mk.injEq, true_and, and_true]
        omega

theorem getBatchLoop_skip {nodes us vs : List ℕ} {start num k index : ℕ}
    (hring : s.links.Ring s.head nodes) (hzero : ∀ p ∈ nodes, p ≠ 0) (hnodes : nodes = us ++ vs)
    (hk : vs.length < k) (hindex : index ≤ start) :
    getBatchLoop s start num k (vs.headD s.head) index 0 ([] : List (ℕ × α)) =
      some (index + min (start - index) vs.length,
        min num (vs.length - (start - index)),
        batchCopies s.itemSize 0 (((vs.drop (start - index)).take num).map s.data)) := by
  induction vs generalizing us k index with
  | nil =>
      obtain ⟨k, rfl⟩ : ∃ j, k = j + 1 := ⟨k - 1, by simp at hk; omega⟩
      simp [getBatchLoop, batchCopies]
  | cons p vs ih =>
      rcases Nat.eq_or_lt_of_le hindex with rfl | hlt
      · rw [getBatchLoop_copy hring hzero hnodes hk (Nat.zero_le num)]
        simp
      · obtain ⟨k, rfl⟩ : ∃ j, k = j + 1 := ⟨k - 1, by simp at hk; omega⟩
        have hmem : p ∈ nodes := by simp [hnodes]
        have hne : p ≠ s.head := by
          rintro rfl
          exact (List.nodup_cons.mp hring.1).1 hmem
        have hnext : s.links.next p = vs.headD s.head := (hnodes ▸ hring).next_node
        have hnodes' : nodes = us ++ [p] ++ vs := by simp [hnodes]
        have hleft : start - index = start - (index + 1) + 1 := by omega
        rw [List.length_cons] at hk
        rw [List.headD_cons, getBatchLoop, if_pos ⟨hzero p hmem, hne⟩, if_pos hlt, hnext,
          ih hnodes' (by omega) hlt, hleft, List.drop_succ_cons, List.length_cons]
        simp only [Option.some.injEq, Prod.mk.injEq, and_true]
        omega

theorem Holds.getBatch (h : Holds s itemSize q) (start num : ℕ) (hnum : num ≠ 0) :
    tuyaQueueGetBatch s start true num = some
      { ret := if start + num ≤ q.items.length then oprtOk else oprtNotFound
        copies := batchCopies itemSize 0 ((q.items.drop start).take num) } := by
  obtain ⟨nodes, hring, hdata, hzero⟩ := h.ring
  have hlen := h.len
  have hcap := q.length_le
  have hlength : nodes.length = q.items.length := by rw [← hdata, List.length_map]
  have hk : nodes.length < walkFuel s := by
    rw [walkFuel]
    omega
  have hvalid : ¬ (true = false ∨ num = 0) := by simp [hnum]
  have hloop := @getBatchLoop_skip α s nodes [] nodes start num _ 0 hring hzero
    (List.nil_append nodes).symm hk (Nat.zero_le start)
  rw [← hring.next_head] at hloop
  rw [tuyaQueueGetBatch, if_neg hvalid, hloop, Option.map_some, Nat.sub_zero, Nat.zero_add,
    List.map_take, List.map_drop, hdata, h.size, hlength]
  have hiff : (min start q.items.length ≠ start ∨ min num (q.items.length - start) ≠ num) ↔
      ¬ start + num ≤ q.items.length := by omega
  simp only [hiff, ite_not]

/-! ## Runs -/

inductive QueueCall (α : Type*)
  | input (item : Option α) (node : Option ℕ)
  | inputInstant (item : Option α) (node : Option ℕ)
  | output (buffer : Bool)
  | peek (buffer : Bool)
  | getBatch (start : ℕ) (buffer : Bool) (num : ℕ)
  | deleteBatch (num : ℕ)
  | clear

def queueStep (s : Queue α) : QueueCall α → Option (Queue α × QueueReply α)
  | .input item node => some (tuyaQueueInput s item node)
  | .inputInstant item node => some (tuyaQueueInputInstant s item node)
  | .output buffer => some (tuyaQueueOutput s buffer)
  | .peek buffer => some (s, tuyaQueuePeek s buffer)
  | .getBatch start buffer num => (tuyaQueueGetBatch s start buffer num).map fun r ↦ (s, r)
  | .deleteBatch num => some (tuyaQueueDeleteBatch s num)
  | .clear => (tuyaQueueClear s).map fun s ↦ (s, reply oprtOk)

/-- `none` is the state of a call that does not return. -/
def queueMachine : Mealy (Option (Queue α)) (QueueCall α) (Option (QueueReply α)) where
  step o c :=
    let r := o.bind fun s ↦ queueStep s c
    (r.map Prod.fst, r.map Prod.snd)

/-- The node of a call is memory that the queue does not have. -/
def NodeFresh (s : Queue α) : QueueCall α → Prop
  | .input _ node | .inputInstant _ node => ∀ p ∈ node, NewNode s p
  | _ => True

def AllowedCall (o : Option (Queue α)) (c : QueueCall α) : Prop := ∀ s ∈ o, NodeFresh s c

/-- What the call asks of the deque; a call without what it needs is refused. -/
def dequeOp : QueueCall α → DequeOp α
  | .input (some x) (some _) => .pushBack x
  | .inputInstant (some x) (some _) => .pushFront x
  | .input _ _ | .inputInstant _ _ => .refuse
  | .output buffer => if buffer then .pop else .drop 1
  | .peek buffer => if buffer then .peek else .refuse
  | .getBatch start buffer num => if buffer = false ∨ num = 0 then .refuse else .slice start num
  | .deleteBatch num => if num = 0 then .refuse else .drop num
  | .clear => .clear

/-- The call returns, it is `OPRT_OK` exactly when the deque succeeds, and it copies what
the deque hands out, item `k` to the byte `k * itemSize` of the buffer while that is
a `uint32_t`. -/
def Answers (itemSize : ℕ) (r : Option (QueueReply α)) (a : Bool × List α) : Prop :=
  ∃ reply, r = some reply ∧ (reply.ret = oprtOk ↔ a.1 = true) ∧
    reply.copies.map Prod.snd = a.2 ∧
    ∀ k c, reply.copies[k]? = some c → k * itemSize < 2 ^ 32 → c.1 = k * itemSize

theorem answers_reply {ret : OperateRet} {ok : Bool} (h : ret = oprtOk ↔ ok = true) :
    Answers itemSize (some (reply ret : QueueReply α)) (ok, []) :=
  ⟨_, rfl, h, rfl, by simp [reply]⟩

theorem ite_ok_iff {c : Prop} [Decidable c] {err : OperateRet} (herr : err ≠ oprtOk) :
    (if c then oprtOk else err) = oprtOk ↔ decide c = true := by
  by_cases hc : c <;> simp [hc, herr]

theorem answers_batch {ret : OperateRet} {ok : Bool} (h : ret = oprtOk ↔ ok = true) (xs : List α) :
    Answers itemSize (some { ret := ret, copies := batchCopies itemSize 0 xs }) (ok, xs) := by
  refine ⟨_, rfl, h, map_snd_batchCopies itemSize 0 xs, fun k c hc hlt ↦ ?_⟩
  rw [batchCopies, List.getElem?_map, List.getElem?_zipIdx, Option.map_map] at hc
  obtain ⟨x, -, rfl⟩ := Option.map_eq_some_iff.mp hc
  simpa using Nat.mod_eq_of_lt hlt

theorem batchCopies_one {xs : List α} (hxs : xs.length ≤ 1) :
    batchCopies itemSize 0 xs = xs.map fun x ↦ (0, x) := by
  cases xs with
  | nil => rfl
  | cons x xs =>
      obtain rfl : xs = [] := List.eq_nil_of_length_eq_zero (by simpa using hxs)
      simp [batchCopies]

theorem Holds.enqueue_step {p : ℕ} (h : Holds s itemSize q) (policy : EnqueuePolicy) (x : α)
    (hp : NewNode s p) :
    Holds (Queues.enqueue s (some x) policy (some p)).1 itemSize
        (q.tryPush (policy = .sendToFront) x).1 ∧
      Answers itemSize (some (Queues.enqueue s (some x) policy (some p)).2)
        ((q.tryPush (policy = .sendToFront) x).2, []) := by
  obtain ⟨hholds, hreply⟩ := h.enqueue policy x hp
  refine ⟨hholds, ?_⟩
  rw [hreply]
  apply answers_reply
  rw [ite_ok_iff (by decide)]
  exact decide_eq_true_iff

theorem Holds.peek (h : Holds s itemSize q) :
    Answers itemSize (some (tuyaQueuePeek s true))
      (decide (1 ≤ q.items.length), q.items.take 1) := by
  have hone : (q.items.take 1).length ≤ 1 := List.length_take_le 1 q.items
  have hout := (h.output true).2
  have hsame : tuyaQueuePeek s true = (tuyaQueueOutput s true).2 := by
    by_cases hitem : s.queueFree < s.queueLen <;> simp [tuyaQueuePeek, tuyaQueueOutput, hitem]
  rw [hsame, hout, if_pos rfl, ← batchCopies_one hone]
  exact answers_batch (ite_ok_iff (by decide)) _

theorem Holds.step {c : QueueCall α} (h : Holds s itemSize q) (hfresh : NodeFresh s c) :
    ∃ s' r, queueStep s c = some (s', r) ∧
      Holds s' itemSize (Deque.machine.step q (dequeOp c)).1 ∧
      Answers itemSize (some r) (Deque.machine.step q (dequeOp c)).2 := by
  have hrefuse : ∀ ret : OperateRet, ret ≠ oprtOk →
      Answers itemSize (some (reply ret : QueueReply α)) (false, []) :=
    fun ret hne ↦ answers_reply (by simp [hne])
  cases c with
  | input item node =>
      refine ⟨(tuyaQueueInput s item node).1, (tuyaQueueInput s item node).2, rfl, ?_⟩
      cases item with
      | none => exact ⟨h, hrefuse _ (by decide)⟩
      | some x =>
          cases node with
          | none => exact ⟨h, hrefuse _ (by decide)⟩
          | some p => exact h.enqueue_step .sendToBack x (hfresh p rfl)
  | inputInstant item node =>
      refine ⟨(tuyaQueueInputInstant s item node).1, (tuyaQueueInputInstant s item node).2, rfl, ?_⟩
      cases item with
      | none => exact ⟨h, hrefuse _ (by decide)⟩
      | some x =>
          cases node with
          | none => exact ⟨h, hrefuse _ (by decide)⟩
          | some p => exact h.enqueue_step .sendToFront x (hfresh p rfl)
  | output buffer =>
      obtain ⟨hholds, hreply⟩ := h.output buffer
      have hone : (q.items.take 1).length ≤ 1 := List.length_take_le 1 q.items
      refine ⟨(tuyaQueueOutput s buffer).1, (tuyaQueueOutput s buffer).2, rfl, ?_⟩
      cases buffer with
      | false =>
          refine ⟨hholds, ?_⟩
          rw [hreply]
          exact answers_reply (ite_ok_iff (by decide))
      | true =>
          refine ⟨hholds, ?_⟩
          rw [hreply, if_pos rfl, ← batchCopies_one hone]
          exact answers_batch (ite_ok_iff (by decide)) _
  | peek buffer =>
      refine ⟨s, tuyaQueuePeek s buffer, rfl, ?_⟩
      cases buffer with
      | false => exact ⟨h, hrefuse _ (by decide)⟩
      | true => exact ⟨h, h.peek⟩
  | getBatch start buffer num =>
      by_cases hvalid : buffer = false ∨ num = 0
      · refine ⟨s, reply oprtInvalidParm, ?_, ?_⟩
        · rw [queueStep, tuyaQueueGetBatch, if_pos hvalid, Option.map_some]
        · rw [dequeOp, if_pos hvalid]
          exact ⟨h, hrefuse _ (by decide)⟩
      · have hbuffer : buffer = true := by simpa using fun hb ↦ hvalid (.inl hb)
        have hnum : num ≠ 0 := fun hn ↦ hvalid (.inr hn)
        have hbatch := h.getBatch start num hnum
        have hslice : dequeOp (α := α) (.getBatch start buffer num) = .slice start num := by
          rw [dequeOp, if_neg hvalid]
        rw [hslice, queueStep, hbuffer, hbatch]
        exact ⟨s, _, rfl, h, answers_batch (ite_ok_iff (by decide)) _⟩
  | deleteBatch num =>
      refine ⟨(tuyaQueueDeleteBatch s num).1, (tuyaQueueDeleteBatch s num).2, rfl, ?_⟩
      rw [dequeOp, tuyaQueueDeleteBatch]
      by_cases hnum : num = 0
      · rw [if_pos hnum, if_pos hnum]
        exact ⟨h, hrefuse _ (by decide)⟩
      · obtain ⟨hholds, hret⟩ := @Holds.deleteBatch α n itemSize s q num h
        rw [if_neg hnum, if_neg hnum]
        dsimp only
        refine ⟨hholds, ?_⟩
        rw [hret]
        exact answers_reply (ite_ok_iff (by decide))
  | clear =>
      obtain ⟨s', heq, hholds⟩ := h.clear
      refine ⟨s', reply oprtOk, ?_, hholds, answers_reply (iff_of_true rfl rfl)⟩
      rw [queueStep, heq, Option.map_some]

theorem holds_created {node : Option ℕ} {lock : OperateRet} {L : Links ℕ} {data : ℕ → α}
    (h : tuyaQueueCreate n itemSize node lock L data = .ok s) :
    Holds s itemSize (Deque.empty : Deque α n) := by
  unfold tuyaQueueCreate at h
  cases node with
  | none => split_ifs at h
  | some head =>
      dsimp only at h
      split_ifs at h
      cases h
      exact ⟨rfl, rfl, ⟨[], Links.ring_init L head, rfl, by simp⟩, rfl⟩

/-- In every run of a new queue its items are those of the deque, the counter is the room
that is left, and every call answers as the deque does. -/
theorem queue_refines_deque {node : Option ℕ} {lock : OperateRet} {L : Links ℕ} {data : ℕ → α}
    (hcreate : tuyaQueueCreate n itemSize node lock L data = .ok s) {cs : List (QueueCall α)}
    (hcs : queueMachine.Guarded AllowedCall (some s) cs) :
    (∃ s', queueMachine.final (some s) cs = some s' ∧
        items s' = (Deque.machine.final (Deque.empty : Deque α n) (cs.map dequeOp)).items ∧
        s'.queueFree + (items s').length = n) ∧
      List.Forall₂ (Answers itemSize) (queueMachine.outputs (some s) cs)
        (Deque.machine.outputs (Deque.empty : Deque α n) (cs.map dequeOp)) := by
  obtain ⟨⟨s', hfinal, hholds⟩, houts⟩ := queueMachine.sim_outputs Deque.machine dequeOp
    (R := fun o (q : Deque α n) ↦ ∃ s, o = some s ∧ Holds s itemSize q) (S := Answers itemSize)
    (G := AllowedCall) (by
      rintro o q c ⟨s, rfl, hs⟩ hfresh
      obtain ⟨s', r, heq, hholds, hanswers⟩ := hs.step (hfresh s rfl)
      simp only [queueMachine, Option.bind_some, heq, Option.map_some]
      exact ⟨⟨s', rfl, hholds⟩, hanswers⟩)
    ⟨s, rfl, holds_created hcreate⟩ hcs
  refine ⟨⟨s', hfinal, hholds.items_eq, ?_⟩, houts⟩
  rw [hholds.items_eq]
  exact hholds.count

/-! ### Three nodes -/

instance (s : Queue α) : (c : QueueCall α) → Decidable (NodeFresh s c)
  | .input _ node | .inputInstant _ node => inferInstanceAs (Decidable (∀ p ∈ node, _ ∧ _ ∧ _))
  | .output _ | .peek _ | .getBatch _ _ _ | .deleteBatch _ | .clear =>
    inferInstanceAs (Decidable True)

instance (o : Option (Queue α)) (c : QueueCall α) : Decidable (AllowedCall o c) :=
  inferInstanceAs (Decidable (∀ s ∈ o, NodeFresh s c))

def blankLinks : Links ℕ where
  next _ := 0
  prev _ := 0

/-- A queue for two words of four bytes. -/
def twoWords : Queue ℕ where
  itemSize := 4
  queueLen := 2
  queueFree := 2
  head := 100
  links := initListHead blankLinks 100
  data _ := 0

theorem queue_refines_deque_two :
    let cs := [.input (some 5) (some 8), .inputInstant (some 6) (some 16),
      .input (some 7) (some 24), .getBatch 0 true 2, .deleteBatch 1, .output true]
    queueMachine.Guarded AllowedCall (some twoWords) cs ∧
      (∃ s, queueMachine.final (some twoWords) cs = some s ∧ items s = [] ∧
        s.queueFree + (items s).length = 2) ∧
      List.Forall₂ (Answers 4) (queueMachine.outputs (some twoWords) cs)
        (Deque.machine.outputs (Deque.empty : Deque ℕ 2) (cs.map dequeOp)) := by
  intro cs
  have hcs : queueMachine.Guarded AllowedCall (some twoWords) cs := by decide
  have hcreate : tuyaQueueCreate 2 4 (some 100) oprtOk blankLinks (fun _ ↦ 0) = .ok twoWords := rfl
  exact ⟨hcs, queue_refines_deque hcreate hcs⟩

/-- A batch of no items is refused from every queue. -/
theorem get_batch_refuses_none :
    ¬ ∀ start num, ((tuyaQueueGetBatch twoWords start true num).map QueueReply.ret = some oprtOk ↔
      start + num ≤ (items twoWords).length) := by
  intro h
  exact absurd ((h 0 0).mpr (Nat.zero_le _)) (by decide)

/-! ## The queue below the work queues -/

end TuyaOpen.Queues
