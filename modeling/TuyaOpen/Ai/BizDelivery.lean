import TuyaOpen.Ai.Biz

/-!
# What a receive callback is handed

A message comes as one packet or as fragments, between which sessions come and go.
The callback of its channel should be handed the body, and only while its session is
there.
-/

namespace TuyaOpen.Ai

open Bytes ByteMem

/-- A decrypted packet: the memory from its buffer on, and its length. -/
structure BizBuf where
  mem : Mem
  len : ℕ

/-- A message in one packet, or in fragments with what is done to the sessions in front of
each. -/
inductive BizMessage where
  | whole (b : BizBuf)
  | fragments (start : BizBuf) (ing : List (List SessionOp × BizBuf))
      (stop : List SessionOp × BizBuf)

structure BizPacket where
  ops : List SessionOp
  flag : FragFlag
  buf : BizBuf

def BizMessage.first : BizMessage → BizBuf
  | whole b => b
  | fragments start _ _ => start

def BizMessage.later : BizMessage → List BizPacket
  | whole _ => []
  | fragments _ ing stop => ing.map (fun x ↦ ⟨x.1, .ing, x.2⟩) ++ [⟨stop.1, .stop, stop.2⟩]

def BizMessage.packets : BizMessage → List BizPacket
  | whole b => [⟨[], .noFrag, b⟩]
  | fragments start ing stop => ⟨[], .start, start⟩ :: (fragments start ing stop).later

/-- A packet that was handled, with the sessions that were there. -/
structure Handover where
  buf : BizBuf
  session : List (Option AiBizSession)
  delivery : Option Delivery

/-- The packets one after the other; a call that does not return is the last one. -/
@[grind =] def runPackets : (ℕ → BizEnv) → AiBiz → List BizPacket → List Handover
  | _, _, [] => []
  | env, biz, p :: rest =>
      let biz := p.ops.foldl AiBiz.apply biz
      let r := aiBizRecvHandle (env 0) biz p.buf.mem p.buf.len p.flag
      ⟨p.buf, biz.session, r.delivery⟩ ::
        match r.ret with
        | none => []
        | some _ => runPackets (fun n ↦ env (n + 1)) r.biz rest

/-! ## Handing out the body -/

/-- A session has an entry with a callback for the channel. -/
def Registered (session : List (Option AiBizSession)) (recvId idx : ℕ) (e : RecvEntry) : Prop :=
  ∃ s, session[idx]? = some (some s) ∧ e ∈ s.recv ∧ e.id = recvId ∧ e.cb.isSome

/-- The session in slot `idx` is still there. -/
def Handover.alive (idx : ℕ) (h : Handover) : Bool :=
  match h.session[idx]? with
  | some (some _) => true
  | _ => false

def Handover.bytes (h : Handover) : List UInt8 :=
  match h.delivery with
  | none => []
  | some d => slice h.buf.mem d.start d.head.len

def BizBuf.behind (b : BizBuf) (start : ℕ) : List UInt8 := slice b.mem start (b.len - start)

/-- What follows the head of the first packet, and all of the others. -/
def bodyOf (start : ℕ) : List Handover → List UInt8
  | [] => []
  | h :: rest => h.buf.behind start ++ rest.flatMap fun h ↦ h.buf.behind 0

/-- The message is handed out to the entry `e` of the session in slot `idx`. -/
structure HandedOut (log : List Handover) (start idx : ℕ) (e : RecvEntry) : Prop where
  inside : ∀ h ∈ log, ∀ d, h.delivery = some d → d.start + d.head.len ≤ h.buf.len
  route : ∀ h ∈ log, ∀ d, h.delivery = some d → e.cb = some d.cb ∧ d.usrData = e.usrData
  gone : ∀ h ∈ log.dropWhile (Handover.alive idx), h.delivery = none
  body : log.flatMap Handover.bytes = bodyOf start (log.takeWhile (Handover.alive idx))

/-- The channel of a first packet, where the body begins, and the head: a packet for no
channel, or one that is refused, has none. -/
def channelHead (m : Mem) : Option (ℕ × ℕ × BizHead) :=
  let type := m 0 / 2
  if aiIsBizPktVaild type = false ∨ type = aiPtSessionClose ∨ type = aiPtSessionStateChange ∨
      type = aiPtEvent then none
  else
    match firstAttrs m with
    | .done _ =>
        (aiParseBizHead type m (payloadOf m)).map fun x ↦
          (word m (payloadOf m) 2, payloadOf m + x.2, x.1)
    | _ => none

/-- A session that registered the channel is handed the body; with none, nothing is handed
out. -/
def HandsOutBody (env : ℕ → BizEnv) (biz : AiBiz) (msg : BizMessage) : Prop :=
  match channelHead msg.first.mem with
  | none => ∀ h ∈ runPackets env biz msg.packets, h.delivery = none
  | some (recvId, start, _) =>
      (∃ idx e, Registered biz.session recvId idx e ∧
        HandedOut (runPackets env biz msg.packets) start idx e) ∨
      (∀ idx e, ¬Registered biz.session recvId idx e) ∧
        ∀ h ∈ runPackets env biz msg.packets, h.delivery = none

/-! ## The search for an entry -/

variable {biz : AiBiz} {env : ℕ → BizEnv} {recvId : ℕ} {m : Mem}

theorem recvSearch_registered {session : List (Option AiBizSession)} {k idx : ℕ} {e : RecvEntry}
    (h : recvSearch recvId session k = some (idx, e)) :
    ∃ i, idx = k + i ∧ Registered session recvId i e := by
  induction session generalizing k with
  | nil => cases h
  | cons slot rest ih =>
      have hlater : recvSearch recvId rest (k + 1) = some (idx, e) →
          ∃ i, idx = k + i ∧ Registered (slot :: rest) recvId i e := by
        intro h
        obtain ⟨i, hidx, s, hs, he⟩ := ih h
        exact ⟨i + 1, by omega, s, hs, he⟩
      cases slot with
      | none => exact hlater h
      | some s =>
          rw [recvSearch] at h
          cases hfind : s.recv.find? fun e ↦ e.id = recvId ∧ e.cb.isSome with
          | none =>
              rw [hfind] at h
              exact hlater h
          | some e' =>
              rw [hfind] at h
              cases h
              have hprop := List.find?_some hfind
              exact ⟨0, rfl, s, rfl, List.mem_of_find?_eq_some hfind, of_decide_eq_true hprop⟩

theorem recvSearch_none {session : List (Option AiBizSession)} {k : ℕ}
    (h : recvSearch recvId session k = none) (idx : ℕ) (e : RecvEntry) :
    ¬Registered session recvId idx e := by
  rintro ⟨s, hs, he, hid, hcb⟩
  induction session generalizing k idx with
  | nil => cases hs
  | cons slot rest ih =>
      have hlater : recvSearch recvId rest (k + 1) = none := by
        cases slot with
        | none => exact h
        | some s' =>
            rw [recvSearch] at h
            split at h
            · cases h
            · exact h
      cases idx with
      | succ idx => exact ih hlater idx hs
      | zero =>
          obtain rfl : slot = some s := Option.some.inj hs
          rw [recvSearch] at h
          split at h
          · cases h
          · next hfind =>
              have hno := List.find?_eq_none.mp hfind e he
              exact hno (decide_eq_true ⟨hid, hcb⟩)

/-! ## The first packet -/

theorem bizRecvFirst_channel {benv : BizEnv} {len start : ℕ} {head : BizHead} {frag : Bool}
    (h : channelHead m = some (recvId, start, head)) :
    bizRecvFirst benv biz m len frag =
      bizRecvData benv { biz with cb := none } recvId start
        (if frag then { head with len := len } else head) := by
  simp only [channelHead] at h
  split_ifs at h with htype
  simp only [not_or] at htype
  obtain ⟨hvalid, hclose, hstate, hevent⟩ := htype
  split at h
  · next attrs hattrs =>
      obtain ⟨⟨head', size⟩, hparse, hfields⟩ := Option.map_eq_some_iff.mp h
      cases hfields
      simp only [bizRecvFirst, if_neg hvalid, hattrs, if_neg hclose, if_neg hstate, hparse,
        if_neg hevent]
  · cases h

/-- A packet that hands out nothing and leaves no callback behind. -/
structure Silent (r : Handled) : Prop where
  delivery : r.delivery = none
  cb : r.biz.cb = none

theorem silent_quiet (hcb : biz.cb = none) (rc : OperateRet) : Silent (quiet biz rc) := ⟨rfl, hcb⟩

theorem aiBizSessionDestory_cb (biz : AiBiz) (same : List UInt8 → Bool) (rc : OperateRet) :
    (aiBizSessionDestory biz same rc).1.cb = biz.cb := by
  rw [aiBizSessionDestory]
  split <;> rfl

theorem bizCloseSession_silent (hcb : biz.cb = none) (attrMem : Mem) (attrs : List ParsedAttr) :
    Silent (bizCloseSession biz attrMem attrs) := by
  rw [bizCloseSession]
  split
  · exact silent_quiet hcb _
  · exact ⟨rfl, (aiBizSessionDestory_cb _ _ _).trans hcb⟩
  · exact ⟨rfl, (aiBizSessionDestory_cb _ _ _).trans hcb⟩
  · split_ifs
    · exact silent_quiet hcb _
    · exact ⟨rfl, hcb⟩

theorem aiBizRecvEvent_silent (hcb : biz.cb = none) (benv : BizEnv) (attrMem : Mem)
    (attrs : List ParsedAttr) : Silent (aiBizRecvEvent benv biz attrMem attrs) := by
  rw [aiBizRecvEvent]
  split
  · split
    · exact silent_quiet hcb _
    · exact ⟨rfl, hcb⟩
  · split
    · exact silent_quiet hcb _
    · exact ⟨rfl, hcb⟩
  · split_ifs
    · exact silent_quiet hcb _
    · exact ⟨rfl, hcb⟩

theorem bizRecvFirst_silent {benv : BizEnv} {len : ℕ} {frag : Bool} (h : channelHead m = none) :
    Silent (bizRecvFirst benv biz m len frag) := by
  have hcb : ({ biz with cb := none } : AiBiz).cb = none := rfl
  by_cases hvalid : aiIsBizPktVaild (m 0 / 2) = false
  · simp only [bizRecvFirst, if_pos hvalid]
    exact silent_quiet hcb _
  cases hattrs : firstAttrs m with
  | undefined =>
      simp only [bizRecvFirst, if_neg hvalid, hattrs]
      exact ⟨rfl, hcb⟩
  | failed rc =>
      simp only [bizRecvFirst, if_neg hvalid, hattrs]
      exact silent_quiet hcb _
  | done attrs =>
      by_cases hclose : m 0 / 2 = aiPtSessionClose
      · simp only [bizRecvFirst, if_neg hvalid, hattrs, if_pos hclose]
        exact bizCloseSession_silent hcb _ _
      by_cases hstate : m 0 / 2 = aiPtSessionStateChange
      · simp only [bizRecvFirst, if_neg hvalid, hattrs, if_neg hclose, if_pos hstate]
        exact silent_quiet hcb _
      cases hparse : aiParseBizHead (m 0 / 2) m (payloadOf m) with
      | none =>
          simp only [bizRecvFirst, if_neg hvalid, hattrs, if_neg hclose, if_neg hstate, hparse]
          exact silent_quiet hcb _
      | some x =>
          by_cases hevent : m 0 / 2 = aiPtEvent
          · simp only [bizRecvFirst, if_neg hvalid, hattrs, if_neg hclose, if_neg hstate, hparse,
              if_pos hevent]
            exact aiBizRecvEvent_silent hcb _ _ _
          · -- such a packet has a channel
            have htype : ¬(aiIsBizPktVaild (m 0 / 2) = false ∨ m 0 / 2 = aiPtSessionClose ∨
                m 0 / 2 = aiPtSessionStateChange ∨ m 0 / 2 = aiPtEvent) := by
              simp only [not_or]
              exact ⟨hvalid, hclose, hstate, hevent⟩
            simp only [channelHead, if_neg htype, hattrs, hparse, Option.map_some] at h
            cases h

theorem bizRecvData_none {benv : BizEnv} {start : ℕ} {head : BizHead} (hcb : biz.cb = none)
    (h : recvSearch recvId biz.session 0 = none) :
    Silent (bizRecvData benv biz recvId start head) := by
  rw [bizRecvData, h]
  exact silent_quiet hcb _

theorem bizRecvFirst_delivery {benv : BizEnv} {len start idx cb : ℕ} {head : BizHead}
    {e : RecvEntry} (hch : channelHead m = some (recvId, start, head))
    (hs : recvSearch recvId biz.session 0 = some (idx, e)) (hcb : e.cb = some cb) (frag : Bool) :
    bizRecvFirst benv biz m len frag =
      ⟨{ biz with cb := some cb },
        some ⟨cb, e.usrData, start, if frag then { head with len := len } else head⟩, none,
        some benv.recvCb⟩ := by
  rw [bizRecvFirst_channel hch]
  simp only [bizRecvData, hs, hcb]

/-! ## The other fragments -/

theorem apply_cb (biz : AiBiz) (op : SessionOp) : (biz.apply op).cb = biz.cb := by
  cases op with
  | create s => rfl
  | delete id => exact aiBizSessionDestory_cb _ _ _
  | closeAll => rfl

theorem foldl_apply_cb (ops : List SessionOp) (biz : AiBiz) :
    (ops.foldl AiBiz.apply biz).cb = biz.cb := by
  induction ops generalizing biz with
  | nil => rfl
  | cons op ops ih => exact (ih _).trans (apply_cb biz op)

/-- A fragment behind the first one. -/
def BizPacket.Later (p : BizPacket) : Prop := p.flag = .ing ∨ p.flag = .stop

theorem BizPacket.Later.handle {p : BizPacket} (h : p.Later) (benv : BizEnv) (biz : AiBiz) :
    aiBizRecvHandle benv biz p.buf.mem p.buf.len p.flag = bizRecvNext benv biz p.buf.len := by
  rcases h with h | h <;> rw [h] <;> rfl

theorem later_packets (msg : BizMessage) : ∀ p ∈ msg.later, p.Later := by
  intro p hp
  cases msg with
  | whole b => cases hp
  | fragments start ing stop =>
      rcases List.mem_append.mp hp with hp | hp
      · obtain ⟨x, -, rfl⟩ := List.mem_map.mp hp
        exact .inl rfl
      · rw [List.mem_singleton.mp hp]
        exact .inr rfl

theorem bizRecvNext_none {benv : BizEnv} (hcb : biz.cb = none) (len : ℕ) :
    bizRecvNext benv biz len = quiet biz (benv.monitor.getD oprtOk) := by
  rw [bizRecvNext, hcb]

theorem bizRecvNext_some {benv : BizEnv} {cb : ℕ} (hcb : biz.cb = some cb) (len : ℕ) :
    bizRecvNext benv biz len =
      ⟨biz, some ⟨cb, none, 0, ⟨aiStreamIng, 0, 0, len⟩⟩, none, some benv.recvCb⟩ := by
  rw [bizRecvNext, hcb]

theorem runPackets_silent {ps : List BizPacket} (env : ℕ → BizEnv) (hps : ∀ p ∈ ps, p.Later)
    (hcb : biz.cb = none) : ∀ h ∈ runPackets env biz ps, h.delivery = none := by
  induction ps generalizing env biz with
  | nil => exact List.forall_mem_nil _
  | cons p rest ih =>
      have hcb' : (p.ops.foldl AiBiz.apply biz).cb = none := (foldl_apply_cb _ _).trans hcb
      have hrest := ih (fun n ↦ env (n + 1)) (fun q hq ↦ hps q (List.mem_cons_of_mem p hq)) hcb'
      rw [runPackets, (hps p List.mem_cons_self).handle, bizRecvNext_none hcb']
      intro h hh
      rcases List.mem_cons.mp hh with rfl | hh
      · rfl
      · exact hrest h hh

theorem runPackets_later {ps : List BizPacket} {cb : ℕ} (env : ℕ → BizEnv)
    (hps : ∀ p ∈ ps, p.Later) (hcb : biz.cb = some cb) :
    (runPackets env biz ps).map (fun h ↦ h.buf) = ps.map (fun p ↦ p.buf) ∧
      ∀ h ∈ runPackets env biz ps,
        h.delivery = some ⟨cb, none, 0, ⟨aiStreamIng, 0, 0, h.buf.len⟩⟩ := by
  induction ps generalizing env biz with
  | nil => exact ⟨rfl, List.forall_mem_nil _⟩
  | cons p rest ih =>
      have hcb' : (p.ops.foldl AiBiz.apply biz).cb = some cb := (foldl_apply_cb _ _).trans hcb
      obtain ⟨hbuf, hrest⟩ := ih (fun n ↦ env (n + 1))
        (fun q hq ↦ hps q (List.mem_cons_of_mem p hq)) hcb'
      rw [runPackets, (hps p List.mem_cons_self).handle, bizRecvNext_some hcb']
      constructor
      · exact congrArg (p.buf :: ·) hbuf
      · intro h hh
        rcases List.mem_cons.mp hh with rfl | hh
        · rfl
        · exact hrest h hh

/-! ## The message -/

theorem payload_start_pos {start : ℕ} {head : BizHead}
    (h : channelHead m = some (recvId, start, head)) : 0 < start := by
  simp only [channelHead] at h
  split_ifs at h
  split at h
  · obtain ⟨⟨head', size⟩, hparse, hfields⟩ := Option.map_eq_some_iff.mp h
    cases hfields
    have hsize : 0 < size := by
      simp only [aiParseBizHead] at hparse
      split_ifs at hparse <;> cases hparse <;> norm_num
    dsimp only
    omega
  · cases h

theorem runPackets_whole (env : ℕ → BizEnv) (biz : AiBiz) (b : BizBuf) :
    runPackets env biz (BizMessage.whole b).packets =
      [⟨b, biz.session, (bizRecvFirst (env 0) biz b.mem b.len false).delivery⟩] := by
  rw [BizMessage.packets, runPackets]
  split <;> rfl

theorem runPackets_none (env : ℕ → BizEnv) {msg : BizMessage}
    (h : ∀ benv len frag, Silent (bizRecvFirst benv biz msg.first.mem len frag)) :
    ∀ x ∈ runPackets env biz msg.packets, x.delivery = none := by
  cases msg with
  | whole b =>
      rw [runPackets_whole]
      exact List.forall_mem_singleton.mpr (h _ _ _).delivery
  | fragments start ing stop =>
      have hfirst := h (env 0) start.len true
      intro x hx
      rw [BizMessage.packets, runPackets] at hx
      rcases List.mem_cons.mp hx with rfl | hx
      · exact hfirst.delivery
      · split at hx
        · cases hx
        · exact runPackets_silent _ (later_packets _) hfirst.cb x hx

theorem Registered.alive {session : List (Option AiBizSession)} {idx : ℕ} {e : RecvEntry}
    (h : Registered session recvId idx e) (b : BizBuf) (d : Option Delivery) :
    Handover.alive idx ⟨b, session, d⟩ = true := by
  obtain ⟨s, hs, -⟩ := h
  rw [Handover.alive, hs]

theorem handedOut_whole_iff {b : BizBuf} {session : List (Option AiBizSession)}
    {start idx cb : ℕ} {head : BizHead} {e e' : RecvEntry}
    (hreg : Registered session recvId idx e') (hcb : e.cb = some cb) :
    HandedOut [⟨b, session, some ⟨cb, e.usrData, start, head⟩⟩] start idx e' ↔
      start + head.len = b.len ∧ e'.cb = e.cb ∧ e'.usrData = e.usrData := by
  have halive := hreg.alive b (some ⟨cb, e.usrData, start, head⟩)
  constructor
  · rintro ⟨hinside, hroute, -, hbody⟩
    have hin := hinside _ (List.mem_singleton_self _) _ rfl
    obtain ⟨hcb', husr⟩ := hroute _ (List.mem_singleton_self _) _ rfl
    rw [List.takeWhile_cons_of_pos halive] at hbody
    have hlen := congrArg List.length hbody
    simp only [List.flatMap_cons, List.flatMap_nil, List.append_nil, Handover.bytes, bodyOf,
      List.takeWhile_nil, BizBuf.behind, length_slice] at hlen
    dsimp only at hin
    exact ⟨by omega, hcb'.trans hcb.symm, husr.symm⟩
  · rintro ⟨hlen, hcb', husr⟩
    have hrest : b.len - start = head.len := by omega
    refine ⟨?_, ?_, ?_, ?_⟩
    · intro h hh d hd
      rw [List.mem_singleton.mp hh] at hd ⊢
      cases hd
      exact Nat.le_of_eq hlen
    · intro h hh d hd
      rw [List.mem_singleton.mp hh] at hd
      cases hd
      exact ⟨hcb'.trans hcb, husr.symm⟩
    · rw [List.dropWhile_cons_of_pos halive]
      exact List.forall_mem_nil _
    · rw [List.takeWhile_cons_of_pos halive]
      simp only [List.flatMap_cons, List.flatMap_nil, List.append_nil, Handover.bytes, bodyOf,
        List.takeWhile_nil, BizBuf.behind, hrest]

/-- What the fragments of a message hand out.  Only the first one has the user data, its length
is that of the packet, and the others do not depend on the sessions at all. -/
theorem fragments_deliver (env : ℕ → BizEnv) {start idx cb : ℕ} {head : BizHead} {e : RecvEntry}
    {b : BizBuf} (ing : List (List SessionOp × BizBuf)) (stop : List SessionOp × BizBuf)
    (hch : channelHead b.mem = some (recvId, start, head))
    (hs : recvSearch recvId biz.session 0 = some (idx, e)) (hcb : e.cb = some cb) :
    ∃ later, runPackets env biz (BizMessage.fragments b ing stop).packets =
        ⟨b, biz.session, some ⟨cb, e.usrData, start, { head with len := b.len }⟩⟩ :: later ∧
      later.map (fun h ↦ h.buf) = ing.map (fun x ↦ x.2) ++ [stop.2] ∧
      ∀ h ∈ later, h.delivery = some ⟨cb, none, 0, ⟨aiStreamIng, 0, 0, h.buf.len⟩⟩ := by
  have hfirst : aiBizRecvHandle (env 0) biz b.mem b.len .start =
      ⟨{ biz with cb := some cb }, some ⟨cb, e.usrData, start, { head with len := b.len }⟩, none,
        some (env 0).recvCb⟩ := bizRecvFirst_delivery hch hs hcb true
  have hcb' : ({ biz with cb := some cb } : AiBiz).cb = some cb := rfl
  obtain ⟨hbuf, hlater⟩ := runPackets_later (fun n ↦ env (n + 1))
    (later_packets (.fragments b ing stop)) hcb'
  refine ⟨_, ?_, ?_, hlater⟩
  · rw [BizMessage.packets, runPackets]
    dsimp only [List.foldl_nil]
    rw [hfirst]
  · rw [hbuf, BizMessage.later, List.map_append, List.map_map]
    rfl

theorem not_handedOut_start {start idx idx' : ℕ} {head : BizHead} {e e' : RecvEntry}
    {b : BizBuf} {ing : List (List SessionOp × BizBuf)} {stop : List SessionOp × BizBuf}
    (hch : channelHead b.mem = some (recvId, start, head))
    (hs : recvSearch recvId biz.session 0 = some (idx, e)) {cb : ℕ} (hcb : e.cb = some cb) :
    ¬HandedOut (runPackets env biz (BizMessage.fragments b ing stop).packets) start idx' e' := by
  intro h
  have hpos := payload_start_pos hch
  obtain ⟨later, hlog, -⟩ := fragments_deliver env ing stop hch hs hcb
  rw [hlog] at h
  have hin := h.inside _ List.mem_cons_self _ rfl
  dsimp only at hin
  omega

/-- A message is handed out as it should be exactly when no session asks for it, or it comes in
one packet whose head counts what follows it. -/
theorem hands_out_body_iff (env : ℕ → BizEnv) (biz : AiBiz) (msg : BizMessage) :
    HandsOutBody env biz msg ↔
      ∀ recvId start head, channelHead msg.first.mem = some (recvId, start, head) →
        (∃ idx e, Registered biz.session recvId idx e) →
          (∃ b, msg = .whole b) ∧ start + head.len = msg.first.len := by
  cases hch : channelHead msg.first.mem with
  | none =>
      simp only [HandsOutBody, hch]
      refine iff_of_true (runPackets_none env fun _ _ _ ↦ bizRecvFirst_silent hch) ?_
      intro recvId start head h
      cases h
  | some x =>
      obtain ⟨recvId, start, head⟩ := x
      simp only [HandsOutBody, hch]
      cases hs : recvSearch recvId biz.session 0 with
      | none =>
          have hno := recvSearch_none hs
          refine iff_of_true (.inr ⟨hno, runPackets_none env fun benv len frag ↦ ?_⟩) ?_
          · rw [bizRecvFirst_channel hch]
            exact bizRecvData_none rfl hs
          · rintro _ _ _ h ⟨idx, e, hreg⟩
            cases h
            exact (hno idx e hreg).elim
      | some y =>
          obtain ⟨idx, e⟩ := y
          obtain ⟨i, -, hreg⟩ := recvSearch_registered hs
          obtain ⟨cb, hcb⟩ := Option.isSome_iff_exists.mp hreg.choose_spec.2.2.2
          have hall : (∀ recvId' start' head', some (recvId, start, head) =
              some (recvId', start', head') → (∃ idx e, Registered biz.session recvId' idx e) →
                (∃ b, msg = .whole b) ∧ start' + head'.len = msg.first.len) ↔
              (∃ b, msg = .whole b) ∧ start + head.len = msg.first.len := by
            refine ⟨fun h ↦ h _ _ _ rfl ⟨i, e, hreg⟩, fun h _ _ _ heq _ ↦ ?_⟩
            cases heq
            exact h
          rw [hall]
          have hsome : ∀ P : Prop, ((∀ idx e, ¬Registered biz.session recvId idx e) ∧ P) ↔ False :=
            fun P ↦ iff_of_false (fun h ↦ h.1 i e hreg) id
          rw [hsome, or_false]
          cases msg with
          | whole b =>
              have hch' : channelHead b.mem = some (recvId, start, head) := hch
              rw [runPackets_whole, bizRecvFirst_delivery hch' hs hcb]
              constructor
              · rintro ⟨idx', e', hreg', hout⟩
                exact ⟨⟨b, rfl⟩, ((handedOut_whole_iff hreg' hcb).mp hout).1⟩
              · rintro ⟨-, hlen⟩
                exact ⟨i, e, hreg, (handedOut_whole_iff hreg hcb).mpr ⟨hlen, rfl, rfl⟩⟩
          | fragments b ing stop =>
              refine iff_of_false ?_ ?_
              · rintro ⟨idx', e', -, hout⟩
                exact not_handedOut_start hch hs hcb hout
              · rintro ⟨⟨b', h⟩, -⟩
                cases h

/-- A text of four bytes in two fragments, for a session that registered channel two. -/
theorem fragments_not_handed_out :
    ∃ env biz msg, (∃ idx e, Registered biz.session 2 idx e) ∧ ¬HandsOutBody env biz msg := by
  refine ⟨fun _ ↦ ⟨none, 0, 0⟩, ⟨[some ⟨[0x73], [⟨2, some 1, some 9⟩], none⟩], none⟩,
    .fragments ⟨ofList [68, 0, 0, 0, 11, 0, 2, 0, 0, 0, 0, 4, 0x61, 0x62], 14⟩ []
      ([], ⟨ofList [0x63, 0x64], 2⟩), ?_, fun h ↦ ?_⟩
  · exact ⟨0, ⟨2, some 1, some 9⟩, _, rfl, List.mem_singleton_self _, rfl, rfl⟩
  · have hch : channelHead (ofList [68, 0, 0, 0, 11, 0, 2, 0, 0, 0, 0, 4, 0x61, 0x62]) =
        some (2, 12, ⟨0, 0, 0, 4⟩) := by decide
    simp only [HandsOutBody, BizMessage.first, hch] at h
    rcases h with ⟨idx, e, -, hout⟩ | ⟨hno, -⟩
    · exact not_handedOut_start hch rfl rfl hout
    · exact hno 0 ⟨2, some 1, some 9⟩ ⟨_, rfl, List.mem_singleton_self _, rfl, rfl⟩

end TuyaOpen.Ai
