import TuyaOpen.Ai.AttrBounds
import TuyaOpen.Ai.Biz

/-!
# The frame bodies of the monitor

`__parse_pkg` takes the length of the attributes from the frame.  For a ping it moves the offset
behind the attributes before the loop that should read them; for an event it goes on with
pointers into the frame.
-/

namespace TuyaOpen.Ai

open Bytes ByteMem Orbit

def aiPtPing : UInt8 := 4
def aiAttrUserData : ℕ := 111
def aiAttrClientTs : ℕ := 113

/-! ## The functions -/

inductive PkgEnd where
  | returned (rt : OperateRet)
  /-- `__handle_ping` answers with this client timestamp; an address has no value here. -/
  | pong (clientTs : Option ℕ)
  /-- `__handle_event` with an event of this type. -/
  | event (type : ℕ)
  deriving DecidableEq

/-- What was read of the frame, counted from its first byte. -/
structure PkgRun where
  reads : List Read
  outcome : PkgEnd
  deriving DecidableEq

/-- `attr.value.u64`, with the rest of the union zero. -/
def AttrRef.asU64 : AttrRef → Option ℕ
  | u8 v | u16 v | u32 v | u64 v => some v
  | _ => none

/-- The variable that the loop writes for every attribute of the type. -/
def clientTsOf (attrs : List ParsedAttr) : Option ℕ :=
  match lastValue aiAttrClientTs attrs with
  | none => some 0
  | some v => v.asU64

/-- How many bytes a scan for the zero looks at. -/
def cstrScan (m : Mem) : ℕ → ℕ → Option ℕ
  | 0, _ => none
  | fuel + 1, start => if m start = 0 then some 1 else (cstrScan m fuel (start + 1)).map (· + 1)

def attrAddress : Option AttrRef → Option ℕ
  | some (.bytes start) | some (.str start) => some start
  | _ => none

/-- `user_data` and `user_len`, which are copied; an integer is no address. -/
def userDataReads (attrs : List ParsedAttr) : Option (List Read) :=
  match (attrs.filter fun a ↦ a.type = aiAttrUserData).getLast? with
  | none => some []
  | some a => (attrAddress (some a.value)).map fun start ↦ [⟨5 + start, a.length⟩]

/-- What `__handle_event` reads: the head of the event, both ids up to their zeros, and the
user data.  It has no result when an id is no address, or no zero follows. -/
def handleEvent (m : Mem) (attrs : List ParsedAttr) (fuel : ℕ) : Option PkgRun :=
  match attrAddress (lastValue aiAttrSessionId attrs), attrAddress (lastValue aiAttrEventId attrs),
    userDataReads attrs with
  | some sid, some eid, some user =>
      match cstrScan m fuel (5 + sid), cstrScan m fuel (5 + eid) with
      | some k, some l =>
          some ⟨[⟨payloadOf m, 2⟩, ⟨5 + sid, k⟩, ⟨5 + eid, l⟩] ++ user,
            .event (word m (payloadOf m) 2)⟩
      | _, _ => none
  | _, _, _ => none

/-- The check at the end of `tuya_ai_parse_event_attr`. -/
def idsPresent (attrs : List ParsedAttr) : Bool :=
  [aiAttrEventId, aiAttrSessionId].all fun t ↦ (lastValue t attrs).any fun v ↦ !v.isNull

def attrReads (d : DecodeRun) : List Read := d.reads.map fun r ↦ ⟨5 + r.start, r.len⟩

def PkgRun.behind (reads : List Read) (run : PkgRun) : PkgRun :=
  { run with reads := reads ++ run.reads }

def parsePing (m : Mem) (fuel : ℕ) : Option PkgRun :=
  (decodeLoop (attrMemOf m) (attrLenOf m) fuel (u32 (5 + attrLenOf m))).map fun d ↦
    ⟨attrReads d, match d.result with
      | .error rt => .returned rt
      | .ok attrs => .pong (clientTsOf attrs)⟩

def parseEvent (m : Mem) (fuel : ℕ) : Option PkgRun :=
  match decodeLoop (attrMemOf m) (attrLenOf m) fuel 0 with
  | none => none
  | some d =>
      match d.result with
      | .error rt => some ⟨attrReads d, .returned rt⟩
      | .ok attrs =>
          if idsPresent attrs then (handleEvent m attrs fuel).map (PkgRun.behind (attrReads d))
          else some ⟨attrReads d, .returned oprtInvalidParm⟩

def parsePkg (m : Mem) (len fuel : ℕ) : Option PkgRun :=
  if len < 1 then some ⟨[], .returned oprtInvalidParm⟩
  else if m 0 / 2 = aiPtPing then
    if m 0 % 2 ≠ 1 then some ⟨[⟨0, 1⟩], .returned oprtComError⟩
    else (parsePing m fuel).map (PkgRun.behind [⟨0, 1⟩, ⟨1, 4⟩])
  else if m 0 / 2 = aiPtEvent then
    if m 0 % 2 = 1 then (parseEvent m fuel).map (PkgRun.behind [⟨0, 1⟩, ⟨1, 4⟩])
    else (handleEvent m [] fuel).map (PkgRun.behind [⟨0, 1⟩])
  else some ⟨[⟨0, 1⟩], .returned oprtNotSupported⟩

/-! ## What a frame should do -/

/-- The parser ends, and has read nothing behind the frame. -/
def FrameInside (m : Mem) (len : ℕ) : Prop :=
  ∃ fuel run, parsePkg m len fuel = some run ∧ ∀ r ∈ run.reads, r.Inside len

def Decodes (m : Mem) (attrLen : ℕ) (attrs : List ParsedAttr) : Prop :=
  ∃ fuel d, decodeLoop m attrLen fuel 0 = some d ∧ d.result = .ok attrs

/-- A ping whose attributes are exactly a sequence of valid records, with this client
timestamp among them. -/
structure PingWith (m : Mem) (len t : ℕ) : Prop where
  type : m 0 / 2 = aiPtPing
  flag : m 0 % 2 = 1
  inside : 5 + attrLenOf m ≤ len
  tiled : Tiled (attrMemOf m) (attrLenOf m) 0
  attrs : ∃ attrs, Decodes (attrMemOf m) (attrLenOf m) attrs ∧
    (∃ a ∈ attrs, a.type = aiAttrClientTs) ∧ ∀ a ∈ attrs, a.type = aiAttrClientTs → a.value = .u64 t

def PongCarries (m : Mem) (len t : ℕ) : Prop :=
  ∃ fuel run, parsePkg m len fuel = some run ∧ run.outcome = .pong (some t)

structure FrameOk (m : Mem) (len : ℕ) : Prop where
  inside : FrameInside m len
  pong : ∀ t, PingWith m len t → PongCarries m len t

/-- The records that the loop comes to have their heads, and their integers, in the first `lim`
bytes. -/
inductive LoopInside (m : Mem) (attrLen lim : ℕ) : ℕ → Prop
  | done {offset} : attrLen ≤ offset → LoopInside m attrLen lim offset
  | refused {offset} : offset < attrLen → ¬AcceptedRecord m offset →
      offset + 7 + min (recordLength m offset) (intSize (recordPt m offset)) ≤ lim →
      LoopInside m attrLen lim offset
  | step {offset} : offset < attrLen → AcceptedRecord m offset →
      offset + 7 + min (recordLength m offset) (intSize (recordPt m offset)) ≤ lim →
      LoopInside m attrLen lim (nextRecord m offset) → LoopInside m attrLen lim offset

/-- An id is an address with a zero behind it in the frame. -/
def IdInside (m : Mem) (len type : ℕ) (attrs : List ParsedAttr) : Prop :=
  ∃ start, attrAddress (lastValue type attrs) = some start ∧ ∃ k, 5 + start ≤ k ∧ k < len ∧ m k = 0

structure EventFits (m : Mem) (len : ℕ) (attrs : List ParsedAttr) : Prop where
  head : payloadOf m + 2 ≤ len
  sessionId : IdInside m len aiAttrSessionId attrs
  eventId : IdInside m len aiAttrEventId attrs
  userData : ∃ user, userDataReads attrs = some user ∧ ∀ r ∈ user, r.Inside len

/-- A ping and an event have room for the length of the attributes and for what is looked at of
these; an event has attributes, and when its ids are there, also a head, ids that end, and user
data in the frame. -/
structure FrameFits (m : Mem) (len : ℕ) : Prop where
  ping : 0 < len → m 0 / 2 = aiPtPing → m 0 % 2 = 1 →
    5 ≤ len ∧ LoopInside (attrMemOf m) (attrLenOf m) (len - 5) (u32 (5 + attrLenOf m))
  event : 0 < len → m 0 / 2 = aiPtEvent →
    m 0 % 2 = 1 ∧ 5 ≤ len ∧ LoopInside (attrMemOf m) (attrLenOf m) (len - 5) 0 ∧
      ∀ attrs, Decodes (attrMemOf m) (attrLenOf m) attrs → idsPresent attrs = true →
        EventFits m len attrs

/-! ## The loop over the records -/

section Loop

variable {m : Mem} {attrLen lim offset fuel : ℕ}

theorem loopInside_of_decode (hlim : lim < 2 ^ 32) {d : DecodeRun}
    (h : decodeLoop m attrLen fuel offset = some d) (hreads : ∀ r ∈ d.reads, r.Inside lim) :
    LoopInside m attrLen lim offset := by
  induction fuel generalizing offset d with
  | zero => cases h
  | succ fuel ih =>
      by_cases hlt : offset < attrLen
      case neg => exact .done (Nat.not_lt.mp hlt)
      by_cases hacc : AcceptedRecord m offset
      · obtain ⟨ref, -, hloop⟩ := @decodeLoop_accepted m attrLen offset fuel hlt hacc
        rw [hloop] at h
        obtain ⟨rest, hrest, rfl⟩ := Option.map_eq_some_iff.mp h
        rw [DecodeRun.behind] at hreads
        obtain ⟨hhead, htail⟩ := List.forall_mem_append.mp hreads
        exact .step hlt hacc ((recordReads_inside hlim).mp hhead) (ih hrest htail)
      · obtain ⟨reads, hin, hloop⟩ := @decodeLoop_refused m attrLen offset hlt hacc
        rw [hloop] at h
        cases h
        exact .refused hlt hacc ((recordReads_inside hlim).mp ((hin lim).mp hreads))

theorem LoopInside.decode (h : LoopInside m attrLen lim offset) (hlim : lim < 2 ^ 32) :
    ∃ fuel d, decodeLoop m attrLen fuel offset = some d ∧ ∀ r ∈ d.reads, r.Inside lim := by
  induction h with
  | done hend => exact ⟨1, _, decodeLoop_end hend, List.forall_mem_nil _⟩
  | refused hlt hacc hfits =>
      obtain ⟨reads, hin, hloop⟩ := decodeLoop_refused hlt hacc
      exact ⟨1, _, hloop 0, (hin lim).mpr ((recordReads_inside hlim).mpr hfits)⟩
  | @step offset hlt hacc hfits _ ih =>
      obtain ⟨fuel, d, hd, hreads⟩ := ih
      obtain ⟨ref, -, hloop⟩ := @decodeLoop_accepted m attrLen offset fuel hlt hacc
      rw [hd, Option.map_some] at hloop
      refine ⟨fuel + 1, _, hloop, ?_⟩
      exact List.forall_mem_append.mpr ⟨(recordReads_inside hlim).mpr hfits, hreads⟩

theorem attrReads_inside {d : DecodeRun} {len : ℕ} (h : 5 ≤ len) :
    (∀ r ∈ attrReads d, r.Inside len) ↔ ∀ r ∈ d.reads, r.Inside (len - 5) := by
  rw [attrReads, List.forall_mem_map]
  refine forall₂_congr fun r _ ↦ ?_
  rw [Read.Inside, Read.Inside]
  dsimp only
  omega

theorem decode_unique {fuel' : ℕ} {d d' : DecodeRun}
    (h : decodeLoop m attrLen fuel offset = some d)
    (h' : decodeLoop m attrLen fuel' offset = some d') : d = d' := by
  have hd := decode_mono h (Nat.le_max_left fuel fuel')
  have hd' := decode_mono h' (Nat.le_max_right fuel fuel')
  exact Option.some.inj (hd.symm.trans hd')

end Loop

/-! ## Events -/

section Event

variable {m : Mem} {len fuel start : ℕ} {attrs : List ParsedAttr}

theorem zero_of_cstrScan {k : ℕ} (h : cstrScan m fuel start = some k) :
    ∃ j, k = j + 1 ∧ m (start + j) = 0 := by
  induction fuel generalizing start k with
  | zero => cases h
  | succ fuel ih =>
      rw [cstrScan] at h
      split_ifs at h with hzero
      · cases h
        exact ⟨0, rfl, hzero⟩
      · obtain ⟨k', hk', rfl⟩ := Option.map_eq_some_iff.mp h
        obtain ⟨j, rfl, hj⟩ := ih hk'
        have hshift : start + 1 + j = start + (j + 1) := by omega
        exact ⟨j + 1, rfl, hshift ▸ hj⟩

theorem cstrScan_of_zero {k : ℕ} (hle : start ≤ k) (hzero : m k = 0) :
    ∃ n, start + n ≤ k + 1 ∧ ∀ fuel, k + 1 ≤ fuel + start → cstrScan m fuel start = some n := by
  obtain ⟨gap, rfl⟩ := Nat.exists_eq_add_of_le hle
  induction gap generalizing start with
  | zero =>
      rw [Nat.add_zero] at hzero
      refine ⟨1, Nat.le_refl _, fun fuel hfuel ↦ ?_⟩
      obtain _ | fuel := fuel
      · omega
      · rw [cstrScan, if_pos hzero]
  | succ gap ih =>
      by_cases hstart : m start = 0
      · refine ⟨1, by omega, fun fuel hfuel ↦ ?_⟩
        obtain _ | fuel := fuel
        · omega
        · rw [cstrScan, if_pos hstart]
      · have hshift : start + 1 + gap = start + (gap + 1) := by omega
        obtain ⟨n, hn, hscan⟩ := @ih (start + 1) (Nat.le_add_right _ _) (hshift ▸ hzero)
        refine ⟨n + 1, by omega, fun fuel hfuel ↦ ?_⟩
        obtain _ | fuel := fuel
        · omega
        · rw [cstrScan, if_neg hstart, hscan fuel (by omega), Option.map_some]

theorem eventFits_of_run {run : PkgRun} (h : handleEvent m attrs fuel = some run)
    (hreads : ∀ r ∈ run.reads, r.Inside len) : EventFits m len attrs := by
  have hid : ∀ {type start k : ℕ}, attrAddress (lastValue type attrs) = some start →
      cstrScan m fuel (5 + start) = some k → Read.Inside len ⟨5 + start, k⟩ →
      IdInside m len type attrs := by
    intro type start k haddr hscan hin
    obtain ⟨j, rfl, hzero⟩ := zero_of_cstrScan hscan
    rw [Read.Inside] at hin
    dsimp only at hin
    exact ⟨start, haddr, 5 + start + j, by omega, by omega, hzero⟩
  rw [handleEvent] at h
  cases hsid : attrAddress (lastValue aiAttrSessionId attrs) with
  | none =>
      rw [hsid] at h
      cases h
  | some sid =>
  cases heid : attrAddress (lastValue aiAttrEventId attrs) with
  | none =>
      rw [hsid, heid] at h
      cases h
  | some eid =>
  cases huser : userDataReads attrs with
  | none =>
      rw [hsid, heid, huser] at h
      cases h
  | some user =>
  rw [hsid, heid, huser] at h
  dsimp only at h
  cases hk : cstrScan m fuel (5 + sid) with
  | none =>
      rw [hk] at h
      cases h
  | some k =>
  cases hl : cstrScan m fuel (5 + eid) with
  | none =>
      rw [hk, hl] at h
      cases h
  | some l =>
  rw [hk, hl] at h
  cases h
  obtain ⟨hids, hdata⟩ := List.forall_mem_append.mp hreads
  have hhead := hids ⟨payloadOf m, 2⟩ List.mem_cons_self
  have hs := hids ⟨5 + sid, k⟩ (List.mem_cons_of_mem _ List.mem_cons_self)
  have he := hids ⟨5 + eid, l⟩ (List.mem_cons_of_mem _ (List.mem_cons_of_mem _ List.mem_cons_self))
  rw [Read.Inside] at hhead
  exact ⟨by dsimp only at hhead; omega, hid hsid hk hs, hid heid hl he, user, huser, hdata⟩

theorem EventFits.run (h : EventFits m len attrs) :
    ∃ enough, ∀ fuel, enough ≤ fuel →
      ∃ run, handleEvent m attrs fuel = some run ∧ ∀ r ∈ run.reads, r.Inside len := by
  obtain ⟨sid, hsid, j, hj, hjlen, hjzero⟩ := h.sessionId
  obtain ⟨eid, heid, i, hi, hilen, hizero⟩ := h.eventId
  obtain ⟨user, huser, hdata⟩ := h.userData
  obtain ⟨k, hk, hkscan⟩ := cstrScan_of_zero hj hjzero
  obtain ⟨l, hl, hlscan⟩ := cstrScan_of_zero hi hizero
  refine ⟨len, fun fuel hfuel ↦ ?_⟩
  refine ⟨⟨[⟨payloadOf m, 2⟩, ⟨5 + sid, k⟩, ⟨5 + eid, l⟩] ++ user, .event (word m (payloadOf m) 2)⟩,
    ?_, ?_⟩
  · rw [handleEvent, hsid, heid, huser]
    dsimp only
    rw [hkscan fuel (by omega), hlscan fuel (by omega)]
  · refine List.forall_mem_append.mpr ⟨fun r hr ↦ ?_, hdata⟩
    have hhead := h.head
    simp only [List.mem_cons, List.not_mem_nil, or_false] at hr
    rcases hr with rfl | rfl | rfl
    · exact .inr hhead
    · exact .inr (by dsimp only; omega)
    · exact .inr (by dsimp only; omega)

theorem no_ids : ∀ fuel, handleEvent m [] fuel = none := fun _ ↦ rfl

end Event

/-! ## Whole frames -/

section Frame

variable {m : Mem} {len : ℕ}

theorem behind_inside {reads : List Read} {run : PkgRun} :
    (∀ r ∈ (run.behind reads).reads, r.Inside len) ↔
      (∀ r ∈ reads, r.Inside len) ∧ ∀ r ∈ run.reads, r.Inside len := List.forall_mem_append

theorem front_inside (hpos : 0 < len) :
    (∀ r ∈ [(⟨0, 1⟩ : Read), ⟨1, 4⟩], r.Inside len) ↔ 5 ≤ len := by
  simp only [List.mem_cons, List.not_mem_nil, or_false, forall_eq_or_imp, forall_eq, Read.Inside]
  omega

theorem parsePing_inside_iff (hlen : 5 ≤ len) (hlt : len < 2 ^ 32) :
    (∃ fuel run, parsePing m fuel = some run ∧ ∀ r ∈ run.reads, r.Inside len) ↔
      LoopInside (attrMemOf m) (attrLenOf m) (len - 5) (u32 (5 + attrLenOf m)) := by
  constructor
  · rintro ⟨fuel, run, hrun, hreads⟩
    obtain ⟨d, hd, rfl⟩ := Option.map_eq_some_iff.mp hrun
    exact loopInside_of_decode (by omega) hd ((attrReads_inside hlen).mp hreads)
  · intro h
    obtain ⟨fuel, d, hd, hreads⟩ := h.decode (by omega)
    refine ⟨fuel, _, Option.map_eq_some_iff.mpr ⟨d, hd, rfl⟩, ?_⟩
    exact (attrReads_inside hlen).mpr hreads

theorem parseEvent_inside_iff (hlen : 5 ≤ len) (hlt : len < 2 ^ 32) :
    (∃ fuel run, parseEvent m fuel = some run ∧ ∀ r ∈ run.reads, r.Inside len) ↔
      LoopInside (attrMemOf m) (attrLenOf m) (len - 5) 0 ∧
        ∀ attrs, Decodes (attrMemOf m) (attrLenOf m) attrs → idsPresent attrs = true →
          EventFits m len attrs := by
  constructor
  · rintro ⟨fuel, run, hrun, hreads⟩
    rw [parseEvent] at hrun
    cases hd : decodeLoop (attrMemOf m) (attrLenOf m) fuel 0 with
    | none =>
        rw [hd] at hrun
        cases hrun
    | some d =>
        rw [hd] at hrun
        dsimp only at hrun
        have hdreads : ∀ r ∈ attrReads d, r.Inside len := by
          split at hrun
          · cases hrun
            exact hreads
          · split_ifs at hrun
            · obtain ⟨run', -, rfl⟩ := Option.map_eq_some_iff.mp hrun
              exact (behind_inside.mp hreads).1
            · cases hrun
              exact hreads
        refine ⟨loopInside_of_decode (by omega) hd ((attrReads_inside hlen).mp hdreads), ?_⟩
        rintro attrs ⟨fuel', d', hd', hresult⟩ hids
        obtain rfl := decode_unique hd hd'
        rw [hresult] at hrun
        dsimp only at hrun
        rw [if_pos hids] at hrun
        obtain ⟨run', hrun', rfl⟩ := Option.map_eq_some_iff.mp hrun
        exact eventFits_of_run hrun' (behind_inside.mp hreads).2
  · rintro ⟨hloop, hevent⟩
    obtain ⟨fuel, d, hd, hreads⟩ := hloop.decode (by omega)
    have hdreads := (attrReads_inside hlen).mpr hreads
    cases hresult : d.result with
    | error rt =>
        refine ⟨fuel, ⟨attrReads d, .returned rt⟩, ?_, hdreads⟩
        rw [parseEvent, hd]
        dsimp only
        rw [hresult]
    | ok attrs =>
        by_cases hids : idsPresent attrs = true
        · obtain ⟨enough, hrun⟩ := (hevent attrs ⟨fuel, d, hd, hresult⟩ hids).run
          obtain ⟨run, hrun, hruns⟩ := hrun (max fuel enough) (Nat.le_max_right _ _)
          refine ⟨max fuel enough, run.behind (attrReads d), ?_, behind_inside.mpr ⟨hdreads, hruns⟩⟩
          rw [parseEvent, decode_mono hd (Nat.le_max_left _ _)]
          dsimp only
          rw [hresult]
          dsimp only
          rw [if_pos hids, hrun, Option.map_some]
        · refine ⟨fuel, ⟨attrReads d, .returned oprtInvalidParm⟩, ?_, hdreads⟩
          rw [parseEvent, hd]
          dsimp only
          rw [hresult]
          exact if_neg hids

theorem behind_inside_iff (hpos : 0 < len) {parse : ℕ → Option PkgRun} {P : Prop}
    (h : 5 ≤ len → ((∃ fuel run, parse fuel = some run ∧ ∀ r ∈ run.reads, r.Inside len) ↔ P)) :
    (∃ fuel run, (parse fuel).map (PkgRun.behind [⟨0, 1⟩, ⟨1, 4⟩]) = some run ∧
        ∀ r ∈ run.reads, r.Inside len) ↔ 5 ≤ len ∧ P := by
  constructor
  · rintro ⟨fuel, run, hrun, hreads⟩
    obtain ⟨run', hrun', rfl⟩ := Option.map_eq_some_iff.mp hrun
    obtain ⟨hfront, hrest⟩ := behind_inside.mp hreads
    have hlen := (front_inside hpos).mp hfront
    exact ⟨hlen, (h hlen).mp ⟨fuel, run', hrun', hrest⟩⟩
  · rintro ⟨hlen, hp⟩
    obtain ⟨fuel, run, hrun, hreads⟩ := (h hlen).mpr hp
    refine ⟨fuel, run.behind _, by rw [hrun, Option.map_some], ?_⟩
    exact behind_inside.mpr ⟨(front_inside hpos).mpr hlen, hreads⟩

theorem frameInside_of_parse {run : PkgRun} (hparse : ∀ fuel, parsePkg m len fuel = some run)
    (hreads : ∀ r ∈ run.reads, r.Inside len) : FrameInside m len := ⟨0, run, hparse 0, hreads⟩

theorem head_inside (hpos : 0 < len) : ∀ r ∈ [(⟨0, 1⟩ : Read)], r.Inside len := by
  intro r hr
  cases List.mem_singleton.mp hr
  exact .inr hpos

theorem frameInside_iff (hlt : len < 2 ^ 32) : FrameInside m len ↔ FrameFits m len := by
  by_cases hempty : len < 1
  · have hparse : ∀ fuel, parsePkg m len fuel = some ⟨[], .returned oprtInvalidParm⟩ :=
      fun fuel ↦ by
      rw [parsePkg, if_pos hempty]
    refine iff_of_true (frameInside_of_parse hparse (List.forall_mem_nil _)) ?_
    exact ⟨fun hpos ↦ absurd hpos (by omega), fun hpos ↦ absurd hpos (by omega)⟩
  have hpos : 0 < len := by omega
  by_cases hping : m 0 / 2 = aiPtPing
  · have hnot : m 0 / 2 ≠ aiPtEvent := by
      rw [hping]
      decide
    by_cases hflag : m 0 % 2 = 1
    · have hparse : ∀ fuel, parsePkg m len fuel =
          (parsePing m fuel).map (PkgRun.behind [⟨0, 1⟩, ⟨1, 4⟩]) := fun fuel ↦ by
        rw [parsePkg, if_neg hempty, if_pos hping, if_neg (not_not_intro hflag)]
      have hiff := behind_inside_iff hpos fun hlen ↦ @parsePing_inside_iff m len hlen hlt
      simp only [FrameInside, hparse]
      rw [hiff]
      exact ⟨fun h ↦ ⟨fun _ _ _ ↦ h, fun _ hevent ↦ absurd hevent hnot⟩,
        fun h ↦ h.ping hpos hping hflag⟩
    · have hparse : ∀ fuel, parsePkg m len fuel = some ⟨[⟨0, 1⟩], .returned oprtComError⟩ :=
        fun fuel ↦ by
        rw [parsePkg, if_neg hempty, if_pos hping, if_pos hflag]
      refine iff_of_true (frameInside_of_parse hparse (head_inside hpos)) ?_
      exact ⟨fun _ _ h ↦ absurd h hflag, fun _ hevent ↦ absurd hevent hnot⟩
  by_cases hevent : m 0 / 2 = aiPtEvent
  · by_cases hflag : m 0 % 2 = 1
    · have hparse : ∀ fuel, parsePkg m len fuel =
          (parseEvent m fuel).map (PkgRun.behind [⟨0, 1⟩, ⟨1, 4⟩]) := fun fuel ↦ by
        rw [parsePkg, if_neg hempty, if_neg hping, if_pos hevent, if_pos hflag]
      have hiff := behind_inside_iff hpos fun hlen ↦ @parseEvent_inside_iff m len hlen hlt
      simp only [FrameInside, hparse]
      rw [hiff]
      exact ⟨fun h ↦ ⟨fun _ hp ↦ absurd hp hping, fun _ _ ↦ ⟨hflag, h⟩⟩,
        fun h ↦ (h.event hpos hevent).2⟩
    · have hparse : ∀ fuel, parsePkg m len fuel = none := fun fuel ↦ by
        rw [parsePkg, if_neg hempty, if_neg hping, if_pos hevent, if_neg hflag, no_ids,
          Option.map_none]
      refine iff_of_false (fun ⟨fuel, run, hrun, _⟩ ↦ ?_) fun h ↦ hflag (h.event hpos hevent).1
      cases (hparse fuel).symm.trans hrun
  · have hparse : ∀ fuel, parsePkg m len fuel = some ⟨[⟨0, 1⟩], .returned oprtNotSupported⟩ :=
      fun fuel ↦ by rw [parsePkg, if_neg hempty, if_neg hping, if_neg hevent]
    refine iff_of_true (frameInside_of_parse hparse (head_inside hpos)) ?_
    exact ⟨fun _ h ↦ absurd h hping, fun _ h ↦ absurd h hevent⟩

theorem PingWith.pong {t : ℕ} (h : PingWith m len t) (hlt : len < 2 ^ 32) (fuel : ℕ) :
    parsePkg m len (fuel + 1) = some ⟨[⟨0, 1⟩, ⟨1, 4⟩], .pong (some 0)⟩ := by
  have hinside := h.inside
  have hoffset : u32 (5 + attrLenOf m) = 5 + attrLenOf m := u32_of_lt (by omega)
  rw [parsePkg, if_neg (by omega), if_pos h.type, if_neg (not_not_intro h.flag), parsePing, hoffset,
    decodeLoop_end (Nat.le_add_left _ _)]
  rfl

theorem PingWith.carries_iff {t : ℕ} (h : PingWith m len t) (hlt : len < 2 ^ 32) :
    PongCarries m len t ↔ t = 0 := by
  constructor
  · rintro ⟨fuel, run, hrun, hpong⟩
    obtain _ | fuel := fuel
    · have hinside := h.inside
      rw [parsePkg, if_neg (by omega), if_pos h.type, if_neg (not_not_intro h.flag)] at hrun
      cases hrun
    · cases (h.pong hlt fuel).symm.trans hrun
      cases hpong
      rfl
  · rintro rfl
    exact ⟨1, _, h.pong hlt 0, rfl⟩

/-- A frame is handled as it should be exactly when what it announces is in it and no ping with
valid attributes has a timestamp other than 0. -/
theorem monitor_frame_ok_iff (hlt : len < 2 ^ 32) :
    FrameOk m len ↔ FrameFits m len ∧ ∀ t, PingWith m len t → t = 0 := by
  constructor
  · rintro ⟨hinside, hpong⟩
    exact ⟨(frameInside_iff hlt).mp hinside, fun t h ↦ (h.carries_iff hlt).mp (hpong t h)⟩
  · rintro ⟨hfits, hzero⟩
    exact ⟨(frameInside_iff hlt).mpr hfits, fun t h ↦ (h.carries_iff hlt).mpr (hzero t h)⟩

/-- A ping with user data of one byte and the timestamp 0. -/
def pingAtZero : Mem :=
  ofList [9, 0, 0, 0, 23, 0, 111, 5, 0, 0, 0, 1, 42, 0, 113, 4, 0, 0, 0, 8, 0, 0, 0, 0, 0, 0, 0, 0]

def pingAttrs : List ParsedAttr := [⟨111, 5, 1, .bytes 7⟩, ⟨113, 4, 8, .u64 0⟩]

/-- The timestamp stands behind another attribute. -/
theorem monitor_frame_ok_iff_ping : PingWith pingAtZero 28 0 ∧ FrameOk pingAtZero 28 := by
  have hdecodes : Decodes (attrMemOf pingAtZero) (attrLenOf pingAtZero) pingAttrs :=
    ⟨3, _, rfl, rfl⟩
  have htiled : Tiled (attrMemOf pingAtZero) (attrLenOf pingAtZero) 0 :=
    .step ⟨by decide, by decide, by decide⟩ (.step ⟨by decide, by decide, by decide⟩ .done)
  constructor
  · refine ⟨by decide, by decide, by decide, htiled, pingAttrs, hdecodes, ?_, ?_⟩
    · exact ⟨⟨113, 4, 8, .u64 0⟩, by decide, rfl⟩
    · simp [pingAttrs, aiAttrClientTs]
  · refine (monitor_frame_ok_iff (by decide)).mpr
      ⟨⟨fun _ _ _ ↦ ⟨by decide, .done (by decide)⟩, fun _ hevent ↦ absurd hevent (by decide)⟩, ?_⟩
    intro t hping
    obtain ⟨attrs, ⟨fuel, d, hd, hattrs⟩, -, hall⟩ := hping.attrs
    obtain ⟨fuel', d', hd', hattrs'⟩ := hdecodes
    cases decode_unique hd hd'
    cases hattrs.symm.trans hattrs'
    cases hall ⟨113, 4, 8, .u64 0⟩ (by decide) rfl
    rfl

/-- A ping with the timestamp 5 gets a pong with 0, and a ping of one byte is read behind its
end. -/
theorem pong_without_timestamp :
    ¬FrameOk (ofList [9, 0, 0, 0, 15, 0, 113, 4, 0, 0, 0, 8, 0, 0, 0, 0, 0, 0, 0, 5]) 20 ∧
      ¬FrameOk (ofList [9]) 1 := by
  constructor
  · intro h
    have hping : PingWith (ofList [9, 0, 0, 0, 15, 0, 113, 4, 0, 0, 0, 8, 0, 0, 0, 0, 0, 0, 0, 5])
        20 5 := by
      refine ⟨by decide, by decide, by decide, .step ⟨by decide, by decide, by decide⟩ .done,
        [⟨113, 4, 8, .u64 5⟩], ⟨2, _, rfl, rfl⟩, ⟨_, List.mem_cons_self, rfl⟩, fun a ha _ ↦ ?_⟩
      cases List.mem_singleton.mp ha
      rfl
    cases (hping.carries_iff (by decide)).mp (h.pong 5 hping)
  · intro h
    have hfits := (frameInside_iff (by decide)).mp h.inside
    have hlen := (hfits.ping (by decide) (by decide) (by decide)).1
    revert hlen
    decide

end Frame

end TuyaOpen.Ai
