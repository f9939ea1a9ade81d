import TuyaOpen.Ai.Reassembly
import TuyaOpen.Lib.Mealy

/-!
# Runs of reads and frees

What `tuya_ai_basic_pkt_read` writes and returns over any sequence of authenticated
packets, with `tuya_ai_basic_pkt_free` in between.
-/

namespace TuyaOpen.Ai

/-- What decryption guarantees of a packet, and that something was read for it. -/
structure AuthPacket.Valid (pkt : AuthPacket) : Prop where
  plain_le : pkt.plain.length ≤ pkt.bufLen
  recv_pos : 0 < pkt.recvLen

theorem AuthPacket.Valid.recvLen_ne_ok {pkt : AuthPacket} (h : pkt.Valid) :
    (pkt.recvLen : OperateRet) ≠ oprtOk :=
  Int.natCast_ne_zero.mpr (Nat.pos_iff_ne_zero.mp h.recv_pos)

theorem aiOpenPacket_valid {c : AiCipher} (hc : c.Lawful) {mem : Bool} {p : AiProtoIn}
    {buf : List UInt8} {recvLen : ℕ} (hrecv : 0 < recvLen) {pkt : AuthPacket}
    (h : aiOpenPacket c mem p buf recvLen = .packet pkt) : pkt.Valid := by
  simp only [aiOpenPacket] at h
  split_ifs at h with hwrap hsign hmem hshort
  split at h
  · cases h
  · rename_i plain hdec
    split_ifs at h
    cases h
    have hlen := hc.length_decrypt hdec
    refine ⟨?_, hrecv⟩
    simp only [List.length_take] at hlen
    dsimp only
    omega

theorem recvPacket_valid {cfg : AiConfig} {c : AiCipher} (hc : c.Lawful) {mem : Bool}
    {p p' : AiProtoIn} {es es' : List ChunkStream.Event} {pkt : AuthPacket}
    (h : recvPacket cfg c mem p es = (p', es', .packet pkt)) : pkt.Valid := by
  rw [recvPacket] at h
  split at h
  · cases h
  · rename_i buf rest hhead
    simp only [recvBody] at h
    split_ifs at h
    · cases h
    · cases h
    · split at h
      · cases h
      · rename_i body last rest' hbody
        have hpos : 0 < aiGetHeadLen buf := (aiGetHeadLen_pos buf).trans' (by omega)
        exact aiOpenPacket_valid hc (ChunkStream.gather_last_pos hpos hbody)
          (congrArg (fun x ↦ x.2.2) h)

theorem arrivals_valid {cfg : AiConfig} {c : AiCipher} (hc : c.Lawful) (fuel : ℕ)
    (env : ℕ → RecvEnv) (p : AiProtoIn) (es : List ChunkStream.Event) :
    ∀ x ∈ (arrivals cfg c fuel env p es).1, x.pkt.Valid := by
  induction fuel generalizing env p es with
  | zero => simp [arrivals]
  | succ fuel ih =>
      rcases hrecv : recvPacket cfg c (env 0).decryptMem p es with ⟨p', es', out⟩
      simp only [arrivals, hrecv]
      cases out with
      | packet pkt =>
          intro x hx
          rcases List.mem_cons.mp hx with rfl | hx
          · exact recvPacket_valid hc hrecv
          · exact ih _ _ _ x hx
      | lost rc => simp
      | rejected why rc => simp
      | noMemory => simp
      | undefined => simp

/-- The padding byte is not more than the payload. -/
def AuthPacket.Padded (pkt : AuthPacket) : Prop := pkt.decryptLen ≤ pkt.plain.length

def AuthPacket.payload (pkt : AuthPacket) : List UInt8 := pkt.plain.take pkt.decryptLen

/-! ## What a call writes -/

inductive FragEvent where
  | alloc (a total : ℕ)
  | write (a : Option ℕ) (off len : ℕ)
  deriving DecidableEq

/-- The message buffer a packet allocates and the fragment bytes it copies. -/
def stepLog (s : FragState) (a : Arrival) : List FragEvent :=
  if (s.mng.fragFlag = .start ∨ s.mng.fragFlag = .ing) ∧ a.pkt.fragFlag ≠ .ing ∧
      a.pkt.fragFlag ≠ .stop then []
  else
    match a.pkt.fragFlag with
    | .start =>
        if a.pkt.bufLen < a.pkt.originAt + 4 ∨ a.pkt.originLen ≤ a.pkt.decryptLen ∨
            a.mem = false then []
        else
          [.alloc s.heap.next a.pkt.fragTotalLen, .write (some s.heap.next) 0 a.pkt.decryptLen]
    | .ing => [.write s.mng.data s.mng.offset a.pkt.decryptLen]
    | .stop => [.write s.mng.data s.mng.offset a.pkt.decryptLen]
    | .noFrag => []

def readLog : FragState → List Arrival → List FragEvent
  | _, [] => []
  | s, a :: ps =>
      stepLog s a ++
        match fragStep a.mem s a.pkt with
        | .again s => readLog s ps
        | _ => []

/-- Every write goes to the buffer of the latest START, inside of its length. -/
def Within : Option (ℕ × ℕ) → List FragEvent → Prop
  | _, [] => True
  | _, .alloc a total :: log => Within (some (a, total)) log
  | latest, .write a off len :: log =>
      (∃ b total, latest = some (b, total) ∧ a = some b ∧ off + len ≤ total) ∧ Within latest log

/-! ## What a call should return -/

/-- The packets at the front are one message. -/
def IsMessage (ps : List Arrival) (message : List UInt8) : Prop :=
  (∃ a rest, ps = a :: rest ∧ a.pkt.fragFlag = .noFrag ∧ message = a.pkt.payload) ∨
  ∃ a ings b rest, ps = a :: ings ++ b :: rest ∧ a.pkt.fragFlag = .start ∧
    (∀ i ∈ ings, i.pkt.fragFlag = .ing) ∧ b.pkt.fragFlag = .stop ∧
    message = a.pkt.payload ++ ings.flatMap (·.pkt.payload) ++ b.pkt.payload

/-- The call handed out a buffer with these bytes. -/
def HandsOut (s : FragState) (ret : ReadRet) (message : List UInt8) : Prop :=
  ∃ a content, ret.out = some (some a, message.length, .noFrag) ∧
    s.heap.block a = some content ∧ content.take message.length = message

/-- A call in the state `s`, on these packets: it returns, an ING or END packet at its front
is an error, and a success is one message. -/
def ReadSound (s : FragState) (ps : List Arrival) (fin : ReadEnd) : Prop :=
  ∃ s' ret, fragRead s ps fin = some (s', ret) ∧
    (∀ a rest, ps = a :: rest → a.pkt.fragFlag = .ing ∨ a.pkt.fragFlag = .stop →
      ret.rc ≠ oprtOk) ∧
    (ret.rc = oprtOk → ∃ message, IsMessage ps message ∧ HandsOut s' ret message)

/-! ## The packets the code can deal with -/

/-- The packets behind a START packet whose message has `total` bytes of memory, `off` of
which are used. -/
def OrderlyTail (total : ℕ) : ℕ → List Arrival → ReadEnd → Prop
  | _, [], fin => fin ≠ .exit oprtOk ∧ fin ≠ .undefined
  | off, a :: ps, fin =>
      match a.pkt.fragFlag with
      | .ing =>
          a.pkt.Padded ∧ off + a.pkt.decryptLen ≤ total ∧
            OrderlyTail total (off + a.pkt.decryptLen) ps fin
      | .stop => a.pkt.Padded ∧ off + a.pkt.decryptLen ≤ total
      | _ => True

/-- The packets of a call: no ING or END packet without a START packet, and no packet that is
longer than what is left of the memory its START packet made the code allocate. -/
def Orderly : List Arrival → ReadEnd → Prop
  | [], fin => fin ≠ .exit oprtOk ∧ fin ≠ .undefined
  | a :: ps, fin =>
      match a.pkt.fragFlag with
      | .noFrag => a.pkt.Padded
      | .start =>
          a.pkt.originAt + 4 ≤ a.pkt.bufLen ∧
            (a.pkt.decryptLen < a.pkt.originLen → a.mem = true →
              a.pkt.Padded ∧ a.pkt.decryptLen ≤ a.pkt.fragTotalLen ∧
                OrderlyTail a.pkt.fragTotalLen a.pkt.decryptLen ps fin)
      | _ => False

/-! ## A message that is open -/

/-- `EXIT` frees a live block. -/
def FragState.Live (s : FragState) : Prop :=
  ∀ a, s.mng.data = some a → ∃ content, s.heap.block a = some content

/-- The message in the buffer `a` has begun with `acc`. -/
structure FragState.Open (s : FragState) (a : ℕ) (acc : List UInt8) (total : ℕ) : Prop where
  flag : s.mng.fragFlag = .start ∨ s.mng.fragFlag = .ing
  data : s.mng.data = some a
  offset : s.mng.offset = acc.length
  block : ∃ content, s.heap.block a = some content ∧ content.length = total ∧
    content.take acc.length = acc

theorem FragState.Open.live {s : FragState} {a total : ℕ} {acc : List UInt8}
    (h : s.Open a acc total) : s.Live := by
  intro b hb
  obtain ⟨content, hblock, -⟩ := h.block
  obtain rfl : a = b := Option.some.inj (h.data.symm.trans hb)
  exact ⟨content, hblock⟩

theorem fragExit_of_live {s : FragState} (h : s.Live) :
    ∃ heap, fragExit s = some ⟨.zero, heap⟩ := by
  cases hdata : s.mng.data with
  | none => exact ⟨s.heap, by simp [fragExit, hdata]⟩
  | some a =>
      obtain ⟨content, hblock⟩ := h a hdata
      refine ⟨{ s.heap with block := Function.update s.heap.block a none }, ?_⟩
      simp only [fragExit, hdata, Blocks.free_of_live hblock, Option.map_some]

theorem AuthPacket.take_buf {pkt : AuthPacket} (h : pkt.Padded) :
    pkt.buf.take pkt.decryptLen = pkt.payload := by
  rw [AuthPacket.buf, AuthPacket.payload, List.take_append_of_le_length h]

theorem AuthPacket.length_payload {pkt : AuthPacket} (h : pkt.Padded) :
    pkt.payload.length = pkt.decryptLen := by
  rw [AuthPacket.payload, List.length_take]
  exact Nat.min_eq_left h

theorem FragState.Open.append {s : FragState} {a total : ℕ} {acc : List UInt8}
    (h : s.Open a acc total) {pkt : AuthPacket} (hvalid : pkt.Valid) (hpad : pkt.Padded)
    (hfit : acc.length + pkt.decryptLen ≤ total) :
    ∃ s', appendFragment s pkt = some s' ∧
      s'.mng = ⟨pkt.fragFlag, (acc ++ pkt.payload).length, some a⟩ ∧
      ∃ content, s'.heap.block a = some content ∧ content.length = total ∧
        content.take (acc ++ pkt.payload).length = acc ++ pkt.payload := by
  obtain ⟨content, hblock, hlen, htake⟩ := h.block
  have hpay := AuthPacket.length_payload hpad
  have hroom : ¬pkt.bufLen < pkt.decryptLen := by
    have hle := hvalid.plain_le
    rw [AuthPacket.Padded] at hpad
    omega
  have hin : acc.length + pkt.payload.length ≤ content.length := by omega
  set written := content.splice acc.length pkt.payload with hwritten
  refine ⟨⟨⟨pkt.fragFlag, (acc ++ pkt.payload).length, some a⟩,
    { s.heap with block := Function.update s.heap.block a (some written) }⟩, ?_, rfl, written,
    Function.update_self .., ?_, ?_⟩
  · simp only [appendFragment, if_neg hroom, h.data, h.offset, AuthPacket.take_buf hpad,
      Blocks.write_of_fits hblock hin, Option.map_some, List.length_append, hpay, hwritten]
  · rw [hwritten, List.length_splice hin, hlen]
  · rw [List.length_append, hwritten, List.take_splice (by omega), htake]

/-! ## The packets behind a START packet -/

theorem fragReadEnd_exit_of_live {s : FragState} (h : s.Live) (rc : OperateRet) :
    ∃ heap, fragReadEnd s (.exit rc) = some (⟨.zero, heap⟩, ⟨rc, none⟩) := by
  obtain ⟨heap, hexit⟩ := fragExit_of_live h
  exact ⟨heap, by rw [fragReadEnd, hexit, Option.map_some]⟩

theorem fragRead_of_exit {s s₁ : FragState} {x : Arrival} (ps : List Arrival) (fin : ReadEnd)
    (hstep : fragStep x.mem s x.pkt = .exit s₁) (hlive : s₁.Live) :
    ∃ heap, fragRead s (x :: ps) fin = some (⟨.zero, heap⟩, ⟨x.pkt.recvLen, none⟩) := by
  obtain ⟨heap, hexit⟩ := fragReadEnd_exit_of_live hlive x.pkt.recvLen
  refine ⟨heap, ?_⟩
  simp only [fragRead, hstep, hexit]

theorem fragRead_of_failed {s s₁ s₂ : FragState} {x : Arrival} {ps : List Arrival}
    {fin : ReadEnd} {ret : ReadRet} (hstep : fragStep x.mem s x.pkt = .again s₁)
    (hread : fragRead s₁ ps fin = some (s₂, ret)) (hrc : ¬ret.rc = oprtOk) (hlive : s₂.Live) :
    ∃ heap, fragRead s (x :: ps) fin = some (⟨.zero, heap⟩, ⟨x.pkt.recvLen, none⟩) := by
  obtain ⟨heap, hexit⟩ := fragReadEnd_exit_of_live hlive x.pkt.recvLen
  refine ⟨heap, ?_⟩
  simp only [fragRead, hstep, hread, if_neg hrc, hexit]

/-- What a call that goes on behind a START packet does: it writes inside of the message,
it leaves a state that `EXIT` can clean up, and a success is the rest of the message. -/
structure TailSound (s : FragState) (a total : ℕ) (acc : List UInt8) (ps : List Arrival)
    (fin : ReadEnd) : Prop where
  within : Within (some (a, total)) (readLog s ps)
  returns : ∃ s' ret, fragRead s ps fin = some (s', ret) ∧ s'.Live ∧
    (ret.rc = oprtOk → s'.mng.fragFlag = .stop ∧
      ∃ ings b rest, ps = ings ++ b :: rest ∧ (∀ i ∈ ings, i.pkt.fragFlag = .ing) ∧
        b.pkt.fragFlag = .stop ∧
        HandsOut s' ret (acc ++ ings.flatMap (·.pkt.payload) ++ b.pkt.payload))

theorem live_zero (heap : Blocks) : FragState.Live ⟨.zero, heap⟩ := by
  intro a h
  cases h

section Step

variable {s : FragState} {a total : ℕ} {acc : List UInt8} {x : Arrival}

theorem FragState.Open.interrupt (h : s.Open a acc total)
    (hx : x.pkt.fragFlag ≠ .ing ∧ x.pkt.fragFlag ≠ .stop) :
    fragStep x.mem s x.pkt = .exit s ∧ stepLog s x = [] :=
  ⟨if_pos ⟨h.flag, hx⟩, if_pos ⟨h.flag, hx⟩⟩

theorem FragState.Open.ing (h : s.Open a acc total) (hx : x.pkt.fragFlag = .ing)
    (hvalid : x.pkt.Valid) (hpad : x.pkt.Padded) (hfit : acc.length + x.pkt.decryptLen ≤ total) :
    ∃ s', fragStep x.mem s x.pkt = .again s' ∧ s'.Open a (acc ++ x.pkt.payload) total ∧
      stepLog s x = [.write (some a) acc.length x.pkt.decryptLen] := by
  obtain ⟨s', happend, hmng, hblock⟩ := h.append hvalid hpad hfit
  refine ⟨s', ?_, ⟨?_, ?_, ?_, hblock⟩, ?_⟩
  · simp [fragStep, hx, happend]
  · rw [hmng, hx]
    exact .inr rfl
  · rw [hmng]
  · rw [hmng]
  · simp [stepLog, hx, h.data, h.offset]

theorem FragState.Open.stop (h : s.Open a acc total) (hx : x.pkt.fragFlag = .stop)
    (hvalid : x.pkt.Valid) (hpad : x.pkt.Padded) (hfit : acc.length + x.pkt.decryptLen ≤ total) :
    ∃ s' ret, fragStep x.mem s x.pkt = .ret s' ret ∧ s'.Live ∧ s'.mng.fragFlag = .stop ∧
      ret.rc = oprtOk ∧ HandsOut s' ret (acc ++ x.pkt.payload) ∧
      stepLog s x = [.write (some a) acc.length x.pkt.decryptLen] := by
  obtain ⟨s', happend, hmng, content, hblock, -, htake⟩ := h.append hvalid hpad hfit
  refine ⟨s', ⟨oprtOk, some (s'.mng.data, s'.mng.offset, .noFrag)⟩, ?_, ?_, ?_, rfl, ?_, ?_⟩
  · simp [fragStep, hx, happend]
  · intro b hb
    rw [hmng] at hb
    obtain rfl : a = b := Option.some.inj hb
    exact ⟨content, hblock⟩
  · rw [hmng, hx]
  · exact ⟨a, content, by rw [hmng], hblock, htake⟩
  · simp [stepLog, hx, h.data, h.offset]

end Step

theorem tailSound {a total : ℕ} (ps : List Arrival) (fin : ReadEnd) {s : FragState}
    {acc : List UInt8} (hopen : s.Open a acc total) (hvalid : ∀ x ∈ ps, x.pkt.Valid)
    (hord : OrderlyTail total acc.length ps fin) : TailSound s a total acc ps fin := by
  induction ps generalizing s acc with
  | nil =>
      refine ⟨trivial, ?_⟩
      cases fin with
      | exit rc =>
          obtain ⟨heap, hexit⟩ := fragReadEnd_exit_of_live hopen.live rc
          refine ⟨_, _, hexit, live_zero heap, fun hok ↦ absurd ?_ hord.1⟩
          rw [show rc = oprtOk from hok]
      | noMemory => exact ⟨s, _, rfl, hopen.live, fun hok ↦ absurd hok (by decide)⟩
      | undefined => exact absurd rfl hord.2
  | cons x ps ih =>
      have hx : x.pkt.Valid := hvalid x (List.mem_cons_self ..)
      have hps : ∀ y ∈ ps, y.pkt.Valid := fun y hy ↦ hvalid y (List.mem_cons_of_mem x hy)
      have hcode := hx.recvLen_ne_ok
      -- a packet that does not continue the message: the call ends with an error
      have hinterrupt : x.pkt.fragFlag ≠ .ing ∧ x.pkt.fragFlag ≠ .stop →
          TailSound s a total acc (x :: ps) fin := by
        intro hflag
        obtain ⟨hstep, hlog⟩ := hopen.interrupt hflag
        obtain ⟨heap, hread⟩ := fragRead_of_exit ps fin hstep hopen.live
        exact ⟨by simp [readLog, hlog, hstep, Within], _, _, hread, live_zero heap,
          fun hok ↦ absurd hok hcode⟩
      cases hflag : x.pkt.fragFlag with
      | noFrag => exact hinterrupt (by simp [hflag])
      | start => exact hinterrupt (by simp [hflag])
      | ing =>
          simp only [OrderlyTail, hflag] at hord
          obtain ⟨hpad, hfit, hrest⟩ := hord
          obtain ⟨s₁, hstep, hopen₁, hlog⟩ := hopen.ing hflag hx hpad hfit
          rw [← AuthPacket.length_payload hpad, ← List.length_append] at hrest
          obtain ⟨hwithin, s₂, ret, hread, hlive, hok⟩ := ih hopen₁ hps hrest
          refine ⟨?_, ?_⟩
          · simp only [readLog, hlog, hstep, List.singleton_append, Within]
            exact ⟨⟨a, total, rfl, rfl, hfit⟩, hwithin⟩
          · by_cases hrc : ret.rc = oprtOk
            · refine ⟨s₂, ret, by simp only [fragRead, hstep, hread, if_pos hrc], hlive, fun _ ↦ ?_⟩
              obtain ⟨hstop, ings, b, rest, rfl, hings, hb, hout⟩ := hok hrc
              refine ⟨hstop, x :: ings, b, rest, rfl, ?_, hb, ?_⟩
              · intro i hi
                rcases List.mem_cons.mp hi with rfl | hi
                · exact hflag
                · exact hings i hi
              · simpa using hout
            · obtain ⟨heap, hfailed⟩ := fragRead_of_failed hstep hread hrc hlive
              exact ⟨_, _, hfailed, live_zero heap, fun hok' ↦ absurd hok' hcode⟩
      | stop =>
          simp only [OrderlyTail, hflag] at hord
          obtain ⟨s₁, ret, hstep, hlive, hstop, -, hout, hlog⟩ :=
            hopen.stop hflag hx hord.1 hord.2
          refine ⟨?_, s₁, ret, by simp only [fragRead, hstep], hlive, fun _ ↦
            ⟨hstop, [], x, ps, rfl, by simp, hflag, by simpa using hout⟩⟩
          simp only [readLog, hlog, hstep, List.append_nil, Within]
          exact ⟨⟨a, total, rfl, rfl, hord.2⟩, trivial⟩

/-! ## Whole calls -/

/-- Between two calls no message is open. -/
structure FragState.Idle (s : FragState) : Prop where
  flag : ¬(s.mng.fragFlag = .start ∨ s.mng.fragFlag = .ing)
  live : s.Live

theorem FragState.Idle.passes {s : FragState} (h : s.Idle) (flag : FragFlag) :
    ¬((s.mng.fragFlag = .start ∨ s.mng.fragFlag = .ing) ∧ flag ≠ .ing ∧ flag ≠ .stop) :=
  fun hopen ↦ h.flag hopen.1

theorem idle_zero (heap : Blocks) : FragState.Idle ⟨.zero, heap⟩ :=
  ⟨by simp [RecvFragMng.zero], live_zero heap⟩

theorem FragState.Live.alloc {s : FragState} (h : s.Live) (content : List UInt8) :
    FragState.Live { s with heap := s.heap.alloc content } := by
  intro a ha
  rcases eq_or_ne a s.heap.next with rfl | hne
  · exact ⟨content, Blocks.alloc_block_self ..⟩
  · rw [Blocks.alloc_block_of_ne content hne]
    exact h a ha

/-- A call in the state `s`: what it writes, the state it leaves and what it returns. -/
structure CallSound (s : FragState) (ps : List Arrival) (fin : ReadEnd) : Prop where
  within : Within none (readLog s ps)
  returns : ∃ s' ret, fragRead s ps fin = some (s', ret) ∧ s'.Idle ∧
    (ret.rc = oprtOk → ∃ message, IsMessage ps message ∧ HandsOut s' ret message)

section Call

variable {s : FragState} {x : Arrival} {ps : List Arrival} {fin : ReadEnd}

theorem callSound_of_exit {s₁ : FragState} (hstep : fragStep x.mem s x.pkt = .exit s₁)
    (hlog : stepLog s x = []) (hlive : s₁.Live) (hx : x.pkt.Valid) :
    CallSound s (x :: ps) fin := by
  obtain ⟨heap, hread⟩ := fragRead_of_exit ps fin hstep hlive
  exact ⟨by simp [readLog, hlog, hstep, Within], _, _, hread, idle_zero heap,
    fun hok ↦ absurd hok hx.recvLen_ne_ok⟩

theorem noFrag_ret (hidle : s.Idle) (hflag : x.pkt.fragFlag = .noFrag) (hpad : x.pkt.Padded) :
    ∃ s' ret, fragStep x.mem s x.pkt = .ret s' ret ∧ s'.Idle ∧ ret.rc = oprtOk ∧
      HandsOut s' ret x.pkt.payload ∧ stepLog s x = [] := by
  refine ⟨{ s with heap := s.heap.alloc x.pkt.buf },
    ⟨oprtOk, some (some s.heap.next, x.pkt.decryptLen, .noFrag)⟩, ?_,
    ⟨hidle.flag, hidle.live.alloc _⟩, rfl, ?_, ?_⟩
  · rw [fragStep, if_neg (hidle.passes _), hflag]
  · refine ⟨s.heap.next, x.pkt.buf, ?_, Blocks.alloc_block_self .., ?_⟩
    · rw [AuthPacket.length_payload hpad]
    · rw [AuthPacket.length_payload hpad, AuthPacket.take_buf hpad]
  · rw [stepLog, if_neg (hidle.passes _), hflag]

theorem callSound_noFrag (hidle : s.Idle) (hflag : x.pkt.fragFlag = .noFrag)
    (hpad : x.pkt.Padded) : CallSound s (x :: ps) fin := by
  obtain ⟨s', ret, hstep, hidle', -, hout, hlog⟩ := noFrag_ret hidle hflag hpad
  exact ⟨by simp [readLog, hlog, hstep, Within], s', ret, by simp only [fragRead, hstep], hidle',
    fun _ ↦ ⟨x.pkt.payload, .inl ⟨x, ps, rfl, hflag, rfl⟩, hout⟩⟩

theorem start_open (hidle : s.Idle) (hx : x.pkt.Valid) (hflag : x.pkt.fragFlag = .start)
    (hat : x.pkt.originAt + 4 ≤ x.pkt.bufLen) (horigin : x.pkt.decryptLen < x.pkt.originLen)
    (hmem : x.mem = true) (hpad : x.pkt.Padded) (hfit : x.pkt.decryptLen ≤ x.pkt.fragTotalLen) :
    ∃ s₁, fragStep x.mem s x.pkt = .again s₁ ∧
      s₁.Open s.heap.next x.pkt.payload x.pkt.fragTotalLen ∧
      stepLog s x =
        [.alloc s.heap.next x.pkt.fragTotalLen,
          .write (some s.heap.next) 0 x.pkt.decryptLen] := by
  have hlen := AuthPacket.length_payload hpad
  have hbuf : x.pkt.decryptLen ≤ x.pkt.bufLen := hpad.trans hx.plain_le
  have hroom : 0 + x.pkt.payload.length ≤
      (List.replicate x.pkt.fragTotalLen (0 : UInt8)).length := by
    rw [List.length_replicate]
    omega
  set data := (List.replicate x.pkt.fragTotalLen (0 : UInt8)).splice 0 x.pkt.payload with hdata
  refine ⟨⟨⟨.start, x.pkt.decryptLen, some s.heap.next⟩, s.heap.alloc data⟩, ?_, ?_, ?_⟩
  · have hcopy : ¬(x.pkt.bufLen < x.pkt.decryptLen ∨ x.pkt.fragTotalLen < x.pkt.decryptLen) := by
      omega
    rw [fragStep, if_neg (hidle.passes _), hflag]
    simp only [if_neg (Nat.not_lt.mpr hat), if_neg (Nat.not_le.mpr horigin), hmem,
      Bool.true_eq_false, if_false, if_neg hcopy, AuthPacket.take_buf hpad, hdata]
  · refine ⟨.inl rfl, rfl, hlen.symm, data, Blocks.alloc_block_self .., ?_, ?_⟩
    · rw [hdata, List.length_splice hroom, List.length_replicate]
    · rw [hdata, ← Nat.zero_add x.pkt.payload.length, List.take_splice (Nat.zero_le _)]
      rfl
  · have hkeep : ¬(x.pkt.bufLen < x.pkt.originAt + 4 ∨ x.pkt.originLen ≤ x.pkt.decryptLen ∨
        x.mem = false) := by
      rintro (h | h | h)
      · omega
      · omega
      · exact absurd (hmem.symm.trans h) (by decide)
    rw [stepLog, if_neg (hidle.passes _), hflag]
    exact if_neg hkeep

theorem callSound_start (hidle : s.Idle) (hx : x.pkt.Valid) (hps : ∀ y ∈ ps, y.pkt.Valid)
    (hflag : x.pkt.fragFlag = .start) (hat : x.pkt.originAt + 4 ≤ x.pkt.bufLen)
    (hord : x.pkt.decryptLen < x.pkt.originLen → x.mem = true →
      x.pkt.Padded ∧ x.pkt.decryptLen ≤ x.pkt.fragTotalLen ∧
        OrderlyTail x.pkt.fragTotalLen x.pkt.decryptLen ps fin) :
    CallSound s (x :: ps) fin := by
  by_cases horigin : x.pkt.decryptLen < x.pkt.originLen
  · by_cases hmem : x.mem = true
    · obtain ⟨hpad, hfit, htail⟩ := hord horigin hmem
      obtain ⟨s₁, hstep, hopen, hlog⟩ := start_open hidle hx hflag hat horigin hmem hpad hfit
      rw [← AuthPacket.length_payload hpad] at htail
      obtain ⟨hwithin, s₂, ret, hread, hlive, hok⟩ := tailSound ps fin hopen hps htail
      refine ⟨?_, ?_⟩
      · simp only [readLog, hlog, hstep, List.cons_append, List.nil_append, Within]
        exact ⟨⟨_, _, rfl, rfl, by omega⟩, hwithin⟩
      · by_cases hrc : ret.rc = oprtOk
        · obtain ⟨hstop, ings, b, rest, rfl, hings, hb, hout⟩ := hok hrc
          refine ⟨s₂, ret, by simp only [fragRead, hstep, hread, if_pos hrc], ⟨?_, hlive⟩,
            fun _ ↦ ⟨_, .inr ⟨x, ings, b, rest, rfl, hflag, hings, hb, rfl⟩, hout⟩⟩
          simp [hstop]
        · obtain ⟨heap, hfailed⟩ := fragRead_of_failed hstep hread hrc hlive
          exact ⟨_, _, hfailed, idle_zero heap, fun hok' ↦ absurd hok' hx.recvLen_ne_ok⟩
    · -- no memory for the message
      have hstep : fragStep x.mem s x.pkt = .exit { s with mng := ⟨.start, 0, none⟩ } := by
        rw [fragStep, if_neg (hidle.passes _), hflag]
        simp [Nat.not_lt.mpr hat, Nat.not_le.mpr horigin, hmem]
      have hlog : stepLog s x = [] := by
        rw [stepLog, if_neg (hidle.passes _), hflag]
        simp [hmem]
      exact callSound_of_exit hstep hlog (fun a ha ↦ by cases ha) hx
  · -- the announced length is not more than the fragment
    have hstep : fragStep x.mem s x.pkt = .exit s := by
      rw [fragStep, if_neg (hidle.passes _), hflag]
      simp [Nat.not_lt.mpr hat, Nat.not_lt.mp horigin]
    have hlog : stepLog s x = [] := by
      rw [stepLog, if_neg (hidle.passes _), hflag]
      simp [Nat.not_lt.mp horigin]
    exact callSound_of_exit hstep hlog hidle.live hx

end Call

theorem callSound {s : FragState} (hidle : s.Idle) {ps : List Arrival} {fin : ReadEnd}
    (hvalid : ∀ x ∈ ps, x.pkt.Valid) (hord : Orderly ps fin) : CallSound s ps fin := by
  cases ps with
  | nil =>
      refine ⟨trivial, ?_⟩
      cases fin with
      | exit rc =>
          obtain ⟨heap, hexit⟩ := fragReadEnd_exit_of_live hidle.live rc
          refine ⟨_, _, hexit, idle_zero heap, fun hok ↦ absurd ?_ hord.1⟩
          rw [show rc = oprtOk from hok]
      | noMemory => exact ⟨s, _, rfl, hidle, fun hok ↦ absurd hok (by decide)⟩
      | undefined => exact absurd rfl hord.2
  | cons x ps =>
      have hx : x.pkt.Valid := hvalid x (List.mem_cons_self ..)
      have hps : ∀ y ∈ ps, y.pkt.Valid := fun y hy ↦ hvalid y (List.mem_cons_of_mem x hy)
      cases hflag : x.pkt.fragFlag with
      | noFrag =>
          simp only [Orderly, hflag] at hord
          exact callSound_noFrag hidle hflag hord
      | start =>
          simp only [Orderly, hflag] at hord
          exact callSound_start hidle hx hps hflag hord.1 hord.2
      | ing => simp only [Orderly, hflag] at hord
      | stop => simp only [Orderly, hflag] at hord

theorem CallSound.readSound {s : FragState} {ps : List Arrival} {fin : ReadEnd}
    (h : CallSound s ps fin) (hord : Orderly ps fin) : ReadSound s ps fin := by
  obtain ⟨s', ret, hread, -, hok⟩ := h.returns
  refine ⟨s', ret, hread, ?_, hok⟩
  rintro a rest rfl (hflag | hflag)
  · simp only [Orderly, hflag] at hord
  · simp only [Orderly, hflag] at hord

/-! ## Runs -/

inductive AiOp where
  | read (ps : List Arrival) (fin : ReadEnd)
  | free (a : ℕ)

structure OpOut where
  log : List FragEvent
  ret : Option ReadRet

/-- Reads and frees; `none` is the state after something undefined. -/
def aiMachine : Mealy (Option FragState) AiOp OpOut where
  step
    | none, _ => (none, ⟨[], none⟩)
    | some s, .read ps fin =>
        ((fragRead s ps fin).map Prod.fst, ⟨readLog s ps, (fragRead s ps fin).map Prod.snd⟩)
    | some s, .free a => (tuyaAiBasicPktFree s a, ⟨[], none⟩)

def freshFrag : FragState := ⟨.zero, ⟨0, fun _ ↦ none⟩⟩

/-- The calls the code can deal with: packets in order that fit, and buffers that are still
allocated. -/
def Meets : Option FragState → AiOp → Prop
  | _, .read ps fin => (∀ x ∈ ps, x.pkt.Valid) ∧ Orderly ps fin
  | s, .free a => ∃ st content, s = some st ∧ st.heap.block a = some content

def OpSound (s : Option FragState) : AiOp → Prop
  | .read ps fin => ∃ st, s = some st ∧ ReadSound st ps fin
  | .free a => ∃ st st', s = some st ∧ tuyaAiBasicPktFree st a = some st'

theorem Within.of_none {log : List FragEvent} (h : Within none log) (latest : Option (ℕ × ℕ)) :
    Within latest log := by
  cases log with
  | nil => trivial
  | cons e log =>
      cases e with
      | alloc a total => exact h
      | write a off len =>
          obtain ⟨⟨b, total, hnone, -⟩, -⟩ := h
          cases hnone

theorem Within.append {latest : Option (ℕ × ℕ)} {log log' : List FragEvent}
    (h : Within latest log) (h' : Within none log') : Within latest (log ++ log') := by
  induction log generalizing latest with
  | nil => exact h'.of_none latest
  | cons e log ih =>
      cases e with
      | alloc a total => exact ih h
      | write a off len => exact ⟨h.1, ih h.2⟩

def IdleState (s : Option FragState) : Prop := ∃ st, s = some st ∧ st.Idle

theorem FragState.Idle.free {s : FragState} (h : s.Idle) {a : ℕ} {content : List UInt8}
    (ha : s.heap.block a = some content) : ∃ s', tuyaAiBasicPktFree s a = some s' ∧ s'.Idle := by
  refine ⟨_, by rw [tuyaAiBasicPktFree, Blocks.free_of_live ha, Option.map_some], ?_⟩
  split_ifs with hdata
  · exact idle_zero _
  · refine ⟨h.flag, fun b hb ↦ ?_⟩
    obtain ⟨content', hblock⟩ := h.live b hb
    have hne : b ≠ a := by
      rintro rfl
      exact hdata hb
    exact ⟨content', by rw [← hblock]; exact Function.update_of_ne hne ..⟩

theorem step_sound {s : Option FragState} (hs : IdleState s) {op : AiOp} (hop : Meets s op) :
    IdleState (aiMachine.step s op).1 ∧ OpSound s op ∧
      Within none (aiMachine.step s op).2.log := by
  obtain ⟨st, rfl, hidle⟩ := hs
  cases op with
  | read ps fin =>
      have hcall := callSound hidle hop.1 hop.2
      obtain ⟨s', ret, hread, hidle', -⟩ := hcall.returns
      refine ⟨⟨s', ?_, hidle'⟩, ⟨st, rfl, hcall.readSound hop.2⟩, hcall.within⟩
      simp only [aiMachine, hread, Option.map_some]
  | free a =>
      obtain ⟨st', content, hst, hblock⟩ := hop
      obtain rfl := Option.some.inj hst
      obtain ⟨s', hfree, hidle'⟩ := hidle.free hblock
      exact ⟨⟨s', hfree, hidle'⟩, ⟨st, s', rfl, hfree⟩, trivial⟩

theorem within_run {s : Option FragState} (hs : IdleState s) {ops : List AiOp}
    (hrun : aiMachine.Guarded Meets s ops) :
    Within none ((aiMachine.outputs s ops).flatMap OpOut.log) := by
  induction ops generalizing s with
  | nil => trivial
  | cons op ops ih =>
      obtain ⟨hidle, -, hwithin⟩ := step_sound hs hrun.1
      rw [Mealy.outputs_cons, List.flatMap_cons]
      exact hwithin.append (ih hidle hrun.2)

/-- Reassembly over whole runs: fragment bytes go only to the buffer of the latest START
packet and stay inside of it, and every read returns an error or one message.  Its packets are the
valid ones that a call takes from its stream. -/
theorem fragments_reassembled (ops : List AiOp)
    (hrun : aiMachine.Guarded Meets (some freshFrag) ops) :
    Within none ((aiMachine.outputs (some freshFrag) ops).flatMap OpOut.log) ∧
      (∀ before op after, ops = before ++ op :: after →
        OpSound (aiMachine.final (some freshFrag) before) op) ∧
      ∀ (cfg : AiConfig) {c : AiCipher}, c.Lawful → ∀ fuel env (r : AiReader) es,
        r.fragFlag = false →
          (pktReadLoop cfg c fuel env r es).map (fun x ↦ (x.1.frag, x.2.2)) =
            fragRead r.frag (arrivals cfg c fuel env r.proto es).1
              (arrivals cfg c fuel env r.proto es).2 ∧
          ∀ x ∈ (arrivals cfg c fuel env r.proto es).1, x.pkt.Valid := by
  have hfresh : IdleState (some freshFrag) := ⟨freshFrag, rfl, idle_zero _⟩
  refine ⟨within_run hfresh hrun, ?_, fun cfg c hc fuel env r es hr ↦
    ⟨pktReadLoop_frag cfg c fuel env r hr es, arrivals_valid hc fuel env r.proto es⟩⟩
  rintro before op after rfl
  obtain ⟨hbefore, hop, -⟩ := (aiMachine.guarded_append Meets _ before (op :: after)).mp hrun
  have hstep : ∀ s i, IdleState s → Meets s i → IdleState (aiMachine.step s i).1 :=
    fun _ _ hs hi ↦ (step_sound hs hi).1
  have hidle : IdleState (aiMachine.final (some freshFrag) before) :=
    aiMachine.inv_final hstep hfresh hbefore
  exact (step_sound hidle hop).2.1

/-! ## A text in two fragments -/

/-- Five bytes of head and fifteen of a text that has thirty. -/
def textStart : Arrival where
  pkt :=
    { fragFlag := .start
      plain := [68, 0, 0, 0, 30] ++ List.replicate 15 1 ++ List.replicate 12 12
      decryptLen := 20
      bufLen := 233
      recvLen := 80 }
  mem := true

def textEnd : Arrival where
  pkt :=
    { fragFlag := .stop
      plain := List.replicate 15 2 ++ [1]
      decryptLen := 15
      bufLen := 201
      recvLen := 64 }
  mem := true

def timeout : ReadEnd := .exit oprtResourceNotReady

/-- The text is read, given back and read once more. -/
theorem fragments_reassembled_text :
    Within none ((aiMachine.outputs (some freshFrag)
      [.read [textStart, textEnd] timeout, .free 0,
        .read [textStart, textEnd] timeout]).flatMap OpOut.log) := by
  have horderly : (∀ x ∈ [textStart, textEnd], x.pkt.Valid) ∧
      Orderly [textStart, textEnd] timeout := by
    refine ⟨?_, by decide +kernel, fun _ _ ↦ ⟨?_, by decide +kernel, ?_, by decide +kernel⟩⟩
    · intro x hx
      rcases List.mem_pair.mp hx with rfl | rfl
      · exact ⟨by decide, by decide⟩
      · exact ⟨by decide, by decide⟩
    · exact (by decide : 20 ≤ 32)
    · exact (by decide : 15 ≤ 16)
  have hfree : ∃ st content, aiMachine.final (some freshFrag)
      [.read [textStart, textEnd] timeout] = some st ∧ st.heap.block 0 = some content := by
    obtain ⟨-, s₁, ret, hread, -, hok⟩ := callSound (idle_zero _) horderly.1 horderly.2
    have hret : (fragRead freshFrag [textStart, textEnd] timeout).map Prod.snd =
        some ⟨oprtOk, some (some 0, 35, .noFrag)⟩ := by decide +kernel
    have hfresh : fragRead freshFrag [textStart, textEnd] timeout = some (s₁, ret) := hread
    simp only [hfresh, Option.map_some, Option.some.injEq] at hret
    obtain ⟨message, -, a, content, hout, hblock, -⟩ := hok (by rw [hret])
    simp only [hret, Option.some.injEq, Prod.mk.injEq] at hout
    obtain ⟨rfl, -⟩ := hout
    refine ⟨s₁, content, ?_, hblock⟩
    simp only [Mealy.final_cons, Mealy.final_nil, aiMachine, hfresh, Option.map_some]
  refine (fragments_reassembled _ ?_).1
  rw [Mealy.guarded_cons, Mealy.guarded_cons, Mealy.guarded_cons]
  exact ⟨horderly, hfree, horderly, trivial⟩

/-- Behind the text its last packet comes once more: no message is open, and the call
succeeds with all three packets. -/
theorem orphan_end_accepted :
    (aiMachine.outputs (some freshFrag)
        [.read [textStart, textEnd] timeout, .read [textEnd] timeout]).map OpOut.ret =
      [some ⟨oprtOk, some (some 0, 35, .noFrag)⟩, some ⟨oprtOk, some (some 0, 50, .noFrag)⟩] ∧
    ¬OpSound (aiMachine.final (some freshFrag) [.read [textStart, textEnd] timeout])
      (.read [textEnd] timeout) := by
  refine ⟨by decide +kernel, ?_⟩
  rintro ⟨st, hst, s', ret, hread, horphan, -⟩
  have hout : (aiMachine.step (aiMachine.final (some freshFrag)
      [.read [textStart, textEnd] timeout]) (.read [textEnd] timeout)).2.ret =
        some ⟨oprtOk, some (some 0, 50, .noFrag)⟩ := by decide +kernel
  rw [hst] at hout
  simp only [aiMachine, hread, Option.map_some, Option.some.injEq] at hout
  exact horphan textEnd [] rfl (.inr rfl) (by rw [hout])

end TuyaOpen.Ai
