import TuyaOpen.Ble.Fragment
import Mathlib.Data.List.ReduceOption

/-!
# The sequence numbers of messages

The encoder takes a number from `ble_frame_seq_get` when a transmitter is
fresh, and the first packet of the message carries its low four bits.  The
counter behind the numbers stops at `BLE_FRAME_SEQ_LMT` and does not start
again.
-/

namespace TuyaOpen.Ble

/-- A call with any transmitter that stays inside the buffers. -/
structure SendCall where
  packetLen : ℕ
  trsmitr : BleFrameTrsmitr
  version : ℕ
  buf : List UInt8
  inside : ∀ frameSeq,
    (bleFrameTrsmitrSendPkgEncode packetLen frameSeq trsmitr version buf).isSome

/-- The call starts a message; the others send later packets of one. -/
def SendCall.Begins (call : SendCall) : Prop := call.trsmitr.pkgDesc = .pkgInit

instance (call : SendCall) : Decidable call.Begins := inferInstanceAs (Decidable (_ = _))

/-- The encoder answers a message of that length with an error. -/
def SendCall.Refused (call : SendCall) : Prop := 0x10000000 ≤ call.buf.length

instance (call : SendCall) : Decidable call.Refused := inferInstanceAs (Decidable (_ ≤ _))

/-- The sequence number a receiver reads in the first packet of a message. -/
def seqOf (pkt : List UInt8) : Option ℕ :=
  (parseSubpkg pkt).map fun p ↦ (p.verSeq &&& 0x0f).toNat

/-- The encoder over its static counter.  A call that starts a message gives
the first packet of it. -/
def seqMachine : Mealy ℕ SendCall (Option (List UInt8)) where
  step frameSeq call :=
    match bleFrameTrsmitrSendPkgEncode call.packetLen frameSeq call.trsmitr call.version
        call.buf with
    | none => (frameSeq, none)
    | some (frameSeq, trsmitr, rt) =>
      (frameSeq,
        if call.Begins ∧ (rt = oprtOk ∨ rt = oprtSvcBtApiTrsmitrContinue) then
          some (trsmitr.subpkg.take trsmitr.subpkgLen)
        else none)

/-- The first packets of the messages that were sent, from the counter on. -/
def sentMessages (frameSeq : ℕ) (calls : List SendCall) : List (List UInt8) :=
  (seqMachine.outputs frameSeq calls).reduceOption

/-- The messages carry the numbers `k`, `k + 1` and so on in four bits, each
another one than the message before it. -/
structure SeqCycles (k : ℕ) (msgs : List (List UInt8)) : Prop where
  numbered : ∀ n pkt, msgs[n]? = some pkt → seqOf pkt = some ((k + n) % 16)
  changes : ∀ n a b, msgs[n]? = some a → msgs[n + 1]? = some b → seqOf a ≠ seqOf b

/-- What the counter gives after `i` messages were started. -/
def seqTaken (i : ℕ) : ℕ := if i < 16 then i else 0

/-- Of the calls that start a message after `i` others, with `k` messages sent
before them, every one that is sent gets the number of its turn. -/
def InTurn (i k : ℕ) (starts : List SendCall) : Prop :=
  ∀ j call, starts[j]? = some call → ¬ call.Refused →
    seqTaken (i + j) = (k + (starts.take j).countP fun c ↦ ¬ c.Refused) % 16

/-! ## One call -/

variable {frameSeq packetLen version : ℕ} {t t' : BleFrameTrsmitr} {buf : List UInt8}
  {rt : OperateRet} {call : SendCall} {calls starts : List SendCall}

theorem seq_unpack (version seq : ℕ) :
    (UInt8.ofNat (version <<< 4 ||| (seq &&& 0x0f)) &&& 0x0f).toNat = seq % 16 := by
  have hseq : seq &&& 0x0f = seq % 2 ^ 4 := Nat.and_two_pow_sub_one_eq_mod seq 4
  have hlt : seq % 2 ^ 4 < 2 ^ 4 := Nat.mod_lt _ (by decide)
  have hmask : ∀ b : UInt8, (b &&& 0x0f).toNat = b.toNat % 2 ^ 4 := fun b ↦
    (UInt8.toNat_and b 0x0f).trans (Nat.and_two_pow_sub_one_eq_mod b.toNat 4)
  rw [hmask, hseq, ← Nat.shiftLeft_add_eq_or_of_lt hlt, UInt8.toNat_ofNat', Nat.shiftLeft_eq]
  omega

theorem sendSubpkg_packet (h : sendSubpkg packetLen t buf = some (t', rt)) :
    (∃ data, t'.subpkg.take t'.subpkgLen = sendHeader t buf.length ++ data) ∧
      (rt = oprtOk ∨ rt = oprtSvcBtApiTrsmitrContinue) := by
  revert h
  simp only [sendSubpkg]
  generalize (if usub 32 buf.length t.pkgTrsmitrCnt <
    usub 16 packetLen (sendHeader t buf.length).length then usub 32 buf.length t.pkgTrsmitrCnt
    else usub 16 packetLen (sendHeader t buf.length).length) = n
  split_ifs with hfit hmore hzero
  · rintro ⟨⟩
  all_goals
    rintro ⟨rfl, rfl⟩
    have hdata : ((buf.drop t.pkgTrsmitrCnt).take n).length = n := by
      rw [List.length_take, List.length_drop]
      omega
    have htake := List.take_splice (Nat.zero_le t.subpkg.length)
      (sendHeader t buf.length ++ (buf.drop t.pkgTrsmitrCnt).take n)
    rw [List.length_append, hdata, zero_add, List.take_zero, List.nil_append] at htake
  · exact ⟨⟨_, htake⟩, .inr rfl⟩
  · exact ⟨⟨_, htake⟩, .inr rfl⟩
  · exact ⟨⟨_, htake⟩, .inl rfl⟩

theorem seqOf_first (hnum : t.subpkgNum = 0) (hbuf : buf.length < 2 ^ 28) (data : List UInt8) :
    seqOf (sendHeader t buf.length ++ data) = some (t.seq % 16) := by
  rw [seqOf, parse_sendHeader hnum hbuf, Option.map_some, seq_unpack]

theorem step_other (h : ¬ call.Begins) : seqMachine.step frameSeq call = (frameSeq, none) := by
  rw [SendCall.Begins] at h
  simp only [seqMachine, bleFrameTrsmitrSendPkgEncode, SendCall.Begins, h, if_false, false_and]
  split
  · rfl
  · rename_i heq
    split_ifs at heq
    · cases heq
      rfl
    · obtain ⟨r, -, hr⟩ := Option.map_eq_some_iff.mp heq
      cases hr
      rfl

theorem step_refused (h : call.Begins) (hbuf : call.Refused) :
    seqMachine.step frameSeq call = ((bleFrameSeqGet frameSeq).2, none) := by
  rw [SendCall.Begins] at h
  rw [SendCall.Refused] at hbuf
  simp only [seqMachine, bleFrameTrsmitrSendPkgEncode, h, hbuf, if_true, or_true]
  rw [if_neg]
  rintro ⟨-, hok | hok⟩
  · cases hok
  · cases hok

theorem step_sent (h : call.Begins) (hbuf : ¬ call.Refused) :
    ∃ pkt, seqMachine.step frameSeq call = ((bleFrameSeqGet frameSeq).2, some pkt) ∧
      seqOf pkt = some ((bleFrameSeqGet frameSeq).1 % 16) := by
  have hbegins := h
  rw [SendCall.Begins] at h
  rw [SendCall.Refused, not_le] at hbuf
  have hsmall : ¬ ((0x10000000 : ℕ) ≤ 0 ∨ 0x10000000 ≤ call.buf.length) := by omega
  have hinside := call.inside frameSeq
  simp only [bleFrameTrsmitrSendPkgEncode, h, if_true, if_neg hsmall, Option.isSome_map] at hinside
  obtain ⟨⟨t', rt⟩, hsend⟩ := Option.isSome_iff_exists.mp hinside
  obtain ⟨⟨data, hpkt⟩, hrt⟩ := sendSubpkg_packet hsend
  refine ⟨t'.subpkg.take t'.subpkgLen, ?_, ?_⟩
  · simp only [seqMachine, bleFrameTrsmitrSendPkgEncode, h, if_true, if_neg hsmall, hsend,
      Option.map_some, if_pos (And.intro hbegins hrt)]
  · rw [hpkt]
    exact seqOf_first rfl hbuf data

theorem bleFrameSeqGet_min (i : ℕ) :
    bleFrameSeqGet (min i 16) = (seqTaken i, min (i + 1) 16) := by
  rw [bleFrameSeqGet, seqTaken]
  by_cases h : i < 16
  · rw [if_neg (by omega), if_pos h, Nat.min_eq_left (by omega), Nat.min_eq_left (by omega)]
  · rw [if_pos (by omega), if_neg h, Nat.min_eq_right (by omega), Nat.min_eq_right (by omega)]

/-! ## Every run -/

theorem inTurn_cons (i k : ℕ) (call : SendCall) (starts : List SendCall) :
    InTurn i k (call :: starts) ↔
      (¬ call.Refused → seqTaken i = k % 16) ∧
        InTurn (i + 1) (if call.Refused then k else k + 1) starts := by
  have hcount : ∀ j, k + ((call :: starts).take (j + 1)).countP (fun c ↦ ¬ c.Refused) =
      (if call.Refused then k else k + 1) +
        (starts.take j).countP (fun c ↦ ¬ c.Refused) := by
    intro j
    rw [List.take_succ_cons, List.countP_cons]
    by_cases h : call.Refused
    · simp only [h, not_true_eq_false, decide_false, Bool.false_eq_true, if_false, if_true,
        Nat.add_zero]
    · simp only [h, not_false_iff, decide_true, if_true, if_false]
      omega
  constructor
  · intro h
    refine ⟨fun hsent ↦ h 0 call rfl hsent, fun j c hj hsent ↦ ?_⟩
    have hnext := h (j + 1) c hj hsent
    rw [hcount] at hnext
    rwa [Nat.add_assoc, Nat.add_comm 1 j]
  · rintro ⟨hhead, htail⟩ j c hj hsent
    cases j with
    | zero =>
        cases hj
        exact hhead hsent
    | succ j =>
        have hnext := htail j c hj hsent
        rw [hcount]
        rwa [Nat.add_assoc, Nat.add_comm 1 j] at hnext

theorem numbered_cons (k : ℕ) (pkt : List UInt8) (msgs : List (List UInt8)) :
    (∀ n m, (pkt :: msgs)[n]? = some m → seqOf m = some ((k + n) % 16)) ↔
      seqOf pkt = some (k % 16) ∧
        ∀ n m, msgs[n]? = some m → seqOf m = some ((k + 1 + n) % 16) := by
  constructor
  · intro h
    refine ⟨h 0 pkt rfl, fun n m hm ↦ ?_⟩
    rw [Nat.add_assoc, Nat.add_comm 1 n]
    exact h (n + 1) m hm
  · rintro ⟨hhead, htail⟩ n m hm
    cases n with
    | zero =>
        cases hm
        exact hhead
    | succ n =>
        rw [← Nat.add_assoc, Nat.add_right_comm]
        exact htail n m hm

/-- The counter after `i` started messages is `min i 16`, and a message that
starts there is in its turn exactly when its packet carries the next number. -/
theorem numbered_iff (i k : ℕ) (calls : List SendCall) :
    (∀ n pkt, (sentMessages (min i 16) calls)[n]? = some pkt → seqOf pkt = some ((k + n) % 16)) ↔
      InTurn i k (calls.filter fun c ↦ c.Begins) := by
  induction calls generalizing i k with
  | nil =>
      refine iff_of_true (fun n pkt h ↦ ?_) fun j c h ↦ ?_
      · cases h
      · cases h
  | cons call calls ih =>
      rw [List.filter_cons, sentMessages, Mealy.outputs_cons]
      by_cases hb : call.Begins
      · rw [if_pos (decide_eq_true hb), inTurn_cons]
        by_cases hr : call.Refused
        · rw [step_refused hb hr, bleFrameSeqGet_min, if_pos hr]
          simp only [hr, not_true_eq_false, false_implies, true_and]
          exact ih (i + 1) k
        · obtain ⟨pkt, hstep, hseq⟩ := @step_sent (min i 16) call hb hr
          rw [bleFrameSeqGet_min] at hstep hseq
          have hlow : seqTaken i % 16 = seqTaken i := by
            rw [seqTaken]
            split_ifs <;> omega
          rw [hstep, if_neg hr, List.reduceOption_cons_of_some, numbered_cons, hseq, hlow,
            Option.some.injEq]
          simp only [hr, not_false_iff, forall_const]
          exact and_congr_right fun _ ↦ ih (i + 1) (k + 1)
      · rw [if_neg (by simpa using hb), step_other hb]
        exact ih i k

theorem seqCycles_of_numbered {k : ℕ} {msgs : List (List UInt8)}
    (h : ∀ n pkt, msgs[n]? = some pkt → seqOf pkt = some ((k + n) % 16)) : SeqCycles k msgs := by
  refine ⟨h, fun n a b ha hb heq ↦ ?_⟩
  rw [h n a ha, h (n + 1) b hb, Option.some.injEq] at heq
  omega

/-- The messages of a run cycle through the numbers exactly as long as they are
started in their turn. -/
theorem message_seq_cycles_iff (calls : List SendCall) :
    SeqCycles 0 (sentMessages 0 calls) ↔ InTurn 0 0 (calls.filter fun c ↦ c.Begins) :=
  ⟨fun h ↦ (numbered_iff 0 0 calls).mp h.numbered,
    fun h ↦ seqCycles_of_numbered ((numbered_iff 0 0 calls).mpr h)⟩

theorem inTurn_iff_of_accepted (h : ∀ call ∈ starts, ¬ call.Refused) :
    InTurn 0 0 starts ↔ starts.length ≤ 17 := by
  have hcount : ∀ j ≤ starts.length,
      (starts.take j).countP (fun c ↦ ¬ c.Refused) = j := by
    intro j hj
    rw [List.countP_eq_length.mpr, List.length_take_of_le hj]
    intro c hc
    exact decide_eq_true (h c (List.mem_of_mem_take hc))
  constructor
  · intro hturn
    by_contra hlong
    have hget : starts[17]? = some starts[17] := List.getElem?_eq_getElem (by omega)
    have hbad := hturn 17 _ hget (h _ (List.getElem_mem _))
    rw [hcount 17 (by omega)] at hbad
    cases hbad
  · intro hshort j call hj hsent
    have hlt : j < starts.length := (List.getElem?_eq_some_iff.mp hj).1
    rw [hcount j (by omega), seqTaken]
    split_ifs <;> omega

/-! ## Eighteen messages -/

/-- A message from a fresh transmitter. -/
def startCall (packetLen version : ℕ) (buf : List UInt8) (hpl : 7 ≤ packetLen)
    (hpl' : packetLen < 2 ^ 16) (hbuf : buf.length < 2 ^ 28) : SendCall where
  packetLen := packetLen
  trsmitr := bleFrameTrsmitrCreate packetLen
  version := version
  buf := buf
  inside frameSeq := by
    have hsending : Sending packetLen (sendStart packetLen frameSeq version buf) buf :=
      sending_start hpl
    obtain ⟨t', hsend, -⟩ := sendSubpkg_eq hsending hpl' hbuf
    rw [encode_start hbuf, hsend]
    rfl

def oneByteCall : SendCall := startCall 20 4 [1] (by decide) (by decide) (by decide)

/-- Both the seventeenth and the eighteenth message carry `0`. -/
theorem message_seq_repeats : ¬ ∀ calls, SeqCycles 0 (sentMessages 0 calls) := by
  intro h
  have hturn := (numbered_iff 0 0 _).mp (h (List.replicate 18 oneByteCall)).numbered
  rw [List.filter_replicate_of_pos (by rfl)] at hturn
  have hsent : ¬ oneByteCall.Refused := by decide
  rw [inTurn_iff_of_accepted fun c hc ↦ by rwa [List.eq_of_mem_replicate hc],
    List.length_replicate] at hturn
  omega

end TuyaOpen.Ble
