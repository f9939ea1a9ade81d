import TuyaOpen.Lan.Read
import TuyaOpen.Lib.Mealy

/-!
# Which frames are processed

The log of a run says when sessions were added and which frames were handed to
`lan_protocol_process`, on which session.  A frame should find its session
active, a frame that is not of the handshake should find one that has passed the
handshake, and the sequence numbers should grow.  A session that is closed in the
middle of a read call has its slot wiped, but the call goes on to receive from the
socket: this is the one way in which all of it fails.
-/

namespace TuyaOpen.Lan

open Bytes

/-! ## The log -/

/-- What was done since a session was last added to the slot. -/
def sinceAdd (slot : ℕ) (log : List LanOutput) : List LanOutput :=
  log.foldl (fun acc o ↦ if o = .added slot then [] else acc ++ [o]) []

/-- A TYPE5 frame with the right HMAC was processed on the session in the slot. -/
def Proven (crypto : LanCrypto) (localkey : List UInt8) (slot : ℕ) (log : List LanOutput) : Prop :=
  ∃ s frame, .dispatched slot s frame ∈ sinceAdd slot log ∧
    type5Verified crypto localkey s frame = true

/-- The frames processed on the session in the slot have sequence numbers below `n`. -/
def Below (slot n : ℕ) (log : List LanOutput) : Prop :=
  ∀ s frame, .dispatched slot s frame ∈ sinceAdd slot log → frame.sequence < n

/-- What should hold of an entry that comes after `log`. -/
def EntryOk (crypto : LanCrypto) (localkey : List UInt8) (log : List LanOutput) : LanOutput → Prop
  | .dispatched slot session frame =>
    session.active = true ∧
      (isSecurity frame.type = false → Proven crypto localkey slot log) ∧
      Below slot frame.sequence log
  | _ => True

def Authorised (crypto : LanCrypto) (localkey : List UInt8) (log : List LanOutput) : Prop :=
  ∀ pre entry post, log = pre ++ entry :: post → EntryOk crypto localkey pre entry

section Log

variable {crypto : LanCrypto} {localkey : List UInt8} {slot n : ℕ} {log : List LanOutput}

theorem sinceAdd_snoc (slot : ℕ) (log : List LanOutput) (entry : LanOutput) :
    sinceAdd slot (log ++ [entry]) =
      if entry = .added slot then [] else sinceAdd slot log ++ [entry] := by
  simp [sinceAdd]

theorem mem_sinceAdd_snoc {entry o : LanOutput} (h : entry ≠ .added slot) :
    o ∈ sinceAdd slot (log ++ [entry]) ↔ o ∈ sinceAdd slot log ∨ o = entry := by
  rw [sinceAdd_snoc, if_neg h, List.mem_append, List.mem_singleton]

theorem Proven.snoc {entry : LanOutput} (h : Proven crypto localkey slot log)
    (hentry : entry ≠ .added slot) : Proven crypto localkey slot (log ++ [entry]) := by
  obtain ⟨s, frame, hmem, hver⟩ := h
  exact ⟨s, frame, (mem_sinceAdd_snoc hentry).mpr (.inl hmem), hver⟩

theorem Below.snoc {entry : LanOutput} (h : Below slot n log)
    (hentry : ∀ s frame, entry = .dispatched slot s frame → frame.sequence < n) :
    Below slot n (log ++ [entry]) := by
  intro s frame hmem
  by_cases hadd : entry = .added slot
  · rw [sinceAdd_snoc, if_pos hadd] at hmem
    exact absurd hmem List.not_mem_nil
  · rcases (mem_sinceAdd_snoc hadd).mp hmem with hold | hnew
    · exact h s frame hold
    · exact hentry s frame hnew.symm

theorem Below.mono {m : ℕ} (h : Below slot n log) (hnm : n ≤ m) : Below slot m log :=
  fun s frame hmem ↦ (h s frame hmem).trans_le hnm

theorem below_added (slot n : ℕ) (log : List LanOutput) :
    Below slot n (log ++ [.added slot]) := by
  intro s frame hmem
  rw [sinceAdd_snoc, if_pos rfl] at hmem
  exact absurd hmem List.not_mem_nil

theorem authorised_nil : Authorised crypto localkey [] := by
  intro pre entry post h
  cases pre <;> cases h

theorem Authorised.snoc {entry : LanOutput} (h : Authorised crypto localkey log)
    (hentry : EntryOk crypto localkey log entry) :
    Authorised crypto localkey (log ++ [entry]) := by
  intro pre o post hsplit
  rcases List.eq_nil_or_concat post with rfl | ⟨post', last, rfl⟩
  · obtain ⟨rfl, rfl⟩ := List.append_inj' hsplit rfl |>.imp id List.singleton_inj.mp
    exact hentry
  · rw [List.concat_eq_append, ← List.cons_append, ← List.append_assoc] at hsplit
    exact h pre o post' (List.append_inj' hsplit rfl).1

end Log

/-! ## The invariant -/

/-- The sessions are in step with the log. -/
structure Sound (crypto : LanCrypto) (localkey : List UInt8) (lan : LanMgr)
    (log : List LanOutput) : Prop where
  key : lan.localkey = localkey
  authorised : Authorised crypto localkey log
  proven : ∀ i, (lan.session i).keyed = true → Proven crypto localkey i log
  newest : ∀ i, (lan.session i).active = true → Below i ((lan.session i).sequenceIn + 1) log

def LanOutput.isSent : LanOutput → Bool
  | .sent _ _ _ => true
  | _ => false

structure Wiped (lan lan' : LanMgr) : Prop where
  session : ∀ j, lan'.session j = lan.session j ∨ lan'.session j = freedSession
  localkey : lan'.localkey = lan.localkey

section Sound

variable {crypto : LanCrypto} {localkey : List UInt8} {lan lan' : LanMgr}
  {log : List LanOutput} {i : ℕ}

theorem Sound.rekeyed (h : Sound crypto localkey lan log) (hlan : Rekeyed i lan lan')
    (hkey : (lan'.session i).keyed = true → Proven crypto localkey i log) :
    Sound crypto localkey lan' log where
  key := hlan.localkey.trans h.key
  authorised := h.authorised
  proven j hj := by
    by_cases hji : j = i
    · subst hji
      exact hkey hj
    · rw [hlan.others j hji] at hj
      exact h.proven j hj
  newest j hj := by
    by_cases hji : j = i
    · subst hji
      rw [hlan.active] at hj
      rw [hlan.sequenceIn]
      exact h.newest j hj
    · rw [hlan.others j hji] at hj ⊢
      exact h.newest j hj

theorem Sound.steady (h : Sound crypto localkey lan log) (hlan : Steady i lan lan') :
    Sound crypto localkey lan' log := by
  refine h.rekeyed hlan.toRekeyed fun hkeyed ↦ h.proven i ?_
  rwa [LanSession.keyed, hlan.secretKey] at hkeyed

theorem Sound.wiped (h : Sound crypto localkey lan log) (hlan : Wiped lan lan') :
    Sound crypto localkey lan' log where
  key := hlan.localkey.trans h.key
  authorised := h.authorised
  proven j hj := by
    rcases hlan.session j with hsame | hfreed
    · rw [hsame] at hj
      exact h.proven j hj
    · rw [hfreed] at hj
      cases hj
  newest j hj := by
    rcases hlan.session j with hsame | hfreed
    · rw [hsame] at hj ⊢
      exact h.newest j hj
    · rw [hfreed] at hj
      cases hj

theorem Sound.sent {outs : List LanOutput} (h : Sound crypto localkey lan log)
    (houts : ∀ o ∈ outs, o.isSent = true) : Sound crypto localkey lan (log ++ outs) := by
  induction outs generalizing log with
  | nil => simpa using h
  | cons o outs ih =>
      have hsent : o.isSent = true := houts o List.mem_cons_self
      have hsound : Sound crypto localkey lan (log ++ [o]) := by
        cases o with
        | added slot => cases hsent
        | dispatched slot s frame => cases hsent
        | sent fd key bytes =>
            exact
              { key := h.key
                authorised := h.authorised.snoc trivial
                proven := fun j hj ↦ (h.proven j hj).snoc (by simp)
                newest := fun j hj ↦ (h.newest j hj).snoc (by simp) }
      simpa using ih hsound fun o' ho' ↦ houts o' (List.mem_cons_of_mem o ho')

theorem Sound.dispatched {frame : Lpv35FrameObject} (h : Sound crypto localkey lan log)
    (hactive : (lan.session i).active = true)
    (hseq : frame.sequence = (lan.session i).sequenceIn) (hbelow : Below i frame.sequence log)
    (hsec : isSecurity frame.type = false → (lan.session i).keyed = true) :
    Sound crypto localkey lan (log ++ [.dispatched i (lan.session i) frame]) where
  key := h.key
  authorised := h.authorised.snoc ⟨hactive, fun hs ↦ h.proven i (hsec hs), hbelow⟩
  proven j hj := (h.proven j hj).snoc (by simp)
  newest j hj := by
    refine (h.newest j hj).snoc fun s frame' heq ↦ ?_
    obtain ⟨rfl, -, rfl⟩ := LanOutput.dispatched.inj heq
    exact Nat.lt_succ_of_le hseq.le

end Sound

/-! ## Closing -/

theorem wiped_refl (lan : LanMgr) : Wiped lan lan := ⟨fun _ ↦ .inl rfl, rfl⟩

theorem Wiped.trans {lan lan' lan'' : LanMgr} (h : Wiped lan lan') (h' : Wiped lan' lan'') :
    Wiped lan lan'' where
  session j := by
    rcases h'.session j with hsame | hfreed
    · rw [hsame]
      exact h.session j
    · exact .inr hfreed
  localkey := h'.localkey.trans h.localkey

theorem setSession_wiped (lan : LanMgr) (i : ℕ) : Wiped lan (lan.setSession i freedSession) where
  session j := by
    by_cases hji : j = i
    · subst hji
      exact .inr (setSession_self lan j freedSession)
    · exact .inl (setSession_of_ne lan freedSession hji)
  localkey := rfl

theorem lanSessionClose_wiped (lan : LanMgr) (i : ℕ) : Wiped lan (lanSessionClose lan i) := by
  rw [lanSessionClose]
  split_ifs
  · exact wiped_refl lan
  · exact wiped_refl lan
  · exact ⟨(setSession_wiped lan i).session, rfl⟩

theorem foldl_wiped {f : LanMgr → ℕ → LanMgr} (hf : ∀ lan i, Wiped lan (f lan i))
    (slots : List ℕ) (lan : LanMgr) : Wiped lan (slots.foldl f lan) := by
  induction slots generalizing lan with
  | nil => exact wiped_refl lan
  | cons i slots ih => exact (hf lan i).trans (ih (f lan i))

theorem lanSessionTimeCheck_wiped (lan : LanMgr) (time : ℕ) :
    Wiped lan (lanSessionTimeCheck lan time) := by
  rw [lanSessionTimeCheck]
  split_ifs
  · exact wiped_refl lan
  · refine foldl_wiped (fun lan i ↦ ?_) _ lan
    split_ifs
    · exact lanSessionClose_wiped lan i
    · exact wiped_refl lan

theorem lanSessionCloseAll_wiped (lan : LanMgr) : Wiped lan (lanSessionCloseAll lan) := by
  have hfold := foldl_wiped (f := fun lan i ↦
    if (lan.session i).active then
      { lan.setSession i freedSession with
        unregPosts := lan.unregPosts ++ [(lan.session i).fd] }
    else lan) (fun lan i ↦ by
      split_ifs
      · exact ⟨(setSession_wiped lan i).session, rfl⟩
      · exact wiped_refl lan) (List.range lan.cfg.clientNum) lan
  exact ⟨hfold.session, hfold.localkey⟩

/-! ## One frame -/

theorem lanSend_isSent (crypto : LanCrypto) (env : SendEnv) (lan : LanMgr)
    (i frType retCode : ℕ) (data : List UInt8) :
    ∀ o ∈ (lanSend crypto env lan i frType retCode data).2.1, o.isSent = true := by
  simp only [lanSend]
  split_ifs
  · simp
  · simp
  · simp
  · simp
  · simp
  · split
    · simp
    · simp [LanOutput.isSent]
  · split <;> simp

theorem lanProtocolProcess_isSent (crypto : LanCrypto) (env : FrameEnv) (lan : LanMgr) (i : ℕ)
    (frame : Lpv35FrameObject) :
    ∀ o ∈ (lanProtocolProcess crypto env lan i frame).2, o.isSent = true := by
  simp only [lanProtocolProcess, processType3]
  split_ifs
  · exact lanSend_isSent crypto env.send lan i _ _ _
  · simp
  · simp
  · exact lanSend_isSent crypto env.send _ i _ _ _
  · simp
  · exact lanSend_isSent crypto env.send lan i _ _ _
  · simp

section Frame

variable {crypto : LanCrypto} {localkey : List UInt8} {lan : LanMgr} {log : List LanOutput}
  {i : ℕ}

/-- The processing itself: a verified TYPE5 frame is in the log before it gives the
session its key. -/
theorem lanProtocolProcess_sound (env : FrameEnv) {frame : Lpv35FrameObject}
    (h : Sound crypto localkey lan (log ++ [.dispatched i (lan.session i) frame])) :
    Sound crypto localkey (lanProtocolProcess crypto env lan i frame).1
      (log ++ [.dispatched i (lan.session i) frame] ++
        (lanProtocolProcess crypto env lan i frame).2) := by
  apply Sound.sent _ (lanProtocolProcess_isSent crypto env lan i frame)
  cases hver : type5Verified crypto lan.localkey (lan.session i) frame with
  | false => exact h.steady (lanProtocolProcess_steady env hver)
  | true =>
      refine h.rekeyed (lanProtocolProcess_rekeyed crypto env lan i frame) fun _ ↦ ?_
      have hne : LanOutput.dispatched i (lan.session i) frame ≠ .added i := by simp
      exact ⟨lan.session i, frame, (mem_sinceAdd_snoc hne).mpr (.inr rfl), h.key ▸ hver⟩

variable {env : FrameEnv} {buffer : List UInt8} {len : ℕ}

theorem answerFrame_sound {key : List UInt8} (h : Sound crypto localkey lan log)
    (hactive : (lan.session i).active = true)
    (hseq : frameSequence buffer = (lan.session i).sequenceIn)
    (hbelow : Below i (frameSequence buffer) log)
    (hsec : isSecurity (frameType buffer) = false → (lan.session i).keyed = true) :
    Sound crypto localkey (answerFrame crypto env lan i key buffer len).1
      (log ++ (answerFrame crypto env lan i key buffer len).2.1) := by
  simp only [answerFrame]
  split_ifs
  · have hsteady := (lanSend_steady crypto env.send lan i frmTpHb 0 []).trans
      (lanSessionTimeUpdate_steady _ i env.now)
    exact (h.steady hsteady).sent (lanSend_isSent crypto env.send lan i _ _ _)
  · cases hparse : lpv35FrameParse crypto.gcm env.parse key buffer len with
    | error e => simpa using h
    | ok frame =>
        obtain ⟨hfseq, hftype⟩ := parse_fields hparse
        have hsteady := lanSessionTimeUpdate_steady lan i env.now
        have hkeyed : ((lanSessionTimeUpdate lan i env.now).session i).keyed =
            (lan.session i).keyed := by rw [LanSession.keyed, hsteady.secretKey, LanSession.keyed]
        have hnumber : frame.sequence =
            ((lanSessionTimeUpdate lan i env.now).session i).sequenceIn := by
          rw [hfseq, hseq, hsteady.sequenceIn]
        have hframe := (h.steady hsteady).dispatched (hsteady.active.trans hactive) hnumber
          (hfseq ▸ hbelow) (fun hs ↦ hkeyed.trans (hsec (hftype ▸ hs)))
        simpa using lanProtocolProcess_sound env hframe

theorem processFrame_sound (env : FrameEnv) (len : ℕ) (h : Sound crypto localkey lan log)
    (hactive : (lan.session i).active = true)
    (hseq : frameSequence buffer = (lan.session i).sequenceIn)
    (hbelow : Below i (frameSequence buffer) log) :
    Sound crypto localkey (processFrame crypto env lan i buffer len).1
      (log ++ (processFrame crypto env lan i buffer len).2.1) := by
  have hclosed : ∀ lan', Steady i lan lan' →
      Sound crypto localkey (lanSessionClose lan' i) (log ++ []) := by
    intro lan' hlan'
    simpa using (h.steady hlan').wiped (lanSessionClose_wiped lan' i)
  simp only [processFrame]
  split_ifs with hact hsec hkeyed hnokey hallow
  · exact hclosed lan (Steady.refl i lan)
  · exact hclosed _ (setAllowNoSessionKeyNum_steady lan i _)
  · exact answerFrame_sound (h.steady (setAllowNoSessionKeyNum_steady lan i _)) hactive hseq
      hbelow (fun hns ↦ absurd hsec (by simp [hns]))
  · simpa using h.steady (setAllowNoSessionKeyNum_steady lan i _)
  · exact (hclosed lan (Steady.refl i lan)).steady (setAllowNoSessionKeyNum_steady _ i _)
  · exact answerFrame_sound h hactive hseq hbelow fun _ ↦ by simpa using hnokey

end Frame

/-! ## One receive -/

theorem Sound.setSequenceIn {crypto : LanCrypto} {localkey : List UInt8} {lan : LanMgr}
    {log : List LanOutput} {i sequence : ℕ} (h : Sound crypto localkey lan log)
    (hseq : (lan.session i).sequenceIn < sequence) :
    Sound crypto localkey (lan.setSequenceIn i sequence) log where
  key := h.key
  authorised := h.authorised
  proven j hj := by
    refine h.proven j ?_
    by_cases hji : j = i
    · subst hji
      simpa [LanMgr.setSequenceIn, LanSession.keyed] using hj
    · rwa [LanMgr.setSequenceIn, setSession_of_ne lan _ hji] at hj
  newest j hj := by
    by_cases hji : j = i
    · subst hji
      have hactive : (lan.session j).active = true := by
        simpa [LanMgr.setSequenceIn] using hj
      refine (h.newest j hactive).mono ?_
      rw [LanMgr.setSequenceIn, setSession_self]
      exact Nat.succ_le_succ hseq.le
    · rw [LanMgr.setSequenceIn, setSession_of_ne lan _ hji] at hj ⊢
      exact h.newest j hj

theorem frameSequence_append {input : List UInt8} (h : lpv35FrameMiniSize ≤ input.length)
    (rest : List UInt8) : frameSequence (input ++ rest) = frameSequence input :=
  getBE_append_left (by rw [lpv35FrameMiniSize] at h; omega) rest

/-- An iteration keeps the log in step, and the session is open for the next one. -/
def LoopSound (crypto : LanCrypto) (localkey : List UInt8) (i : ℕ) (log : List LanOutput) :
    LoopNext → Prop
  | .next s => Sound crypto localkey s.lan (log ++ s.outs) ∧ (s.lan.session i).active = true
  | .left s => Sound crypto localkey s.lan (log ++ s.outs)
  | .owned s _ => Sound crypto localkey s.lan (log ++ s.outs)

theorem frameStep_sound {crypto : LanCrypto} {localkey : List UInt8} (env : ReadEnv) {i : ℕ}
    (nd : List UInt8) {log : List LanOutput} {s : LoopState}
    (h : Sound crypto localkey s.lan (log ++ s.outs))
    (hactive : (s.lan.session i).active = true) :
    LoopSound crypto localkey i log (frameStep crypto env i nd s) := by
  simp only [frameStep]
  split_ifs with hmini hhead hseq hthr hlen hmax hnd hdone
  · exact h
  · exact ⟨h, hactive⟩
  · exact h.wiped (lanSessionClose_wiped s.lan i)
  · exact h
  all_goals
    have hnewer : (s.lan.session i).sequenceIn < frameSequence s.rest := Nat.lt_of_not_le hseq
    have hsound := h.setSequenceIn hnewer
    have hbelow : Below i (frameSequence s.rest) (log ++ s.outs) :=
      (h.newest i hactive).mono hnewer
    have hopen : ((s.lan.setSequenceIn i (frameSequence s.rest)).session i).active = true := by
      simpa [LanMgr.setSequenceIn] using hactive
    have hnumber : frameSequence s.rest =
        ((s.lan.setSequenceIn i (frameSequence s.rest)).session i).sequenceIn := by
      simp [LanMgr.setSequenceIn]
  · exact hsound
  · exact hsound
  · have hhead := frameSequence_append (Nat.le_of_not_lt hmini)
      (nd.take (frameLen s.rest - s.rest.length))
    have hframe := processFrame_sound (env.frame (frameSequence s.rest)) (frameLen s.rest)
      hsound hopen (hhead.trans hnumber) (hhead ▸ hbelow)
    simpa [LoopSound] using hframe
  · have hframe := processFrame_sound (env.frame (frameSequence s.rest)) (frameLen s.rest)
      hsound hopen hnumber hbelow
    refine ⟨by simpa using hframe, ?_⟩
    rw [(processFrame_rekeyed hdone).active]
    exact hopen
  · have hframe := processFrame_sound (env.frame (frameSequence s.rest)) (frameLen s.rest)
      hsound hopen hnumber hbelow
    simpa [LoopSound] using hframe

theorem frameLoop_sound {crypto : LanCrypto} {localkey : List UInt8} {env : ReadEnv} {i : ℕ}
    {nd : List UInt8} {log : List LanOutput} {fuel : ℕ} {s : LoopState} {r : PassResult}
    (h : Sound crypto localkey s.lan (log ++ s.outs)) (hactive : (s.lan.session i).active = true)
    (hloop : frameLoop crypto env i nd fuel s = some r) :
    Sound crypto localkey r.lan (log ++ r.outs) := by
  induction fuel generalizing s with
  | zero => cases hloop
  | succ fuel ih =>
      have hstep := frameStep_sound env nd h hactive
      rw [frameLoop] at hloop
      cases hnext : frameStep crypto env i nd s with
      | next s' =>
          rw [hnext] at hloop hstep
          exact ih hstep.1 hstep.2 hloop
      | left s' =>
          rw [hnext] at hloop hstep
          obtain rfl := Option.some.inj hloop
          exact hstep
      | owned s' used =>
          rw [hnext] at hloop hstep
          obtain rfl := Option.some.inj hloop
          exact hstep

theorem recvPass_sound {crypto : LanCrypto} {localkey : List UInt8} (env : ReadEnv)
    {lan : LanMgr} {i : ℕ} {log : List LanOutput} (leftover bytes nd : List UInt8)
    (h : Sound crypto localkey lan log)
    (hactive : (lan.session i).active = true) :
    Sound crypto localkey (recvPass crypto env lan i leftover bytes nd).lan
      (log ++ (recvPass crypto env lan i leftover bytes nd).outs) := by
  simp only [recvPass]
  split_ifs
  · simpa using h.steady (lanSessionFaultSet_steady lan i)
  · simpa using h
  · refine frameLoop_sound (s := ⟨lan, [], _⟩) ?_ hactive (Option.some_get _).symm
    simpa using h

theorem recvPass_nil (crypto : LanCrypto) (env : ReadEnv) (lan : LanMgr) (i : ℕ)
    (leftover nd : List UInt8) :
    recvPass crypto env lan i leftover [] nd = ⟨lanSessionFaultSet lan i, [], none, 0⟩ := by
  simp [recvPass]

end TuyaOpen.Lan
