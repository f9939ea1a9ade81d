import TuyaOpen.Ai.Agent
import TuyaOpen.Lib.Mealy

/-!
# Stream flags of uploads

The flags of the packets that were sent for one session and one packet type, over any calls
of the agent.
-/

namespace TuyaOpen.Ai

def agentMachine : Mealy AiAgentCtx AgentStep OperateRet where
  step := agentStep

/-- The agent with room for `n` sessions. -/
def agentInit (n : ℕ) : AiAgentCtx := ⟨List.replicate n zeroSession, none, 0, []⟩

/-! ## What the flags should look like -/

/-- Whether a stream is open behind the flag. -/
def flagStep : Bool → AiStreamType → Option Bool
  | false, .start => some true
  | false, .one => some false
  | true, .ing => some true
  | true, .finish => some false
  | _, _ => none

def trackFlags : Bool → List AiStreamType → Option Bool
  | opened, [] => some opened
  | opened, flag :: flags => (flagStep opened flag).bind fun opened ↦ trackFlags opened flags

def flagsOf (number : ℕ) (type : UInt8) (sent : List SentPacket) : List AiStreamType :=
  (sent.filter fun p ↦ p.session = number ∧ p.type = type).map SentPacket.flag

/-- In every session and for every type but images, the flags are streams of START, ING and END
or packets with ONE, the last stream perhaps still open. -/
def FlagsWellFormed (ctx : AiAgentCtx) : Prop :=
  ∀ number type, type ≠ aiPtImage → (trackFlags false (flagsOf number type ctx.sent)).isSome

/-! ## When they do -/

def Listed (type : UInt8) (entries : List AiAgentId) : Prop := ∃ e ∈ entries, e.type = type

instance (type : UInt8) (entries : List AiAgentId) : Decidable (Listed type entries) :=
  inferInstanceAs (Decidable (∃ e ∈ entries, e.type = type))

/-- A START is sent when the session has an entry that remembers it, an END is not sent but by
`tuya_ai_agent_end`, and ONE is not sent while a stream is open. -/
def FlagOk (session : AiAgentSession) (type : UInt8) (chunk : UploadChunk) : AiStreamType → Prop
  | .start => chunk.sends = true ↔ Listed type session.send
  | .ing => True
  | .finish => chunk.sends = false
  | .one => chunk.sends = true → aiAgentIsFirstPkt type session.send = false

instance (session : AiAgentSession) (type : UInt8) (chunk : UploadChunk) :
    DecidablePred (FlagOk session type chunk)
  | .start => inferInstanceAs (Decidable (_ ↔ _))
  | .ing => inferInstanceAs (Decidable True)
  | .finish => inferInstanceAs (Decidable (_ = _))
  | .one => inferInstanceAs (Decidable (_ → _))

def StreamOk (ctx : AiAgentCtx) (type : UInt8) (chunk : UploadChunk) (totalLen : ℕ) : Prop :=
  type ≠ aiPtImage → hasStreamFlag type = true → ∀ idx, ctx.active = some idx →
    let session := ctx.session.getD idx zeroSession
    FlagOk session type chunk (streamType type session chunk totalLen)

def EncodedOk (ctx : AiAgentCtx) : List UploadChunk → Prop
  | [] => True
  | chunk :: chunks =>
      StreamOk ctx aiPtAudio chunk chunk.len ∧
        EncodedOk (aiUploadStream ctx aiPtAudio chunk chunk.len).1 chunks

/-- A stream that is open gets its END. -/
def EntryOk (ctx : AiAgentCtx) (idx entry : ℕ) (sends : Bool) : Prop :=
  let session := ctx.session.getD idx zeroSession
  let type := (session.send.map AiAgentId.type).getD entry 0
  type ≠ aiPtImage → hasStreamFlag type = true → aiAgentIsFirstPkt type session.send = true →
    sends = true ∧ (type = aiPtAudio → ctx.encoder ≠ some false)

instance (ctx : AiAgentCtx) (idx entry : ℕ) (sends : Bool) :
    Decidable (EntryOk ctx idx entry sends) :=
  inferInstanceAs (Decidable (_ → _ → _ → _ ∧ (_ → _)))

def EndOk (ctx : AiAgentCtx) (idx : ℕ) (entries : List (ℕ × Bool)) : Prop :=
  match entries with
  | [] => True
  | (entry, sends) :: entries =>
      EntryOk ctx idx entry sends ∧ EndOk (endEntry ctx idx entry sends) idx entries

instance decidableEndOk (ctx : AiAgentCtx) (idx : ℕ) (entries : List (ℕ × Bool)) :
    Decidable (EndOk ctx idx entries) :=
  match entries with
  | [] => inferInstanceAs (Decidable True)
  | (entry, sends) :: entries =>
      have := decidableEndOk (endEntry ctx idx entry sends) idx entries
      inferInstanceAs (Decidable (_ ∧ _))

def Streaming (ctx : AiAgentCtx) : AgentStep → Prop
  | .upload type chunk totalLen encoded _ =>
      match ctx.encoder with
      | some handle =>
          if type = aiPtAudio then
            handle = true → chunk.len = totalLen →
              if chunk.data = true ∧ 0 < chunk.len then EncodedOk ctx encoded
              else StreamOk ctx type chunk totalLen
          else StreamOk ctx type chunk totalLen
      | none => StreamOk ctx type chunk totalLen
  | .finish sends =>
      ∀ idx, ctx.active = some idx →
        EndOk ctx idx ((List.range aiBizMaxNum).map fun entry ↦ (entry, sends entry))
  | _ => True

/-! ## Entries and flags -/

section Entries

variable {type type' : UInt8} {entries : List AiAgentId}

theorem isFirst_of_unlisted (h : ¬Listed type entries) :
    aiAgentIsFirstPkt type entries = false := by
  induction entries with
  | nil => rfl
  | cons e entries ih =>
      have hne : e.type ≠ type := fun heq ↦ h ⟨e, List.mem_cons_self .., heq⟩
      rw [aiAgentIsFirstPkt, if_neg hne]
      exact ih fun ⟨e', he', heq⟩ ↦ h ⟨e', List.mem_cons_of_mem _ he', heq⟩

theorem setFirst_of_unlisted (h : ¬Listed type entries) (flag : Bool) :
    aiAgentSetFirstPkt type flag entries = entries := by
  induction entries with
  | nil => rfl
  | cons e entries ih =>
      have hne : e.type ≠ type := fun heq ↦ h ⟨e, List.mem_cons_self .., heq⟩
      rw [aiAgentSetFirstPkt, if_neg hne, ih fun ⟨e', he', heq⟩ ↦
        h ⟨e', List.mem_cons_of_mem _ he', heq⟩]

theorem isFirst_setFirst (h : Listed type entries) (flag : Bool) :
    aiAgentIsFirstPkt type (aiAgentSetFirstPkt type flag entries) = flag := by
  induction entries with
  | nil =>
      obtain ⟨e, he, -⟩ := h
      cases he
  | cons e entries ih =>
      rw [aiAgentSetFirstPkt]
      split_ifs with heq
      · rw [aiAgentIsFirstPkt, if_pos heq]
      · rw [aiAgentIsFirstPkt, if_neg heq]
        apply ih
        obtain ⟨e', he', htype⟩ := h
        rcases List.mem_cons.mp he' with rfl | he'
        · exact absurd htype heq
        · exact ⟨e', he', htype⟩

theorem isFirst_setFirst_of_ne (h : type' ≠ type) (flag : Bool) :
    aiAgentIsFirstPkt type' (aiAgentSetFirstPkt type flag entries) =
      aiAgentIsFirstPkt type' entries := by
  induction entries with
  | nil => rfl
  | cons e entries ih =>
      rw [aiAgentSetFirstPkt]
      split_ifs with heq
      · have hne : e.type ≠ type' := fun htype ↦ h (htype.symm.trans heq)
        rw [aiAgentIsFirstPkt, aiAgentIsFirstPkt, if_neg hne, if_neg hne]
      · rw [aiAgentIsFirstPkt, aiAgentIsFirstPkt, ih]

theorem isFirst_of_fresh (h : ∀ e ∈ entries, e.firstPkt = false) :
    aiAgentIsFirstPkt type entries = false := by
  induction entries with
  | nil => rfl
  | cons e entries ih =>
      rw [aiAgentIsFirstPkt]
      split_ifs
      · exact h e (List.mem_cons_self ..)
      · exact ih fun e' he' ↦ h e' (List.mem_cons_of_mem _ he')

theorem trackFlags_append (opened : Bool) (flags flags' : List AiStreamType) :
    trackFlags opened (flags ++ flags') =
      (trackFlags opened flags).bind fun opened ↦ trackFlags opened flags' := by
  induction flags generalizing opened with
  | nil => rfl
  | cons flag flags ih =>
      rw [List.cons_append, trackFlags, trackFlags, Option.bind_assoc]
      congr 1
      funext opened'
      exact ih opened'

theorem flagsOf_append (number : ℕ) (type : UInt8) (sent sent' : List SentPacket) :
    flagsOf number type (sent ++ sent') =
      flagsOf number type sent ++ flagsOf number type sent' := by
  simp only [flagsOf, List.filter_append, List.map_append]

end Entries

/-! ## The invariant -/

/-- The entries of a session remember whether its streams are open, and a slot that can be found
has a session that no other slot has. -/
structure AgentInv (ctx : AiAgentCtx) : Prop where
  distinct : ∀ {i j : ℕ} {s s' : AiAgentSession}, ctx.session[i]? = some s →
    ctx.session[j]? = some s' → s.number ≠ 0 → s.number = s'.number → i = j
  created : ∀ {i : ℕ} {s : AiAgentSession}, ctx.session[i]? = some s → s.number ≤ ctx.created
  numbered : ∀ {i : ℕ} {s : AiAgentSession}, ctx.session[i]? = some s →
    s.isActive = true ∨ s.sid ≠ [] → s.number ≠ 0
  sent : ∀ p ∈ ctx.sent, p.session ≤ ctx.created ∧ hasStreamFlag p.type = true
  tracked : ∀ number type, type ≠ aiPtImage → hasStreamFlag type = true →
    ∃ opened, trackFlags false (flagsOf number type ctx.sent) = some opened ∧
      ∀ {i : ℕ} {s : AiAgentSession}, ctx.session[i]? = some s → s.number = number →
        number ≠ 0 → aiAgentIsFirstPkt type s.send = opened

theorem agentInv_init (n : ℕ) : AgentInv (agentInit n) := by
  have hzero : ∀ {i : ℕ} {s : AiAgentSession}, (agentInit n).session[i]? = some s →
      s = zeroSession := by
    intro i s hs
    exact List.eq_of_mem_replicate (List.mem_of_getElem? hs)
  refine ⟨?_, ?_, ?_, ?_, ?_⟩
  · intro i j s s' hs _ hne
    rw [hzero hs] at hne
    exact absurd rfl hne
  · intro i s hs
    rw [hzero hs]
    exact Nat.zero_le _
  · intro i s hs hfound
    rw [hzero hs] at hfound
    simp [zeroSession] at hfound
  · simp [agentInit]
  · intro number type _ _
    refine ⟨false, rfl, ?_⟩
    intro i s hs hnumber hne
    rw [hzero hs] at hnumber
    exact absurd hnumber.symm hne

section Steps

variable {ctx : AiAgentCtx} {idx : ℕ} {session session' : AiAgentSession} {type : UInt8}

theorem flagsOf_of_ne {number : ℕ} {type : UInt8} {sent : List SentPacket}
    (h : ∀ p ∈ sent, p.session = number → p.type ≠ type) : flagsOf number type sent = [] := by
  rw [flagsOf, List.filter_eq_nil_iff.mpr]
  · rfl
  · intro p hp
    simpa using h p hp

theorem flagsOf_of_eq {number : ℕ} {type : UInt8} {sent : List SentPacket}
    (h : ∀ p ∈ sent, p.session = number ∧ p.type = type) :
    flagsOf number type sent = sent.map SentPacket.flag := by
  rw [flagsOf, List.filter_eq_self.mpr]
  intro p hp
  simpa using h p hp

/-- What a call sends for the stream of one type, and the entries behind it. -/
structure StreamUpdate (type : UInt8) (session session' : AiAgentSession)
    (more : List SentPacket) : Prop where
  number : session'.number = session.number
  sid : session'.sid = session.sid
  isActive : session'.isActive = session.isActive
  packets : ∀ p ∈ more, p.session = session.number ∧ p.type = type ∧ hasStreamFlag type = true
  others : ∀ type', type' ≠ type →
    aiAgentIsFirstPkt type' session'.send = aiAgentIsFirstPkt type' session.send
  flags : type ≠ aiPtImage → hasStreamFlag type = true →
    trackFlags (aiAgentIsFirstPkt type session.send) (more.map SentPacket.flag) =
      some (aiAgentIsFirstPkt type session'.send)

theorem AgentInv.update (h : AgentInv ctx) (hidx : ctx.session[idx]? = some session)
    (hnumber : session.number ≠ 0) {more : List SentPacket}
    (hup : StreamUpdate type session session' more) :
    AgentInv { ctx with session := ctx.session.set idx session', sent := ctx.sent ++ more } := by
  have hlt : idx < ctx.session.length := (List.getElem?_eq_some_iff.mp hidx).1
  -- a slot has the number that it had
  have hold : ∀ {i : ℕ} {s : AiAgentSession}, (ctx.session.set idx session')[i]? = some s →
      ∃ s', ctx.session[i]? = some s' ∧ s.number = s'.number ∧ s.sid = s'.sid ∧
        s.isActive = s'.isActive ∧ (i ≠ idx → s = s') ∧ (i = idx → s = session') := by
    intro i s hs
    rw [List.getElem?_set] at hs
    split_ifs at hs with hi
    · subst hi
      obtain rfl := Option.some.inj hs
      exact ⟨session, hidx, hup.number, hup.sid, hup.isActive, fun hne ↦ absurd rfl hne,
        fun _ ↦ rfl⟩
    · exact ⟨s, hs, rfl, rfl, rfl, fun _ ↦ rfl, fun heq ↦ absurd heq.symm hi⟩
  refine ⟨?_, ?_, ?_, ?_, ?_⟩
  · intro i j s s' hs hs' hne heq
    obtain ⟨t, ht, hst, -⟩ := hold hs
    obtain ⟨t', ht', hst', -⟩ := hold hs'
    exact h.distinct ht ht' (hst ▸ hne) (hst.symm.trans (heq.trans hst'))
  · intro i s hs
    obtain ⟨t, ht, hst, -⟩ := hold hs
    rw [hst]
    exact h.created ht
  · intro i s hs hfound
    obtain ⟨t, ht, hst, hsid, hact, -⟩ := hold hs
    rw [hst]
    apply h.numbered ht
    rw [← hact, ← hsid]
    exact hfound
  · intro p hp
    rcases List.mem_append.mp hp with hp | hp
    · exact h.sent p hp
    · obtain ⟨hsession, rfl, hflag⟩ := hup.packets p hp
      exact ⟨hsession ▸ h.created hidx, hflag⟩
  · intro number type' himage hflag
    obtain ⟨opened, htrack, hopen⟩ := h.tracked number type' himage hflag
    by_cases hself : number = session.number ∧ type' = type
    · obtain ⟨rfl, rfl⟩ := hself
      refine ⟨aiAgentIsFirstPkt type' session'.send, ?_, ?_⟩
      · have hmore : flagsOf session.number type' more = more.map SentPacket.flag :=
          flagsOf_of_eq fun p hp ↦ ⟨(hup.packets p hp).1, (hup.packets p hp).2.1⟩
        rw [flagsOf_append, trackFlags_append, htrack, Option.bind_some, hmore,
          ← hopen hidx rfl hnumber]
        exact hup.flags himage hflag
      · intro i s hs hnum _
        obtain ⟨t, ht, hst, -, -, -, heq⟩ := hold hs
        have hi : i = idx := (h.distinct hidx ht hnumber (hnum.symm.trans hst)).symm
        rw [heq hi]
    · refine ⟨opened, ?_, ?_⟩
      · have hmore : flagsOf number type' more = [] := by
          apply flagsOf_of_ne
          intro p hp hsession htype
          apply hself
          obtain ⟨hp1, hp2, -⟩ := hup.packets p hp
          exact ⟨hsession.symm.trans hp1, htype.symm.trans hp2⟩
        rw [flagsOf_append, hmore, List.append_nil]
        exact htrack
      · intro i s hs hnum hne
        obtain ⟨t, ht, hst, -, -, hsame, heq⟩ := hold hs
        by_cases hi : i = idx
        · subst hi
          obtain rfl : t = session := Option.some.inj (ht.symm.trans hidx)
          rw [heq rfl, hup.others type' fun htype ↦ hself ⟨hnum.symm.trans hst, htype⟩]
          exact hopen ht (hst.symm.trans hnum) hne
        · rw [hsame hi]
          exact hopen ht (hst.symm.trans hnum) hne

/-! ## Sessions come and go -/

/-- A slot keeps its session, perhaps as the active one, or has none. -/
def Kept (s s' : AiAgentSession) : Prop :=
  (s'.number = 0 ∧ s'.isActive = false ∧ s'.sid = []) ∨
    s'.number = s.number ∧ s'.send = s.send ∧ s'.sid = s.sid ∧
      (s'.isActive = true → s.isActive = true ∨ s.sid ≠ [])

theorem AgentInv.kept (h : AgentInv ctx) {sessions : List AiAgentSession}
    (hkept : ∀ (i : ℕ) (s' : AiAgentSession), sessions[i]? = some s' →
    ∃ s, ctx.session[i]? = some s ∧ Kept s s') :
    AgentInv { ctx with session := sessions } := by
  have hnum : ∀ {i : ℕ} {s' : AiAgentSession}, sessions[i]? = some s' → s'.number ≠ 0 →
      ∃ s, ctx.session[i]? = some s ∧ s'.number = s.number ∧ s'.send = s.send := by
    intro i s' hs hne
    obtain ⟨s, hs', ⟨hzero, -⟩ | ⟨hnumber, hsend, -⟩⟩ := hkept i s' hs
    · exact absurd hzero hne
    · exact ⟨s, hs', hnumber, hsend⟩
  refine ⟨?_, ?_, ?_, h.sent, ?_⟩
  · intro i j s s' hs hs' hne heq
    obtain ⟨t, ht, hst, -⟩ := hnum hs hne
    obtain ⟨t', ht', hst', -⟩ := hnum hs' (heq ▸ hne)
    exact h.distinct ht ht' (hst ▸ hne) (hst.symm.trans (heq.trans hst'))
  · intro i s hs
    by_cases hne : s.number = 0
    · rw [hne]
      exact Nat.zero_le _
    · obtain ⟨t, ht, hst, -⟩ := hnum hs hne
      rw [hst]
      exact h.created ht
  · intro i s' hs hfound
    obtain ⟨s, hs', ⟨-, hact, hsid⟩ | ⟨hnumber, -, hsid, hact⟩⟩ := hkept i s' hs
    · rcases hfound with hfound | hfound
      · cases hact.symm.trans hfound
      · exact absurd hsid hfound
    · rw [hnumber]
      apply h.numbered hs'
      rw [hsid] at hfound
      exact hfound.elim hact .inr
  · intro number type himage hflag
    obtain ⟨opened, htrack, hopen⟩ := h.tracked number type himage hflag
    refine ⟨opened, htrack, ?_⟩
    intro i s' hs hnumber hne
    obtain ⟨s, hs', hnumber', hsend⟩ := hnum hs (hnumber ▸ hne)
    rw [hsend]
    exact hopen hs' (hnumber'.symm.trans hnumber) hne

theorem AgentInv.fresh (h : AgentInv ctx) {new : AiAgentSession}
    (hnumber : new.number = ctx.created + 1)
    (hfresh : ∀ e ∈ new.send, e.firstPkt = false) (idx : ℕ) :
    AgentInv { ctx with session := ctx.session.set idx new, created := ctx.created + 1 } := by
  have hold : ∀ {i : ℕ} {s : AiAgentSession}, (ctx.session.set idx new)[i]? = some s →
      (i = idx ∧ s = new) ∨ ctx.session[i]? = some s := by
    intro i s hs
    rw [List.getElem?_set] at hs
    split_ifs at hs with hi hbound
    · exact .inl ⟨hi.symm, (Option.some.inj hs).symm⟩
    · exact .inr hs
  refine ⟨?_, ?_, ?_, ?_, ?_⟩
  · intro i j s s' hs hs' hne heq
    rcases hold hs with ⟨rfl, rfl⟩ | hold1 <;> rcases hold hs' with ⟨rfl, rfl⟩ | hold2
    · rfl
    · have := h.created hold2
      omega
    · have := h.created hold1
      omega
    · exact h.distinct hold1 hold2 hne heq
  · intro i s hs
    rcases hold hs with ⟨rfl, rfl⟩ | hs
    · exact hnumber.le
    · exact (h.created hs).trans (Nat.le_succ _)
  · intro i s hs hfound
    rcases hold hs with ⟨rfl, rfl⟩ | hs
    · rw [hnumber]
      exact Nat.succ_ne_zero _
    · exact h.numbered hs hfound
  · intro p hp
    exact ⟨(h.sent p hp).1.trans (Nat.le_succ _), (h.sent p hp).2⟩
  · intro number type himage hflag
    by_cases hnew : number = ctx.created + 1
    · refine ⟨false, ?_, ?_⟩
      · have hnone : flagsOf number type ctx.sent = [] := by
          apply flagsOf_of_ne
          intro p hp hsession
          have := (h.sent p hp).1
          omega
        dsimp only
        rw [hnone]
        rfl
      · intro i s hs hnum _
        rcases hold hs with ⟨rfl, rfl⟩ | hs
        · exact isFirst_of_fresh hfresh
        · have := h.created hs
          omega
    · obtain ⟨opened, htrack, hopen⟩ := h.tracked number type himage hflag
      refine ⟨opened, htrack, ?_⟩
      intro i s hs hnum hne
      rcases hold hs with ⟨rfl, rfl⟩ | hs
      · exact absurd (hnum.symm.trans hnumber) hnew
      · exact hopen hs hnum hne

theorem updateSidLoop_kept (scode : CString) (found : Bool) (sessions : List AiAgentSession) (i : ℕ)
    (s' : AiAgentSession) (h : (updateSidLoop scode found sessions).1[i]? = some s') :
    ∃ s, sessions[i]? = some s ∧ Kept s s' := by
  induction sessions generalizing found i with
  | nil => simp [updateSidLoop] at h
  | cons session sessions ih =>
      rw [updateSidLoop] at h
      split_ifs at h with hthis
      · cases i with
        | zero =>
            obtain rfl := Option.some.inj h
            exact ⟨session, rfl, .inr ⟨rfl, rfl, rfl, fun _ ↦ .inr hthis.2.2⟩⟩
        | succ i => exact ih true i h
      · cases i with
        | zero =>
            obtain rfl := Option.some.inj h
            exact ⟨session, rfl, .inr ⟨rfl, rfl, rfl, fun hact ↦ by cases hact⟩⟩
        | succ i => exact ih found i h

theorem AgentInv.cleared (h : AgentInv ctx) (idx : ℕ) (scode : CString) :
    AgentInv { ctx with session := ctx.session.set idx { zeroSession with scode := scode } } := by
  apply h.kept
  intro i s' hs
  rw [List.getElem?_set] at hs
  split_ifs at hs with hi hbound
  · subst hi
    obtain rfl := Option.some.inj hs
    exact ⟨ctx.session[idx], List.getElem?_eq_getElem hbound, .inl ⟨rfl, rfl, rfl⟩⟩
  · exact ⟨s', hs, .inr ⟨rfl, rfl, rfl, .inl⟩⟩

theorem AgentInv.crtSession (h : AgentInv ctx) (scode : CString)
    (token : Except OperateRet (List (UInt8 × ℕ))) (sid : Except OperateRet CString) :
    AgentInv (tuyaAiAgentCrtSession ctx scode token sid).1 := by
  rw [tuyaAiAgentCrtSession]
  have hkept := h.kept (updateSidLoop_kept scode false ctx.session)
  generalize updateSidLoop scode false ctx.session = looped at hkept ⊢
  obtain ⟨sessions, found⟩ := looped
  dsimp only at hkept ⊢
  split_ifs
  · exact hkept
  split
  · exact hkept
  · rename_i idx _
    have hclear := hkept.cleared idx (scode.take (aiSolutionCodeLen - 1))
    split
    · exact hclear
    · exact hclear
    · rename_i send sid
      apply hclear.fresh rfl
      intro e he
      rcases List.mem_append.mp he with he | he
      · obtain ⟨e', -, rfl⟩ := List.mem_map.mp he
        rfl
      · rw [List.eq_of_mem_replicate he]

theorem AgentInv.delSid (h : AgentInv ctx) (sid : CString) : AgentInv (aiAgentDelSid ctx sid) := by
  rw [aiAgentDelSid]
  split
  · exact h.cleared _ []
  · exact h

/-! ## Uploads -/

theorem AgentInv.active (h : AgentInv ctx) (hactive : ctx.active = some idx) :
    ∃ session, ctx.session[idx]? = some session ∧ ctx.session.getD idx zeroSession = session ∧
      session.number ≠ 0 := by
  obtain ⟨hlt, hact, -⟩ := List.findIdx?_eq_some_iff_getElem.mp hactive
  have hidx : ctx.session[idx]? = some ctx.session[idx] := List.getElem?_eq_getElem hlt
  refine ⟨ctx.session[idx], hidx, ?_, h.numbered hidx (.inl hact)⟩
  rw [List.getD_eq_getElem?_getD, hidx, Option.getD_some]

/-- What `aiUploadStream` sends. -/
def packetOf (session : AiAgentSession) (type : UInt8) (chunk : UploadChunk) (totalLen : ℕ) :
    List SentPacket :=
  let stype := streamType type session chunk totalLen
  if chunk.sends = true ∧ hasStreamFlag type = true then
    [⟨session.number, type, aiAgentGetSendId type session.send, stype,
      stype = .start ∨ stype = .one, chunk.len, totalLen⟩]
  else []

/-- The session behind it: a START is remembered before it is sent. -/
def sessionAfter (session : AiAgentSession) (type : UInt8) (chunk : UploadChunk) (totalLen : ℕ) :
    AiAgentSession :=
  if streamType type session chunk totalLen = .start then session.setFirstPkt type true else session

theorem set_same {sessions : List AiAgentSession} (h : sessions[idx]? = some session) :
    sessions.set idx session = sessions := by
  obtain ⟨hlt, rfl⟩ := List.getElem?_eq_some_iff.mp h
  exact List.set_getElem_self hlt

theorem aiUploadStream_eq (hactive : ctx.active = some idx)
    (hidx : ctx.session[idx]? = some session)
    (hsession : ctx.session.getD idx zeroSession = session)
    (chunk : UploadChunk) (totalLen : ℕ) :
    (aiUploadStream ctx type chunk totalLen).1 =
      { ctx with
        session := ctx.session.set idx (sessionAfter session type chunk totalLen)
        sent := ctx.sent ++ packetOf session type chunk totalLen } := by
  simp only [aiUploadStream, hactive, hsession, packetOf, sessionAfter]
  by_cases hstart : streamType type session chunk totalLen = .start <;>
    cases hsends : chunk.sends <;> cases hflag : hasStreamFlag type <;>
      simp [hstart, set_same hidx]

theorem sessionAfter_others {type' : UInt8} (h : type' ≠ type) (session : AiAgentSession)
    (chunk : UploadChunk) (totalLen : ℕ) :
    aiAgentIsFirstPkt type' (sessionAfter session type chunk totalLen).send =
      aiAgentIsFirstPkt type' session.send := by
  rw [sessionAfter]
  split_ifs
  · exact isFirst_setFirst_of_ne h true
  · rfl

theorem packetOf_mem {chunk : UploadChunk} {totalLen : ℕ} {p : SentPacket}
    (h : p ∈ packetOf session type chunk totalLen) :
    p.session = session.number ∧ p.type = type ∧ hasStreamFlag type = true := by
  rw [packetOf] at h
  split_ifs at h with hsent
  · obtain rfl := List.mem_singleton.mp h
    exact ⟨rfl, rfl, hsent.2⟩
  · cases h

theorem streamType_start {chunk : UploadChunk} {totalLen : ℕ}
    (h : streamType type session chunk totalLen = .start) :
    aiAgentIsFirstPkt type session.send = false := by
  rw [streamType] at h
  split_ifs at h
  assumption

theorem streamType_ing {chunk : UploadChunk} {totalLen : ℕ}
    (h : streamType type session chunk totalLen = .ing) :
    aiAgentIsFirstPkt type session.send = true := by
  rw [streamType] at h
  split_ifs at h with _ hopen
  simpa using hopen

theorem flags_packetOf (hflag : hasStreamFlag type = true) (chunk : UploadChunk) (totalLen : ℕ) :
    (packetOf session type chunk totalLen).map SentPacket.flag =
      if chunk.sends = true then [streamType type session chunk totalLen] else [] := by
  rw [packetOf]
  cases chunk.sends <;> simp [hflag]

theorem streamUpdate_of_ok (hactive : ctx.active = some idx)
    (hsession : ctx.session.getD idx zeroSession = session) {chunk : UploadChunk} {totalLen : ℕ}
    (hok : StreamOk ctx type chunk totalLen) :
    StreamUpdate type session (sessionAfter session type chunk totalLen)
      (packetOf session type chunk totalLen) where
  number := by
    rw [sessionAfter]
    split_ifs <;> rfl
  sid := by
    rw [sessionAfter]
    split_ifs <;> rfl
  isActive := by
    rw [sessionAfter]
    split_ifs <;> rfl
  packets _ hp := packetOf_mem hp
  others _ htype := sessionAfter_others htype session chunk totalLen
  flags := by
    intro himage hflag
    have hstream := hok himage hflag idx hactive
    simp only [hsession] at hstream
    rw [flags_packetOf hflag, sessionAfter]
    cases hstype : streamType type session chunk totalLen with
    | start =>
        rw [hstype] at hstream
        rw [streamType_start hstype, if_pos rfl, AiAgentSession.setFirstPkt]
        by_cases hlisted : Listed type session.send
        · rw [if_pos (hstream.mpr hlisted), isFirst_setFirst hlisted]
          rfl
        · rw [if_neg (fun hsends ↦ hlisted (hstream.mp hsends)), setFirst_of_unlisted hlisted,
            isFirst_of_unlisted hlisted]
          rfl
    | ing =>
        have hnot : AiStreamType.ing ≠ .start := by decide
        rw [if_neg hnot, streamType_ing hstype]
        split_ifs <;> rfl
    | finish =>
        rw [hstype] at hstream
        have hnot : AiStreamType.finish ≠ .start := by decide
        have hfails : ¬chunk.sends = true := ne_true_of_eq_false hstream
        rw [if_neg hfails, if_neg hnot]
        rfl
    | one =>
        rw [hstype] at hstream
        have hnot : AiStreamType.one ≠ .start := by decide
        rw [if_neg hnot]
        split_ifs with hsends
        · rw [hstream hsends]
          rfl
        · rfl

theorem AgentInv.stream (h : AgentInv ctx) {chunk : UploadChunk} {totalLen : ℕ}
    (hok : StreamOk ctx type chunk totalLen) :
    AgentInv (aiUploadStream ctx type chunk totalLen).1 := by
  cases hactive : ctx.active with
  | none =>
      rw [aiUploadStream, hactive]
      exact h
  | some idx =>
      obtain ⟨session, hidx, hsession, hnumber⟩ := h.active hactive
      rw [aiUploadStream_eq hactive hidx hsession]
      exact h.update hidx hnumber (streamUpdate_of_ok hactive hsession hok)

theorem AgentInv.encoded (h : AgentInv ctx) {chunks : List UploadChunk}
    (hok : EncodedOk ctx chunks) :
    AgentInv (uploadEncoded ctx chunks) := by
  induction chunks generalizing ctx with
  | nil => exact h
  | cons chunk chunks ih => exact ih (h.stream hok.1) hok.2

theorem AgentInv.upload (h : AgentInv ctx) {chunk : UploadChunk} {totalLen : ℕ}
    {encoded : List UploadChunk} {rt : OperateRet}
    (hok : Streaming ctx (.upload type chunk totalLen encoded rt)) :
    AgentInv (tuyaAiAgentUploadStream ctx type chunk totalLen encoded rt).1 := by
  rw [tuyaAiAgentUploadStream]
  rw [Streaming] at hok
  split
  · rename_i handle hencoder
    rw [hencoder] at hok
    dsimp only at hok
    by_cases haudio : type = aiPtAudio
    · rw [if_pos haudio] at hok ⊢
      split_ifs with hhandle hlen hdata
      · exact h
      · exact h
      · have hencoded := hok (by simpa using hhandle) (by simpa using hlen)
        rw [if_pos hdata] at hencoded
        exact h.encoded hencoded
      · have hstream := hok (by simpa using hhandle) (by simpa using hlen)
        rw [if_neg hdata] at hstream
        exact h.stream hstream
    · rw [if_neg haudio] at hok ⊢
      exact h.stream hok
  · rename_i hencoder
    rw [hencoder] at hok
    exact h.stream hok

/-! ## The end of the streams -/

theorem listed_of_isFirst {entries : List AiAgentId} (h : aiAgentIsFirstPkt type entries = true) :
    Listed type entries := by
  by_contra hnot
  rw [isFirst_of_unlisted hnot] at h
  cases h

theorem endUpload_eq (hactive : ctx.active = some idx) (hidx : ctx.session[idx]? = some session)
    (hsession : ctx.session.getD idx zeroSession = session)
    (hfirst : aiAgentIsFirstPkt type session.send = true) {sends : Bool}
    (hencoder : type = aiPtAudio → ctx.encoder ≠ some false) :
    (tuyaAiAgentUploadStream ctx type ⟨false, 0, sends⟩ 0 [] oprtOk).1 =
      { ctx with sent := ctx.sent ++ packetOf session type ⟨false, 0, sends⟩ 0 } := by
  have hnot : streamType type session ⟨false, 0, sends⟩ 0 ≠ .start := by
    intro hstart
    cases (streamType_start hstart).symm.trans hfirst
  have hstream : (aiUploadStream ctx type ⟨false, 0, sends⟩ 0).1 =
      { ctx with sent := ctx.sent ++ packetOf session type ⟨false, 0, sends⟩ 0 } := by
    rw [aiUploadStream_eq hactive hidx hsession, sessionAfter, if_neg hnot, set_same hidx]
  rw [← hstream, tuyaAiAgentUploadStream]
  cases hhandle : ctx.encoder with
  | none => rfl
  | some handle =>
      dsimp only
      split_ifs with haudio hnone hlen hdata
      · exact absurd (hnone ▸ hhandle) (hencoder haudio)
      · exact absurd rfl hlen
      · cases hdata.1
      · rfl
      · rfl

theorem streamUpdate_end (hfirst : aiAgentIsFirstPkt type session.send = true) {sends : Bool}
    (hsends : type ≠ aiPtImage → hasStreamFlag type = true → sends = true) :
    StreamUpdate type session (session.setFirstPkt type false)
      (packetOf session type ⟨false, 0, sends⟩ 0) where
  number := rfl
  sid := rfl
  isActive := rfl
  packets _ hp := packetOf_mem hp
  others _ htype := isFirst_setFirst_of_ne htype false
  flags := by
    intro himage hflag
    have hend : streamType type session ⟨false, 0, sends⟩ 0 = .finish := by
      simp [streamType, aiAgentIsNeedStreamFlag, himage, hfirst]
    rw [flags_packetOf hflag, hend, if_pos (hsends himage hflag), hfirst,
      AiAgentSession.setFirstPkt, isFirst_setFirst (listed_of_isFirst hfirst)]
    rfl

theorem findIdx_active_set {sessions : List AiAgentSession} (hidx : sessions[idx]? = some session)
    (h : session'.isActive = session.isActive) :
    (sessions.set idx session').findIdx? (fun s ↦ s.isActive) =
      sessions.findIdx? fun s ↦ s.isActive := by
  have hmap : ∀ l : List AiAgentSession,
      l.findIdx? (fun s ↦ s.isActive) = (l.map AiAgentSession.isActive).findIdx? id := by
    intro l
    rw [List.findIdx?_map]
    rfl
  obtain ⟨hlt, rfl⟩ := List.getElem?_eq_some_iff.mp hidx
  rw [hmap, hmap, List.map_set, h]
  congr 1
  rw [← List.getElem_map AiAgentSession.isActive (h := by simpa using hlt)]
  exact List.set_getElem_self _

theorem AgentInv.endEntry (h : AgentInv ctx) (hactive : ctx.active = some idx) {entry : ℕ}
    {sends : Bool} (hok : EntryOk ctx idx entry sends) :
    AgentInv (endEntry ctx idx entry sends) ∧
      (Ai.endEntry ctx idx entry sends).active = some idx := by
  obtain ⟨session, hidx, hsession, hnumber⟩ := h.active hactive
  rw [EntryOk] at hok
  rw [Ai.endEntry]
  simp only [hsession] at hok ⊢
  set type := (session.send.map AiAgentId.type).getD entry 0
  split_ifs with hfirst
  · have hencoder : type = aiPtAudio → ctx.encoder ≠ some false := by
      intro haudio
      have haudio' : type ≠ aiPtImage ∧ hasStreamFlag type = true := by
        rw [haudio]
        decide
      exact (hok haudio'.1 haudio'.2 hfirst).2 haudio
    rw [endUpload_eq hactive hidx hsession hfirst hencoder]
    dsimp only
    rw [hsession]
    constructor
    · apply h.update hidx hnumber
      apply streamUpdate_end hfirst
      intro himage hflag
      exact (hok himage hflag hfirst).1
    · have hsame : (session.setFirstPkt type false).isActive = session.isActive := rfl
      exact (findIdx_active_set hidx hsame).trans hactive
  · exact ⟨h, hactive⟩

theorem AgentInv.endLoop (h : AgentInv ctx) (hactive : ctx.active = some idx)
    {entries : List (ℕ × Bool)} (hok : EndOk ctx idx entries) :
    AgentInv (endLoop ctx idx entries) := by
  induction entries generalizing ctx with
  | nil => exact h
  | cons e entries ih =>
      obtain ⟨hinv, hactive'⟩ := h.endEntry hactive hok.1
      exact ih hinv hactive' hok.2

theorem AgentInv.finish (h : AgentInv ctx) {sends : ℕ → Bool}
    (hok : Streaming ctx (.finish sends)) : AgentInv (tuyaAiAgentEnd ctx sends).1 := by
  rw [tuyaAiAgentEnd]
  rw [Streaming] at hok
  generalize (List.range aiBizMaxNum).map (fun entry ↦ (entry, sends entry)) = entries at hok ⊢
  split
  · exact h
  · rename_i idx hactive
    exact h.endLoop hactive (hok idx hactive)

theorem AgentInv.step (h : AgentInv ctx) (x : AgentStep) (hok : Streaming ctx x) :
    AgentInv (agentStep ctx x).1 := by
  cases x with
  | crtSession scode token sid => exact h.crtSession scode token sid
  | delSid sid => exact h.delSid sid
  | setEncoder encoder =>
      exact ⟨h.distinct, h.created, h.numbered, h.sent, h.tracked⟩
  | upload type chunk totalLen encoded rt => exact h.upload hok
  | finish sends => exact h.finish hok

theorem AgentInv.wellFormed (h : AgentInv ctx) : FlagsWellFormed ctx := by
  intro number type himage
  by_cases hflag : hasStreamFlag type = true
  · obtain ⟨opened, htrack, -⟩ := h.tracked number type himage hflag
    rw [htrack]
    rfl
  · have hnone : flagsOf number type ctx.sent = [] := by
      apply flagsOf_of_ne
      rintro p hp - rfl
      exact hflag (h.sent p hp).2
    rw [hnone]
    rfl

end Steps

/-! ## Runs -/

/-- Over any calls that meet the condition, the flags that were sent stay well formed. -/
theorem stream_flags_well_formed (n : ℕ) (steps : List AgentStep)
    (hok : agentMachine.Guarded Streaming (agentInit n) steps) (k : ℕ) :
    FlagsWellFormed (agentMachine.final (agentInit n) (steps.take k)) := by
  have hinv : AgentInv (agentMachine.final (agentInit n) (steps.take k)) :=
    agentMachine.inv_final (fun _ x h hx ↦ h.step x hx) (agentInv_init n) (hok.take k)
  exact hinv.wellFormed

/-- One session with an entry for text. -/
def textSession : AgentStep := .crtSession [97] (.ok [(aiPtText, 1)]) (.ok [115])

def uploadText (len : ℕ) (sends : Bool) : AgentStep :=
  .upload aiPtText ⟨true, len, sends⟩ len [] oprtOk

def textStream : List AgentStep :=
  [textSession, uploadText 3 true, uploadText 2 true, .finish fun _ ↦ true, uploadText 1 true]

/-- A START, an ING whose chunk has three bytes, the END, and the next START. -/
theorem stream_flags_textStream :
    agentMachine.Guarded Streaming (agentInit 1) textStream ∧
    FlagsWellFormed (agentMachine.final (agentInit 1) (textStream.take 5)) ∧
    flagsOf 1 aiPtText (agentMachine.final (agentInit 1) textStream).sent =
      [.start, .ing, .finish, .start] := by
  have hok : agentMachine.Guarded Streaming (agentInit 1) textStream := by
    refine ⟨trivial, ?_, ?_, ?_, ?_, trivial⟩
    · intro _ _ idx hactive
      obtain rfl := Option.some.inj hactive
      decide
    · intro _ _ idx hactive
      obtain rfl := Option.some.inj hactive
      decide
    · intro idx hactive
      obtain rfl := Option.some.inj hactive
      decide
    · intro _ _ idx hactive
      obtain rfl := Option.some.inj hactive
      decide
  exact ⟨hok, stream_flags_well_formed 1 textStream hok 5, by decide⟩

/-- The stream ends with an empty chunk, and `tuya_ai_agent_end` sends its END once more. -/
def emptyChunkStream : List AgentStep :=
  [textSession, uploadText 3 true, uploadText 0 true, .finish fun _ ↦ true]

theorem stream_flags_not_well_formed :
    ¬∀ (n : ℕ) (steps : List AgentStep) (k : ℕ),
      FlagsWellFormed (agentMachine.final (agentInit n) (steps.take k)) := by
  intro h
  have htext : (trackFlags false (flagsOf 1 aiPtText
      (agentMachine.final (agentInit 1) (emptyChunkStream.take 4)).sent)).isSome :=
    h 1 emptyChunkStream 4 1 aiPtText (by decide)
  revert htext
  decide

end TuyaOpen.Ai
