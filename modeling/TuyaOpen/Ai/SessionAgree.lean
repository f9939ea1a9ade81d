import TuyaOpen.Ai.SessionTables
import TuyaOpen.Lib.Slots

/-!
# The session tables agree

A session that was created is in both tables, a deleted one is gone from both, and one is
active at most: as long as the business table has room, no code is the beginning of another,
and only codes of sessions are deleted.
-/

namespace TuyaOpen.Ai

open Slots

/-! ## What a call should do -/

def AiBiz.has (biz : AiBiz) (id : CString) : Bool :=
  biz.session.any fun b ↦ b.any fun s ↦ s.id = id

/-- The codes and ids in the slots of the agent. -/
def AiAgentCtx.keys (ctx : AiAgentCtx) : List (CString × CString) :=
  ctx.session.map fun s ↦ (s.scode, s.sid)

def AiAgentSession.live (s : AiAgentSession) : Option AiAgentSession :=
  if s.sid = [] then none else some s

/-- A session is filed under the code. -/
def AiAgentCtx.Filed (ctx : AiAgentCtx) (scode sid : CString) : Prop :=
  (scode, sid) ∈ ctx.keys ∧ sid ≠ []

def OneActive (ctx : AiAgentCtx) : Prop :=
  ctx.session.Pairwise fun s s' ↦ ¬(s.isActive = true ∧ s'.isActive = true)

/-- The session of the code is in both tables. -/
def InBoth (t : SessionTables) (scode : CString) : Prop :=
  ∃ sid, t.agent.Filed scode sid ∧ t.biz.has sid = true

/-- The session of the code is in neither of the tables, and nothing else has changed. -/
def Removed (t t' : SessionTables) (scode : CString) : Prop :=
  t'.agent.session.map AiAgentSession.live =
      t.agent.session.map (fun s ↦ if s.scode = scode then none else s.live) ∧
    t'.biz.session = t.biz.session.map fun b : Option AiBizSession ↦
      b.filter fun s ↦ (scode, s.id) ∉ t.agent.keys

/-- A call uses no slot outside of the tables, leaves one active session at most, and does
what its name says. -/
def CallOk (t : SessionTables) (call : TableCall) : Prop :=
  match tableStep t call with
  | .error _ => False
  | .ok (t', ret) => OneActive t'.agent ∧
      match call with
      | .crtSession scode _ _ _ => ret = oprtOk → InBoth t' scode
      | .bizCrtSession _ _ random _ => ret = oprtOk → t'.biz.has (aiBasicUuidV4 random) = true
      | .delSession scode _ => Removed t t' scode
      | _ => True

/-- What the random generator and the token request see to: an id that is not in use, and a
code of failure for a failure. -/
def Supplied (t : SessionTables) : TableCall → Prop
  | .crtSession _ token random _ =>
      t.biz.has (aiBasicUuidV4 random) = false ∧ ∀ rt, token = .error rt → rt ≠ oprtOk
  | .bizCrtSession _ _ random _ => t.biz.has (aiBasicUuidV4 random) = false
  | _ => True

/-- A new session needs a slot in the business table and a code that fits; one that is there
must not have lost its entry.  The first slot whose code begins with the one to delete is that
of its session, and there is one. -/
def Served (t : SessionTables) : TableCall → Prop
  | .crtSession scode token _ sent =>
      ((∃ sid, t.agent.Filed scode sid) → InBoth t scode) ∧
        ((∀ sid, ¬t.agent.Filed scode sid) → (∃ s ∈ t.agent.session, s.sid = []) →
          (∃ k, token = .ok k) → sent = oprtOk →
          scode.length < aiSolutionCodeLen ∧ none ∈ t.biz.session)
  | .bizCrtSession _ _ _ sent => sent = oprtOk → none ∈ t.biz.session
  | .delSession scode _ =>
      match t.agent.session.find? fun s ↦ scode.isPrefixOf s.scode with
      | none => aiBizMaxNum ≤ t.agent.session.length
      | some s => if s.sid = [] then ∀ sid, ¬t.agent.Filed scode sid else s.scode = scode
  | _ => True

/-! ## The table of the agent -/

section Agent

variable {ctx : AiAgentCtx} {scode sid : CString}

def keyOf (s : AiAgentSession) : CString × CString := (s.scode, s.sid)

theorem updateSidLoop_keys (scode : CString) (found : Bool) (l : List AiAgentSession) :
    (updateSidLoop scode found l).1.map keyOf = l.map keyOf := by
  induction l generalizing found with
  | nil => rfl
  | cons s l ih =>
      rw [updateSidLoop]
      split_ifs
      · exact congrArg (keyOf s :: ·) (ih true)
      · exact congrArg (keyOf s :: ·) (ih found)

theorem updateSidLoop_true (scode : CString) (l : List AiAgentSession) :
    (updateSidLoop scode true l).2 = true ∧
      ∀ s ∈ (updateSidLoop scode true l).1, s.isActive = false := by
  induction l with
  | nil => exact ⟨rfl, fun s hs ↦ absurd hs List.not_mem_nil⟩
  | cons s l ih =>
      rw [updateSidLoop, if_neg (by simp)]
      refine ⟨ih.1, fun s' hs' ↦ ?_⟩
      rcases List.mem_cons.mp hs' with rfl | hs'
      · rfl
      · exact ih.2 s' hs'

theorem updateSidLoop_false (scode : CString) (l : List AiAgentSession) :
    ((updateSidLoop scode false l).2 = true ↔ ∃ s ∈ l, s.scode = scode ∧ s.sid ≠ []) ∧
      ((updateSidLoop scode false l).1.Pairwise fun s s' ↦
        ¬(s.isActive = true ∧ s'.isActive = true)) ∧
      ((updateSidLoop scode false l).2 = false →
        ∀ s ∈ (updateSidLoop scode false l).1, s.isActive = false) := by
  induction l with
  | nil => simp [updateSidLoop]
  | cons s l ih =>
      by_cases hmatch : s.scode = scode ∧ s.sid ≠ []
      · obtain ⟨htrue, hinactive⟩ := updateSidLoop_true scode l
        rw [updateSidLoop, if_pos ⟨rfl, hmatch⟩]
        refine ⟨iff_of_true htrue ⟨s, List.mem_cons_self, hmatch⟩, ?_, fun hfalse ↦ ?_⟩
        · refine List.pairwise_cons.mpr ⟨fun s' hs' ↦ ?_, ?_⟩
          · rw [hinactive s' hs']
            simp
          · refine List.pairwise_of_forall_mem_list fun a ha b _ ↦ ?_
            rw [hinactive a ha]
            simp
        · rw [htrue] at hfalse
          cases hfalse
      · obtain ⟨hiff, hpair, hnone⟩ := ih
        rw [updateSidLoop, if_neg fun h ↦ hmatch h.2]
        refine ⟨?_, ?_, fun hfalse s' hs' ↦ ?_⟩
        · refine hiff.trans ⟨fun ⟨x, hx, hkey⟩ ↦ ⟨x, List.mem_cons_of_mem s hx, hkey⟩, ?_⟩
          rintro ⟨x, hx, hkey⟩
          rcases List.mem_cons.mp hx with rfl | hx
          · exact absurd hkey hmatch
          · exact ⟨x, hx, hkey⟩
        · exact List.pairwise_cons.mpr ⟨fun s' _ ↦ by simp, hpair⟩
        · rcases List.mem_cons.mp hs' with rfl | hs'
          · rfl
          · exact hnone hfalse s' hs'

theorem keys_eq (ctx : AiAgentCtx) : ctx.keys = ctx.session.map keyOf := rfl

theorem filed_iff : ctx.Filed scode sid ↔ ∃ s ∈ ctx.session, s.scode = scode ∧ s.sid = sid ∧
    sid ≠ [] := by
  rw [AiAgentCtx.Filed, keys_eq, List.mem_map]
  constructor
  · rintro ⟨⟨s, hs, hkey⟩, hne⟩
    cases hkey
    exact ⟨s, hs, rfl, rfl, hne⟩
  · rintro ⟨s, hs, rfl, rfl, hne⟩
    exact ⟨⟨s, hs, rfl⟩, hne⟩

theorem crt_of_found (hfiled : ∃ sid, ctx.Filed scode sid)
    (token : Except OperateRet (List (UInt8 × ℕ))) (new : Except OperateRet CString) :
    ∃ ctx', tuyaAiAgentCrtSession ctx scode token new = (ctx', oprtOk) ∧ ctx'.keys = ctx.keys ∧
      OneActive ctx' := by
  obtain ⟨sid, hfiled⟩ := hfiled
  obtain ⟨s, hs, hcode, hsid, hne⟩ := filed_iff.mp hfiled
  obtain ⟨hiff, hpair, -⟩ := updateSidLoop_false scode ctx.session
  have hkeys := updateSidLoop_keys scode false ctx.session
  have hfound := hiff.mpr ⟨s, hs, hcode, hsid ▸ hne⟩
  rw [tuyaAiAgentCrtSession]
  generalize updateSidLoop scode false ctx.session = looped at hfound hpair hkeys ⊢
  obtain ⟨sessions, found⟩ := looped
  dsimp only at hfound hpair hkeys
  subst hfound
  exact ⟨_, rfl, hkeys, hpair⟩

theorem updateSidLoop_of_new (hnew : ∀ sid, ¬ctx.Filed scode sid) :
    ∃ sessions, updateSidLoop scode false ctx.session = (sessions, false) ∧
      sessions.map keyOf = ctx.keys ∧ ∀ s ∈ sessions, s.isActive = false := by
  obtain ⟨hiff, -, hnone⟩ := updateSidLoop_false scode ctx.session
  have hkeys := updateSidLoop_keys scode false ctx.session
  have hfound : (updateSidLoop scode false ctx.session).2 = false := by
    rw [← Bool.not_eq_true, hiff]
    rintro ⟨s, hs, hcode, hne⟩
    exact hnew s.sid (filed_iff.mpr ⟨s, hs, hcode, rfl, hne⟩)
  exact ⟨_, Prod.ext rfl hfound, hkeys, hnone hfound⟩

theorem free_iff {sessions : List AiAgentSession} (hkeys : sessions.map keyOf = ctx.keys) :
    (∃ s ∈ sessions, s.sid = []) ↔ ∃ s ∈ ctx.session, s.sid = [] := by
  have hmem : ∀ l : List AiAgentSession, (∃ s ∈ l, s.sid = []) ↔ ∃ k ∈ l.map keyOf, k.2 = [] := by
    intro l
    simp only [List.mem_map, exists_exists_and_eq_and, keyOf]
  rw [hmem, hmem, hkeys, keys_eq]

theorem oneActive_of_none {sessions : List AiAgentSession}
    (h : ∀ s ∈ sessions, s.isActive = false) (idx : ℕ) (s : AiAgentSession) :
    (sessions.set idx s).Pairwise fun s s' ↦ ¬(s.isActive = true ∧ s'.isActive = true) := by
  refine pairwise_set (List.pairwise_of_forall_mem_list fun a ha b _ ↦ ?_) (fun a ha ↦ ?_)
    (fun a ha ↦ ?_) idx
  all_goals
    rw [h a ha]
    simp

theorem crt_of_full (hnew : ∀ sid, ¬ctx.Filed scode sid) (hfull : ¬∃ s ∈ ctx.session, s.sid = [])
    (token : Except OperateRet (List (UInt8 × ℕ))) (new : Except OperateRet CString) :
    ∃ ctx', tuyaAiAgentCrtSession ctx scode token new = (ctx', oprtComError) ∧
      ctx'.keys = ctx.keys ∧ OneActive ctx' := by
  obtain ⟨sessions, hloop, hkeys, hnone⟩ := updateSidLoop_of_new hnew
  have hfind : sessions.findIdx? (fun s ↦ decide (s.sid = [])) = none := by
    rw [List.findIdx?_eq_none_iff]
    intro s hs
    exact decide_eq_false fun hsid ↦ hfull ((free_iff hkeys).mp ⟨s, hs, hsid⟩)
  rw [tuyaAiAgentCrtSession, hloop]
  dsimp only
  rw [if_neg Bool.false_ne_true, hfind]
  refine ⟨_, rfl, hkeys, List.pairwise_of_forall_mem_list fun a ha b _ ↦ ?_⟩
  rw [hnone a ha]
  simp

/-- A code without a session, when there is a slot: the code stays in it when no session comes of
it. -/
theorem crt_of_free (hnew : ∀ sid, ¬ctx.Filed scode sid) (hfree : ∃ s ∈ ctx.session, s.sid = []) :
    ∃ idx, idx < ctx.keys.length ∧
      (∀ rt new, ∃ ctx', tuyaAiAgentCrtSession ctx scode (.error rt) new = (ctx', rt) ∧
        OneActive ctx' ∧
        ctx'.keys = ctx.keys.set idx (scode.take (aiSolutionCodeLen - 1), [])) ∧
      (∀ send rt, ∃ ctx', tuyaAiAgentCrtSession ctx scode (.ok send) (.error rt) = (ctx', rt) ∧
        OneActive ctx' ∧
        ctx'.keys = ctx.keys.set idx (scode.take (aiSolutionCodeLen - 1), [])) ∧
      ∀ send sid, ∃ ctx', tuyaAiAgentCrtSession ctx scode (.ok send) (.ok sid) = (ctx', oprtOk) ∧
        OneActive ctx' ∧
        ctx'.keys = ctx.keys.set idx (scode.take (aiSolutionCodeLen - 1), sid) := by
  obtain ⟨sessions, hloop, hkeys, hnone⟩ := updateSidLoop_of_new hnew
  obtain ⟨s, hs, hsid⟩ := (free_iff hkeys).mpr hfree
  have hsome : (sessions.findIdx? fun s ↦ decide (s.sid = [])).isSome = true := by
    rw [List.findIdx?_isSome]
    exact List.any_eq_true.mpr ⟨s, hs, decide_eq_true hsid⟩
  obtain ⟨idx, hfind⟩ := Option.isSome_iff_exists.mp hsome
  obtain ⟨hlt, -, -⟩ := List.findIdx?_eq_some_iff_getElem.mp hfind
  have hidx : idx < ctx.keys.length := by
    rw [← hkeys, List.length_map]
    exact hlt
  refine ⟨idx, hidx, fun rt new ↦ ?_, fun send rt ↦ ?_, fun send sid ↦ ?_⟩
  all_goals
    rw [tuyaAiAgentCrtSession, hloop]
    dsimp only
    rw [if_neg Bool.false_ne_true, hfind]
    refine ⟨_, rfl, ?_, ?_⟩
  · exact oneActive_of_none hnone idx _
  · rw [keys_eq, List.map_set, hkeys]
    rfl
  · exact oneActive_of_none hnone idx _
  · rw [keys_eq, List.map_set, hkeys]
    rfl
  · rw [OneActive, aiAgentSetSid]
    dsimp only
    rw [List.set_set]
    exact oneActive_of_none hnone idx _
  · rw [keys_eq, aiAgentSetSid]
    dsimp only
    rw [List.set_set, List.map_set, hkeys]
    rfl

end Agent

/-! ## The business table -/

section Biz

variable {biz : AiBiz} {id : CString} {session : AiBizSession}

theorem has_iff : biz.has id = true ↔ ∃ s, some s ∈ biz.session ∧ s.id = id := by
  rw [AiBiz.has, List.any_eq_true]
  constructor
  · rintro ⟨b, hb, hany⟩
    cases b with
    | none => cases hany
    | some s => exact ⟨s, hb, of_decide_eq_true hany⟩
  · rintro ⟨s, hs, hid⟩
    exact ⟨some s, hs, decide_eq_true hid⟩

theorem mem_fillSession {s : AiBizSession} (l : List (Option AiBizSession)) :
    some s ∈ fillSession session l ↔ (s = session ∧ none ∈ l) ∨ some s ∈ l := by
  induction l with
  | nil => simp [fillSession]
  | cons b l ih =>
      cases b with
      | none =>
          simp [fillSession]
      | some s' =>
          simp only [fillSession, List.mem_cons, ih, reduceCtorEq, false_or]
          tauto

def AiBiz.fill (biz : AiBiz) (session : AiBizSession) : AiBiz :=
  { biz with session := fillSession session biz.session }

theorem has_create (hfresh : biz.has session.id = false) :
    (biz.fill session).has session.id = true ↔ none ∈ biz.session := by
  rw [has_iff]
  constructor
  · rintro ⟨s, hs, hid⟩
    rcases (mem_fillSession biz.session).mp hs with ⟨-, hnone⟩ | hold
    · exact hnone
    · rw [has_iff.mpr ⟨s, hold, hid⟩] at hfresh
      cases hfresh
  · exact fun hnone ↦ ⟨session, (mem_fillSession biz.session).mpr (.inl ⟨rfl, hnone⟩), rfl⟩

/-- The ids in the table are different. -/
def DistinctIds (l : List (Option AiBizSession)) : Prop :=
  l.Pairwise fun a b ↦ ∀ s ∈ a, ∀ s' ∈ b, s.id ≠ s'.id

theorem distinctIds_fill {l : List (Option AiBizSession)} (h : DistinctIds l)
    (hfresh : ∀ s, some s ∈ l → s.id ≠ session.id) : DistinctIds (fillSession session l) := by
  induction l with
  | nil => exact h
  | cons b l ih =>
      obtain ⟨hb, hl⟩ := List.pairwise_cons.mp h
      cases b with
      | none =>
          refine List.pairwise_cons.mpr ⟨fun c hc s hs s' hs' ↦ ?_, hl⟩
          cases hs
          exact (hfresh s' (List.mem_cons_of_mem none (hs' ▸ hc))).symm
      | some s₀ =>
          have hrest := ih hl fun s hs ↦ hfresh s (List.mem_cons_of_mem _ hs)
          refine List.pairwise_cons.mpr ⟨fun c hc s hs s' hs' ↦ ?_, hrest⟩
          cases hs
          cases hs'
          rcases (mem_fillSession l).mp hc with ⟨rfl, -⟩ | hold
          · exact hfresh s₀ List.mem_cons_self
          · exact hb (some s') hold s₀ rfl s' rfl

theorem clearSession_eq {l : List (Option AiBizSession)} (h : DistinctIds l) (id : CString) :
    (clearSession (· = id) l).getD l = l.map fun b : Option AiBizSession ↦
      b.filter fun s ↦ s.id ≠ id := by
  induction l with
  | nil => rfl
  | cons b l ih =>
      obtain ⟨hb, hl⟩ := List.pairwise_cons.mp h
      have hrest := ih hl
      have hcons : ∀ c : Option AiBizSession,
        ((clearSession (· = id) l).map (c :: ·)).getD (c :: l) =
          c :: (clearSession (· = id) l).getD l := by
        intro c
        cases clearSession (· = id) l <;> rfl
      cases b with
      | none =>
          rw [clearSession, hcons, hrest]
          rfl
      | some s =>
          rw [clearSession]
          by_cases hid : s.id = id
          · have hkeep : l.map (fun b : Option AiBizSession ↦ b.filter fun s ↦ s.id ≠ id) = l := by
              conv_rhs => rw [← List.map_id l]
              refine List.map_congr_left fun c hc ↦ ?_
              cases c with
              | none => rfl
              | some s' =>
                  have hne : s'.id ≠ id := fun heq ↦
                    hb (some s') hc s rfl s' rfl (hid.trans heq.symm)
                  simp [Option.filter, hne]
            rw [if_pos (decide_eq_true hid), Option.getD_some, List.map_cons, hkeep]
            simp [Option.filter, hid]
          · rw [if_neg (by simpa using hid), hcons, hrest, List.map_cons]
            simp [Option.filter, hid]

end Biz

/-! ## The scan for a code -/

section Scan

variable {scode : CString} {l : List AiAgentSession}

/-- The scan finds the first slot whose code begins with this one, or leaves the table when it
has fewer slots than the scan. -/
theorem delSearch_eq {left idx : ℕ} (hidx : idx ≤ l.length) (hleft : l.length ≤ idx + left) :
    delSearch scode l idx left =
      match (l.drop idx).findIdx? fun s ↦ scode.isPrefixOf s.scode with
      | some k => .ok (some (idx + k))
      | none => if idx + left ≤ l.length then .ok none else .error .undefined := by
  induction left generalizing idx with
  | zero =>
      rw [List.drop_eq_nil_of_le (by omega)]
      exact (if_pos (by omega)).symm
  | succ left ih =>
      rw [delSearch]
      by_cases hlt : idx < l.length
      · rw [List.getElem?_eq_getElem hlt, List.drop_eq_getElem_cons hlt, List.findIdx?_cons]
        by_cases hstarts : scode.isPrefixOf l[idx].scode = true
        · simp only [hstarts, if_true, Nat.add_zero]
        · simp only [hstarts, Bool.false_eq_true, if_false]
          rw [ih hlt (by omega), ← Nat.succ_eq_add_one left, Nat.add_succ, Nat.succ_add]
          cases (l.drop (idx + 1)).findIdx? fun s ↦ scode.isPrefixOf s.scode with
          | none => rfl
          | some k => simp only [Option.map_some, Nat.succ_eq_add_one, Nat.add_right_comm,
            Nat.add_assoc]
      · rw [List.getElem?_eq_none (by omega), List.drop_eq_nil_of_le (by omega)]
        exact (if_neg (by omega)).symm

end Scan

/-! ## One call -/

/-- What the tables keep as long as every call is served. -/
structure TablesInv (sessionMax : ℕ) (t : SessionTables) : Prop where
  length : t.agent.session.length = sessionMax
  codes : t.agent.keys.Pairwise fun a b ↦ a.2 ≠ [] → b.2 ≠ [] → a.1 ≠ b.1
  active : OneActive t.agent
  ids : DistinctIds t.biz.session
  named : ∀ s, some s ∈ t.biz.session → s.id ≠ []

section Call

variable {sessionMax : ℕ} {t : SessionTables} {scode : CString}

theorem uuid_ne_nil (random : List UInt8) : aiBasicUuidV4 random ≠ [] := by
  simp [aiBasicUuidV4]

theorem tablesInv_init (sessionMax : ℕ) : TablesInv sessionMax (tablesInit sessionMax) := by
  have hnone : ∀ s : AiBizSession, some s ∉ List.replicate sessionMax none := fun s hs ↦ by
    cases List.eq_of_mem_replicate hs
  refine ⟨List.length_replicate, ?_, ?_, ?_, fun s hs ↦ absurd hs (hnone s)⟩
  · rw [keys_eq, tablesInit, List.map_replicate]
    refine List.pairwise_of_forall_mem_list fun a ha b _ hne ↦ ?_
    rw [List.eq_of_mem_replicate ha] at hne
    exact absurd rfl hne
  · refine List.pairwise_of_forall_mem_list fun a ha b _ hboth ↦ ?_
    rw [List.eq_of_mem_replicate ha] at hboth
    cases hboth.1
  · refine List.pairwise_of_forall_mem_list fun a ha b _ s hs ↦ ?_
    rw [List.eq_of_mem_replicate ha] at hs
    cases hs

theorem codes_set {keys : List (CString × CString)}
    (h : keys.Pairwise fun a b ↦ a.2 ≠ [] → b.2 ≠ [] → a.1 ≠ b.1) {k : CString × CString}
    (hk : k.2 = [] ∨ ∀ a ∈ keys, a.2 ≠ [] → a.1 ≠ k.1) (idx : ℕ) :
    (keys.set idx k).Pairwise fun a b ↦ a.2 ≠ [] → b.2 ≠ [] → a.1 ≠ b.1 := by
  refine pairwise_set h (fun a ha hne hne' ↦ ?_) (fun a ha hne hne' ↦ ?_) idx
  · exact hk.elim (fun hnil ↦ absurd hnil hne') fun hall ↦ hall a ha hne
  · exact hk.elim (fun hnil ↦ absurd hnil hne) fun hall ↦ (hall a ha hne').symm

theorem TablesInv.agent_clear (h : TablesInv sessionMax t) (idx : ℕ) :
    TablesInv sessionMax
      { t with agent := { t.agent with session := t.agent.session.set idx zeroSession } } := by
  refine ⟨(List.length_set ..).trans h.length, ?_, ?_, h.ids, h.named⟩
  · rw [keys_eq]
    dsimp only
    rw [List.map_set]
    exact codes_set h.codes (.inl rfl) idx
  · exact pairwise_set h.active (fun a _ hboth ↦ Bool.false_ne_true hboth.2)
      (fun a _ hboth ↦ Bool.false_ne_true hboth.1) idx

theorem TablesInv.delSid (h : TablesInv sessionMax t) (id : CString) :
    TablesInv sessionMax { t with agent := aiAgentDelSid t.agent id } := by
  rw [aiAgentDelSid]
  cases t.agent.session.findIdx? fun session ↦ session.sid.take id.length = id with
  | none => exact h
  | some idx => exact h.agent_clear idx

theorem TablesInv.biz_filter (h : TablesInv sessionMax t) (p : AiBizSession → Bool) :
    TablesInv sessionMax { t with biz := { t.biz with
      session := t.biz.session.map fun b : Option AiBizSession ↦ b.filter p } } := by
  have hmem : ∀ {b : Option AiBizSession} {s : AiBizSession}, s ∈ b.filter p → s ∈ b :=
    fun hs ↦ (Option.filter_eq_some_iff.mp hs).1
  refine ⟨h.length, h.codes, h.active, ?_, fun s hs ↦ ?_⟩
  · refine List.pairwise_map.mpr (h.ids.imp fun {a b} hab s hs s' hs' ↦ ?_)
    exact hab s (hmem hs) s' (hmem hs')
  · obtain ⟨b, hb, hs⟩ := List.mem_map.mp hs
    have hb' : b = some s := hmem hs
    exact h.named s (hb' ▸ hb)

theorem aiBizSessionDestory_fst {biz : AiBiz} (h : DistinctIds biz.session) (id : CString)
    (rc : OperateRet) :
    (aiBizSessionDestory biz (· = id) rc).1 = { biz with
      session := biz.session.map fun b : Option AiBizSession ↦ b.filter fun s ↦ s.id ≠ id } := by
  rw [← clearSession_eq h id, aiBizSessionDestory]
  cases clearSession (· = id) biz.session <;> rfl

theorem TablesInv.destory (h : TablesInv sessionMax t) (id : CString) (rc : OperateRet) :
    TablesInv sessionMax { t with biz := (aiBizSessionDestory t.biz (· = id) rc).1 } := by
  rw [aiBizSessionDestory_fst h.ids]
  exact h.biz_filter _

theorem TablesInv.unique (h : TablesInv sessionMax t) :
    t.agent.session.Pairwise fun s s' ↦
      ¬((s.scode = scode ∧ s.sid ≠ []) ∧ s'.scode = scode ∧ s'.sid ≠ []) := by
  have hcodes := h.codes
  rw [keys_eq, List.pairwise_map] at hcodes
  exact hcodes.imp fun {a b} hab hboth ↦ hab hboth.1.2 hboth.2.2 (hboth.1.1.trans hboth.2.1.symm)

theorem TablesInv.filed_unique (h : TablesInv sessionMax t) {sid sid' : CString}
    (hsid : t.agent.Filed scode sid) (hsid' : t.agent.Filed scode sid') : sid = sid' := by
  have : Std.Symm fun a b : CString × CString ↦ a.2 ≠ [] → b.2 ≠ [] → a.1 ≠ b.1 :=
    ⟨fun a b hab hb ha ↦ (hab ha hb).symm⟩
  by_contra hne
  have hkeys : (scode, sid) ≠ (scode, sid') := fun heq ↦ hne (congrArg Prod.snd heq)
  exact h.codes.forall hsid.1 hsid'.1 hkeys hsid.2 hsid'.2 rfl

theorem filter_eq_self {l : List (Option AiBizSession)} {p : AiBizSession → Bool}
    (h : ∀ s, some s ∈ l → p s = true) : l.map (fun b : Option AiBizSession ↦ b.filter p) = l := by
  conv_rhs => rw [← List.map_id l]
  refine List.map_congr_left fun b hb ↦ ?_
  cases b with
  | none => rfl
  | some s => exact Option.filter_eq_some_iff.mpr ⟨rfl, h s hb⟩

theorem live_of_ne {s : AiAgentSession} (h : s.sid ≠ []) : s.live = some s := if_neg h

theorem live_of_nil {s : AiAgentSession} (h : s.sid = []) : s.live = none := if_pos h

theorem TablesInv.live_delete (h : TablesInv sessionMax t) {idx : ℕ} {s : AiAgentSession}
    (hs : t.agent.session[idx]? = some s) (hcode : s.scode = scode) (hne : s.sid ≠ []) :
    (t.agent.session.set idx zeroSession).map AiAgentSession.live =
      t.agent.session.map fun s ↦ if s.scode = scode then none else s.live := by
  rw [set_eq_map hs ⟨hcode, hne⟩ h.unique zeroSession, List.map_map]
  refine List.map_congr_left fun x _ ↦ ?_
  by_cases hx : x.scode = scode
  · rw [if_pos hx]
    by_cases hsid : x.sid = []
    · rw [Function.comp_apply, if_neg fun hboth ↦ hboth.2 hsid, live_of_nil hsid]
    · rw [Function.comp_apply, if_pos ⟨hx, hsid⟩]
      rfl
  · rw [Function.comp_apply, if_neg fun hboth ↦ hx hboth.1, if_neg hx]

theorem live_set_free {l : List AiAgentSession} {idx : ℕ} {s : AiAgentSession}
    (hs : l[idx]? = some s) (hnil : s.sid = []) :
    (l.set idx zeroSession).map AiAgentSession.live = l.map AiAgentSession.live := by
  have hget : (l.map AiAgentSession.live)[idx]? = some none := by
    rw [List.getElem?_map, hs, Option.map_some, live_of_nil hnil]
  obtain ⟨hlt, heq⟩ := List.getElem?_eq_some_iff.mp hget
  have hzero : zeroSession.live = (l.map AiAgentSession.live)[idx] := heq.symm
  rw [List.map_set, hzero, List.set_getElem_self]

theorem live_same_iff (ctx : AiAgentCtx) (scode : CString) :
    ctx.session.map AiAgentSession.live =
        ctx.session.map (fun s ↦ if s.scode = scode then none else s.live) ↔
      ∀ sid, ¬ctx.Filed scode sid := by
  rw [List.map_inj_left]
  constructor
  · intro h sid hfiled
    obtain ⟨s, hs, hcode, rfl, hne⟩ := filed_iff.mp hfiled
    have hlive := h s hs
    rw [if_pos hcode, live_of_ne hne] at hlive
    cases hlive
  · intro h s hs
    split_ifs with hcode
    · by_contra hlive
      have hne : s.sid ≠ [] := fun hnil ↦ hlive (live_of_nil hnil)
      exact h s.sid (filed_iff.mpr ⟨s, hs, hcode, rfl, hne⟩)
    · rfl

theorem TablesInv.biz_kept (h : TablesInv sessionMax t) (hnone : ∀ sid, ¬t.agent.Filed scode sid) :
    t.biz.session.map (fun b : Option AiBizSession ↦
      b.filter fun s ↦ (scode, s.id) ∉ t.agent.keys) = t.biz.session :=
  filter_eq_self fun s hs ↦ decide_eq_true fun hkey ↦ hnone s.id ⟨hkey, h.named s hs⟩

theorem TablesInv.biz_removed (h : TablesInv sessionMax t) {sid : CString}
    (hfiled : t.agent.Filed scode sid) :
    (t.biz.session.map fun b : Option AiBizSession ↦ b.filter fun s ↦ s.id ≠ sid) =
      t.biz.session.map fun b : Option AiBizSession ↦
        b.filter fun s ↦ (scode, s.id) ∉ t.agent.keys := by
  refine List.map_congr_left fun b hb ↦ ?_
  cases b with
  | none => rfl
  | some s =>
      have hiff : s.id ≠ sid ↔ (scode, s.id) ∉ t.agent.keys := by
        refine not_congr ⟨fun heq ↦ heq ▸ hfiled.1, fun hkey ↦ ?_⟩
        exact h.filed_unique ⟨hkey, h.named s hb⟩ hfiled
      simp only [Option.filter, hiff]

theorem delSession_ok_iff (h : TablesInv sessionMax t) (hmax : sessionMax ≤ aiBizMaxNum)
    (rc : OperateRet) :
    CallOk t (.delSession scode rc) ↔ Served t (.delSession scode rc) := by
  have hlen := h.length
  have hsearch := @delSearch_eq scode t.agent.session aiBizMaxNum 0 (Nat.zero_le _) (by omega)
  rw [Nat.zero_add, List.drop_zero] at hsearch
  rw [CallOk, tableStep, tuyaAiAgentDelSession, hsearch, Served,
    List.find?_eq_bind_findIdx?_getElem?]
  cases hfind : t.agent.session.findIdx? fun s ↦ scode.isPrefixOf s.scode with
  | none =>
      have hnone : ∀ sid, ¬t.agent.Filed scode sid := by
        intro sid hfiled
        obtain ⟨s, hs, rfl, -⟩ := filed_iff.mp hfiled
        have hself := List.findIdx?_eq_none_iff.mp hfind s hs
        rw [List.isPrefixOf_iff_prefix.mpr (List.prefix_refl s.scode)] at hself
        cases hself
      dsimp only
      by_cases hroom : aiBizMaxNum ≤ t.agent.session.length
      · rw [if_pos hroom]
        refine iff_of_true ⟨h.active, ?_, ?_⟩ hroom
        · exact (live_same_iff t.agent scode).mpr hnone
        · exact (h.biz_kept hnone).symm
      · rw [if_neg hroom]
        exact iff_of_false (fun hfalse ↦ hfalse) hroom
  | some k =>
      obtain ⟨hlt, -, -⟩ := List.findIdx?_eq_some_iff_getElem.mp hfind
      have hget := List.getElem?_eq_getElem hlt
      generalize t.agent.session[k] = s at hget
      have hactive := (h.agent_clear k).active
      dsimp only [Option.bind_some]
      rw [Nat.zero_add, hget]
      dsimp only
      rw [List.getD_eq_getElem?_getD, hget, Option.getD_some]
      have hmem := List.mem_of_getElem? hget
      split_ifs with hnil
      · -- a code without a session is forgotten, and no id is empty
        have hbiz : (aiBizSessionDestory t.biz (· = s.sid) rc).1.session = t.biz.session := by
          rw [aiBizSessionDestory_fst h.ids, hnil]
          exact filter_eq_self fun x hx ↦ decide_eq_true (h.named x hx)
        rw [and_iff_right hactive, Removed]
        dsimp only
        rw [live_set_free hget hnil, live_same_iff, hbiz]
        exact and_iff_left_of_imp fun hnone ↦ (h.biz_kept hnone).symm
      · rw [and_iff_right hactive, Removed]
        dsimp only
        constructor
        · rintro ⟨hlive, -⟩
          by_contra hcode
          have hslot := congrArg (·[k]?) hlive
          simp only [List.getElem?_map, List.getElem?_set_self hlt, hget, Option.map_some,
            if_neg hcode, live_of_ne hnil] at hslot
          cases hslot
        · intro hcode
          have hfiled : t.agent.Filed scode s.sid := filed_iff.mpr ⟨s, hmem, hcode, rfl, hnil⟩
          refine ⟨h.live_delete hget hcode hnil, ?_⟩
          rw [aiBizSessionDestory_fst h.ids, ← h.biz_removed hfiled]

theorem found_iff (ctx : AiAgentCtx) (scode : CString) :
    (updateSidLoop scode false ctx.session).2 = true ↔ ∃ sid, ctx.Filed scode sid := by
  rw [(updateSidLoop_false scode ctx.session).1]
  constructor
  · rintro ⟨s, hs, hcode, hne⟩
    exact ⟨s.sid, filed_iff.mpr ⟨s, hs, hcode, rfl, hne⟩⟩
  · rintro ⟨sid, hfiled⟩
    obtain ⟨s, hs, hcode, rfl, hne⟩ := filed_iff.mp hfiled
    exact ⟨s, hs, hcode, hne⟩

theorem TablesInv.of_keys (h : TablesInv sessionMax t) {ctx : AiAgentCtx} {biz : AiBiz}
    (hactive : OneActive ctx) (hids : DistinctIds biz.session)
    (hnamed : ∀ s, some s ∈ biz.session → s.id ≠ []) (idx : ℕ) {k : CString × CString}
    (hk : k.2 = [] ∨ ∀ a ∈ t.agent.keys, a.2 ≠ [] → a.1 ≠ k.1)
    (hkeys : ctx.keys = t.agent.keys ∨ ctx.keys = t.agent.keys.set idx k) :
    TablesInv sessionMax ⟨ctx, biz⟩ := by
  have hlen : ctx.keys.length = t.agent.keys.length := by
    rcases hkeys with heq | heq
    · rw [heq]
    · rw [heq, List.length_set]
  rw [keys_eq, keys_eq, List.length_map, List.length_map] at hlen
  refine ⟨hlen.trans h.length, ?_, hactive, hids, hnamed⟩
  rcases hkeys with heq | heq
  · rw [heq]
    exact h.codes
  · rw [heq]
    exact codes_set h.codes hk idx

theorem crt_result {token : Except OperateRet SessionToken} {random : List UInt8}
    {sent : OperateRet} {t' : SessionTables} {ret : OperateRet}
    (heq : crtSession t scode token (aiBasicUuidV4 random) sent = .ok (t', ret))
    (hinv : TablesInv sessionMax t')
    (hiff : (ret = oprtOk → InBoth t' scode) ↔ Served t (.crtSession scode token random sent)) :
    (CallOk t (.crtSession scode token random sent) ↔
        Served t (.crtSession scode token random sent)) ∧
      TablesInv sessionMax (tablesMachine.step t (.crtSession scode token random sent)).1 := by
  have hstep : tableStep t (.crtSession scode token random sent) = .ok (t', ret) := heq
  constructor
  · rw [CallOk, hstep, ← hiff]
    exact and_iff_right hinv.active
  · simp only [tablesMachine, hstep]
    exact hinv

theorem inBoth_of_keys {ctx : AiAgentCtx} (h : ctx.keys = t.agent.keys) :
    InBoth ⟨ctx, t.biz⟩ scode ↔ InBoth t scode := by
  simp only [InBoth, AiAgentCtx.Filed, h]

theorem found_result {token : Except OperateRet SessionToken} {random : List UInt8}
    {sent : OperateRet} (h : TablesInv sessionMax t) (hfiled : ∃ sid, t.agent.Filed scode sid) :
    (CallOk t (.crtSession scode token random sent) ↔
        Served t (.crtSession scode token random sent)) ∧
      TablesInv sessionMax (tablesMachine.step t (.crtSession scode token random sent)).1 := by
  have hserved : InBoth t scode ↔ Served t (.crtSession scode token random sent) := by
    rw [Served, imp_iff_right hfiled]
    refine (and_iff_left fun hnew ↦ ?_).symm
    obtain ⟨sid, hsid⟩ := hfiled
    exact absurd hsid (hnew sid)
  have hreturns : ∃ ctx', crtSession t scode token (aiBasicUuidV4 random) sent =
      .ok (⟨ctx', t.biz⟩, oprtOk) ∧ ctx'.keys = t.agent.keys ∧ OneActive ctx' := by
    cases token with
    | error rt =>
        obtain ⟨ctx', heq, hkeys, hactive⟩ := crt_of_found hfiled (.error rt) (.error rt)
        exact ⟨ctx', by rw [crtSession, heq], hkeys, hactive⟩
    | ok token =>
        obtain ⟨ctx', heq, hkeys, hactive⟩ := crt_of_found hfiled (.ok token.send)
          (.ok (aiBasicUuidV4 random))
        refine ⟨ctx', ?_, hkeys, hactive⟩
        rw [crtSession]
        dsimp only
        rw [if_neg fun hboth ↦ ?_, heq]
        rw [(found_iff t.agent scode).mpr hfiled] at hboth
        exact Bool.false_ne_true hboth.1.symm
  obtain ⟨ctx', heq, hkeys, hactive⟩ := hreturns
  refine crt_result heq ?_ ?_
  · exact @TablesInv.of_keys _ _ h _ _ hactive h.ids h.named 0 ([], []) (.inl rfl) (.inl hkeys)
  · rw [imp_iff_right rfl, inBoth_of_keys hkeys, hserved]

theorem full_result {token : Except OperateRet SessionToken} {random : List UInt8}
    {sent : OperateRet} (h : TablesInv sessionMax t) (hnew : ∀ sid, ¬t.agent.Filed scode sid)
    (hfull : ¬∃ s ∈ t.agent.session, s.sid = []) :
    (CallOk t (.crtSession scode token random sent) ↔
        Served t (.crtSession scode token random sent)) ∧
      TablesInv sessionMax (tablesMachine.step t (.crtSession scode token random sent)).1 := by
  have hserved : Served t (.crtSession scode token random sent) :=
    ⟨fun ⟨sid, hsid⟩ ↦ absurd hsid (hnew sid), fun _ hfree ↦ absurd hfree hfull⟩
  have hreturns : ∃ ctx', crtSession t scode token (aiBasicUuidV4 random) sent =
      .ok (⟨ctx', t.biz⟩, oprtComError) ∧ ctx'.keys = t.agent.keys ∧ OneActive ctx' := by
    cases token with
    | error rt =>
        obtain ⟨ctx', heq, hkeys, hactive⟩ := crt_of_full hnew hfull (.error rt) (.error rt)
        exact ⟨ctx', by rw [crtSession, heq], hkeys, hactive⟩
    | ok token =>
        obtain ⟨ctx', heq, hkeys, hactive⟩ := crt_of_full hnew hfull (.ok token.send)
          (.ok (aiBasicUuidV4 random))
        refine ⟨ctx', ?_, hkeys, hactive⟩
        rw [crtSession]
        dsimp only
        rw [if_neg fun hboth ↦ hfull ?_, heq]
        obtain ⟨s, hs, hsid⟩ := List.any_eq_true.mp hboth.2
        exact ⟨s, hs, of_decide_eq_true hsid⟩
  obtain ⟨ctx', heq, hkeys, hactive⟩ := hreturns
  refine crt_result heq ?_ (iff_of_true (fun hok ↦ absurd hok (by decide)) hserved)
  exact @TablesInv.of_keys _ _ h _ _ hactive h.ids h.named 0 ([], []) (.inl rfl) (.inl hkeys)

theorem failed_result {token : Except OperateRet SessionToken} {random : List UInt8}
    {sent ret : OperateRet} (h : TablesInv sessionMax t) (hnew : ∀ sid, ¬t.agent.Filed scode sid)
    {ctx' : AiAgentCtx} {idx : ℕ}
    (heq : crtSession t scode token (aiBasicUuidV4 random) sent = .ok (⟨ctx', t.biz⟩, ret))
    (hactive : OneActive ctx')
    (hkeys : ctx'.keys = t.agent.keys.set idx (scode.take (aiSolutionCodeLen - 1), []))
    (hret : ret ≠ oprtOk) (hfail : (∃ k, token = .ok k) → sent ≠ oprtOk) :
    (CallOk t (.crtSession scode token random sent) ↔
        Served t (.crtSession scode token random sent)) ∧
      TablesInv sessionMax (tablesMachine.step t (.crtSession scode token random sent)).1 := by
  have hserved : Served t (.crtSession scode token random sent) :=
    ⟨fun ⟨sid, hsid⟩ ↦ absurd hsid (hnew sid), fun _ _ htoken hsent ↦ absurd hsent (hfail htoken)⟩
  refine crt_result heq ?_ (iff_of_true (fun hok ↦ absurd hok hret) hserved)
  exact h.of_keys hactive h.ids h.named idx (.inl rfl) (.inr hkeys)

/-- A session that is created is found under its code exactly when the code was not cut short, and
in the business table when that had room. -/
theorem inBoth_created {ctx' : AiAgentCtx} {idx : ℕ} {session : AiBizSession}
    (hnew : ∀ sid, ¬t.agent.Filed scode sid) (hidx : idx < t.agent.keys.length)
    (hfresh : t.biz.has session.id = false) (hne : session.id ≠ [])
    (hkeys : ctx'.keys =
      t.agent.keys.set idx (scode.take (aiSolutionCodeLen - 1), session.id)) :
    InBoth ⟨ctx', t.biz.fill session⟩ scode ↔
      scode.length < aiSolutionCodeLen ∧ none ∈ t.biz.session := by
  have hcode : scode.length < aiSolutionCodeLen ↔ scode.take (aiSolutionCodeLen - 1) = scode := by
    rw [List.take_eq_self_iff, aiSolutionCodeLen]
    omega
  rw [hcode, ← has_create hfresh]
  constructor
  · rintro ⟨sid, ⟨hmem, hsid⟩, hhas⟩
    rw [hkeys] at hmem
    rcases List.mem_or_eq_of_mem_set hmem with hold | heq
    · exact absurd ⟨hold, hsid⟩ (hnew sid)
    · obtain ⟨htake, rfl⟩ := Prod.mk.inj heq
      exact ⟨htake.symm, hhas⟩
  · rintro ⟨htake, hhas⟩
    refine ⟨session.id, ⟨?_, hne⟩, hhas⟩
    rw [hkeys, htake]
    exact List.mem_set hidx _

theorem TablesInv.fill (h : TablesInv sessionMax t) {session : AiBizSession}
    (hfresh : t.biz.has session.id = false) (hne : session.id ≠ []) :
    DistinctIds (t.biz.fill session).session ∧
      ∀ s, some s ∈ (t.biz.fill session).session → s.id ≠ [] := by
  constructor
  · refine distinctIds_fill h.ids fun s hs hid ↦ ?_
    rw [has_iff.mpr ⟨s, hs, hid⟩] at hfresh
    cases hfresh
  · intro s hs
    rcases (mem_fillSession t.biz.session).mp hs with ⟨rfl, -⟩ | hold
    · exact hne
    · exact h.named s hold

theorem crtBiz_ok (biz : AiBiz) (session : AiBizSession) :
    tuyaAiBizCrtSession biz session oprtOk = (biz.fill session, oprtOk) := rfl

theorem crtSession_created {token : SessionToken} {uuid : CString} {ctx' : AiAgentCtx}
    (hstart : (updateSidLoop scode false t.agent.session).2 = false ∧
      (t.agent.session.any fun s ↦ s.sid = []) = true)
    (heq : tuyaAiAgentCrtSession t.agent scode (.ok token.send) (.ok uuid) = (ctx', oprtOk)) :
    crtSession t scode (.ok token) uuid oprtOk =
      if aiSolutionCodeLen < scode.length then .error .undefined
      else .ok (⟨ctx', t.biz.fill ⟨uuid, token.recv, token.eventCb⟩⟩, oprtOk) := by
  rw [crtSession]
  dsimp only
  rw [if_pos hstart, crtBiz_ok]
  dsimp only
  by_cases hlong : aiSolutionCodeLen < scode.length
  · rw [if_pos ⟨rfl, hlong⟩, if_pos hlong]
  · rw [if_neg fun hboth ↦ hlong hboth.2, if_neg hlong, if_pos rfl, heq]

theorem created_served {token : SessionToken} {random : List UInt8}
    (hnew : ∀ sid, ¬t.agent.Filed scode sid) (hfree : ∃ s ∈ t.agent.session, s.sid = []) :
    Served t (.crtSession scode (.ok token) random oprtOk) ↔
      scode.length < aiSolutionCodeLen ∧ none ∈ t.biz.session := by
  constructor
  · exact fun hserved ↦ hserved.2 hnew hfree ⟨token, rfl⟩ rfl
  · exact fun hroom ↦ ⟨fun ⟨sid, hsid⟩ ↦ absurd hsid (hnew sid), fun _ _ _ _ ↦ hroom⟩

theorem TablesInv.created (h : TablesInv sessionMax t) (hnew : ∀ sid, ¬t.agent.Filed scode sid)
    {session : AiBizSession} (hfresh : t.biz.has session.id = false) (hne : session.id ≠ [])
    {ctx' : AiAgentCtx} {idx : ℕ} (hactive : OneActive ctx')
    (hkeys : ctx'.keys =
      t.agent.keys.set idx (scode.take (aiSolutionCodeLen - 1), session.id))
    (hshort : scode.length < aiSolutionCodeLen) :
    TablesInv sessionMax ⟨ctx', t.biz.fill session⟩ := by
  obtain ⟨hids, hnamed⟩ := h.fill hfresh hne
  have htake : scode.take (aiSolutionCodeLen - 1) = scode := by
    rw [List.take_eq_self_iff]
    omega
  refine h.of_keys hactive hids hnamed idx (.inr fun a ha hne hcode ↦ ?_) (.inr hkeys)
  have hcode' : a.1 = scode := hcode.trans htake
  exact hnew a.2 ⟨hcode' ▸ ha, hne⟩

theorem created_result {token : SessionToken} {random : List UInt8} (h : TablesInv sessionMax t)
    (hnew : ∀ sid, ¬t.agent.Filed scode sid) (hfree : ∃ s ∈ t.agent.session, s.sid = [])
    (hfresh : t.biz.has (aiBasicUuidV4 random) = false) {ctx' : AiAgentCtx} {idx : ℕ}
    (hidx : idx < t.agent.keys.length)
    (hstart : (updateSidLoop scode false t.agent.session).2 = false ∧
      (t.agent.session.any fun s ↦ s.sid = []) = true)
    (heq : tuyaAiAgentCrtSession t.agent scode (.ok token.send) (.ok (aiBasicUuidV4 random)) =
      (ctx', oprtOk))
    (hactive : OneActive ctx')
    (hkeys : ctx'.keys =
      t.agent.keys.set idx (scode.take (aiSolutionCodeLen - 1), aiBasicUuidV4 random)) :
    (CallOk t (.crtSession scode (.ok token) random oprtOk) ↔
        Served t (.crtSession scode (.ok token) random oprtOk)) ∧
      (Served t (.crtSession scode (.ok token) random oprtOk) →
        TablesInv sessionMax
          (tablesMachine.step t (.crtSession scode (.ok token) random oprtOk)).1) := by
  have hcall : tableStep t (.crtSession scode (.ok token) random oprtOk) = _ :=
    crtSession_created hstart heq
  have hne := uuid_ne_nil random
  rw [created_served hnew hfree, CallOk, tablesMachine]
  dsimp only
  rw [hcall]
  by_cases hlong : aiSolutionCodeLen < scode.length
  · rw [if_pos hlong]
    refine ⟨iff_of_false (fun hfalse ↦ hfalse) fun hroom ↦ Nat.lt_asymm hroom.1 hlong, ?_⟩
    exact fun hroom ↦ absurd hlong (Nat.lt_asymm hroom.1)
  · rw [if_neg hlong]
    dsimp only
    rw [and_iff_right hactive, imp_iff_right rfl]
    generalize aiBasicUuidV4 random = uuid at hfresh hkeys hne ⊢
    constructor
    · exact inBoth_created hnew hidx hfresh hne hkeys
    · exact fun hroom ↦ h.created hnew hfresh hne hactive hkeys hroom.1

theorem crtSession_spec {token : Except OperateRet SessionToken} {random : List UInt8}
    {sent : OperateRet} (h : TablesInv sessionMax t)
    (hsup : Supplied t (.crtSession scode token random sent)) :
    (CallOk t (.crtSession scode token random sent) ↔
        Served t (.crtSession scode token random sent)) ∧
      (Served t (.crtSession scode token random sent) →
        TablesInv sessionMax (tablesMachine.step t (.crtSession scode token random sent)).1) := by
  by_cases hfiled : ∃ sid, t.agent.Filed scode sid
  · exact (found_result h hfiled).imp_right fun hinv _ ↦ hinv
  have hnew : ∀ sid, ¬t.agent.Filed scode sid := fun sid hsid ↦ hfiled ⟨sid, hsid⟩
  by_cases hfree : ∃ s ∈ t.agent.session, s.sid = []
  case neg => exact (full_result h hnew hfree).imp_right fun hinv _ ↦ hinv
  obtain ⟨hfresh, htoken⟩ := hsup
  obtain ⟨idx, hidx, hnotoken, hrefused, hcreated⟩ := crt_of_free hnew hfree
  cases token with
  | error rt =>
      obtain ⟨ctx', heq, hactive, hkeys⟩ := hnotoken rt (.error rt)
      refine (failed_result h hnew (by rw [crtSession, heq]) hactive hkeys (htoken rt rfl)
        ?_).imp_right fun hinv _ ↦ hinv
      rintro ⟨k, hk⟩
      cases hk
  | ok token =>
      have hstart : (updateSidLoop scode false t.agent.session).2 = false ∧
          (t.agent.session.any fun s ↦ s.sid = []) = true := by
        obtain ⟨s, hs, hsid⟩ := hfree
        refine ⟨?_, List.any_eq_true.mpr ⟨s, hs, decide_eq_true hsid⟩⟩
        rw [← Bool.not_eq_true, found_iff]
        exact hfiled
      by_cases hsent : sent = oprtOk
      · subst hsent
        obtain ⟨ctx', heq, hactive, hkeys⟩ := hcreated token.send (aiBasicUuidV4 random)
        exact created_result h hnew hfree hfresh hidx hstart heq hactive hkeys
      · obtain ⟨ctx', heq, hactive, hkeys⟩ := hrefused token.send sent
        refine (failed_result h hnew ?_ hactive hkeys hsent fun _ ↦ hsent).imp_right
          fun hinv _ ↦ hinv
        rw [crtSession]
        dsimp only
        rw [if_pos hstart, tuyaAiBizCrtSession, if_pos hsent, if_neg fun hboth ↦ hsent hboth.1]
        dsimp only
        rw [if_neg hsent, heq]

theorem bizCrtSession_spec {recv : List RecvEntry} {eventCb : Option ℕ} {random : List UInt8}
    {sent : OperateRet} (h : TablesInv sessionMax t)
    (hfresh : t.biz.has (aiBasicUuidV4 random) = false) :
    (CallOk t (.bizCrtSession recv eventCb random sent) ↔
        Served t (.bizCrtSession recv eventCb random sent)) ∧
      TablesInv sessionMax (tablesMachine.step t (.bizCrtSession recv eventCb random sent)).1 := by
  have hne := uuid_ne_nil random
  rw [CallOk, Served, tablesMachine]
  dsimp only
  rw [tableStep]
  dsimp only
  rw [and_iff_right h.active]
  generalize aiBasicUuidV4 random = uuid at hfresh hne ⊢
  by_cases hsent : sent = oprtOk
  · subst hsent
    obtain ⟨hids, hnamed⟩ := @TablesInv.fill _ _ h ⟨uuid, recv, eventCb⟩ hfresh hne
    rw [crtBiz_ok, imp_iff_right rfl, imp_iff_right rfl]
    exact ⟨@has_create t.biz ⟨uuid, recv, eventCb⟩ hfresh, h.length, h.codes, h.active,
      hids, hnamed⟩
  · rw [tuyaAiBizCrtSession, if_pos hsent]
    exact ⟨iff_of_true (fun hok ↦ absurd hok hsent) fun hok ↦ absurd hok hsent, h⟩

theorem TablesInv.close (h : TablesInv sessionMax t) (id : CString) :
    TablesInv sessionMax (closeSession t id).1 := by
  rw [closeSession]
  have hclear := clearSession_eq h.ids id
  cases hsession : clearSession (· = id) t.biz.session with
  | none => exact h
  | some session =>
      rw [hsession, Option.getD_some] at hclear
      subst hclear
      exact (h.biz_filter _).delSid id

theorem TablesInv.cltClose (h : TablesInv sessionMax t) : TablesInv sessionMax (cltCloseEvt t) := by
  have hdel : ∀ (ids : List CString) {t : SessionTables}, TablesInv sessionMax t →
      TablesInv sessionMax { t with agent := ids.foldl aiAgentDelSid t.agent } := by
    intro ids
    induction ids with
    | nil => exact fun h ↦ h
    | cons id ids ih => exact fun h ↦ ih (h.delSid id)
  have hnone : (t.biz.session.map fun _ ↦ none) =
      t.biz.session.map fun b : Option AiBizSession ↦ b.filter fun _ ↦ false := by
    refine List.map_congr_left fun b _ ↦ ?_
    cases b <;> rfl
  rw [cltCloseEvt, hnone]
  exact hdel _ (h.biz_filter fun _ ↦ false)

theorem tableCall_spec {call : TableCall} (h : TablesInv sessionMax t)
    (hmax : sessionMax ≤ aiBizMaxNum) (hsup : Supplied t call) :
    (CallOk t call ↔ Served t call) ∧
      (Served t call → TablesInv sessionMax (tablesMachine.step t call).1) := by
  cases call with
  | crtSession scode token random sent => exact crtSession_spec h hsup
  | bizCrtSession recv eventCb random sent =>
      exact (bizCrtSession_spec h hsup).imp_right fun hinv _ ↦ hinv
  | delSession scode rc =>
      refine ⟨delSession_ok_iff h hmax rc, fun _ ↦ ?_⟩
      simp only [tablesMachine, tableStep, tuyaAiAgentDelSession]
      rcases delSearch scode t.agent.session 0 aiBizMaxNum with e | (_ | idx)
      · exact h
      · exact h
      · exact (h.agent_clear idx).destory _ rc
  | bizDelSession id rc =>
      exact ⟨iff_of_true ⟨h.active, trivial⟩ trivial, fun _ ↦ h.destory id rc⟩
  | cloudClose id =>
      have hinv := h.close id
      exact ⟨iff_of_true ⟨hinv.active, trivial⟩ trivial, fun _ ↦ hinv⟩
  | clientClose =>
      have hinv := h.cltClose
      exact ⟨iff_of_true ⟨hinv.active, trivial⟩ trivial, fun _ ↦ hinv⟩

/-- Over a whole run, the calls do what they should exactly when each of them can be served. -/
theorem session_tables_agree_iff (hmax : sessionMax ≤ aiBizMaxNum) {calls : List TableCall}
    (hcalls : tablesMachine.Guarded Supplied (tablesInit sessionMax) calls) :
    tablesMachine.Guarded CallOk (tablesInit sessionMax) calls ↔
      tablesMachine.Guarded Served (tablesInit sessionMax) calls := by
  refine tablesMachine.guarded_congr (fun t call h hsup ↦ ?_) (fun t call h hsup hserved ↦ ?_)
    (tablesInv_init sessionMax) hcalls
  · exact (tableCall_spec h hmax hsup).1
  · exact (tableCall_spec h hmax hsup).2 hserved

/-- Two sessions in two slots, one of them deleted. -/
theorem session_tables_agree_iff_two :
    tablesMachine.Guarded CallOk (tablesInit 2)
      [.crtSession [97] (.ok ⟨[(1, 101)], [], none⟩) [1] oprtOk,
        .crtSession [98] (.ok ⟨[(1, 101)], [], none⟩) [2] oprtOk, .delSession [97] oprtOk] := by
  have hroom : ∀ {t : SessionTables} {scode : CString} {token : Except OperateRet SessionToken}
      {random : List UInt8} {sent : OperateRet},
      (t.agent.session.all fun s ↦ s.scode ≠ scode) = true → scode.length < aiSolutionCodeLen →
      none ∈ t.biz.session → Served t (.crtSession scode token random sent) := by
    intro t scode token random sent hnew hlen hnone
    refine ⟨fun ⟨sid, hfiled⟩ ↦ ?_, fun _ _ _ _ ↦ ⟨hlen, hnone⟩⟩
    obtain ⟨s, hs, hcode, -⟩ := filed_iff.mp hfiled
    exact absurd hcode (of_decide_eq_true (List.all_eq_true.mp hnew s hs))
  refine (session_tables_agree_iff (by decide) ?_).mpr ?_
  · exact ⟨⟨rfl, fun _ heq ↦ by cases heq⟩, ⟨by decide, fun _ heq ↦ by cases heq⟩, trivial, trivial⟩
  · exact ⟨hroom (by decide) (by decide) (by decide),
      hroom (by decide) (by decide) (by decide), rfl, trivial⟩

/-- A code that no slot begins with is looked for behind the table, and a deletion takes the
session of a longer code. -/
theorem delete_beyond_table :
    ¬tablesMachine.Guarded CallOk (tablesInit 2) [.delSession [97] oprtOk] ∧
      ¬tablesMachine.Guarded CallOk (tablesInit 2)
        [.crtSession [97, 98] (.ok ⟨[(1, 101)], [], none⟩) [1] oprtOk,
          .delSession [97] oprtOk] := by
  refine ⟨fun h ↦ h.1, fun h ↦ ?_⟩
  have hlive := congrArg (List.map Option.isSome) h.2.1.2.1
  revert hlive
  decide

end Call

end TuyaOpen.Ai
