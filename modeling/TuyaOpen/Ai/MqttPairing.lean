import TuyaOpen.Ai.Mqtt
import TuyaOpen.Lib.Mealy

/-!
# Pairing of requests and replies

Runs of calls from any number of threads, with timeouts and replies in any order.
-/

namespace TuyaOpen.Ai

/-- The token that a reply has, if it can be stored. -/
def AgentTokenData.stored (d : AgentTokenData) : Option (List UInt8) :=
  match d.agentToken, d.bizConfig with
  | some token, some ⟨some _, some _, some _⟩ =>
      if aiAgentTokenLen ≤ token.length then none else some token
  | _, _ => none

/-- The message is a successful reply to this call, with this result. -/
def MqMsg.Gives (id : BizId) : MqMsg → MqKind → MqResult → Prop
  | serverInfo bizId success data _, .serCfg, .config cfg =>
      bizId = some id ∧ success = some true ∧ ∃ d, data = some d ∧ d.config = some cfg
  | agentToken bizId success data, .token, .agent info =>
      bizId = some id ∧ success = some true ∧ ∃ d, data = some d ∧ d.stored = some info.token
  | _, _, _ => False

/-- A call of the thread is waiting for a reply with the `bizId` of the message. -/
def MqState.Awaits (s : MqState) (t : ℕ) (msg : MqMsg) : Prop :=
  (s.phase t).bizId = msg.bizId ∧ (s.phase t).bizId ≠ none ∧ s.answers t = []

def MqMsg.kind : MqMsg → Option MqKind
  | serverInfo .. => some .serCfg
  | agentToken .. => some .token
  | other => none

/-- The reply posts the semaphore when its `bizId` is the stored one. -/
def MqMsg.Posts : MqMsg → Prop
  | serverInfo _ (some true) (some _) _ => True
  | agentToken _ (some true) (some _) => True
  | agentToken _ (some false) (some d) => ∀ url ∈ d.ttsUrl, url.length < aiTtsUrlLen
  | _ => False

/-- A reply to a token request has a token, unless there is none from before. -/
def MqMsg.Renews (agent : AiAgentTokenInfo) : MqMsg → Prop
  | agentToken _ (some false) (some _) => agent.token = []
  | agentToken _ (some true) (some d) => d.stored ≠ none ∨ agent.token = []
  | _ => True

/-- Calls do not overlap, no reply comes before its call has stored the `bizId`, and a reply
that posts comes to a call that waits for it, is of the kind of the call and does not
leave an old token. -/
def MqOrderly (s : MqState) : MqStep → Prop
  | .send _ _ _ => ∀ t, s.phase t = .idle
  | .handle msg =>
      (∀ t kind id, s.phase t = .sent kind id → msg.bizId ≠ some id) ∧
      ∀ id, msg.bizId = some id → s.ctx.bizId = some id → msg.Posts →
        msg.Renews s.ctx.agent ∧
          ∃ t kind, s.phase t = .waiting kind id ∧ msg.kind = some kind
  | _ => True

/-! ## The handler -/

section Handler

variable {ctx : MqCtx} {msg : MqMsg} {id : BizId}

theorem aiMqHandle_rejects (h : msg.bizId = none ∨ msg.bizId ≠ ctx.bizId) :
    aiMqHandle ctx msg = (ctx, false) := by
  have hnone : ∀ bizId : Option BizId, bizId = none ∨ bizId ≠ ctx.bizId →
      aiMqIsBizIdVaild ctx bizId = none := by
    intro bizId hid
    rw [aiMqIsBizIdVaild, if_neg]
    rintro ⟨hsome, hsame⟩
    rcases hid with hid | hid
    · exact hsome hid
    · exact hid hsame
  cases msg with
  | serverInfo bizId success data mem => simp only [aiMqHandle, hnone bizId h]
  | agentToken bizId success data => simp only [aiMqHandle, hnone bizId h]
  | other => rfl

theorem aiMqIsBizIdVaild_self (h : ctx.bizId = some id) :
    aiMqIsBizIdVaild ctx (some id) = some { ctx with bizId := none } := by
  rw [aiMqIsBizIdVaild, if_pos ⟨Option.some_ne_none id, h.symm⟩]

theorem aiMqDoSerCfg_bizId (success : Option Bool) (data : Option SerCfgData) (mem : Bool) :
    (aiMqDoSerCfg ctx success data mem).bizId = ctx.bizId := by
  rw [aiMqDoSerCfg.eq_def]
  split <;> rfl

theorem aiMqDoAgentToken_bizId (success : Option Bool) (data : Option AgentTokenData) :
    (aiMqDoAgentToken ctx success data).bizId = ctx.bizId := by
  rw [aiMqDoAgentToken.eq_def]
  split
  · split
    · split_ifs <;> rfl
    · rfl
  · rfl
  · rfl

theorem aiMqHandle_accepts (hmsg : msg.bizId = some id) (hslot : ctx.bizId = some id) :
    (aiMqHandle ctx msg).2 = true ∧ (aiMqHandle ctx msg).1.bizId = none := by
  cases msg with
  | serverInfo bizId success data mem =>
      obtain rfl : bizId = some id := hmsg
      simp only [aiMqHandle, aiMqIsBizIdVaild_self hslot, aiMqDoSerCfg_bizId]
      exact ⟨trivial, trivial⟩
  | agentToken bizId success data =>
      obtain rfl : bizId = some id := hmsg
      simp only [aiMqHandle, aiMqIsBizIdVaild_self hslot, aiMqDoAgentToken_bizId]
      exact ⟨trivial, trivial⟩
  | other => cases hmsg

theorem aiMqHandle_cases (ctx : MqCtx) (msg : MqMsg) :
    aiMqHandle ctx msg = (ctx, false) ∨ ∃ id, msg.bizId = some id ∧ ctx.bizId = some id := by
  by_cases hmatch : msg.bizId = none ∨ msg.bizId ≠ ctx.bizId
  · exact .inl (aiMqHandle_rejects hmatch)
  · obtain ⟨hsome, hslot⟩ := not_or.mp hmatch
    obtain ⟨id, hid⟩ := Option.ne_none_iff_exists'.mp hsome
    exact .inr ⟨id, hid, (not_ne_iff.mp hslot).symm.trans hid⟩

theorem aiMqHandle_sem (h : ¬msg.Posts) : (aiMqHandle ctx msg).1.sem = ctx.sem := by
  obtain hdrop | ⟨id, hid, hslot⟩ := aiMqHandle_cases ctx msg
  · rw [hdrop]
  cases msg with
  | serverInfo bizId success data mem =>
      obtain rfl : bizId = some id := hid
      simp only [aiMqHandle, aiMqIsBizIdVaild_self hslot]
      rcases success with _ | _ | _
      · rfl
      · rfl
      rcases data with _ | d
      · rfl
      · exact absurd trivial h
  | agentToken bizId success data =>
      obtain rfl : bizId = some id := hid
      simp only [aiMqHandle, aiMqIsBizIdVaild_self hslot]
      rcases success with _ | success
      · rfl
      rcases data with _ | d
      · cases success <;> rfl
      cases success with
      | true => exact absurd trivial h
      | false =>
          obtain ⟨url, hurl, hlong⟩ : ∃ url ∈ d.ttsUrl, ¬url.length < aiTtsUrlLen := by
            simpa only [MqMsg.Posts, not_forall, exists_prop] using h
          have hlong : aiTtsUrlLen ≤ url.length := not_lt.mp hlong
          have hne : url ≠ [] := List.ne_nil_of_length_pos (lt_of_lt_of_le (by decide) hlong)
          simp only [aiMqDoAgentToken, Option.mem_def.mp hurl, if_neg hne, if_pos hlong]
  | other => rfl

theorem aiMqParseAgentToken_token (agent : AiAgentTokenInfo) (d : AgentTokenData) :
    (aiMqParseAgentToken agent d).token = d.stored.getD agent.token := by
  rcases d with ⟨_ | token, biz, url⟩
  · rfl
  rcases biz with _ | ⟨_ | bizCode, _ | send, _ | recv⟩
  case some.some.some.some =>
    simp only [aiMqParseAgentToken, AgentTokenData.stored]
    split_ifs <;> rfl
  all_goals rfl

/-- A server configuration that is found after a reply that posts is the one of the reply. -/
theorem aiMqDoSerCfg_result {success : Option Bool} {data : Option SerCfgData} {mem : Bool}
    (hp : (MqMsg.serverInfo (some id) success data mem).Posts) {result : MqResult}
    (h : mqResult (aiMqDoSerCfg ctx success data mem) .serCfg = some result) :
    (MqMsg.serverInfo (some id) success data mem).Gives id .serCfg result := by
  rcases success with _ | _ | _
  · exact hp.elim
  · exact hp.elim
  rcases data with _ | d
  · exact hp.elim
  obtain ⟨cfg, hcfg, rfl⟩ := Option.map_eq_some_iff.mp h
  refine ⟨rfl, rfl, d, rfl, ?_⟩
  change aiMqParseSerCfg mem d = some cfg at hcfg
  rw [aiMqParseSerCfg] at hcfg
  split_ifs at hcfg
  exact hcfg

theorem aiMqDoAgentToken_refused (ctx : MqCtx) (d : AgentTokenData) :
    (aiMqDoAgentToken ctx (some false) (some d)).agent.token = ctx.agent.token := by
  simp only [aiMqDoAgentToken]
  split
  · split_ifs <;> rfl
  · rfl

theorem aiMqDoAgentToken_result {success : Option Bool} {data : Option AgentTokenData}
    (hp : (MqMsg.agentToken (some id) success data).Posts)
    (hrenews : (MqMsg.agentToken (some id) success data).Renews ctx.agent) {result : MqResult}
    (h : mqResult (aiMqDoAgentToken ctx success data) .token = some result) :
    (MqMsg.agentToken (some id) success data).Gives id .token result := by
  rcases success with _ | success
  · exact hp.elim
  rcases data with _ | d
  · cases success <;> exact hp.elim
  rw [mqResult] at h
  split_ifs at h with htoken
  cases success with
  | false => exact absurd ((aiMqDoAgentToken_refused ctx d).trans hrenews) htoken
  | true =>
      have hnew : (aiMqDoAgentToken ctx (some true) (some d)).agent.token =
          d.stored.getD ctx.agent.token := aiMqParseAgentToken_token ctx.agent d
      rw [← Option.some.inj h]
      refine ⟨rfl, rfl, d, rfl, ?_⟩
      cases hstored : d.stored with
      | none =>
          rw [hstored] at hnew
          rcases hrenews with hne | hempty
          · exact absurd hstored hne
          · exact absurd (hnew.trans hempty) htoken
      | some token =>
          rw [hnew, hstored]
          rfl

theorem aiMqHandle_result {kind : MqKind} (hmsg : msg.bizId = some id)
    (hslot : ctx.bizId = some id) (hrenews : msg.Renews ctx.agent)
    (hkind : msg.kind = some kind) (hp : msg.Posts) {result : MqResult}
    (h : mqResult (aiMqHandle ctx msg).1 kind = some result) : msg.Gives id kind result := by
  cases msg with
  | other => cases hmsg
  | serverInfo bizId success data mem =>
      obtain rfl : bizId = some id := hmsg
      obtain rfl : MqKind.serCfg = kind := Option.some.inj hkind
      simp only [aiMqHandle, aiMqIsBizIdVaild_self hslot] at h
      exact aiMqDoSerCfg_result hp h
  | agentToken bizId success data =>
      obtain rfl : bizId = some id := hmsg
      obtain rfl : MqKind.token = kind := Option.some.inj hkind
      simp only [aiMqHandle, aiMqIsBizIdVaild_self hslot] at h
      apply aiMqDoAgentToken_result hp _ h
      exact hrenews

end Handler

/-! ## The invariant -/

/-- What a call that was woken can find is from a reply to it. -/
def MqState.Own (s : MqState) (t : ℕ) (kind : MqKind) (id : BizId) : Prop :=
  s.answers t ≠ [] ∧
    ∀ result, mqResult s.ctx kind = some result → ∃ msg ∈ s.answers t, msg.Gives id kind result

/-- What is known of a thread by its phase: the slot, the semaphore and the replies. -/
def MqState.Ready (s : MqState) (t : ℕ) : MqPhase → Prop
  | .idle => True
  | .sent _ _ => s.ctx.sem = false ∧ s.answers t = []
  | .waiting kind id =>
      (s.answers t = [] ∧ s.ctx.bizId = some id ∧ s.ctx.sem = false) ∨
      (s.answers t ≠ [] ∧ s.ctx.bizId = none ∧ (s.ctx.sem = true → s.Own t kind id))
  | .woken kind id => s.ctx.sem = false ∧ s.ctx.bizId = none ∧ s.Own t kind id

structure Paired (s : MqState) : Prop where
  single : ∀ t t', s.phase t ≠ .idle → s.phase t' ≠ .idle → t = t'
  quiet : (∀ t, s.phase t = .idle) → s.ctx.sem = false
  ready : ∀ t, s.Ready t (s.phase t)

theorem Paired.others_idle {s : MqState} (h : Paired s) {t : ℕ} (ht : s.phase t ≠ .idle) {t' : ℕ}
    (hne : t' ≠ t) : s.phase t' = .idle := by
  by_contra hphase
  exact hne (h.single t' t hphase ht)

theorem Paired.of_thread {s : MqState} {t : ℕ} (hothers : ∀ t', t' ≠ t → s.phase t' = .idle)
    (hphase : s.phase t = .idle → s.ctx.sem = false) (hready : s.Ready t (s.phase t)) :
    Paired s where
  single := by
    intro a b ha hb
    by_contra hab
    by_cases hat : a = t
    · exact hb (hothers b fun hbt ↦ hab (hat.trans hbt.symm))
    · exact ha (hothers a hat)
  quiet := fun hall ↦ hphase (hall t)
  ready := by
    intro t'
    by_cases hsame : t' = t
    · rw [hsame]
      exact hready
    · rw [hothers t' hsame]
      trivial

/-! ## One step -/

section Step

variable {s : MqState} {t : ℕ} {kind : MqKind} {id : BizId}

@[simp] theorem MqState.setPhase_self (s : MqState) (t : ℕ) (phase : MqPhase) :
    (s.setPhase t phase).phase t = phase :=
  Function.update_self ..

theorem MqState.setPhase_of_ne (s : MqState) {t t' : ℕ} (h : t' ≠ t) (phase : MqPhase) :
    (s.setPhase t phase).phase t' = s.phase t' :=
  Function.update_of_ne h ..

theorem Paired.advance (h : Paired s) (hbusy : s.phase t ≠ .idle) {ctx : MqCtx} {phase : MqPhase}
    (hquiet : phase = .idle → ctx.sem = false)
    (hready : ({ s with ctx := ctx }.setPhase t phase).Ready t phase) :
    Paired ({ s with ctx := ctx }.setPhase t phase) := by
  apply Paired.of_thread (t := t)
  · intro t' hne
    rw [MqState.setPhase_of_ne _ hne]
    exact h.others_idle hbusy hne
  · rw [MqState.setPhase_self]
    exact hquiet
  · rw [MqState.setPhase_self]
    exact hready

theorem Paired.send (h : Paired s) (hidle : ∀ t, s.phase t = .idle) :
    Paired (mqStep s (.send t kind id)).1 := by
  simp only [mqStep, hidle t]
  apply Paired.of_thread (t := t)
  · intro t' hne
    exact (Function.update_of_ne hne ..).trans (hidle t')
  · intro hphase
    exact h.quiet hidle
  · dsimp only
    rw [Function.update_self]
    exact ⟨h.quiet hidle, Function.update_self ..⟩

theorem Paired.store (h : Paired s) : Paired (mqStep s (.store t)).1 := by
  rcases hphase : s.phase t with _ | ⟨kind, id⟩ | ⟨kind, id⟩ | ⟨kind, id⟩
  case sent =>
    have hready := h.ready t
    rw [hphase] at hready
    obtain ⟨hsem, hanswers⟩ := hready
    have hbusy : s.phase t ≠ .idle := by simp [hphase]
    simp only [mqStep, hphase]
    apply h.advance hbusy
    · intro hidle
      cases hidle
    · exact .inl ⟨hanswers, rfl, hsem⟩
  all_goals
    simp only [mqStep, hphase]
    exact h

theorem Paired.wake (h : Paired s) : Paired (mqStep s (.wake t)).1 := by
  rcases hphase : s.phase t with _ | ⟨kind, id⟩ | ⟨kind, id⟩ | ⟨kind, id⟩
  case waiting =>
    have hready := h.ready t
    rw [hphase] at hready
    have hbusy : s.phase t ≠ .idle := by simp [hphase]
    simp only [mqStep, hphase]
    split_ifs with hsem
    · rcases hready with ⟨-, -, hfalse⟩ | ⟨hanswers, hslot, hown⟩
      · exact absurd (hfalse.symm.trans hsem) Bool.false_ne_true
      apply h.advance hbusy
      · intro hidle
        cases hidle
      · refine ⟨rfl, hslot, (hown hsem).1, ?_⟩
        intro result hresult
        apply (hown hsem).2 result
        cases kind <;> exact hresult
    · exact h
  all_goals
    simp only [mqStep, hphase]
    exact h

theorem Paired.timeout (h : Paired s) : Paired (mqStep s (.timeout t)).1 := by
  rcases hphase : s.phase t with _ | ⟨kind, id⟩ | ⟨kind, id⟩ | ⟨kind, id⟩
  case waiting =>
    have hbusy : s.phase t ≠ .idle := by simp [hphase]
    simp only [mqStep, hphase]
    split_ifs with hsem
    · exact h
    · apply h.advance hbusy
      · intro _
        exact Bool.eq_false_iff.mpr hsem
      · trivial
  all_goals
    simp only [mqStep, hphase]
    exact h

theorem Paired.finish (h : Paired s) : Paired (mqStep s (.finish t)).1 := by
  rcases hphase : s.phase t with _ | ⟨kind, id⟩ | ⟨kind, id⟩ | ⟨kind, id⟩
  case woken =>
    have hready := h.ready t
    rw [hphase] at hready
    have hbusy : s.phase t ≠ .idle := by simp [hphase]
    simp only [mqStep, hphase]
    apply h.advance hbusy
    · intro _
      exact hready.1
    · trivial
  all_goals
    simp only [mqStep, hphase]
    exact h

theorem Paired.handle_waiting (h : Paired s) {msg : MqMsg} (hid : msg.bizId = some id)
    (hslot : s.ctx.bizId = some id) (hphase : s.phase t = .waiting kind id)
    (hposts : msg.Posts → msg.Renews s.ctx.agent ∧ msg.kind = some kind) :
    Paired (mqStep s (.handle msg)).1 := by
  have hready := h.ready t
  rw [hphase] at hready
  obtain ⟨hanswers, -, hsem⟩ | ⟨-, hnone, -⟩ := hready
  · obtain ⟨hacc, hclear⟩ := aiMqHandle_accepts hid hslot
    have hbusy : s.phase t ≠ .idle := by simp [hphase]
    have hmine : (mqStep s (.handle msg)).1.answers t = [msg] := by
      simp [mqStep, hacc, hphase, MqPhase.bizId, hid, hanswers]
    apply Paired.of_thread (t := t)
    · intro t' hne
      exact h.others_idle hbusy hne
    · intro hidle
      exact absurd hidle hbusy
    · have hstill : (mqStep s (.handle msg)).1.phase t = .waiting kind id := hphase
      rw [hstill]
      refine .inr ⟨by simp [hmine], hclear, fun hpost ↦ ⟨by simp [hmine], ?_⟩⟩
      intro result hresult
      have hp : msg.Posts := by
        by_contra hp
        exact absurd ((aiMqHandle_sem hp).trans hsem) (ne_of_eq_of_ne hpost Bool.false_ne_true.symm)
      obtain ⟨hrenews, hkind⟩ := hposts hp
      refine ⟨msg, by simp [hmine], ?_⟩
      exact aiMqHandle_result hid hslot hrenews hkind hp hresult
  · exact absurd (hnone.symm.trans hslot) (Option.some_ne_none id).symm

theorem Paired.handle_late (h : Paired s) {msg : MqMsg} (hid : msg.bizId = some id)
    (hslot : s.ctx.bizId = some id) (hposts : ¬msg.Posts)
    (hsent : ∀ t kind id, s.phase t = .sent kind id → msg.bizId ≠ some id)
    (hnot : ∀ t kind, s.phase t ≠ .waiting kind id) : Paired (mqStep s (.handle msg)).1 where
  single := h.single
  quiet := fun hall ↦ (aiMqHandle_sem hposts).trans (h.quiet hall)
  ready := by
    intro t
    have hready := h.ready t
    change MqState.Ready _ t (s.phase t)
    rcases hphase : s.phase t with _ | ⟨kind, id'⟩ | ⟨kind, id'⟩ | ⟨kind, id'⟩
    · trivial
    · rw [hphase] at hready
      have hother : some id' ≠ msg.bizId := (hsent t kind id' hphase).symm
      refine ⟨(aiMqHandle_sem hposts).trans hready.1, ?_⟩
      simp [mqStep, hphase, MqPhase.bizId, hother, hready.2]
    · -- the slot is of the call that waits, or empty
      rw [hphase] at hready
      rcases hready with ⟨-, hmine, -⟩ | ⟨-, hnone, -⟩
      · obtain rfl : id' = id := Option.some.inj (hmine.symm.trans hslot)
        exact absurd hphase (hnot t kind)
      · exact absurd (hnone.symm.trans hslot) (Option.some_ne_none id).symm
    · rw [hphase] at hready
      exact absurd (hready.2.1.symm.trans hslot) (Option.some_ne_none id).symm

theorem Paired.handle (h : Paired s) {msg : MqMsg} (hq : MqOrderly s (.handle msg)) :
    Paired (mqStep s (.handle msg)).1 := by
  obtain hdrop | ⟨id, hid, hslot⟩ := aiMqHandle_cases s.ctx msg
  · have hsame : (mqStep s (.handle msg)).1 = s := by
      simp [mqStep, hdrop]
    rw [hsame]
    exact h
  by_cases hwaits : ∃ t kind, s.phase t = .waiting kind id
  · obtain ⟨t, kind, hphase⟩ := hwaits
    apply h.handle_waiting hid hslot hphase
    intro hp
    obtain ⟨hrenews, t', kind', hphase', hkind⟩ := hq.2 id hid hslot hp
    obtain rfl : t' = t := h.single t' t (by simp [hphase']) (by simp [hphase])
    obtain ⟨rfl, -⟩ := MqPhase.waiting.inj (hphase'.symm.trans hphase)
    exact ⟨hrenews, hkind⟩
  · apply h.handle_late hid hslot
    · intro hp
      obtain ⟨-, t, kind, hphase, -⟩ := hq.2 id hid hslot hp
      exact hwaits ⟨t, kind, hphase⟩
    · exact hq.1
    · intro t kind hphase
      exact hwaits ⟨t, kind, hphase⟩

theorem Paired.step (h : Paired s) {x : MqStep} (hq : MqOrderly s x) : Paired (mqStep s x).1 := by
  cases x with
  | send t kind id => exact h.send hq
  | store t => exact h.store
  | wake t => exact h.wake
  | timeout t => exact h.timeout
  | finish t => exact h.finish
  | handle msg => exact h.handle hq

theorem Paired.success (h : Paired s) {x : MqStep} {answers : List MqMsg} {result : MqResult}
    (hout : (mqStep s x).2 = .returned kind id answers (some result)) :
    ∃ msg ∈ answers, msg.Gives id kind result := by
  cases x with
  | send t k i =>
      simp only [mqStep] at hout
      split at hout <;> cases hout
  | store t =>
      simp only [mqStep] at hout
      split at hout <;> cases hout
  | wake t =>
      simp only [mqStep] at hout
      split at hout
      · split_ifs at hout
      · cases hout
  | timeout t =>
      simp only [mqStep] at hout
      split at hout
      · split_ifs at hout
        cases hout
      · cases hout
  | finish t =>
      simp only [mqStep] at hout
      split at hout
      · rename_i kind' id' hphase
        have hready := h.ready t
        rw [hphase] at hready
        obtain ⟨-, -, -, hown⟩ := hready
        injection hout with hkind hid hanswers hresult
        subst hkind hid hanswers
        exact hown result hresult
      · cases hout
  | handle msg => cases hout

theorem Paired.kept (h : Paired s) {msg : MqMsg} (hq : MqOrderly s (.handle msg))
    (hawaits : s.Awaits t msg) : (mqStep s (.handle msg)).2 = .handled true := by
  obtain ⟨hmsg, hne, hnone⟩ := hawaits
  have hready := h.ready t
  rcases hphase : s.phase t with _ | ⟨kind, id⟩ | ⟨kind, id⟩ | ⟨kind, id⟩
  · simp [hphase, MqPhase.bizId] at hne
  · rw [hphase] at hmsg
    exact absurd hmsg.symm (hq.1 t kind id hphase)
  · rw [hphase] at hmsg hready
    rcases hready with ⟨-, hslot, -⟩ | ⟨hsome, -⟩
    · have hacc := (aiMqHandle_accepts hmsg.symm hslot).1
      simp [mqStep, hacc]
    · exact absurd hnone hsome
  · rw [hphase] at hready
    exact absurd hnone hready.2.2.1

end Step

end TuyaOpen.Ai
