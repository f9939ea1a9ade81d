import TuyaOpen.Ai.Client

/-!
# Running means connected

The state RUNNING of the client thread, in any interleaving with the timers that can give
the connection up.
-/

namespace TuyaOpen.Ai

def clientMachine (v : AiVersion) : Mealy AiBasicClient ClientStep Unit where
  step s x := (clientStep v s x, ())

def clientInit : AiBasicClient where
  state := .idle
  reconnCnt := 0
  connected := false
  aliveWork := false
  aliveTimeoutTimer := false
  heartbeatLostCnt := 0
  idleCheckTimer := false
  idleCheckEnable := false
  recvBizPkt := false
  phase := .loop
  accepted := false

/-- RUNNING is on a connection that is up and was authenticated. -/
def LiveRunning (s : AiBasicClient) : Prop :=
  s.state = .running → s.connected = true ∧ s.accepted = true

/-- The thread is going to set AUTH_RESP or RUNNING. -/
def ClientPhase.Opening : ClientPhase → Prop
  | authRead => True
  | leave next => next = .authResp ∨ next = .running
  | _ => False

instance (phase : ClientPhase) : Decidable phase.Opening := by
  cases phase <;> unfold ClientPhase.Opening <;> infer_instance

/-- No timer closes the connection while the thread is going to set AUTH_RESP or RUNNING, and
the packet that ends the handshake is an AUTH_RESP. -/
def Uncrossed (v : AiVersion) (s : AiBasicClient) : ClientStep → Prop
  | .authRespRet rt pkt =>
      s.phase = .authRead → tuyaAiAuthResp rt pkt = oprtOk → ∃ p ∈ pkt, p.type = aiPtAuthResp
  | .aliveTimeout _ =>
      s.aliveTimeoutTimer = true → 2 ≤ s.heartbeatLostCnt → ¬s.phase.Opening
  | .idleCheck _ _ =>
      v = .v2 → s.idleCheckTimer = true → s.idleCheckEnable = true → s.recvBizPkt = false →
        ¬s.phase.Opening
  | _ => True

/-! ## The invariant -/

/-- Both states need the connection, also when they are only about to be set. -/
structure LiveInv (s : AiBasicClient) : Prop where
  running : LiveRunning s
  authResp : s.state = .authResp → s.connected = true
  opening : s.phase.Opening → s.connected = true
  done : s.phase = .leave .running → s.accepted = true

theorem liveInv_init : LiveInv clientInit where
  running h := by cases h
  authResp h := by cases h
  opening h := h.elim
  done h := by cases h

section Step

variable {s s' : AiBasicClient} {v : AiVersion}

theorem LiveInv.mono (h : LiveInv s)
    (hstate : s'.state = s.state ∨ s'.state ≠ .running ∧ s'.state ≠ .authResp)
    (hconnected : s.connected = true → s'.connected = true)
    (haccepted : s.accepted = true → s'.accepted = true)
    (hphase : s'.phase = s.phase ∨ ¬s'.phase.Opening) : LiveInv s' where
  running := by
    intro hrun
    rcases hstate with hsame | ⟨hne, -⟩
    · obtain ⟨hup, hacc⟩ := h.running (hsame.symm.trans hrun)
      exact ⟨hconnected hup, haccepted hacc⟩
    · exact absurd hrun hne
  authResp := by
    intro hauth
    rcases hstate with hsame | ⟨-, hne⟩
    · exact hconnected (h.authResp (hsame.symm.trans hauth))
    · exact absurd hauth hne
  opening := by
    intro hopen
    rcases hphase with hsame | hquiet
    · exact hconnected (h.opening (hsame ▸ hopen))
    · exact absurd hopen hquiet
  done := by
    intro hdone
    rcases hphase with hsame | hquiet
    · exact haccepted (h.done (hsame.symm.trans hdone))
    · rw [hdone] at hquiet
      exact absurd (.inr rfl) hquiet

theorem LiveInv.pause (h : LiveInv s) {phase : ClientPhase} (hphase : ¬phase.Opening) :
    LiveInv { s with phase := phase } :=
  h.mono (.inl rfl) id id (.inr hphase)

theorem liveInv_idle (hstate : s.state = .idle) (hphase : ¬s.phase.Opening) : LiveInv s where
  running h := by cases hstate.symm.trans h
  authResp h := by cases hstate.symm.trans h
  opening h := absurd h hphase
  done h := by
    rw [h] at hphase
    exact absurd (.inr rfl) hphase

theorem LiveInv.handleErr (h : LiveInv s) (mem : Bool) : LiveInv (s.handleErr mem) := by
  rw [AiBasicClient.handleErr.eq_def]
  split
  · exact h.mono (.inl rfl) id id (.inr not_false)
  · exact h.pause not_false
  · exact h.pause not_false
  · exact liveInv_idle rfl not_false
  · exact h.pause not_false

theorem LiveInv.leave (h : LiveInv s) {next : AiClientState} (hphase : s.phase = .leave next) :
    LiveInv (s.leave next) := by
  have hneither : ∀ {s' : AiBasicClient}, s'.state = next → s'.phase = .loop →
      s'.connected = s.connected → s'.accepted = s.accepted → LiveInv s' := by
    intro s' hstate hloop hconn hacc
    constructor
    · intro hrun
      obtain rfl : next = .running := hstate.symm.trans hrun
      rw [hconn, hacc]
      exact ⟨h.opening (hphase ▸ .inr rfl), h.done hphase⟩
    · intro hauth
      obtain rfl : next = .authResp := hstate.symm.trans hauth
      rw [hconn]
      exact h.opening (hphase ▸ .inl rfl)
    · intro hopen
      rw [hloop] at hopen
      exact hopen.elim
    · intro hdone
      cases hloop.symm.trans hdone
  cases next <;> exact hneither rfl rfl rfl rfl

theorem LiveInv.handlePacket (h : LiveInv s) (first : Bool) (pkt : ConnPacket) :
    LiveInv (s.handlePacket first pkt) := by
  have hloop : ∀ {s' : AiBasicClient}, s'.state = s.state → s'.phase = .loop →
      s'.connected = s.connected → s'.accepted = s.accepted → LiveInv s' := by
    intro s' hstate hphase hconn hacc
    refine h.mono (.inl hstate) (fun hup ↦ hconn.trans hup) (fun hold ↦ hacc.trans hold) (.inr ?_)
    rw [hphase]
    exact not_false
  simp only [AiBasicClient.handlePacket]
  split_ifs with _ _ _ hclose
  case neg => exact liveInv_idle rfl not_false
  all_goals exact hloop rfl rfl rfl rfl

theorem LiveInv.send (h : LiveInv s) (rt : OperateRet) {next : AiClientState}
    (hnext : next ≠ .running) : LiveInv (sendHandshake s rt next) := by
  rw [sendHandshake]
  split_ifs with hdown
  · exact h.pause not_false
  · exact h.pause not_false
  · refine ⟨h.running, h.authResp, fun _ ↦ Bool.eq_true_of_not_eq_false hdown, fun hdone ↦ ?_⟩
    exact absurd (ClientPhase.leave.inj hdone) hnext

theorem LiveInv.aliveTimeout (h : LiveInv s) {mem : Bool}
    (hq : Uncrossed v s (.aliveTimeout mem)) : LiveInv (clientStep v s (.aliveTimeout mem)) := by
  simp only [clientStep]
  split_ifs with htimer hlost
  · exact liveInv_idle rfl (hq htimer (by omega))
  · exact h.mono (.inl rfl) id id (.inl rfl)
  · exact h

theorem LiveInv.idleCheck (h : LiveInv s) {long mem : Bool}
    (hq : Uncrossed v s (.idleCheck long mem)) :
    LiveInv (clientStep v s (.idleCheck long mem)) := by
  simp only [clientStep]
  split_ifs with htimer hv henable hrecv
  · exact h.mono (.inl rfl) id id (.inl rfl)
  · exact h.mono (.inl rfl) id id (.inl rfl)
  · have hv2 : v = .v2 := by
      cases v
      · exact absurd rfl hv
      · rfl
    exact liveInv_idle rfl (hq hv2 htimer henable (Bool.eq_false_iff.mpr hrecv))
  · exact h.mono (.inl rfl) id id (.inl rfl)
  · exact h.mono (.inl rfl) id id (.inl rfl)
  · exact h

theorem LiveInv.authRespRet (h : LiveInv s) {rt : OperateRet} {pkt : Option ConnPacket}
    (hq : Uncrossed v s (.authRespRet rt pkt)) :
    LiveInv (clientStep v s (.authRespRet rt pkt)) := by
  simp only [clientStep]
  split_ifs with hphase hrt
  · exact h.pause not_false
  · obtain ⟨p, hp, htype⟩ := hq hphase (not_not.mp hrt)
    have haccepted : (s.accepted || pkt.any fun pkt ↦ pkt.type = aiPtAuthResp) = true := by
      rw [Option.mem_def.mp hp]
      simp [htype]
    have hup := h.opening (hphase ▸ trivial)
    exact ⟨fun _ ↦ ⟨hup, haccepted⟩, fun _ ↦ hup, fun _ ↦ hup, fun _ ↦ haccepted⟩
  · exact h

theorem LiveInv.step (h : LiveInv s) {x : ClientStep} (hq : Uncrossed v s x) :
    LiveInv (clientStep v s x) := by
  cases x with
  | idle ready =>
      simp only [clientStep]
      split_ifs
      · exact h.mono (.inr ⟨by simp, by simp⟩) id id (.inl rfl)
      · exact h.pause not_false
      · exact h
  | setup init =>
      simp only [clientStep]
      split_ifs with hat
      · exact h.pause not_false
      · -- the flag goes down, in a state that does not need it
        refine ⟨fun hrun ↦ ?_, fun hauth ↦ ?_, fun hopen ↦ hopen.elim, fun hdone ↦ ?_⟩
        · cases hat.2.symm.trans hrun
        · cases hat.2.symm.trans hauth
        · cases hdone
      · exact h
  | serCfg rt =>
      simp only [clientStep]
      split_ifs
      · exact h.pause (by simp [ClientPhase.Opening])
      · exact liveInv_idle rfl not_false
      · exact h.pause not_false
      · exact h
  | connect =>
      simp only [clientStep]
      split_ifs
      · exact h.pause not_false
      · exact h
  | connectRet linkage hosts =>
      simp only [clientStep]
      split_ifs
      · exact h.pause not_false
      · exact h.pause not_false
      · refine h.mono (.inl rfl) (fun hup ↦ ?_) id (.inr (by simp [ClientPhase.Opening]))
        rw [hup, Bool.true_or]
      · exact h
  | send rt =>
      simp only [clientStep]
      split_ifs
      · exact h.send rt (by cases v <;> simp [AiVersion.helloNext])
      · exact h.send rt (by simp)
      · exact h
  | authResp =>
      simp only [clientStep]
      split_ifs with hat
      · have hup := h.authResp hat.2
        exact ⟨h.running, fun _ ↦ hup, fun _ ↦ hup, fun hdone ↦ by cases hdone⟩
      · exact h
  | authRespRet rt pkt => exact h.authRespRet hq
  | running =>
      simp only [clientStep]
      split_ifs
      · exact h.pause not_false
      · exact h
  | runningRet read =>
      simp only [clientStep]
      split_ifs
      · cases read with
        | failed rt mqtt =>
            dsimp only
            split_ifs
            · exact h.pause not_false
            · exact h.pause not_false
        | packet first pkt => exact h.handlePacket first pkt
      · exact h
  | leave =>
      simp only [clientStep]
      split
      · rename_i next hphase
        exact h.leave hphase
      · exact h
  | handleErr mem =>
      simp only [clientStep]
      split
      · exact h.handleErr mem
      · exact h
  | backoff =>
      simp only [clientStep]
      split_ifs
      · exact h.mono (.inr ⟨by simp, by simp⟩) id id (.inr not_false)
      · exact h
  | ping =>
      simp only [clientStep]
      split_ifs
      · exact h.mono (.inl rfl) id id (.inl rfl)
      · exact h
  | aliveTimeout mem => exact h.aliveTimeout hq
  | idleCheck long mem => exact h.idleCheck hq
  | startPing => exact h.mono (.inl rfl) id id (.inl rfl)

end Step

/-- In every run in which no timer closes the connection between the last packet of the
handshake and the state RUNNING, RUNNING is on a connection that is up and was
authenticated. -/
theorem running_is_live (v : AiVersion) {steps : List ClientStep}
    (h : (clientMachine v).Guarded (Uncrossed v) clientInit steps) (k : ℕ) :
    LiveRunning ((clientMachine v).final clientInit (steps.take k)) :=
  ((clientMachine v).inv_final (fun _ _ hs hq ↦ hs.step hq) liveInv_init (h.take k)).running

/-! ## Runs -/

/-- The thread as far as RUNNING, when nothing fails. -/
def firstSteps : List ClientStep :=
  [.idle true, .setup oprtOk, .serCfg oprtOk, .leave, .connect, .connectRet oprtOk [oprtOk], .leave,
    .send oprtOk, .leave, .send oprtOk, .leave, .authResp]

def authRespPacket : ConnPacket :=
  ⟨aiPtAuthResp, true, .ok [.connectStatusCode aiCodeOk, .connectionId]⟩

def lastSteps (pkt : ConnPacket) : List ClientStep := [.authRespRet oprtOk (some pkt), .leave]

/-- The connection is up behind the steps of the thread alone. -/
theorem running_is_live_firstSteps :
    LiveRunning ((clientMachine .v1).final clientInit
      ((firstSteps ++ lastSteps authRespPacket).take 14)) ∧
    ((clientMachine .v1).final clientInit
      ((firstSteps ++ lastSteps authRespPacket).take 14)).state = .running := by
  have hguard : (clientMachine .v1).Guarded (Uncrossed .v1) clientInit
      (firstSteps ++ lastSteps authRespPacket) := by
    refine ⟨trivial, trivial, trivial, trivial, trivial, trivial, trivial, trivial, trivial,
      trivial, trivial, trivial, ?_, trivial, trivial⟩
    intro _ _
    exact ⟨authRespPacket, rfl, rfl⟩
  exact ⟨running_is_live .v1 hguard 14, by decide⟩

/-- Three pings, that a sender started, without an answer. -/
def lostPings : List ClientStep :=
  [.startPing, .ping, .aliveTimeout true, .ping, .aliveTimeout true, .ping, .aliveTimeout true]

/-- The timer closes the connection between the read of the AUTH_RESP and the state RUNNING; and
a CONN_CLOSE that does not say why is taken for an AUTH_RESP. -/
theorem running_not_live :
    ¬LiveRunning ((clientMachine .v1).final clientInit
      (firstSteps ++ [.authRespRet oprtOk (some authRespPacket)] ++ lostPings ++ [.leave])) ∧
    ¬LiveRunning ((clientMachine .v1).final clientInit
      (firstSteps ++ lastSteps ⟨aiPtConnClose, true, .ok []⟩)) := by
  constructor
  · intro h
    exact absurd (h (by decide)).1 (by decide)
  · intro h
    exact absurd (h (by decide)).2 (by decide)

end TuyaOpen.Ai
