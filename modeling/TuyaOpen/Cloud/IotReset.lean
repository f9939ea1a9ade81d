import TuyaOpen.Cloud.Iot
import TuyaOpen.Lib.Mealy

/-!
# Whether a reset is lost

A reset is asked for by `tuya_iot_reset`, by a command of the cloud or by the unbind callback.  Each
writes the next state, and so do other requests and the end of the case that runs.
-/

namespace TuyaOpen.Cloud

/-- The step is one of the three requests, up to its write. -/
def IotClient.ResetRequested (s : IotClient) : IotStep → Prop
  | .reset t => s.requests t = .idle
  | .resetCmd => s.state = .mqttYield ∧ s.point = .entered ∧ s.mqctx.isConnected = true
  | .advance env => s.point = .entered ∧ env.connect = .notAuthorized ∧
      (s.state = .mqttYield ∧ s.mqctx.isConnected = false ∨
        s.state = .mqttConnectStart ∧ s.mqctx.isInited = true)
  | _ => False

instance (s : IotClient) : (x : IotStep) → Decidable (s.ResetRequested x)
  | .reset t => inferInstanceAs (Decidable (s.requests t = .idle))
  | .resetCmd => inferInstanceAs (Decidable (_ ∧ _ ∧ _))
  | .advance _ => inferInstanceAs (Decidable (_ ∧ _ ∧ (_ ∧ _ ∨ _ ∧ _)))
  | .yield _ | .tokenActivate _ | .start _ | .reconnect _ | .linkTypeChange _ | .stop | .goOn _ =>
      isFalse id

/-- With the client is kept whether a reset was asked for since the latest call of `tuya_iot_yield`
has begun. -/
def resetMachine : Mealy (IotClient × Bool) IotStep Unit where
  step s x := (((iotStep s.1 x).1, match x with
    | .yield _ => if s.1.point = .returned then false else s.2
    | x => s.2 || decide (s.1.ResetRequested x)), ())

/-- The next call of `tuya_iot_yield` is a reset if one was asked for. -/
structure ResetKept (s : IotClient × Bool) : Prop where
  nextstate : s.2 = true → s.1.nextstate = .reset
  executed : ∀ env, s.2 = true → s.1.point = .returned →
    (iotStep s.1 (.yield env)).1.state = .reset

/-- The case comes to where it writes another next state. -/
def IotClient.Assigns (s : IotClient) (env : YieldEnv) : Prop :=
  match s.state, s.point with
  | .dataLoad, .subscribed => True
  | .tokenPending, .tokenOn => True
  | .networkCheck, .entered => env.networkCheck = true
  | .endpointGet, .entered => True
  | .endpointUpdate, .entered => env.endpoint = oprtOk ∧ s.isActivated = false
  | .endpointUpdate, .endpointSet => True
  | .activating, .entered => env.activate ≠ oprtOk
  | .activating, .endpointSet => True
  | .startupUpdate, .entered => True
  | .mqttConnectStart, .entered => s.mqctx.isInited = true ∧ env.connect = .success
  | .mqttReconnect, .entered => True
  | .networkReconnect, .entered => env.networkCheck = true
  | .reset, .entered => True
  | .stop, .entered => True
  | _, _ => False

/-- While a reset waits nothing else is asked for, and no case comes to its write. -/
def ResetSafe (s : IotClient × Bool) (x : IotStep) : Prop := s.2 = true → match x with
  | .stop => False
  | .goOn t => s.1.requests t ≠ .starting ∧ s.1.requests t ≠ .reconnecting
  | .advance env => ¬s.1.Assigns env
  | _ => True

/-! ## Steps -/

section Steps

variable {s : IotClient}

theorem reconnect_nextstate (s : IotClient) (t : ℕ) : (s.reconnect t).nextstate = s.nextstate := by
  rw [IotClient.reconnect]
  split_ifs <;> rfl

theorem yield_state (s : IotClient) (env : YieldEnv) : (s.yield env).1.state = s.nextstate := by
  rw [IotClient.yield]
  dsimp only
  cases hnext : s.nextstate <;> dsimp only [IotClient.ret] <;> split_ifs <;> rfl

theorem nextstate_advance (hreset : s.nextstate = .reset) (env : YieldEnv) :
    (s.advance env).1.nextstate = .reset ↔ ¬s.Assigns env := by
  cases hstate : s.state <;> cases hpoint : s.point <;>
    simp [IotClient.advance, IotClient.Assigns, hstate, hpoint, hreset]
  case mqttConnectStart.entered =>
    rw [← Bool.not_eq_true, MqttContext.start_snd, not_and]
  case mqttReconnect.entered => cases env.networkCheck <;> simp
  case endpointGet.entered => split_ifs <;> simp
  all_goals split_ifs <;> simp_all

theorem nextstate_iotStep (hreset : s.nextstate = .reset) {x : IotStep}
    (hyield : ∀ env, x = .yield env → s.point ≠ .returned) :
    (iotStep s x).1.nextstate = .reset ↔ ResetSafe (s, true) x := by
  cases x with
  | yield env =>
      rw [iotStep, if_neg (hyield env rfl)]
      exact iff_of_true hreset fun _ ↦ trivial
  | advance env =>
      rw [iotStep, nextstate_advance hreset]
      exact ⟨fun h _ ↦ h, fun h ↦ h rfl⟩
  | resetCmd =>
      rw [iotStep]
      split_ifs
      · exact iff_of_true rfl fun _ ↦ trivial
      · exact iff_of_true hreset fun _ ↦ trivial
  | tokenActivate info =>
      rw [iotStep, IotClient.tokenActivateEvt]
      split_ifs
      · exact iff_of_true hreset fun _ ↦ trivial
      · exact iff_of_true hreset fun _ ↦ trivial
  | start t =>
      rw [iotStep]
      split_ifs
      · exact iff_of_true hreset fun _ ↦ trivial
      · exact iff_of_true hreset fun _ ↦ trivial
  | reconnect t => exact iff_of_true ((reconnect_nextstate s t).trans hreset) fun _ ↦ trivial
  | linkTypeChange t =>
      rw [iotStep]
      split_ifs
      · exact iff_of_true ((reconnect_nextstate s t).trans hreset) fun _ ↦ trivial
      · exact iff_of_true hreset fun _ ↦ trivial
  | stop => exact iff_of_false (by simp [iotStep]) fun h ↦ h rfl
  | reset t =>
      rw [iotStep]
      split_ifs
      · exact iff_of_true rfl fun _ ↦ trivial
      · exact iff_of_true hreset fun _ ↦ trivial
  | goOn t =>
      rw [iotStep, IotClient.goOn]
      cases hrequest : s.requests t with
      | idle => exact iff_of_true hreset fun _ ↦ by simp [hrequest]
      | starting => exact iff_of_false (by simp) fun h ↦ (h rfl).1 hrequest
      | reconnecting => exact iff_of_false (by simp) fun h ↦ (h rfl).2 hrequest
      | resetting =>
          dsimp only
          split_ifs
          · exact iff_of_true hreset fun _ ↦ by simp [hrequest]
          · exact iff_of_true hreset fun _ ↦ by simp [hrequest]

theorem nextstate_of_resetRequested {x : IotStep} (h : s.ResetRequested x) :
    (iotStep s x).1.nextstate = .reset := by
  cases x with
  | advance env =>
      obtain ⟨hpoint, hconnect, ⟨hstate, hconnected⟩ | ⟨hstate, hinited⟩⟩ := h
      · simp [iotStep, IotClient.advance, hstate, hpoint, hconnect, hconnected]
      · simp [iotStep, IotClient.advance, MqttContext.start, hstate, hpoint, hconnect, hinited]
  | resetCmd =>
      rw [IotClient.ResetRequested] at h
      rw [iotStep, if_pos h]
  | reset t =>
      rw [IotClient.ResetRequested] at h
      rw [iotStep, if_pos h]
  | yield => exact h.elim
  | tokenActivate => exact h.elim
  | start => exact h.elim
  | reconnect => exact h.elim
  | linkTypeChange => exact h.elim
  | stop => exact h.elim
  | goOn => exact h.elim

end Steps

/-! ## Runs -/

section Runs

/-- The step is at the beginning of a case. -/
def IotClient.Begins (s : IotClient) (x : IotStep) :
    Prop := s.point = .returned ∧ ∃ env, x = .yield env

theorem resetMachine_waits {s : IotClient × Bool} {x : IotStep} :
    (resetMachine.step s x).1.2 = true ↔
      ¬s.1.Begins x ∧ (s.2 = true ∨ s.1.ResetRequested x) := by
  cases x with
  | yield env =>
      by_cases hpoint : s.1.point = .returned <;>
        simp [resetMachine, IotClient.Begins, IotClient.ResetRequested, hpoint]
  | _ => simp [resetMachine, IotClient.Begins]

theorem resetKept_iff {s : IotClient × Bool} :
    ResetKept s ↔ (s.2 = true → s.1.nextstate = .reset) := by
  refine ⟨ResetKept.nextstate, fun h ↦ ⟨h, ?_⟩⟩
  intro env hwaits hpoint
  rw [iotStep, if_pos hpoint, yield_state]
  exact h hwaits

theorem resetKept_step {s : IotClient × Bool} (h : ResetKept s) (x : IotStep) :
    ResetKept (resetMachine.step s x).1 ↔ ResetSafe s x := by
  rw [resetKept_iff, resetMachine_waits]
  by_cases hbegins : s.1.Begins x
  · refine iff_of_true (fun h ↦ absurd hbegins h.1) ?_
    obtain ⟨_, env, rfl⟩ := hbegins
    exact fun _ ↦ trivial
  · by_cases hwaits : s.2 = true
    · have hyield : ∀ env, x = .yield env → s.1.point ≠ .returned :=
        fun env hx hpoint ↦ hbegins ⟨hpoint, env, hx⟩
      have hsafe := nextstate_iotStep (h.nextstate hwaits) hyield
      have hsame : ResetSafe s x ↔ ResetSafe (s.1, true) x := by rw [← hwaits]
      rw [hsame, ← hsafe]
      exact ⟨fun h ↦ h ⟨hbegins, .inl hwaits⟩, fun h _ ↦ h⟩
    · refine iff_of_true ?_ fun h ↦ absurd h hwaits
      rintro ⟨_, hwaits' | hrequested⟩
      · exact absurd hwaits' hwaits
      · exact nextstate_of_resetRequested hrequested

/-- A reset is never lost in a run exactly when all its steps are safe. -/
theorem reset_kept (isActivated : Bool) (devid : List UInt8) (xs : List IotStep) :
    (∀ k ≤ xs.length, ResetKept
    (resetMachine.final (iotInit isActivated devid, false) (xs.take k))) ↔
      resetMachine.Guarded ResetSafe (iotInit isActivated devid, false) xs := by
  have hinit : ResetKept (iotInit isActivated devid, false) :=
    resetKept_iff.mpr fun h ↦ absurd h (by simp)
  generalize (iotInit isActivated devid, false) = s at hinit
  induction xs generalizing s with
  | nil =>
      refine iff_of_true ?_ trivial
      intro k _
      rw [List.take_nil]
      exact hinit
  | cons x xs ih =>
      refine ⟨?_, ?_⟩
      · intro h
        have hnext : ResetKept (resetMachine.step s x).1 := h 1 (by simp)
        refine ⟨(resetKept_step hinit x).mp hnext, (ih _ hnext).mp ?_⟩
        intro k hk
        exact h (k + 1) (Nat.succ_le_succ hk)
      · rintro ⟨hsafe, hrest⟩ k hk
        have hnext := (resetKept_step hinit x).mpr hsafe
        cases k with
        | zero => exact hinit
        | succ k => exact (ih _ hnext).mpr hrest k (Nat.le_of_succ_le_succ hk)

end Runs

/-- A run of an activated client. -/
def ResetKeptBehind (xs : List IotStep) : Prop :=
  ResetKept (resetMachine.final (iotInit true [], false) xs)

/-- The case of the network check ends behind the reset; a stop; a start that has tested the state;
the link type changes behind the command of the cloud; and a second reset in the case of the
first. -/
theorem reset_not_kept :
    ¬ResetKeptBehind (someStart ++ [.yield someYield, .reset 1, .advance someYield]) ∧
    ¬ResetKeptBehind [.reset 1, .stop] ∧
    ¬ResetKeptBehind [.start 0, .reset 1, .goOn 0] ∧
    ¬ResetKeptBehind (someStart ++ someCase ++ someCase ++ someCase ++ someCase ++
      [.yield someYield] ++ [.yield someYield, .resetCmd, .linkTypeChange 1, .goOn 1]) ∧
    ¬ResetKeptBehind [.reset 0, .goOn 0, .yield someYield, .reset 1, .advance someYield] := by
  refine ⟨?_, ?_, ?_, ?_, ?_⟩
  · exact fun h ↦ absurd (h.nextstate (by decide)) (by decide)
  · exact fun h ↦ absurd (h.nextstate (by decide)) (by decide)
  · exact fun h ↦ absurd (h.nextstate (by decide)) (by decide)
  · exact fun h ↦ absurd (h.nextstate (by decide)) (by decide)
  · exact fun h ↦ absurd (h.nextstate (by decide)) (by decide)

end TuyaOpen.Cloud
