import Mathlib.Data.List.Nodup
import Mathlib.Logic.Function.Basic
import TuyaOpen.Lib.Mealy
import TuyaOpen.Netcfg.Handlers

/-!
# When a method of the network configuration is started

A work item keeps its handler until it has run.  Nothing but the end of the module takes it back: a
stop that comes before it, another start, or a handler that is unregistered do not.
-/

namespace TuyaOpen.Netcfg

/-- `quiet` is a method that was stopped with OK and not asked for since, and `called` one whose
`start` was called since its latest stop. -/
structure NetcfgLog where
  quiet : ℤ → Bool
  called : ℤ → Bool

namespace NetcfgLog

def record (log : NetcfgLog) : NetcfgEvent → NetcfgLog
  | .asked type => { log with quiet := Function.update log.quiet type false }
  | .start type _ _ => { log with called := Function.update log.called type true }
  | .stop type _ => { log with called := Function.update log.called type false }
  | .stopped type =>
      if type = netcfgStopAllCfgModule then ⟨fun _ ↦ true, fun _ ↦ false⟩
      else ⟨Function.update log.quiet type true, Function.update log.called type false⟩
  | _ => log

end NetcfgLog

abbrev LoggedNetcfg := NetcfgState × NetcfgLog

def netcfgMachine : Mealy LoggedNetcfg NetcfgStep (List NetcfgEvent) where
  step s x := (((netcfgStep s.1 x).1, (netcfgStep s.1 x).2.foldl NetcfgLog.record s.2),
    (netcfgStep s.1 x).2)

/-- No quiet method is started, none is started that was called, and a work item finds its
handler. -/
structure NetcfgSound (s : LoggedNetcfg) (x : NetcfgStep) : Prop where
  quiet : ∀ type,
    (∃ netcfgFinishCb args, .start type netcfgFinishCb args ∈ (netcfgMachine.step s x).2) ∨
    .started type ∈ (netcfgMachine.step s x).2 → s.2.quiet type = false
  once : ∀ type netcfgFinishCb args, .start type netcfgFinishCb args ∈ (netcfgMachine.step s x).2 →
    s.2.called type = false
  registered : .wild ∉ (netcfgMachine.step s x).2

namespace NetcfgState

variable (s : NetcfgState)

/-- There is a work item of the handler, in the queue or in `start`. -/
def Pending (id : ℕ) : Prop := id ∈ s.queue ∨ s.running = some id

instance (id : ℕ) : Decidable (s.Pending id) := inferInstanceAs (Decidable (_ ∨ _))

/-- No handler of the method has a work item. -/
def Settled (type : ℤ) : Prop := ∀ h ∈ s.handlers, h.type = type → ¬s.Pending h.id

instance (type : ℤ) : Decidable (s.Settled type) := List.decidableBAll _ _

def keys : List (ℕ × ℤ) := s.handlers.map fun h ↦ (h.id, h.type)

end NetcfgState

/-- A start, an unregistration and a stop that returns OK come when the method has no work item, and
a start when `start` was not called since the latest stop; and the module ends when no `start`
runs. -/
def NetcfgSafe (s : LoggedNetcfg) : NetcfgStep → Prop
  | .unregister type => s.1.Settled type
  | .start type _ _ room => room = true → s.1.Settled type ∧ s.2.called type = false
  | .stop type rets =>
      if type = netcfgStopAllCfgModule then s.1.session ≠ none → s.1.running = none
      else (∀ h ∈ s.1.getHandler type, h.isStarted = true → rets type = oprtOk) → s.1.Settled type
  | .uninit => s.1.session ≠ none → s.1.running = none
  | _ => True

instance (s : LoggedNetcfg) : (x : NetcfgStep) → Decidable (NetcfgSafe s x)
  | .init _ => isTrue trivial
  | .register _ _ => isTrue trivial
  | .unregister type => inferInstanceAs (Decidable (s.1.Settled type))
  | .start _ _ _ _ => inferInstanceAs (Decidable (_ → _ ∧ _))
  | .stop type rets => inferInstanceAs (Decidable (if type = netcfgStopAllCfgModule then _ → _ else
      (∀ h ∈ s.1.getHandler type, h.isStarted = true → rets type = oprtOk) → s.1.Settled type))
  | .stopOtherAll _ _ => isTrue trivial
  | .uninit => inferInstanceAs (Decidable (_ → _))
  | .begin => isTrue trivial
  | .finish _ => isTrue trivial

/-- Handlers differ in address and method; each has one work item at most, of a method that is not
quiet, and was not called unless the item runs. -/
structure NetcfgInv (s : LoggedNetcfg) : Prop where
  ids : (s.1.keys.map Prod.fst).Nodup
  types : (s.1.keys.map Prod.snd).Nodup
  fresh : ∀ key ∈ s.1.keys, key.1 < s.1.nextId
  queue : s.1.queue.Nodup
  waits : ∀ id ∈ s.1.queue, s.1.running ≠ some id ∧
    ∃ type, (id, type) ∈ s.1.keys ∧ s.2.quiet type = false ∧ s.2.called type = false
  runs : ∀ id, s.1.running = some id → ∃ type, (id, type) ∈ s.1.keys ∧ s.2.quiet type = false

/-! ## Handlers by their keys -/

section Keys

variable {s : NetcfgState}

theorem keys_change (p : NetcfgHandler → Bool) {f : NetcfgHandler → NetcfgHandler}
    (hf : ∀ h, (f h).id = h.id ∧ (f h).type = h.type) : (s.change p f).keys = s.keys := by
  rw [NetcfgState.keys, NetcfgState.keys, NetcfgState.handlers, NetcfgState.handlers,
    NetcfgState.change]
  cases s.session with
  | none => rfl
  | some handlers =>
      rw [Option.map_some, Option.getD_some, Option.getD_some, List.map_map]
      apply List.map_congr_left
      intro h _
      rw [Function.comp_apply]
      split
      · rw [(hf h).1, (hf h).2]
      · rfl

theorem keys_clearStarted (p : NetcfgHandler → Bool) : (s.clearStarted p).keys = s.keys :=
  keys_change _ fun _ ↦ ⟨rfl, rfl⟩

theorem mem_keys {id : ℕ} {type : ℤ} :
    (id, type) ∈ s.keys ↔ ∃ h ∈ s.handlers, h.id = id ∧ h.type = type := by
  simp [NetcfgState.keys]

theorem ofItem_of_mem {id : ℕ} {type : ℤ} (hmem : (id, type) ∈ s.keys) :
    ∃ h, s.ofItem id = some h := by
  obtain ⟨h, hh, rfl, -⟩ := mem_keys.mp hmem
  by_contra hnone
  rw [← Option.isSome_iff_exists, Option.not_isSome_iff_eq_none] at hnone
  exact Keyed.lookup_eq_none.mp hnone h hh rfl

theorem settled_iff {type : ℤ} : s.Settled type ↔ ∀ id, (id, type) ∈ s.keys → ¬s.Pending id := by
  constructor
  · intro h id hmem
    obtain ⟨handler, hhandler, rfl, htype⟩ := mem_keys.mp hmem
    exact h handler hhandler htype
  · intro h handler hhandler htype
    exact h handler.id (mem_keys.mpr ⟨handler, hhandler, rfl, htype⟩)

end Keys

section Step

variable {s : LoggedNetcfg}

theorem NetcfgInv.type_unique (h : NetcfgInv s) {id : ℕ} {type type' : ℤ}
    (hmem : (id, type) ∈ s.1.keys) (hmem' : (id, type') ∈ s.1.keys) : type = type' :=
  congrArg Prod.snd (List.inj_on_of_nodup_map h.ids hmem hmem' rfl)

theorem NetcfgInv.id_unique (h : NetcfgInv s) {id id' : ℕ} {type : ℤ} (hmem : (id, type) ∈ s.1.keys)
    (hmem' : (id', type) ∈ s.1.keys) : id = id' :=
  congrArg Prod.fst (List.inj_on_of_nodup_map h.types hmem hmem' rfl)

theorem NetcfgInv.change (h : NetcfgInv s) {t : NetcfgState} {log : NetcfgLog}
    (hkeys : t.keys = s.1.keys) (hnext : t.nextId = s.1.nextId) (hqueue : t.queue = s.1.queue)
    (hrunning : t.running = s.1.running)
    (hquiet : ∀ id type, s.1.Pending id → (id, type) ∈ s.1.keys → s.2.quiet type = false →
    log.quiet type = false)
    (hcalled : ∀ id type, id ∈ s.1.queue → (id, type) ∈ s.1.keys → s.2.called type = false →
      log.called type = false) : NetcfgInv (t, log) := by
  refine ⟨?_, ?_, ?_, ?_, fun id hid ↦ ?_, fun id hid ↦ ?_⟩
  · rw [hkeys]
    exact h.ids
  · rw [hkeys]
    exact h.types
  · rw [hkeys, hnext]
    exact h.fresh
  · rw [hqueue]
    exact h.queue
  · rw [hqueue] at hid
    obtain ⟨hruns, type, hmem, hq, hc⟩ := h.waits id hid
    rw [hkeys, hrunning]
    exact ⟨hruns, type, hmem, hquiet id type (.inl hid) hmem hq, hcalled id type hid hmem hc⟩
  · rw [hrunning] at hid
    obtain ⟨type, hmem, hq⟩ := h.runs id hid
    rw [hkeys]
    exact ⟨type, hmem, hquiet id type (.inr hid) hmem hq⟩

theorem record_stops (log : NetcfgLog) (p : NetcfgHandler → Bool) (rets : ℤ → OperateRet)
    (t : NetcfgState) :
    ((t.stops p rets).foldl NetcfgLog.record log).quiet = log.quiet ∧
    ∀ type, log.called type = false → ((t.stops p rets).foldl NetcfgLog.record log).called type =
      false := by
  rw [NetcfgState.stops]
  induction t.handlers.filter (fun h ↦ h.isStarted && p h) generalizing log with
  | nil => exact ⟨rfl, fun _ hcalled ↦ hcalled⟩
  | cons h handlers ih =>
      obtain ⟨hquiet, hcalled⟩ := ih (log.record (.stop h.type (rets h.type)))
      refine ⟨hquiet, fun type htype ↦ hcalled type ?_⟩
      by_cases hsame : type = h.type
      · rw [hsame]
        exact Function.update_self _ _ _
      · exact (Function.update_of_ne hsame _ _).trans htype

/-! ## Steps -/

theorem NetcfgInv.init (h : NetcfgInv s) (malloc : Bool) :
    NetcfgInv ((s.1.init malloc).1, s.2) := by
  rw [NetcfgState.init]
  by_cases hsession : s.1.session = none
  · rw [if_neg (not_not.mpr hsession)]
    split
    · refine h.change ?_ rfl rfl rfl (fun _ _ _ _ hq ↦ hq) (fun _ _ _ _ hc ↦ hc)
      rw [NetcfgState.keys, NetcfgState.keys, NetcfgState.handlers, NetcfgState.handlers, hsession]
      rfl
    · exact h
  · rw [if_pos hsession]
    exact h

theorem NetcfgInv.register (h : NetcfgInv s) (type : ℤ) (malloc : Bool) :
    NetcfgInv ((s.1.register type malloc).1, s.2) := by
  rw [NetcfgState.register]
  cases hsession : s.1.session with
  | none => exact h
  | some handlers =>
      dsimp only
      split_ifs with hany hmalloc
      · exact h
      · exact h
      · have hkeys : s.1.keys = handlers.map fun h ↦ (h.id, h.type) := by
          rw [NetcfgState.keys, NetcfgState.handlers, hsession]
          rfl
        have htype : type ∉ s.1.keys.map Prod.snd := by
          rw [hkeys, List.map_map]
          intro hmem
          obtain ⟨handler, hhandler, hsame⟩ := List.mem_map.mp hmem
          exact hany (List.any_eq_true.mpr ⟨handler, hhandler, by simpa using hsame⟩)
        have hid : s.1.nextId ∉ s.1.keys.map Prod.fst := by
          intro hmem
          obtain ⟨key, hkey, hsame⟩ := List.mem_map.mp hmem
          exact absurd (h.fresh key hkey) (by omega)
        have hnew : NetcfgState.keys { s.1 with
            session := some (⟨s.1.nextId, type, false, 0, 0⟩ :: handlers),
              nextId := s.1.nextId + 1 } =
            (s.1.nextId, type) :: s.1.keys := by
          rw [hkeys]
          rfl
        constructor
        · rw [hnew]
          exact List.nodup_cons.mpr ⟨hid, h.ids⟩
        · rw [hnew]
          exact List.nodup_cons.mpr ⟨htype, h.types⟩
        · rw [hnew]
          intro key hkey
          rcases List.mem_cons.mp hkey with rfl | hkey
          · exact Nat.lt_succ_self _
          · exact Nat.lt_succ_of_lt (h.fresh key hkey)
        · exact h.queue
        · intro id hwaits
          obtain ⟨hruns, type, hmem, hlog⟩ := h.waits id hwaits
          rw [hnew]
          exact ⟨hruns, type, List.mem_cons_of_mem _ hmem, hlog⟩
        · intro id hruns
          obtain ⟨type, hmem, hlog⟩ := h.runs id hruns
          rw [hnew]
          exact ⟨type, List.mem_cons_of_mem _ hmem, hlog⟩

theorem NetcfgInv.unregister (h : NetcfgInv s) {type : ℤ} (hsafe : s.1.Settled type) :
    NetcfgInv ((s.1.unregister type).1, s.2) := by
  rw [NetcfgState.unregister]
  cases hsession : s.1.session with
  | none => exact h
  | some handlers =>
      dsimp only
      split_ifs
      swap
      · exact h
      have hhandlers : s.1.handlers = handlers := by
        rw [NetcfgState.handlers, hsession]
        rfl
      have hsub : List.Sublist (NetcfgState.keys { s.1 with
          session := some (Keyed.erase NetcfgHandler.type type handlers) }) s.1.keys := by
        rw [NetcfgState.keys, NetcfgState.keys, hhandlers]
        exact List.Sublist.map _ List.eraseP_sublist
      have hkept : ∀ id type', s.1.Pending id → (id, type') ∈ s.1.keys →
        (id, type') ∈ NetcfgState.keys
          { s.1 with session := some (Keyed.erase NetcfgHandler.type type handlers) } := by
        intro id type' hpending hmem
        obtain ⟨handler, hhandler, rfl, rfl⟩ := mem_keys.mp hmem
        have hother : handler.type ≠ type := fun hsame ↦ hsafe handler hhandler hsame hpending
        rw [hhandlers] at hhandler
        exact mem_keys.mpr ⟨handler, (Keyed.mem_erase_of_ne hother).mpr hhandler, rfl, rfl⟩
      constructor
      · exact h.ids.sublist (hsub.map Prod.fst)
      · exact h.types.sublist (hsub.map Prod.snd)
      · exact fun key hkey ↦ h.fresh key (hsub.subset hkey)
      · exact h.queue
      · intro id hwaits
        obtain ⟨hruns, type', hmem, hlog⟩ := h.waits id hwaits
        exact ⟨hruns, type', hkept id type' (.inl hwaits) hmem, hlog⟩
      · intro id hruns
        obtain ⟨type', hmem, hlog⟩ := h.runs id hruns
        exact ⟨type', hkept id type' (.inr hruns) hmem, hlog⟩

theorem NetcfgInv.uninit (h : NetcfgInv s) (hsafe : s.1.session ≠ none → s.1.running = none)
    (log : NetcfgLog) (hlog : s.1.session = none → log = s.2) : NetcfgInv (s.1.uninit, log) := by
  rw [NetcfgState.uninit]
  by_cases hsession : s.1.session = none
  · rw [if_pos hsession, hlog hsession]
    exact h
  · rw [if_neg hsession]
    have hidle := hsafe hsession
    refine ⟨List.nodup_nil, List.nodup_nil, fun key hkey ↦ absurd hkey List.not_mem_nil,
      List.nodup_nil, fun id hid ↦ absurd hid List.not_mem_nil, fun id hid ↦ ?_⟩
    dsimp only at hid
    rw [hidle] at hid
    cases hid

theorem NetcfgInv.start (h : NetcfgInv s) {type : ℤ} (netcfgFinishCb args : ℕ) {room : Bool}
    (hsafe : room = true → s.1.Settled type ∧ s.2.called type = false) :
    NetcfgInv ((s.1.start type netcfgFinishCb args room).1, s.2.record (.asked type)) := by
  have hasked : ∀ type', s.2.quiet type' = false →
      (s.2.record (.asked type)).quiet type' = false := by
    intro type' hquiet
    by_cases hsame : type' = type
    · rw [hsame]
      exact Function.update_self _ _ _
    · exact (Function.update_of_ne hsame _ _).trans hquiet
  have hsame : NetcfgInv (s.1, s.2.record (.asked type)) :=
    h.change rfl rfl rfl rfl (fun _ type' _ _ hq ↦ hasked type' hq) (fun _ _ _ _ hc ↦ hc)
  rw [NetcfgState.start]
  cases hfind : s.1.getHandler type with
  | none => exact hsame
  | some handler =>
      obtain ⟨hhandler, htype⟩ := Keyed.mem_of_lookup hfind
      have hmem : (handler.id, type) ∈ s.1.keys := mem_keys.mpr ⟨handler, hhandler, rfl, htype⟩
      have hkeys : (s.1.change (·.id = handler.id) fun h ↦ { h with netcfgFinishCb, args }).keys =
          s.1.keys :=
        keys_change _ fun _ ↦ ⟨rfl, rfl⟩
      have hchanged : NetcfgInv (s.1.change (·.id = handler.id) fun h ↦
          { h with netcfgFinishCb, args }, s.2.record (.asked type)) :=
        hsame.change hkeys rfl rfl rfl (fun _ _ _ _ hq ↦ hq) (fun _ _ _ _ hc ↦ hc)
      dsimp only
      split
      case isFalse => exact hchanged
      case isTrue hroom =>
        obtain ⟨hsettled, hcalled⟩ := hsafe hroom
        have hidle := settled_iff.mp hsettled _ hmem
        rw [NetcfgState.Pending, not_or] at hidle
        refine ⟨hchanged.ids, hchanged.types, hchanged.fresh, ?_, fun id hid ↦ ?_, hchanged.runs⟩
        · exact List.nodup_append.mpr ⟨h.queue, List.nodup_singleton _, fun id hid id' hid' heq ↦
            hidle.1 (by rwa [← List.mem_singleton.mp hid', ← heq])⟩
        · rcases List.mem_append.mp hid with hid | hid
          · exact hchanged.waits id hid
          · rw [List.mem_singleton] at hid
            subst hid
            refine ⟨hidle.2, type, ?_, Function.update_self _ _ _, hcalled⟩
            exact hkeys.symm ▸ hmem

theorem NetcfgInv.clearStarted (h : NetcfgInv s) (p : NetcfgHandler → Bool)
    (rets : ℤ → OperateRet) :
    NetcfgInv (s.1.clearStarted p, (s.1.stops p rets).foldl NetcfgLog.record s.2) := by
  obtain ⟨hquiet, hcalled⟩ := record_stops s.2 p rets s.1
  refine h.change (keys_clearStarted p) rfl rfl rfl (fun _ type _ _ hq ↦ ?_) ?_
  · rw [hquiet]
    exact hq
  · exact fun _ type _ _ hc ↦ hcalled type hc

theorem NetcfgInv.stopOtherAll (h : NetcfgInv s) (type : ℤ) (rets : ℤ → OperateRet) :
    NetcfgInv ((s.1.stopOtherAll type rets).1,
      (s.1.stopOtherAll type rets).2.1.foldl NetcfgLog.record s.2) := by
  rw [NetcfgState.stopOtherAll]
  split
  · exact h
  · exact h.clearStarted _ _

theorem NetcfgInv.stopped (h : NetcfgInv s) {type : ℤ} (hone : type ≠ netcfgStopAllCfgModule)
    (hsettled : s.1.Settled type) : NetcfgInv (s.1, s.2.record (.stopped type)) := by
  have hrecord : s.2.record (.stopped type) =
      ⟨Function.update s.2.quiet type true, Function.update s.2.called type false⟩ := if_neg hone
  rw [hrecord]
  refine h.change rfl rfl rfl rfl (fun id type' hpending hmem hq ↦ ?_)
    (fun id type' hwaits hmem hc ↦ ?_)
  · have hother : type' ≠ type := by
      rintro rfl
      exact settled_iff.mp hsettled id hmem hpending
    exact (Function.update_of_ne hother _ _).trans hq
  · have hother : type' ≠ type := by
      rintro rfl
      exact settled_iff.mp hsettled id hmem (.inl hwaits)
    exact (Function.update_of_ne hother _ _).trans hc

theorem NetcfgInv.stop (h : NetcfgInv s) {type : ℤ} {rets : ℤ → OperateRet}
    (hsafe : NetcfgSafe s (.stop type rets)) :
    NetcfgInv (netcfgMachine.step s (.stop type rets)).1 := by
  rw [netcfgMachine]
  dsimp only
  rw [netcfgStep]
  rw [NetcfgSafe] at hsafe
  dsimp only
  rw [NetcfgState.stop]
  by_cases hone : type ≠ netcfgStopAllCfgModule
  · rw [if_neg hone] at hsafe
    rw [if_pos hone]
    cases hfind : s.1.getHandler type with
    | none => exact h
    | some handler =>
        rw [hfind] at hsafe
        dsimp only
        have hcleared := h.clearStarted (·.id = handler.id) rets
        rw [List.foldl_append]
        by_cases hok : (if handler.isStarted = true then rets type else oprtOk) = oprtOk
        · rw [if_pos hok]
          have hsettled : s.1.Settled type := by
            apply hsafe
            intro handler' hhandler' hstarted
            obtain rfl := Option.some.inj hhandler'
            rwa [if_pos hstarted] at hok
          apply hcleared.stopped hone
          rw [settled_iff] at hsettled ⊢
          intro id hmem
          apply hsettled id
          dsimp only at hmem
          rwa [keys_clearStarted] at hmem
        · rw [if_neg hok]
          exact hcleared
  · rw [if_pos (not_not.mp hone)] at hsafe
    rw [if_neg hone]
    by_cases hsession : s.1.session = none
    · rw [if_pos hsession]
      exact h
    · rw [if_neg hsession]
      dsimp only
      refine (h.clearStarted (fun _ ↦ true) rets).uninit (fun _ ↦ hsafe hsession) _ fun hnone ↦ ?_
      exact absurd (Option.map_eq_none_iff.mp hnone) hsession

theorem begin_eq (h : NetcfgInv s) (hidle : s.1.running = none) {id : ℕ} {rest : List ℕ}
    (hqueue : s.1.queue = id :: rest) : ∃ handler : NetcfgHandler,
    (handler.id, handler.type) ∈ s.1.keys ∧ handler.id = id ∧
      s.2.quiet handler.type = false ∧ s.2.called handler.type = false ∧
      s.1.begin = ({ s.1 with queue := rest, running := some id },
        [.start handler.type handler.netcfgFinishCb handler.args]) := by
  obtain ⟨-, type, hmem, hquiet, hcalled⟩ := h.waits id (by rw [hqueue]; exact List.mem_cons_self)
  obtain ⟨handler, hfind⟩ := ofItem_of_mem hmem
  obtain ⟨hhandler, rfl⟩ := Keyed.mem_of_lookup hfind
  have hkey : (handler.id, handler.type) ∈ s.1.keys := mem_keys.mpr ⟨handler, hhandler, rfl, rfl⟩
  obtain rfl := h.type_unique hkey hmem
  refine ⟨handler, hkey, rfl, hquiet, hcalled, ?_⟩
  rw [NetcfgState.begin, hidle, hqueue]
  dsimp only
  rw [hfind]

theorem NetcfgInv.begin (h : NetcfgInv s) :
    NetcfgInv (s.1.begin.1, s.1.begin.2.foldl NetcfgLog.record s.2) := by
  cases hrunning : s.1.running with
  | some id =>
      have hstay : s.1.begin = (s.1, []) := by rw [NetcfgState.begin, hrunning]
      rw [hstay]
      exact h
  | none =>
      cases hqueue : s.1.queue with
      | nil =>
          have hstay : s.1.begin = (s.1, []) := by rw [NetcfgState.begin, hrunning, hqueue]
          rw [hstay]
          exact h
      | cons id rest =>
          obtain ⟨handler, hmem, rfl, hquiet, hcalled, hbegin⟩ := begin_eq h hrunning hqueue
          have hnodup := h.queue
          rw [hqueue, List.nodup_cons] at hnodup
          rw [hbegin]
          refine ⟨h.ids, h.types, h.fresh, hnodup.2, fun id hid ↦ ?_, fun id hid ↦ ?_⟩
          · have hne : id ≠ handler.id := by
              rintro rfl
              exact hnodup.1 hid
            obtain ⟨-, type, hmem', hquiet', hcalled'⟩ :=
              h.waits id (by rw [hqueue]; exact List.mem_cons_of_mem _ hid)
            have hother : type ≠ handler.type := by
              rintro rfl
              exact hne (h.id_unique hmem' hmem)
            refine ⟨fun hsame ↦ hne (Option.some.inj hsame).symm, type, hmem', hquiet', ?_⟩
            exact (Function.update_of_ne hother _ _).trans hcalled'
          · obtain rfl := Option.some.inj hid
            exact ⟨handler.type, hmem, hquiet⟩

theorem finish_eq (h : NetcfgInv s) {id : ℕ} (hrunning : s.1.running = some id) (ret : OperateRet) :
    ∃ handler : NetcfgHandler, s.2.quiet handler.type = false ∧ s.1.finish ret =
      if ret = oprtOk then
        ({ s.1.change (·.id = id) fun h ↦ { h with isStarted := true } with running := none },
          [.started handler.type])
      else ({ s.1 with running := none }, []) := by
  obtain ⟨type, hmem, hquiet⟩ := h.runs id hrunning
  obtain ⟨handler, hfind⟩ := ofItem_of_mem hmem
  obtain ⟨hhandler, rfl⟩ := Keyed.mem_of_lookup hfind
  have hkey : (handler.id, handler.type) ∈ s.1.keys := mem_keys.mpr ⟨handler, hhandler, rfl, rfl⟩
  obtain rfl := h.type_unique hkey hmem
  refine ⟨handler, hquiet, ?_⟩
  rw [NetcfgState.finish, hrunning]
  dsimp only
  rw [hfind]

theorem NetcfgInv.idle (h : NetcfgInv s) : NetcfgInv ({ s.1 with running := none }, s.2) := by
  refine ⟨h.ids, h.types, h.fresh, h.queue, fun id hid ↦ ?_, fun id hid ↦ (by cases hid)⟩
  exact ⟨fun hsome ↦ (by cases hsome), (h.waits id hid).2⟩

theorem NetcfgInv.finish (h : NetcfgInv s) (ret : OperateRet) :
    NetcfgInv ((s.1.finish ret).1, (s.1.finish ret).2.foldl NetcfgLog.record s.2) := by
  cases hrunning : s.1.running with
  | none =>
      have hstay : s.1.finish ret = (s.1, []) := by rw [NetcfgState.finish, hrunning]
      rw [hstay]
      exact h
  | some id =>
      obtain ⟨handler, -, hfinish⟩ := finish_eq h hrunning ret
      rw [hfinish]
      split
      · refine NetcfgInv.idle (s := (s.1.change _ _, s.2)) ?_
        exact h.change (keys_change _ fun _ ↦ ⟨rfl, rfl⟩) rfl rfl rfl (fun _ _ _ _ hq ↦ hq)
          (fun _ _ _ _ hc ↦ hc)
      · exact h.idle

theorem NetcfgInv.step (h : NetcfgInv s) {x : NetcfgStep} (hsafe : NetcfgSafe s x) :
    NetcfgInv (netcfgMachine.step s x).1 := by
  cases x with
  | init malloc => exact h.init malloc
  | register type malloc => exact h.register type malloc
  | unregister type => exact h.unregister hsafe
  | start type netcfgFinishCb args room => exact h.start netcfgFinishCb args hsafe
  | stop type rets => exact h.stop hsafe
  | stopOtherAll type rets => exact h.stopOtherAll type rets
  | uninit => exact h.uninit hsafe s.2 fun _ ↦ rfl
  | begin => exact h.begin
  | finish ret => exact h.finish ret

/-- What does not start a method. -/
def NetcfgEvent.Quiet (event : NetcfgEvent) : Prop :=
  (∀ type netcfgFinishCb args, event ≠ .start type netcfgFinishCb args) ∧
  (∀ type, event ≠ .started type) ∧ event ≠ .wild

theorem quiet_asked (type : ℤ) : (NetcfgEvent.asked type).Quiet := by simp [NetcfgEvent.Quiet]

theorem quiet_stopped (type : ℤ) : (NetcfgEvent.stopped type).Quiet := by simp [NetcfgEvent.Quiet]

theorem quiet_of_mem_stops {t : NetcfgState} {p : NetcfgHandler → Bool} {rets : ℤ → OperateRet}
    {event : NetcfgEvent} (hmem : event ∈ t.stops p rets) : event.Quiet := by
  rw [NetcfgState.stops] at hmem
  obtain ⟨handler, -, rfl⟩ := List.mem_map.mp hmem
  simp [NetcfgEvent.Quiet]

theorem quiet_of_mem_step {x : NetcfgStep} (hbegin : x ≠ .begin) (hfinish : ∀ ret, x ≠ .finish ret)
    {event : NetcfgEvent} (hmem : event ∈ (netcfgMachine.step s x).2) : event.Quiet := by
  rw [netcfgMachine] at hmem
  dsimp only at hmem
  cases x with
  | init malloc => exact absurd hmem List.not_mem_nil
  | register type malloc => exact absurd hmem List.not_mem_nil
  | unregister type => exact absurd hmem List.not_mem_nil
  | start type netcfgFinishCb args room =>
      obtain rfl := List.mem_singleton.mp hmem
      exact quiet_asked type
  | stop type rets =>
      rw [netcfgStep] at hmem
      dsimp only at hmem
      rcases List.mem_append.mp hmem with hmem | hmem
      · rw [NetcfgState.stop] at hmem
        split_ifs at hmem
        · split at hmem
          · exact absurd hmem List.not_mem_nil
          · exact quiet_of_mem_stops hmem
        · exact absurd hmem List.not_mem_nil
        · exact quiet_of_mem_stops hmem
      · split_ifs at hmem
        · obtain rfl := List.mem_singleton.mp hmem
          exact quiet_stopped type
        · exact absurd hmem List.not_mem_nil
  | stopOtherAll type rets =>
      rw [netcfgStep, NetcfgState.stopOtherAll] at hmem
      split_ifs at hmem
      · exact absurd hmem List.not_mem_nil
      · exact quiet_of_mem_stops hmem
  | uninit => exact absurd hmem List.not_mem_nil
  | begin => exact absurd rfl hbegin
  | finish ret => exact absurd rfl (hfinish ret)

theorem NetcfgSound.of_quiet {x : NetcfgStep}
    (h : ∀ event ∈ (netcfgMachine.step s x).2, event.Quiet) :
    NetcfgSound s x := by
  refine ⟨fun type hstarts ↦ ?_, fun type netcfgFinishCb args hmem ↦ ?_, fun hmem ↦
    (h _ hmem).2.2 rfl⟩
  · rcases hstarts with ⟨netcfgFinishCb, args, hmem⟩ | hmem
    · exact absurd rfl ((h _ hmem).1 type netcfgFinishCb args)
    · exact absurd rfl ((h _ hmem).2.1 type)
  · exact absurd rfl ((h _ hmem).1 type netcfgFinishCb args)

theorem NetcfgInv.sound_begin (h : NetcfgInv s) : NetcfgSound s .begin := by
  by_cases hready : s.1.running = none ∧ s.1.queue ≠ []
  · obtain ⟨hrunning, hqueue⟩ := hready
    obtain ⟨id, rest, hqueue⟩ := List.exists_cons_of_ne_nil hqueue
    obtain ⟨handler, -, rfl, hquiet, hcalled, hbegin⟩ := begin_eq h hrunning hqueue
    have hevents : (netcfgMachine.step s .begin).2 =
        [.start handler.type handler.netcfgFinishCb handler.args] := congrArg Prod.snd hbegin
    refine ⟨fun type hstarts ↦ ?_, fun type netcfgFinishCb args hmem ↦ ?_, ?_⟩
    · rw [hevents] at hstarts
      rcases hstarts with ⟨netcfgFinishCb, args, hmem⟩ | hmem
      · cases List.mem_singleton.mp hmem
        exact hquiet
      · cases List.mem_singleton.mp hmem
    · rw [hevents] at hmem
      cases List.mem_singleton.mp hmem
      exact hcalled
    · rw [hevents]
      simp
  · apply NetcfgSound.of_quiet
    have hevents : (netcfgMachine.step s .begin).2 = [] := by
      rw [netcfgMachine]
      dsimp only
      rw [netcfgStep, NetcfgState.begin]
      split
      case h_1 id rest hrunning hqueue => exact absurd ⟨hrunning, by simp [hqueue]⟩ hready
      case h_2 => rfl
    rw [hevents]
    exact fun event hmem ↦ absurd hmem List.not_mem_nil

theorem NetcfgInv.sound_finish (h : NetcfgInv s) (ret : OperateRet) :
    NetcfgSound s (.finish ret) := by
  cases hrunning : s.1.running with
  | none =>
      apply NetcfgSound.of_quiet
      have hevents : (netcfgMachine.step s (.finish ret)).2 = [] := by
        rw [netcfgMachine]
        dsimp only
        rw [netcfgStep, NetcfgState.finish, hrunning]
      rw [hevents]
      exact fun event hmem ↦ absurd hmem List.not_mem_nil
  | some id =>
      obtain ⟨handler, hquiet, hfinish⟩ := finish_eq h hrunning ret
      have hevents : (netcfgMachine.step s (.finish ret)).2 =
          if ret = oprtOk then [.started handler.type] else [] := by
        rw [netcfgMachine]
        dsimp only
        rw [netcfgStep, hfinish]
        split <;> rfl
      refine ⟨fun type hstarts ↦ ?_, fun type netcfgFinishCb args hmem ↦ ?_, fun hmem ↦ ?_⟩
      · rw [hevents] at hstarts
        split_ifs at hstarts
        · rcases hstarts with ⟨netcfgFinishCb, args, hmem⟩ | hmem
          · cases List.mem_singleton.mp hmem
          · cases List.mem_singleton.mp hmem
            exact hquiet
        · simp at hstarts
      · rw [hevents] at hmem
        split_ifs at hmem <;> simp at hmem
      · rw [hevents] at hmem
        split_ifs at hmem <;> simp at hmem

theorem NetcfgInv.sound (h : NetcfgInv s) (x : NetcfgStep) : NetcfgSound s x := by
  by_cases hbegin : x = .begin
  · subst hbegin
    exact h.sound_begin
  · by_cases hfinish : ∃ ret, x = .finish ret
    · obtain ⟨ret, rfl⟩ := hfinish
      exact h.sound_finish ret
    · rw [not_exists] at hfinish
      exact .of_quiet fun event hmem ↦ quiet_of_mem_step hbegin hfinish hmem

end Step

/-! ## Runs -/

def netcfgStart : LoggedNetcfg := (netcfgNone, ⟨fun _ ↦ false, fun _ ↦ false⟩)

theorem netcfgStart_inv : NetcfgInv netcfgStart :=
  ⟨List.nodup_nil, List.nodup_nil, fun _ hkey ↦ absurd hkey List.not_mem_nil, List.nodup_nil,
    fun _ hid ↦ absurd hid List.not_mem_nil, fun _ hid ↦ (by cases hid)⟩

def Lifecycle (xs : List NetcfgStep) : Prop :=
  ∀ k x, xs[k]? = some x → NetcfgSound (netcfgMachine.final netcfgStart (xs.take k)) x

theorem netcfg_lifecycle {xs : List NetcfgStep}
    (hxs : netcfgMachine.Guarded NetcfgSafe netcfgStart xs) :
    Lifecycle xs := by
  intro k x hx
  have hinv : NetcfgInv (netcfgMachine.final netcfgStart (xs.take k)) :=
    Mealy.inv_final _ (fun _ _ h hsafe ↦ h.step hsafe) netcfgStart_inv (hxs.step_at hx).1
  exact hinv.sound x

/-- The module with one method. -/
def someMethod : List NetcfgStep := [.init true, .register 1 true]

/-- A method that is asked for, started, stopped and unregistered. -/
def someLifecycle : List NetcfgStep :=
  someMethod ++ [.start 1 1 0 true, .begin, .finish oprtOk, .stop 1 fun _ ↦
    oprtOk, .start 1 1 0 true, .begin,
    .finish oprtOk, .stopOtherAll 2 fun _ ↦ oprtOk, .unregister 1]

theorem netcfg_lifecycle_someLifecycle : Lifecycle someLifecycle := netcfg_lifecycle (by decide)

/-- A stop before the work item, two starts, and a handler that is unregistered before the work
item. -/
theorem netcfg_not_lifecycle :
    ¬Lifecycle (someMethod ++ [.start 1 1 0 true, .stop 1 fun _ ↦ oprtOk, .begin]) ∧
    ¬Lifecycle
      (someMethod ++ [.start 1 1 0 true, .start 1 1 0 true, .begin, .finish oprtOk, .begin]) ∧
    ¬Lifecycle (someMethod ++ [.start 1 1 0 true, .unregister 1, .begin]) := by
  refine ⟨fun h ↦ ?_, fun h ↦ ?_, fun h ↦ ?_⟩
  · exact absurd ((h 4 _ rfl).quiet 1 (.inl ⟨1, 0, by decide⟩)) (by decide)
  · exact absurd ((h 6 _ rfl).once 1 1 0 (by decide)) (by decide)
  · exact absurd (by decide) (h 4 _ rfl).registered

end TuyaOpen.Netcfg
