import TuyaOpen.Lib.Mealy
import TuyaOpen.Schema.DpDump

/-!
# Reports in flight and the sync with the cloud, `tuya_iot_dp.c`

The application reports data points, the reports travel to the cloud and are
acknowledged or fail in any order, and a sync sends what the cache holds and
the cloud does not.  A completion knows the ids of its report and not the
values, so which values were acknowledged is kept beside the state of the
code, in a field that no function reads.
-/

namespace TuyaOpen.Schema

/-- The schema of the device, the messages whose completion has not come, and
whether the sync work is started.  `acked id` lists the values of `id` that
were acknowledged since `id` was cached last. -/
structure SyncState where
  preprocess : Bool
  nodes : List DpNode
  inflight : List DpReport
  syncStarted : Bool
  acked : ℕ → List DpValue

/-- What a report finds around it: the state of the client and its channels, the
allocations and the codes of the functions it calls. -/
structure ReportEnv where
  isActivated : Bool
  dpvalid : Bool
  strMalloc : ℕ → Bool
  bleConnected : Bool
  bleDpin : Bool
  bleRet : OperateRet
  jsonRet : OperateRet
  lanConnected : Bool
  lanRet : OperateRet
  iotConnected : Bool
  iotRet : OperateRet

/-- The cache is written for `ids`: what was acknowledged before is older. -/
def forget (ids : List ℕ) (acked : ℕ → List DpValue) (id : ℕ) : List DpValue :=
  if id ∈ ids then [] else acked id

/-- The code and the message that went to the cloud, if one did. -/
def tuyaIotDpObjReport (env : ReportEnv) (dps : List DpObj) (noFilter : Bool) (s : SyncState) :
    SyncState × OperateRet × Option DpReport :=
  if env.isActivated = false then (s, oprtComError, none)
  else if dps = [] then (s, oprtInvalidParm, none)
  else if env.dpvalid = false then (s, oprtMallocFailed, none)
  else
    let r := dpReptValidCheck s.preprocess .objRept noFilter env.strMalloc dps s.nodes
    let s := { s with nodes := r.1, acked := forget r.2.1 s.acked }
    if r.2.2 ≠ oprtOk then (s, r.2.2, none)
    else if env.bleConnected then
      if env.bleDpin = false then (s, oprtMallocFailed, none)
      else ({ s with syncStarted := true }, env.bleRet, none)
    else if env.jsonRet ≠ oprtOk then (s, env.jsonRet, none)
    else
      let out := dpReptJsonOutput dps r.2.1
      let s := { s with syncStarted := s.syncStarted || env.lanConnected }
      if env.iotConnected then ({ s with inflight := s.inflight ++ [out] }, env.iotRet, some out)
      else (s, if env.lanConnected then env.lanRet else oprtOk, none)

def DpReport.valuesOf (r : DpReport) (id : ℕ) : List DpValue :=
  (r.values.filter fun p ↦ p.1 = id).map Prod.snd

def dpSyncCb (result : OperateRet) (r : DpReport) (s : SyncState) : SyncState :=
  if result = oprtOk then
    { s with
      nodes := r.dpids.foldl (fun nodes id ↦ dpPvStatSet nodes id .cloud) s.nodes
      acked := fun id ↦ r.valuesOf id ++ s.acked id }
  else { s with syncStarted := true }

/-- The work item runs once and starts itself again when it could not send. -/
def tuyaIotDpSyncProcess (connected : Bool) (env : DumpEnv) (s : SyncState) :
    SyncState × OperateRet × Option DpReport :=
  if connected = false then ({ s with syncStarted := true }, oprtOk, none)
  else
    let r := dpObjDumpStatLocalJson env s.nodes
    if r.1 ≠ oprtOk then ({ s with syncStarted := true }, r.1, none)
    else ({ s with syncStarted := false, inflight := s.inflight ++ r.2.toList }, r.1, r.2)

inductive SyncEvent
  | report (env : ReportEnv) (dps : List DpObj) (noFilter : Bool)
  | complete (i : ℕ) (result : OperateRet)
  | sync (connected : Bool) (env : DumpEnv)

/-- The completion of the `i`-th message in flight; there is one for each
message. -/
def complete (i : ℕ) (result : OperateRet) (s : SyncState) : SyncState :=
  match s.inflight[i]? with
  | none => s
  | some r => dpSyncCb result r { s with inflight := s.inflight.eraseIdx i }

def syncMachine : Mealy SyncState SyncEvent (OperateRet × Option DpReport) where
  step s
    | .report env dps noFilter => tuyaIotDpObjReport env dps noFilter s
    | .complete i result => (complete i result s, oprtOk, none)
    | .sync connected env => tuyaIotDpSyncProcess connected env s

/-! ## What an upload status promises -/

/-- Every data point that is in the cloud has a cached value that was
acknowledged since it was cached. -/
def CloudAcked (acked : ℕ → List DpValue) (nodes : List DpNode) : Prop :=
  ∀ n ∈ nodes, n.pvStat = .cloud → ∃ v, n.prop.cached = some v ∧ v ∈ acked n.id

/-- Lookup by id finds the first of several nodes of one id; the ones behind it
stay out of the cloud. -/
def ShadowedLocal (nodes : List DpNode) : Prop :=
  nodes.Pairwise fun a b ↦ a.id = b.id → b.pvStat ≠ .cloud

structure SyncInv (s : SyncState) : Prop where
  cloud : CloudAcked s.acked s.nodes
  shadowed : ShadowedLocal s.nodes

/-- A schema as it is created: nothing is known of its data points and nothing
is in flight. -/
structure Fresh (s : SyncState) : Prop where
  invalid : ∀ n ∈ s.nodes, n.pvStat = .invalid
  inflight : s.inflight = []

/-- An acknowledgement meets, for each of its data points, the value it carries
in the cache, unless the data point is in the cloud already; and a string whose
data point is in the cloud gets its memory. -/
def Allowed (s : SyncState) : SyncEvent → Prop
  | .report env dps _ =>
    ∀ p ∈ dps.zipIdx, env.strMalloc p.2 = true ∨
      ∀ n ∈ s.nodes, n.id = p.1.id → n.pvStat ≠ .cloud
  | .complete i result =>
    result = oprtOk → ∀ r ∈ s.inflight[i]?, ∀ id ∈ r.dpids, ∀ n ∈ dpNodeFind s.nodes id,
      n.pvStat = .cloud ∨ ∃ v ∈ n.prop.cached, v ∈ r.valuesOf id
  | .sync _ _ => True

instance (s : SyncState) : (e : SyncEvent) → Decidable (Allowed s e)
  | .report _ _ _ => by unfold Allowed; infer_instance
  | .complete _ _ => by unfold Allowed; infer_instance
  | .sync _ _ => by unfold Allowed; infer_instance

/-! ## The report keeps the promise -/

theorem shadowed_dpNodeSet {nodes : List DpNode} {id : ℕ} {f : DpNode → DpNode}
    (hf : ∀ n, n.id = id → (f n).id = id) (h : ShadowedLocal nodes) :
    ShadowedLocal (dpNodeSet nodes id f) := by
  induction nodes with
  | nil => exact h
  | cons n rest ih =>
      obtain ⟨hn, hrest⟩ := List.pairwise_cons.mp h
      rw [dpNodeSet]
      split_ifs with hid
      · refine List.pairwise_cons.mpr ⟨fun b hb heq ↦ hn b hb ?_, hrest⟩
        rw [hid, ← heq, hf n hid]
      · refine List.pairwise_cons.mpr ⟨fun b hb heq ↦ ?_, ih hrest⟩
        rcases mem_dpNodeSet hb with hold | ⟨n', hfind, rfl⟩
        · exact hn b hold heq
        · exact absurd (heq.trans (hf n' (dpNodeFind_mem hfind).2)) hid

theorem malloc_of_cacheUpdate {prop : DpProp} {value : DpValue} {malloc : Bool}
    (h : (cacheUpdate prop value malloc).2 = false) : malloc = false := by
  unfold cacheUpdate at h
  split at h
  case h_3 =>
    split_ifs at h with hshort hmalloc
    exact Bool.eq_false_iff.mpr hmalloc
  all_goals cases h

theorem reptNode_cases (preprocess noFilter malloc : Bool) (dp : DpObj) (node : DpNode) :
    reptNode preprocess .objRept noFilter malloc dp node = (node, false) ∨
      (∃ prop, reptNode preprocess .objRept noFilter malloc dp node =
        ({ node with prop := prop, pvStat := .local }, true)) ∨
      (malloc = false ∧ ∃ prop, reptNode preprocess .objRept noFilter malloc dp node =
        ({ node with prop := prop }, false)) := by
  rw [reptNode, if_neg (by decide)]
  split_ifs
  · exact Or.inl rfl
  · exact Or.inl rfl
  · rw [dpReptUpdate]
    split
    · by_cases hforced : (node.pvStat = .invalid ∨ node.pvStat = .local ∨ node.trig = .direct ∨
          DpReptType.objRept = .statRept ∨ noFilter = true) ∨
          valueChanged node.prop dp.value = true
      · rw [if_pos hforced]
        cases hsent : (cacheUpdate node.prop dp.value malloc).2 with
        | true => exact Or.inr (Or.inl ⟨(cacheUpdate node.prop dp.value malloc).1, by simp [hsent]⟩)
        | false =>
            refine Or.inr (Or.inr ⟨malloc_of_cacheUpdate hsent, ?_⟩)
            exact ⟨(cacheUpdate node.prop dp.value malloc).1, by simp [hsent]⟩
      · exact Or.inl (if_neg hforced)
    · exact Or.inr (Or.inl ⟨node.prop, rfl⟩)
    · exact Or.inl rfl

theorem reptNode_id (preprocess noFilter malloc : Bool) (dp : DpObj) (node : DpNode) :
    (reptNode preprocess .objRept noFilter malloc dp node).1.id = node.id := by
  rcases reptNode_cases preprocess noFilter malloc dp node with h | ⟨prop, h⟩ | ⟨-, prop, h⟩ <;>
    rw [h]

theorem reptNode_sent {preprocess noFilter malloc : Bool} {dp : DpObj} {node : DpNode}
    (h : (reptNode preprocess .objRept noFilter malloc dp node).2 = true) :
    (reptNode preprocess .objRept noFilter malloc dp node).1.pvStat = .local := by
  rcases reptNode_cases preprocess noFilter malloc dp node with h' | ⟨prop, h'⟩ | ⟨-, prop, h'⟩ <;>
    simp_all

theorem cloud_dpNodeSet_reptNode {preprocess noFilter malloc : Bool} {dp : DpObj} {node m : DpNode}
    {nodes : List DpNode} (hfind : dpNodeFind nodes dp.id = some node)
    (hmalloc : malloc = true ∨ ∀ n ∈ nodes, n.id = dp.id → n.pvStat ≠ .cloud)
    (hm : m ∈ dpNodeSet nodes dp.id fun _ ↦
      (reptNode preprocess .objRept noFilter malloc dp node).1)
    (hcloud : m.pvStat = .cloud) : m ∈ nodes := by
  obtain ⟨hmem, hid⟩ := dpNodeFind_mem hfind
  rcases mem_dpNodeSet hm with hold | ⟨-, -, rfl⟩
  · exact hold
  · rcases reptNode_cases preprocess noFilter malloc dp node with h | ⟨prop, h⟩ | ⟨hno, prop, h⟩
    · rw [h]
      exact hmem
    · rw [h] at hcloud
      cases hcloud
    · rcases hmalloc with hyes | hlocal
      · simp [hno] at hyes
      · rw [h] at hcloud
        exact absurd hcloud (hlocal node hmem hid)

theorem ShadowedLocal.local_of_find {nodes : List DpNode} {node m : DpNode}
    (h : ShadowedLocal nodes) (hfind : dpNodeFind nodes node.id = some node)
    (hlocal : node.pvStat ≠ .cloud) (hm : m ∈ nodes) (hid : m.id = node.id) :
    m.pvStat ≠ .cloud := by
  induction nodes with
  | nil => cases hm
  | cons n rest ih =>
      obtain ⟨hn, hrest⟩ := List.pairwise_cons.mp h
      rw [dpNodeFind, List.find?_cons] at hfind
      by_cases hnid : n.id = node.id
      · have hnode : n = node := by simpa [hnid] using hfind
        subst hnode
        rcases List.mem_cons.mp hm with rfl | hmrest
        · exact hlocal
        · exact hn m hmrest hid.symm
      · rcases List.mem_cons.mp hm with rfl | hmrest
        · exact absurd hid hnid
        · exact ih hrest (by simpa [dpNodeFind, hnid] using hfind) hmrest

theorem validCheckLoop_cloud (preprocess noFilter : Bool) {malloc : ℕ → Bool} {dps : List DpObj}
    {i : ℕ} {nodes : List DpNode} (hshadowed : ShadowedLocal nodes)
    (hmalloc : ∀ k dp, dps[k]? = some dp →
      malloc (i + k) = true ∨ ∀ n ∈ nodes, n.id = dp.id → n.pvStat ≠ .cloud) :
    let r := validCheckLoop preprocess .objRept noFilter malloc i dps nodes
    ShadowedLocal r.1 ∧ ∀ m ∈ r.1, m.pvStat = .cloud → m ∈ nodes ∧ m.id ∉ r.2.1 := by
  induction dps generalizing i nodes with
  | nil => exact ⟨hshadowed, fun m hm _ ↦ ⟨hm, by simp [validCheckLoop]⟩⟩
  | cons dp rest ih =>
      have hrest : ∀ k dp', rest[k]? = some dp' →
          malloc (i + 1 + k) = true ∨ ∀ n ∈ nodes, n.id = dp'.id → n.pvStat ≠ .cloud := by
        intro k dp' hk
        have h := hmalloc (k + 1) dp' (by simpa using hk)
        rwa [show i + (k + 1) = i + 1 + k by omega] at h
      rw [validCheckLoop]
      cases hfind : dpNodeFind nodes dp.id with
      | none => exact ih hshadowed hrest
      | some node =>
          obtain ⟨hmem, hid⟩ := dpNodeFind_mem hfind
          have hdp := hmalloc 0 dp (by simp)
          rw [Nat.add_zero] at hdp
          set q := reptNode preprocess .objRept noFilter (malloc i) dp node with hq
          have hold : ∀ m ∈ dpNodeSet nodes dp.id (fun _ ↦ q.1), m.pvStat = .cloud → m ∈ nodes :=
            fun m hm hcloud ↦ cloud_dpNodeSet_reptNode hfind hdp hm hcloud
          have hqid : q.1.id = dp.id := (reptNode_id ..).trans hid
          have hshadowed' : ShadowedLocal (dpNodeSet nodes dp.id fun _ ↦ q.1) :=
            shadowed_dpNodeSet (fun _ _ ↦ hqid) hshadowed
          have ih' := ih hshadowed' (i := i + 1) fun k dp' hk ↦
            (hrest k dp' hk).imp_right fun h n hn hid' hcloud ↦ h n (hold n hn hcloud) hid' hcloud
          dsimp only
          split_ifs with htype hsent hillegal
          · exact ⟨hshadowed, fun m hm _ ↦ ⟨hm, by simp⟩⟩
          · refine ⟨ih'.1, fun m hm hcloud ↦ ?_⟩
            obtain ⟨hm', hnot⟩ := ih'.2 m hm hcloud
            exact ⟨hold m hm' hcloud, hnot⟩
          · exact ⟨hshadowed', fun m hm hcloud ↦ ⟨hold m hm hcloud, by simp⟩⟩
          · refine ⟨ih'.1, fun m hm hcloud ↦ ?_⟩
            obtain ⟨hm', hnot⟩ := ih'.2 m hm hcloud
            refine ⟨hold m hm' hcloud, fun hin ↦ ?_⟩
            rcases List.mem_cons.mp hin with heq | hin
            · have hfind' : dpNodeFind (dpNodeSet nodes dp.id fun _ ↦ q.1) q.1.id = some q.1 := by
                rw [hqid, dpNodeFind_dpNodeSet fun _ _ ↦ hqid, if_pos rfl, hfind]
                rfl
              refine hshadowed'.local_of_find hfind' ?_ hm' (heq.trans hqid.symm) hcloud
              rw [reptNode_sent (Bool.not_eq_false _ |>.mp hsent)]
              decide
            · exact hnot hin

theorem dpReptValidCheck_cloud (preprocess noFilter : Bool) {malloc : ℕ → Bool}
    {dps : List DpObj} {nodes : List DpNode} (hshadowed : ShadowedLocal nodes)
    (hmalloc : ∀ p ∈ dps.zipIdx, malloc p.2 = true ∨
      ∀ n ∈ nodes, n.id = p.1.id → n.pvStat ≠ .cloud) :
    let r := dpReptValidCheck preprocess .objRept noFilter malloc dps nodes
    ShadowedLocal r.1 ∧ ∀ m ∈ r.1, m.pvStat = .cloud → m ∈ nodes ∧ m.id ∉ r.2.1 := by
  have htake : ∀ k dp, (dps.take (dps.length % 256))[k]? = some dp →
      malloc (0 + k) = true ∨ ∀ n ∈ nodes, n.id = dp.id → n.pvStat ≠ .cloud := by
    intro k dp hk
    rw [List.getElem?_take] at hk
    split_ifs at hk with hlt
    rw [Nat.zero_add]
    exact hmalloc (dp, k) (List.mem_zipIdx_iff_getElem?.mpr hk)
  have hloop := validCheckLoop_cloud preprocess noFilter hshadowed htake
  intro r
  have hr : r.1 = (validCheckLoop preprocess .objRept noFilter malloc 0
      (dps.take (dps.length % 256)) nodes).1 ∧ r.2.1 = (validCheckLoop preprocess .objRept noFilter
        malloc 0 (dps.take (dps.length % 256)) nodes).2.1 := by
    simp only [r, dpReptValidCheck]
    split_ifs with hnone
    · exact ⟨rfl, hnone.2.symm⟩
    · exact ⟨rfl, rfl⟩
  rw [hr.1, hr.2]
  exact hloop

theorem SyncInv.report {s : SyncState} (h : SyncInv s) {env : ReportEnv} {dps : List DpObj}
    {noFilter : Bool} (hallowed : Allowed s (.report env dps noFilter)) :
    SyncInv (tuyaIotDpObjReport env dps noFilter s).1 := by
  obtain ⟨hshadowed, hcloud⟩ := dpReptValidCheck_cloud s.preprocess noFilter h.shadowed hallowed
  have hacked : CloudAcked
      (forget (dpReptValidCheck s.preprocess .objRept noFilter env.strMalloc dps s.nodes).2.1
        s.acked)
      (dpReptValidCheck s.preprocess .objRept noFilter env.strMalloc dps s.nodes).1 := by
    intro m hm hm'
    obtain ⟨hold, hnot⟩ := hcloud m hm hm'
    rw [forget, if_neg hnot]
    exact h.cloud m hold hm'
  simp only [tuyaIotDpObjReport]
  -- behind the check the nodes stay as they are
  generalize dpReptValidCheck s.preprocess .objRept noFilter env.strMalloc dps s.nodes = r
    at hshadowed hacked ⊢
  by_cases hactive : env.isActivated = false
  · rw [if_pos hactive]
    exact h
  rw [if_neg hactive]
  by_cases hempty : dps = []
  · rw [if_pos hempty]
    exact h
  rw [if_neg hempty]
  by_cases hvalid : env.dpvalid = false
  · rw [if_pos hvalid]
    exact h
  rw [if_neg hvalid]
  split_ifs
  all_goals exact ⟨hacked, hshadowed⟩

/-! ## Completions keep the promise -/

theorem cloudAcked_foldl {acked : ℕ → List DpValue} {ids : List ℕ} {nodes : List DpNode}
    (h : CloudAcked acked nodes) (hshadowed : ShadowedLocal nodes)
    (hids : ∀ id ∈ ids, ∀ n ∈ dpNodeFind nodes id, ∃ v, n.prop.cached = some v ∧ v ∈ acked id) :
    let nodes' := ids.foldl (fun nodes id ↦ dpPvStatSet nodes id .cloud) nodes
    CloudAcked acked nodes' ∧ ShadowedLocal nodes' := by
  induction ids generalizing nodes with
  | nil => exact ⟨h, hshadowed⟩
  | cons id ids ih =>
      have hkeep : ∀ n : DpNode, n.id = id → { n with pvStat := PvStat.cloud }.id = id :=
        fun _ hn ↦ hn
      refine ih (fun m hm hcloud ↦ ?_) (shadowed_dpNodeSet hkeep hshadowed)
        fun id' hid' n hn ↦ ?_
      · rcases mem_dpNodeSet hm with hold | ⟨n, hfind, rfl⟩
        · exact h m hold hcloud
        · obtain ⟨v, hv, hacked⟩ := hids id (by simp) n hfind
          exact ⟨v, hv, by rwa [(dpNodeFind_mem hfind).2]⟩
      · have hn' := (dpNodeFind_dpNodeSet hkeep id').symm.trans hn
        split_ifs at hn' with heq
        · obtain ⟨n', hfind, rfl⟩ := Option.map_eq_some_iff.mp hn'
          rw [heq]
          exact hids id (by simp) n' hfind
        · exact hids id' (by simp [hid']) n hn'

theorem SyncInv.dpSyncCb {s : SyncState} (h : SyncInv s) {result : OperateRet} {r : DpReport}
    (hallowed : result = oprtOk → ∀ id ∈ r.dpids, ∀ n ∈ dpNodeFind s.nodes id,
      n.pvStat = .cloud ∨ ∃ v ∈ n.prop.cached, v ∈ r.valuesOf id) :
    SyncInv (dpSyncCb result r s) := by
  unfold Schema.dpSyncCb
  split_ifs with hresult
  · have hacked : CloudAcked (fun id ↦ r.valuesOf id ++ s.acked id) s.nodes := by
      intro n hn hcloud
      obtain ⟨v, hv, hmem⟩ := h.cloud n hn hcloud
      exact ⟨v, hv, List.mem_append_right _ hmem⟩
    have hids : ∀ id ∈ r.dpids, ∀ n ∈ dpNodeFind s.nodes id,
        ∃ v, n.prop.cached = some v ∧ v ∈ r.valuesOf id ++ s.acked id := by
      intro id hid n hfind
      rcases hallowed hresult id hid n hfind with hn | ⟨v, hv, hmem⟩
      · obtain ⟨hin, rfl⟩ := dpNodeFind_mem hfind
        exact hacked n hin hn
      · exact ⟨v, hv, List.mem_append_left _ hmem⟩
    obtain ⟨hcloud, hshadowed⟩ := cloudAcked_foldl hacked h.shadowed hids
    exact ⟨hcloud, hshadowed⟩
  · exact ⟨h.cloud, h.shadowed⟩

theorem SyncInv.complete {s : SyncState} (h : SyncInv s) {i : ℕ} {result : OperateRet}
    (hallowed : Allowed s (.complete i result)) : SyncInv (complete i result s) := by
  unfold Schema.complete
  split
  · exact h
  · next r hr =>
      have h' : SyncInv { s with inflight := s.inflight.eraseIdx i } := ⟨h.cloud, h.shadowed⟩
      exact h'.dpSyncCb fun hresult ↦ hallowed hresult r hr

theorem SyncInv.sync {s : SyncState} (h : SyncInv s) (connected : Bool) (env : DumpEnv) :
    SyncInv (tuyaIotDpSyncProcess connected env s).1 := by
  simp only [tuyaIotDpSyncProcess]
  split_ifs <;> exact ⟨h.cloud, h.shadowed⟩

theorem SyncInv.step {s : SyncState} {e : SyncEvent} (h : SyncInv s) (hallowed : Allowed s e) :
    SyncInv (syncMachine.step s e).1 := by
  cases e with
  | report env dps noFilter => exact h.report hallowed
  | complete i result => exact h.complete hallowed
  | sync connected env => exact h.sync connected env

theorem syncInv_fresh {s : SyncState} (h : Fresh s) : SyncInv s := by
  have hlocal : ∀ n ∈ s.nodes, n.pvStat ≠ .cloud := by
    intro n hn hcloud
    rw [h.invalid n hn] at hcloud
    cases hcloud
  refine ⟨fun n hn hcloud ↦ absurd hcloud (hlocal n hn), ?_⟩
  exact List.pairwise_of_forall_mem_list fun _ _ b hb _ ↦ hlocal b hb

/-! ## What the next sync sends -/

/-- No raw or file data point stands before an object one. -/
def ObjFirst (nodes : List DpNode) : Prop :=
  nodes.Pairwise fun a b ↦ b.type = .obj → a.type = .obj

theorem dumpNodes_eq {nodes : List DpNode} (h : ObjFirst nodes) :
    dumpNodes nodes = nodes.filter isLocalObj := by
  refine dumpNodes_of_localFirst (h.imp ?_)
  intro a b hab hlocal
  simp only [isLocalObj, Bool.and_eq_true, decide_eq_true_eq] at hlocal
  exact hab hlocal.1

theorem dump_carries {nodes : List DpNode} (h : ObjFirst nodes) {n : DpNode} (hn : n ∈ nodes)
    (hobj : n.type = .obj) (hlocal : n.pvStat ≠ .cloud) {v : DpValue}
    (hv : n.prop.cached = some v) :
    ∃ r, dpObjDumpStatLocalJson ⟨true, true, true, true⟩ nodes = (oprtOk, some r) ∧
      n.id ∈ r.dpids ∧ v ∈ r.valuesOf n.id := by
  have hlisted : n ∈ dumpNodes nodes := by
    rw [dumpNodes_eq h]
    simp [isLocalObj, hn, hobj, hlocal]
  have hcount : nodes.countP isLocalObj ≠ 0 := by
    intro hzero
    simpa [isLocalObj, hobj, hlocal] using List.countP_eq_zero.mp hzero n hn
  have hsome : ¬ ((dumpNodes nodes).all fun n ↦ n.prop.cached.isNone) = true := by
    intro hall
    simpa [hv] using List.all_eq_true.mp hall n hlisted
  refine ⟨_, by rw [dpObjDumpStatLocalJson, if_neg hcount, if_neg (by simp), if_neg hsome,
    if_neg (by simp), if_neg (by simp)], List.mem_map_of_mem hlisted, ?_⟩
  refine List.mem_map.mpr ⟨(n.id, v), List.mem_filter.mpr ⟨?_, by simp⟩, rfl⟩
  exact List.mem_filterMap.mpr ⟨n, hlisted, by rw [hv]; rfl⟩

/-- In every run whose steps are allowed, a data point that counts as uploaded
has a cached value that was acknowledged since it was cached; and the next sync
carries every other cached value. -/
theorem cloud_value_acked {s₀ : SyncState} (h₀ : Fresh s₀) {es : List SyncEvent}
    (hes : syncMachine.Guarded Allowed s₀ es) :
    let s := syncMachine.final s₀ es
    CloudAcked s.acked s.nodes ∧
      (ObjFirst s.nodes → ∀ n ∈ s.nodes, n.type = .obj → ∀ v, n.prop.cached = some v →
        v ∉ s.acked n.id →
        ∃ r, (syncMachine.step s (.sync true ⟨true, true, true, true⟩)).2 = (oprtOk, some r) ∧
          n.id ∈ r.dpids ∧ v ∈ r.valuesOf n.id) := by
  intro s
  have hinv : SyncInv s :=
    syncMachine.inv_final (fun _ _ h hallowed ↦ h.step hallowed) (syncInv_fresh h₀) hes
  refine ⟨hinv.cloud, fun hfirst n hn hobj v hv hnot ↦ ?_⟩
  have hlocal : n.pvStat ≠ .cloud := by
    intro hcloud
    obtain ⟨v', hv', hacked⟩ := hinv.cloud n hn hcloud
    obtain rfl : v = v' := Option.some.inj (hv.symm.trans hv')
    exact hnot hacked
  obtain ⟨r, hr, hid, hval⟩ := dump_carries hfirst hn hobj hlocal hv
  refine ⟨r, ?_, hid, hval⟩
  simp [syncMachine, tuyaIotDpSyncProcess, hr]

/-! ## One data point, two reports -/

def brightness : DpNode where
  id := 1
  mode := .rw
  passive := .psvFalse
  type := .obj
  trig := .pulse
  prop := .int 0 100 0
  pvStat := .invalid

def lamp : SyncState where
  preprocess := true
  nodes := [brightness]
  inflight := []
  syncStarted := false
  acked := fun _ ↦ []

def online : ReportEnv where
  isActivated := true
  dpvalid := true
  strMalloc := fun _ ↦ true
  bleConnected := false
  bleDpin := true
  bleRet := oprtOk
  jsonRet := oprtOk
  lanConnected := false
  lanRet := oprtOk
  iotConnected := true
  iotRet := oprtOk

def reportBrightness (v : ℤ) : SyncEvent := .report online [⟨1, .value v⟩] false

theorem fresh_lamp : Fresh lamp := ⟨by decide, rfl⟩

/-- The first report is acknowledged before the second is made; the second
fails, and the sync is there for it. -/
theorem cloud_value_acked_lamp :
    let es := [reportBrightness 5, .complete 0 oprtOk, reportBrightness 7,
      .complete 0 oprtComError]
    let s := syncMachine.final lamp es
    syncMachine.Guarded Allowed lamp es ∧ CloudAcked s.acked s.nodes ∧
      ∃ r, (syncMachine.step s (.sync true ⟨true, true, true, true⟩)).2 = (oprtOk, some r) ∧
        DpValue.value 7 ∈ r.valuesOf 1 := by
  intro es s
  have hes : syncMachine.Guarded Allowed lamp es := by
    refine ⟨?_, ?_, ?_, ?_, trivial⟩ <;> decide
  obtain ⟨hcloud, hsync⟩ := cloud_value_acked fresh_lamp hes
  obtain ⟨r, hr, -, hv⟩ := hsync (List.pairwise_singleton _ _)
    { brightness with prop := .int 0 100 7, pvStat := .local } (by decide) rfl (.value 7) rfl
    (by decide)
  exact ⟨hes, hcloud, r, hr, hv⟩

/-- The acknowledgement of 5 arrives when the cache holds 7: the data point
counts as uploaded, the report of 7 fails, and the sync finds nothing to send. -/
theorem old_ack_hides_new_value :
    let es := [reportBrightness 5, reportBrightness 7, .complete 0 oprtOk,
      .complete 0 oprtComError]
    let s := syncMachine.final lamp es
    Fresh lamp ∧ ¬ CloudAcked s.acked s.nodes ∧
      s.nodes.map (fun n ↦ (n.pvStat, n.prop.cached)) = [(.cloud, some (.value 7))] ∧
      s.acked 1 = [.value 5] ∧
      (syncMachine.step s (.sync true ⟨true, true, true, true⟩)).2 = (oprtOk, none) := by
  refine ⟨fresh_lamp, fun h ↦ ?_, by decide, by decide, by decide⟩
  obtain ⟨v, hv, hacked⟩ :=
    h { brightness with prop := .int 0 100 7, pvStat := .cloud } (by decide) rfl
  obtain rfl : DpValue.value 7 = v := Option.some.inj hv
  revert hacked
  decide

end TuyaOpen.Schema
