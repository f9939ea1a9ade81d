import TuyaOpen.Cloud.Iot
import TuyaOpen.Cloud.TimerSave
import TuyaOpen.Kv.Store
import TuyaOpen.Lib.CStr

/-!
# Activation data

`tuya_iot.c`: the response of an activation is written to the store and read from there, in the same
way as after a restart.
-/

namespace TuyaOpen.Cloud

open JsonRead (Json)
open Kv (lfsErrNoent lower)

/-- The functions of cJSON that are called, over its values. -/
structure ActivateCjson (V : Type) where
  parse : CString → Option V
  print : V → CString
  getObjectItem : V → CString → Option V
  /-- `item->valuestring`, which is `NULL` unless the item is a string. -/
  valuestring : V → Option CString
  /-- What `cJSON_DetachItemFromObject` leaves. -/
  detach : V → CString → V

/-- The other members stay. -/
def ActivateCjson.Standard {V : Type} (c : ActivateCjson V) : Prop :=
  ∀ root key key', lower key' ≠ lower key →
    c.getObjectItem (c.detach root key) key' = c.getObjectItem root key'

inductive ActivateField where
  | schema | schemaId | devId | secKey | localKey | stdTimeZone

def ActivateField.key : ActivateField → CString
  | .schema => bytesOf "schema"
  | .schemaId => bytesOf "schemaId"
  | .devId => bytesOf "devId"
  | .secKey => bytesOf "secKey"
  | .localKey => bytesOf "localKey"
  | .stdTimeZone => bytesOf "stdTimeZone"

def maxLengthDeviceId : ℕ := 25
def maxLengthSeckey : ℕ := 16
def maxLengthLocalkey : ℕ := 16
def maxLengthSchemaId : ℕ := 16
def maxLengthTimezone : ℕ := 6

/-- `tuya_activated_data_t`. -/
structure TuyaActivatedData where
  devid : CString
  seckey : CString
  localkey : CString
  schemaId : CString
  timezone : CString
  deriving DecidableEq

/-- The client, with `s_time_tz`. -/
structure ActivateClient (σ : Type) where
  activate : TuyaActivatedData
  schema : Option σ
  isActivated : Bool
  nextstate : RunState
  timeTz : ℤ

/-- What a write comes to: one that fails leaves the file as it is, or empty. -/
inductive KvWrite where
  | done
  | kept
  | lost
  deriving DecidableEq

/-- Whether there is memory to read the data, and to read the schema and create it. -/
structure ActivateRead where
  data : Bool
  schema : Bool

/-- The two writes, the print between them, what is read then, and what the two files of the
endpoint hold in the end. -/
structure ActivateEnv where
  schemaSet : KvWrite
  print : Bool
  dataSet : KvWrite
  read : ActivateRead
  cert : Option CString
  domain : Option CString

/-- `__get_time_zone`. -/
def getTimeZone (timeZone : CString) : Option ℤ :=
  let offset := if 0x2b ∈ timeZone ∨ 0x2d ∈ timeZone then 1 else 0
  let plus := 0x2b ∈ timeZone ∨ 0x2d ∉ timeZone
  match Scan.int (timeZone.drop offset) with
  | some (hours, 0x3a :: rest) =>
      (Scan.int rest).map fun minutes ↦
        let posix := (hours * 60 + minutes.1) * 60
        if plus then posix else -posix
  | _ => none

section

variable {V σ κ : Type} (c : ActivateCjson V)
  (create : CString → CString → Option σ) (path : CString → κ)

/-- `activate_json_string_parse`; `none` is a read through `NULL`. -/
def activateJsonStringParse (str : CString) (out : TuyaActivatedData) :
    Option (OperateRet × TuyaActivatedData) :=
  match c.parse str with
  | none => some (oprtCjsonParseErr, out)
  | some root =>
      match c.getObjectItem root ActivateField.devId.key,
        c.getObjectItem root ActivateField.secKey.key,
        c.getObjectItem root ActivateField.localKey.key,
        c.getObjectItem root ActivateField.schemaId.key with
      | some devId, some secKey, some localKey, some schemaId => do
          let devId ← c.valuestring devId
          let secKey ← c.valuestring secKey
          let localKey ← c.valuestring localKey
          let schemaId ← c.valuestring schemaId
          let timezone ← match c.getObjectItem root ActivateField.stdTimeZone.key with
            | none => some out.timezone
            | some stdTimeZone =>
                (c.valuestring stdTimeZone).map (strncpy (maxLengthTimezone + 1))
          return (oprtOk, ⟨strncpy (maxLengthDeviceId + 1) devId,
            strncpy (maxLengthSeckey + 1) secKey, strncpy (maxLengthLocalkey + 1) localKey,
            strncpy (maxLengthSchemaId + 1) schemaId, timezone⟩)
      | _, _, _, _ => some (oprtCjsonGetErr, out)

/-- `activated_data_read`, with `s_time_tz`. -/
def activatedDataRead (mem : Bool) (kv : κ → Option CString) (storageKey : CString)
    (out : TuyaActivatedData) (timeTz : ℤ) : Option (OperateRet × TuyaActivatedData × ℤ) :=
  if mem = false then some (oprtMallocFailed, out, timeTz)
  else
    match kv (path storageKey) with
    | none => some (lfsErrNoent, out, timeTz)
    | some readbuf => do
        let (rt, out) ← activateJsonStringParse c readbuf out
        if rt ≠ oprtOk then return (rt, out, timeTz)
        else
          match getTimeZone out.timezone with
          | none => return (oprtInvalidParm, out, timeTz)
          | some posix => return (oprtOk, out, posix)

/-- `schema_instance_create`. -/
def schemaInstanceCreate (mem : Bool) (kv : κ → Option CString) (devid schemaId : CString) :
    Option σ :=
  if mem = false then none else (kv (path schemaId)).bind (create devid)

/-- `tal_kv_set`. -/
def kvWrite [DecidableEq κ] (write : KvWrite) (kv : κ → Option CString) (key value : CString) :
    OperateRet × (κ → Option CString) :=
  if value = [] then (oprtInvalidParm, kv)
  else
    match write with
    | .done => (oprtOk, Function.update kv (path key) (some value))
    | .kept => (oprtKvsWrFail, kv)
    | .lost => (oprtKvsWrFail, Function.update kv (path key) none)

/-- `activate_response_parse`, of a response with a result. -/
def activateResponseParse [DecidableEq κ] (env : ActivateEnv) (kv : κ → Option CString)
    (storageNamespace : CString) (root : V) : Option (OperateRet × (κ → Option CString)) :=
  match c.getObjectItem root ActivateField.schema.key,
    c.getObjectItem root ActivateField.schemaId.key with
  | some schema, some schemaId => do
      let schemaId ← c.valuestring schemaId
      let schema ← c.valuestring schema
      let (ret, kv) := kvWrite path env.schemaSet kv schemaId schema
      if ret ≠ oprtOk then return (oprtKvsWrFail, kv)
      else if env.print = false then none
      else
        let (ret, kv) := kvWrite path env.dataSet kv storageNamespace
          (c.print (c.detach root ActivateField.schema.key))
        return (if ret ≠ oprtOk then oprtKvsWrFail else oprtOk, kv)
  | _, _ => some (oprtCjsonGetErr, kv)

/-- `endpoint.cert` and `endpoint.domain`. -/
def endpointKeys : List CString := [bytesOf "endpoint.cert", bytesOf "endpoint.domain"]

/-- `tuya_endpoint_cert_set` and `tuya_endpoint_domain_set`. -/
def endpointSet [DecidableEq κ] (env : ActivateEnv) (kv : κ → Option CString) :
    κ → Option CString :=
  Function.update (Function.update kv (path (bytesOf "endpoint.cert")) env.cert)
    (path (bytesOf "endpoint.domain")) env.domain

/-- `STATE_ACTIVATING` of `tuya_iot_yield`, from the response on. -/
def stateActivating [DecidableEq κ] (env : ActivateEnv) (kv : κ → Option CString)
    (storageNamespace : CString) (client : ActivateClient σ) (root : V) :
    Option (ActivateClient σ × (κ → Option CString)) := do
  let (rt, kv) ← activateResponseParse c path env kv storageNamespace root
  if rt ≠ oprtOk then return (client, kv)
  else
    let (rt, activate, timeTz) ← activatedDataRead c path env.read.data kv storageNamespace
      client.activate client.timeTz
    let client := { client with activate := activate, timeTz := timeTz }
    if rt ≠ oprtOk then return ({ client with nextstate := .reset }, kv)
    else
      match schemaInstanceCreate create path env.read.schema kv activate.devid
        activate.schemaId with
      | none => return ({ client with schema := none, nextstate := .reset }, kv)
      | some schema =>
          return ({ client with
              schema := some schema, isActivated := true, nextstate := .startupUpdate },
            endpointSet path env kv)

/-- `tuya_iot_init` up to `is_activated`, after a restart. -/
def tuyaIotInit (read : ActivateRead) (kv : κ → Option CString) (storageNamespace : CString) :
    Option (ActivateClient σ) := do
  let (rt, activate, timeTz) ← activatedDataRead c path read.data kv storageNamespace
    ⟨[], [], [], [], []⟩ 0
  if rt ≠ oprtOk then return ⟨activate, none, false, .idle, timeTz⟩
  else
    let schema := schemaInstanceCreate create path read.schema kv activate.devid activate.schemaId
    return ⟨activate, schema, schema.isSome, .idle, timeTz⟩

/-! ## What is promised -/

/-- The result of a response, with all the fields as strings that have room; there may be no
`stdTimeZone`. -/
structure ActivateResponse where
  root : V
  devId : CString
  secKey : CString
  localKey : CString
  schemaId : CString
  schema : CString
  timeZone : Option CString
  devId_eq : (c.getObjectItem root ActivateField.devId.key).bind c.valuestring = some devId
  secKey_eq : (c.getObjectItem root ActivateField.secKey.key).bind c.valuestring = some secKey
  localKey_eq : (c.getObjectItem root ActivateField.localKey.key).bind c.valuestring = some localKey
  schemaId_eq : (c.getObjectItem root ActivateField.schemaId.key).bind c.valuestring = some schemaId
  schema_eq : (c.getObjectItem root ActivateField.schema.key).bind c.valuestring = some schema
  timeZone_eq : (c.getObjectItem root ActivateField.stdTimeZone.key).map c.valuestring =
    timeZone.map some
  devId_le : devId.length ≤ maxLengthDeviceId
  secKey_le : secKey.length ≤ maxLengthSeckey
  localKey_le : localKey.length ≤ maxLengthLocalkey
  schemaId_le : schemaId.length ≤ maxLengthSchemaId
  timeZone_le : ∀ timeZone', timeZone = some timeZone' → timeZone'.length ≤ maxLengthTimezone

variable {c}

/-- The result without its schema, as it is stored. -/
def ActivateResponse.stored (response : ActivateResponse c) : CString :=
  c.print (c.detach response.root ActivateField.schema.key)

/-- The first write succeeds, and the second one is made. -/
def FirstDone (env : ActivateEnv) (response : ActivateResponse c) : Prop :=
  env.schemaSet = .done ∧ response.schema ≠ [] ∧ env.print = true

def SecondDone (env : ActivateEnv) (response : ActivateResponse c) : Prop :=
  env.dataSet = .done ∧ response.stored ≠ []

/-- A client that has not been activated, with what an earlier attempt has left in it. -/
def idleClient (stale : TuyaActivatedData) (timeTz : ℤ) : ActivateClient σ :=
  ⟨stale, none, false, .activating, timeTz⟩

/-- A restart finds the device activated, as the same. -/
def Restored (restart : ActivateRead) (kv : κ → Option CString) (storageNamespace : CString)
    (response : ActivateResponse c) : Prop :=
  ∃ client, tuyaIotInit c create path restart kv storageNamespace = some client ∧
    client.isActivated = true ∧ client.activate.devid = response.devId ∧
    client.activate.seckey = response.secKey ∧ client.activate.localkey = response.localKey ∧
    client.schema = create response.devId response.schema

variable (c) in
/-- A restart finds the device not activated. -/
def NotActivated (restart : ActivateRead) (kv : κ → Option CString) (storageNamespace : CString) :
    Prop :=
  ∃ client, tuyaIotInit c create path restart kv storageNamespace = some client ∧
    client.isActivated = false

/-- Where both writes succeed the device is activated, also after a restart; and where the second
one fails a restart finds it not activated. -/
structure ActivationSound [DecidableEq κ] (env : ActivateEnv) (restart : ActivateRead)
    (kv : κ → Option CString) (storageNamespace : CString) (stale : TuyaActivatedData) (timeTz : ℤ)
    (response : ActivateResponse c) : Prop where
  durable : FirstDone env response → SecondDone env response → ∃ client kv',
    stateActivating c create path env kv storageNamespace (idleClient stale timeTz) response.root =
      some (client, kv') ∧ client.isActivated = true ∧
    Restored create path restart kv' storageNamespace response
  failed : FirstDone env response → ¬SecondDone env response → ∃ client kv',
    stateActivating c create path env kv storageNamespace (idleClient stale timeTz) response.root =
      some (client, kv') ∧ NotActivated c create path restart kv' storageNamespace

variable (c) in
/-- What is stored under the namespace makes no activated device: where the four fields are there
they and the time zone are strings, but there is no time zone that can be read, or no schema. -/
def NotStored (restart : ActivateRead) (kv : κ → Option CString) (storageNamespace : CString) :
    Prop :=
  ∀ text root, kv (path storageNamespace) = some text → c.parse text = some root →
    (∀ field ∈ [ActivateField.devId, .secKey, .localKey, .schemaId],
      (c.getObjectItem root field.key).isSome) →
    (∀ field ∈ [ActivateField.devId, .secKey, .localKey, .schemaId, .stdTimeZone],
      ∀ item, c.getObjectItem root field.key = some item → (c.valuestring item).isSome) ∧
    ∀ devId schemaId timeZone schema,
      (c.getObjectItem root ActivateField.devId.key).bind c.valuestring = some devId →
      (c.getObjectItem root ActivateField.schemaId.key).bind c.valuestring = some schemaId →
      (c.getObjectItem root ActivateField.stdTimeZone.key).bind c.valuestring = some timeZone →
      (getTimeZone (strncpy (maxLengthTimezone + 1) timeZone)).isSome → restart.schema = true →
      kv (path (strncpy (maxLengthSchemaId + 1) schemaId)) = some schema →
      create (strncpy (maxLengthDeviceId + 1) devId) schema = none

/-- The store behind a second write that fails. -/
def failedStore [DecidableEq κ] (env : ActivateEnv) (kv : κ → Option CString)
    (storageNamespace : CString) (response : ActivateResponse c) : κ → Option CString :=
  (kvWrite path env.dataSet (Function.update kv (path response.schemaId) (some response.schema))
    storageNamespace response.stored).2

/-- The endpoint's files are not those of the data and the schema. -/
def EndpointsApart (storageNamespace schemaId : CString) : Prop :=
  ∀ key ∈ endpointKeys, path key ≠ path storageNamespace ∧ path key ≠ path schemaId

/-- The data in a store are those of the response, with a time zone that can be read, and lead to
the schema of the response. -/
def StoredAs (kv : κ → Option CString) (storageNamespace : CString)
    (response : ActivateResponse c) : Prop :=
  ∃ text activate, kv (path storageNamespace) = some text ∧
    activateJsonStringParse c text ⟨[], [], [], [], []⟩ = some (oprtOk, activate) ∧
    (getTimeZone activate.timezone).isSome ∧ activate.devid = response.devId ∧
    activate.seckey = response.secKey ∧ activate.localkey = response.localKey ∧
    (create response.devId response.schema).isSome ∧
    (kv (path activate.schemaId)).bind (create response.devId) =
      create response.devId response.schema

/-- The response has a time zone that can be read, its schema can be created and is not overwritten,
there is memory; and what a failed second write leaves makes no activated device.  Where the
endpoint writes over the data or the schema, what it writes has to do as well. -/
structure ActivationSafe [DecidableEq κ] (env : ActivateEnv) (restart : ActivateRead)
    (kv : κ → Option CString) (storageNamespace : CString) (stale : TuyaActivatedData)
    (response : ActivateResponse c) : Prop where
  durable : FirstDone env response → SecondDone env response →
    EndpointsApart path storageNamespace response.schemaId →
    (∃ timeZone, response.timeZone = some timeZone ∧ (getTimeZone timeZone).isSome) ∧
    (create response.devId response.schema).isSome ∧
    (path response.schemaId = path storageNamespace →
      create response.devId response.stored = create response.devId response.schema) ∧
    env.read.data = true ∧ env.read.schema = true ∧ restart.data = true ∧ restart.schema = true
  overwritten : FirstDone env response → SecondDone env response →
    ¬EndpointsApart path storageNamespace response.schemaId →
    ((getTimeZone (response.timeZone.getD stale.timezone)).isSome ∧
      (create response.devId (if path response.schemaId = path storageNamespace then
        response.stored else response.schema)).isSome ∧
      env.read.data = true ∧ env.read.schema = true) ∧
    restart.data = true ∧ restart.schema = true ∧
    StoredAs create path (endpointSet path env (failedStore path env kv storageNamespace response))
      storageNamespace response
  failed : FirstDone env response → ¬SecondDone env response → restart.data = true →
    NotStored c create path restart (failedStore path env kv storageNamespace response)
      storageNamespace

/-! ## What is read -/

theorem getTimeZone_nil : getTimeZone [] = none := rfl

theorem parse_missing {str : CString} {root : V} (out : TuyaActivatedData)
    (hparse : c.parse str = some root)
    (h : ¬∀ field ∈ [ActivateField.devId, .secKey, .localKey, .schemaId],
      (c.getObjectItem root field.key).isSome) :
    activateJsonStringParse c str out = some (oprtCjsonGetErr, out) := by
  simp only [List.forall_mem_cons, List.not_mem_nil, false_implies, implies_true, and_true] at h
  simp only [activateJsonStringParse, hparse]
  split
  · rename_i hdev hsec hlocal hschema
    exact absurd ⟨by simp [hdev], by simp [hsec], by simp [hlocal], by simp [hschema]⟩ h
  · rfl

theorem parse_found {str : CString} {root : V} (out : TuyaActivatedData)
    (hparse : c.parse str = some root) {devId secKey localKey schemaId : V}
    (hdev : c.getObjectItem root ActivateField.devId.key = some devId)
    (hsec : c.getObjectItem root ActivateField.secKey.key = some secKey)
    (hlocal : c.getObjectItem root ActivateField.localKey.key = some localKey)
    (hschema : c.getObjectItem root ActivateField.schemaId.key = some schemaId) :
    activateJsonStringParse c str out = (do
      let devId ← c.valuestring devId
      let secKey ← c.valuestring secKey
      let localKey ← c.valuestring localKey
      let schemaId ← c.valuestring schemaId
      let timezone ← match c.getObjectItem root ActivateField.stdTimeZone.key with
        | none => some out.timezone
        | some stdTimeZone => (c.valuestring stdTimeZone).map (strncpy (maxLengthTimezone + 1))
      return (oprtOk, ⟨strncpy (maxLengthDeviceId + 1) devId, strncpy (maxLengthSeckey + 1) secKey,
        strncpy (maxLengthLocalkey + 1) localKey, strncpy (maxLengthSchemaId + 1) schemaId,
        timezone⟩)) := by
  simp only [activateJsonStringParse, hparse, hdev, hsec, hlocal, hschema]

theorem notStored_iff {restart : ActivateRead} {kv : κ → Option CString}
    {storageNamespace text : CString} (htext : kv (path storageNamespace) = some text) {root : V}
    (hparse : c.parse text = some root) {devId secKey localKey schemaId : V}
    (hdev : c.getObjectItem root ActivateField.devId.key = some devId)
    (hsec : c.getObjectItem root ActivateField.secKey.key = some secKey)
    (hlocal : c.getObjectItem root ActivateField.localKey.key = some localKey)
    (hschema : c.getObjectItem root ActivateField.schemaId.key = some schemaId) :
    NotStored c create path restart kv storageNamespace ↔
      ((c.valuestring devId).isSome ∧ (c.valuestring secKey).isSome ∧
        (c.valuestring localKey).isSome ∧ (c.valuestring schemaId).isSome ∧
        ∀ item, c.getObjectItem root ActivateField.stdTimeZone.key = some item →
          (c.valuestring item).isSome) ∧
      ∀ devId' schemaId' timeZone schema, c.valuestring devId = some devId' →
        c.valuestring schemaId = some schemaId' →
        (c.getObjectItem root ActivateField.stdTimeZone.key).bind c.valuestring = some timeZone →
        (getTimeZone (strncpy (maxLengthTimezone + 1) timeZone)).isSome → restart.schema = true →
        kv (path (strncpy (maxLengthSchemaId + 1) schemaId')) = some schema →
        create (strncpy (maxLengthDeviceId + 1) devId') schema = none := by
  unfold NotStored
  constructor
  · intro h
    have hroot := h text root htext hparse (by simp [hdev, hsec, hlocal, hschema])
    simpa [hdev, hsec, hlocal, hschema] using hroot
  · intro h text' root' htext' hparse' _
    obtain rfl := Option.some.inj (htext.symm.trans htext')
    obtain rfl := Option.some.inj (hparse.symm.trans hparse')
    simpa [hdev, hsec, hlocal, hschema] using h

section

variable {kv : κ → Option CString} {storageNamespace text : CString} {out : TuyaActivatedData}

theorem read_parsed (htext : kv (path storageNamespace) = some text) {out' : TuyaActivatedData}
    (hparse : activateJsonStringParse c text out = some (oprtOk, out')) (timeTz : ℤ) :
    activatedDataRead c path true kv storageNamespace out timeTz =
      match getTimeZone out'.timezone with
      | none => some (oprtInvalidParm, out', timeTz)
      | some posix => some (oprtOk, out', posix) := by
  cases hzone : getTimeZone out'.timezone <;> simp [activatedDataRead, htext, hparse, hzone]

theorem read_refused (htext : kv (path storageNamespace) = some text) {rt : OperateRet}
    {out' : TuyaActivatedData} (hparse : activateJsonStringParse c text out = some (rt, out'))
    (hrt : rt ≠ oprtOk) (timeTz : ℤ) :
    activatedDataRead c path true kv storageNamespace out timeTz = some (rt, out', timeTz) := by
  simp [activatedDataRead, htext, hparse, hrt]

theorem read_null (htext : kv (path storageNamespace) = some text)
    (hparse : activateJsonStringParse c text out = none) (timeTz : ℤ) :
    activatedDataRead c path true kv storageNamespace out timeTz = none := by
  simp [activatedDataRead, htext, hparse]

end

section

variable {restart : ActivateRead} {kv : κ → Option CString} {storageNamespace : CString}

theorem init_refused {rt : OperateRet} {activate : TuyaActivatedData} {timeTz : ℤ}
    (h : activatedDataRead c path restart.data kv storageNamespace ⟨[], [], [], [], []⟩ 0 =
      some (rt, activate, timeTz)) (hrt : rt ≠ oprtOk) :
    NotActivated c create path restart kv storageNamespace :=
  ⟨⟨activate, none, false, .idle, timeTz⟩, by simp [tuyaIotInit, h, hrt], rfl⟩

theorem init_read {activate : TuyaActivatedData} {timeTz : ℤ}
    (h : activatedDataRead c path restart.data kv storageNamespace ⟨[], [], [], [], []⟩ 0 =
      some (oprtOk, activate, timeTz)) :
    tuyaIotInit c create path restart kv storageNamespace =
      some ⟨activate, schemaInstanceCreate create path restart.schema kv activate.devid
        activate.schemaId, (schemaInstanceCreate create path restart.schema kv activate.devid
          activate.schemaId).isSome, .idle, timeTz⟩ := by
  simp [tuyaIotInit, h]

theorem init_read_iff {activate : TuyaActivatedData} {timeTz : ℤ}
    (h : activatedDataRead c path restart.data kv storageNamespace ⟨[], [], [], [], []⟩ 0 =
      some (oprtOk, activate, timeTz)) :
    NotActivated c create path restart kv storageNamespace ↔
      schemaInstanceCreate create path restart.schema kv activate.devid activate.schemaId =
        none := by
  rw [NotActivated, init_read create path h]
  simp

theorem schemaInstanceCreate_eq_none {mem : Bool} {devid schemaId : CString} :
    schemaInstanceCreate create path mem kv devid schemaId = none ↔
      (mem = true → ∀ schema, kv (path schemaId) = some schema → create devid schema = none) := by
  cases mem <;> simp [schemaInstanceCreate, Option.bind_eq_none_iff]

theorem init_null
    (h : activatedDataRead c path restart.data kv storageNamespace ⟨[], [], [], [], []⟩ 0 = none) :
    tuyaIotInit c create path restart kv storageNamespace = none := by
  simp [tuyaIotInit, h]

theorem init_found_iff (hdata : restart.data = true) {text : CString}
    (htext : kv (path storageNamespace) = some text) {root : V} (hparse : c.parse text = some root)
    {devId secKey localKey schemaId : V}
    (hdev : c.getObjectItem root ActivateField.devId.key = some devId)
    (hsec : c.getObjectItem root ActivateField.secKey.key = some secKey)
    (hlocal : c.getObjectItem root ActivateField.localKey.key = some localKey)
    (hschema : c.getObjectItem root ActivateField.schemaId.key = some schemaId) :
    NotActivated c create path restart kv storageNamespace ↔
      NotStored c create path restart kv storageNamespace := by
  have hjson := parse_found ⟨[], [], [], [], []⟩ hparse hdev hsec hlocal hschema
  have hfail : oprtInvalidParm ≠ oprtOk := by decide
  rw [notStored_iff create path htext hparse hdev hsec hlocal hschema]
  by_cases hstrings : (c.valuestring devId).isSome ∧ (c.valuestring secKey).isSome ∧
      (c.valuestring localKey).isSome ∧ (c.valuestring schemaId).isSome ∧
      ∀ item, c.getObjectItem root ActivateField.stdTimeZone.key = some item →
        (c.valuestring item).isSome
  · refine Iff.trans ?_ (and_iff_right hstrings).symm
    obtain ⟨hdev', hsec', hlocal', hschema', hzone'⟩ := hstrings
    obtain ⟨devId', hdevId⟩ := Option.isSome_iff_exists.mp hdev'
    obtain ⟨secKey', hsecKey⟩ := Option.isSome_iff_exists.mp hsec'
    obtain ⟨localKey', hlocalKey⟩ := Option.isSome_iff_exists.mp hlocal'
    obtain ⟨schemaId', hschemaId⟩ := Option.isSome_iff_exists.mp hschema'
    simp only [hdevId, hsecKey, hlocalKey, hschemaId, Option.bind_eq_bind, Option.bind_some,
      Option.some.injEq] at hjson ⊢
    cases hzone : c.getObjectItem root ActivateField.stdTimeZone.key with
    | none =>
        -- the time zone of the client is still empty
        simp only [hzone] at hjson
        have hread := read_parsed path htext hjson 0
        rw [getTimeZone_nil, ← hdata] at hread
        simp [init_refused create path hread hfail]
    | some item =>
        obtain ⟨timeZone, htimeZone⟩ := Option.isSome_iff_exists.mp (hzone' item hzone)
        simp only [hzone, htimeZone, Option.map_some, Option.bind_some,
          Option.some.injEq] at hjson ⊢
        have hread := read_parsed path htext hjson 0
        rw [← hdata] at hread
        cases hposix : getTimeZone (strncpy (maxLengthTimezone + 1) timeZone) with
        | none =>
            simp only [hposix] at hread
            refine iff_of_true (init_refused create path hread hfail) ?_
            rintro _ _ _ schema rfl rfl rfl hreads
            simp [hposix] at hreads
        | some posix =>
            simp only [hposix] at hread
            rw [init_read_iff create path hread, schemaInstanceCreate_eq_none]
            constructor
            · rintro h _ _ _ schema rfl rfl rfl - hmem hschema
              exact h hmem schema hschema
            · intro h hmem schema hschema
              exact h devId' schemaId' timeZone schema rfl rfl rfl (by simp [hposix]) hmem hschema
  · have hnull : activateJsonStringParse c text ⟨[], [], [], [], []⟩ = none := by
      rw [hjson]
      by_contra hne
      obtain ⟨r, hr⟩ := Option.ne_none_iff_exists'.mp hne
      simp only [Option.bind_eq_bind, Option.bind_eq_some_iff] at hr
      obtain ⟨devId', hdevId, secKey', hsecKey, localKey', hlocalKey, schemaId', hschemaId, hr⟩ :=
        hr
      refine hstrings
        ⟨by simp [hdevId], by simp [hsecKey], by simp [hlocalKey], by simp [hschemaId],
        fun item hitem ↦ ?_⟩
      simp only [hitem, Option.bind_eq_some_iff, Option.map_eq_some_iff] at hr
      obtain ⟨_, ⟨timeZone, htimeZone, -⟩, -⟩ := hr
      simp [htimeZone]
    have hread := read_null path htext hnull 0
    rw [← hdata] at hread
    simp [NotActivated, init_null create path hread, hstrings]

theorem init_not_activated_iff :
    NotActivated c create path restart kv storageNamespace ↔
    (restart.data = true → NotStored c create path restart kv storageNamespace) := by
  have hfail : lfsErrNoent ≠ oprtOk ∧ oprtMallocFailed ≠ oprtOk ∧ oprtCjsonParseErr ≠ oprtOk ∧
      oprtCjsonGetErr ≠ oprtOk := by decide
  cases hdata : restart.data with
  | false =>
      have hread : activatedDataRead c path restart.data kv storageNamespace
        ⟨[], [], [], [], []⟩ 0 =
          some (oprtMallocFailed, ⟨[], [], [], [], []⟩, 0) := by
        simp [activatedDataRead, hdata]
      exact ⟨fun _ h ↦ by simp at h, fun _ ↦ init_refused create path hread hfail.2.1⟩
  | true =>
      simp only [true_implies]
      cases htext : kv (path storageNamespace) with
      | none =>
          have hread : activatedDataRead c path restart.data kv storageNamespace
              ⟨[], [], [], [], []⟩ 0 = some (lfsErrNoent, ⟨[], [], [], [], []⟩, 0) := by
            simp [activatedDataRead, hdata, htext]
          refine ⟨fun _ text root htext' ↦ ?_, fun _ ↦ init_refused create path hread hfail.1⟩
          cases htext.symm.trans htext'
      | some text =>
          cases hparse : c.parse text with
          | none =>
              have hjson : activateJsonStringParse c text ⟨[], [], [], [], []⟩ =
                  some (oprtCjsonParseErr, ⟨[], [], [], [], []⟩) := by
                simp [activateJsonStringParse, hparse]
              have hread := read_refused path htext hjson hfail.2.2.1 0
              rw [← hdata] at hread
              refine ⟨fun _ text' root htext' hparse' ↦ ?_, fun _ ↦ init_refused create path hread
                hfail.2.2.1⟩
              obtain rfl := Option.some.inj (htext.symm.trans htext')
              cases hparse.symm.trans hparse'
          | some root =>
              by_cases hfour : ∀ field ∈ [ActivateField.devId, .secKey, .localKey, .schemaId],
                  (c.getObjectItem root field.key).isSome
              · simp only [List.forall_mem_cons, List.not_mem_nil, false_implies, implies_true,
                  and_true, Option.isSome_iff_exists] at hfour
                obtain ⟨⟨devId, hdev⟩, ⟨secKey, hsec⟩, ⟨localKey, hlocal⟩, schemaId, hschema⟩ :=
                  hfour
                exact init_found_iff create path hdata htext hparse hdev hsec hlocal hschema
              · have hjson := parse_missing ⟨[], [], [], [], []⟩ hparse hfour
                have hread := read_refused path htext hjson hfail.2.2.2 0
                rw [← hdata] at hread
                refine ⟨fun _ text' root' htext' hparse' hfour' ↦ ?_, fun _ ↦
                  init_refused create path hread hfail.2.2.2⟩
                obtain rfl := Option.some.inj (htext.symm.trans htext')
                obtain rfl := Option.some.inj (hparse.symm.trans hparse')
                exact absurd hfour' hfour

end

/-! ## The stored response -/

section

variable {response : ActivateResponse c} {env : ActivateEnv} {restart : ActivateRead}
  {kv : κ → Option CString} {storageNamespace : CString}

theorem parse_stored (hc : c.Standard) (hprint : c.parse response.stored =
      some (c.detach response.root ActivateField.schema.key)) (out : TuyaActivatedData) :
    activateJsonStringParse c response.stored out = some (oprtOk, ⟨response.devId, response.secKey,
      response.localKey, response.schemaId, response.timeZone.getD out.timezone⟩) := by
  have hdetach : ∀ field : ActivateField, lower field.key ≠ lower ActivateField.schema.key →
      c.getObjectItem (c.detach response.root ActivateField.schema.key) field.key =
        c.getObjectItem response.root field.key := fun field h ↦ hc _ _ _ h
  obtain ⟨devId, hdev, hdevId⟩ := Option.bind_eq_some_iff.mp response.devId_eq
  obtain ⟨secKey, hsec, hsecKey⟩ := Option.bind_eq_some_iff.mp response.secKey_eq
  obtain ⟨localKey, hlocal, hlocalKey⟩ := Option.bind_eq_some_iff.mp response.localKey_eq
  obtain ⟨schemaId, hschema, hschemaId⟩ := Option.bind_eq_some_iff.mp response.schemaId_eq
  have hzone := response.timeZone_eq
  rw [← hdetach .devId (by decide)] at hdev
  rw [← hdetach .secKey (by decide)] at hsec
  rw [← hdetach .localKey (by decide)] at hlocal
  rw [← hdetach .schemaId (by decide)] at hschema
  rw [← hdetach .stdTimeZone (by decide)] at hzone
  rw [parse_found out hprint hdev hsec hlocal hschema]
  simp only [hdevId, hsecKey, hlocalKey, hschemaId, Option.bind_eq_bind, Option.bind_some,
    strncpy_of_lt (Nat.lt_succ_of_le response.devId_le),
    strncpy_of_lt (Nat.lt_succ_of_le response.secKey_le),
    strncpy_of_lt (Nat.lt_succ_of_le response.localKey_le),
    strncpy_of_lt (Nat.lt_succ_of_le response.schemaId_le)]
  cases htime : response.timeZone with
  | none =>
      have hnone := Option.map_eq_none_iff.mp (hzone.trans (by rw [htime]; rfl))
      simp [hnone]
  | some timeZone =>
      obtain ⟨item, hitem, hvalue⟩ := Option.map_eq_some_iff.mp (hzone.trans (by rw [htime]; rfl))
      have hle := response.timeZone_le timeZone htime
      simp [hitem, hvalue, strncpy_of_lt (Nat.lt_succ_of_le hle)]

theorem read_stored (hc : c.Standard) (hprint : c.parse response.stored =
      some (c.detach response.root ActivateField.schema.key))
    (htext : kv (path storageNamespace) = some response.stored) (mem : Bool)
    (out : TuyaActivatedData) (timeTz : ℤ) :
    activatedDataRead c path mem kv storageNamespace out timeTz =
      if mem = false then some (oprtMallocFailed, out, timeTz)
      else match getTimeZone (response.timeZone.getD out.timezone) with
        | none => some (oprtInvalidParm, ⟨response.devId, response.secKey, response.localKey,
            response.schemaId, response.timeZone.getD out.timezone⟩, timeTz)
        | some posix => some (oprtOk, ⟨response.devId, response.secKey, response.localKey,
            response.schemaId, response.timeZone.getD out.timezone⟩, posix) := by
  cases mem with
  | false => simp [activatedDataRead]
  | true =>
      rw [read_parsed path htext (parse_stored hc hprint out) timeTz]
      simp

theorem activatedDataRead_ok_iff {mem : Bool} {out activate : TuyaActivatedData}
    {timeTz posix : ℤ} :
    activatedDataRead c path mem kv storageNamespace out timeTz = some (oprtOk, activate, posix) ↔
      mem = true ∧ ∃ text, kv (path storageNamespace) = some text ∧
        activateJsonStringParse c text out = some (oprtOk, activate) ∧
        getTimeZone activate.timezone = some posix := by
  have hfail : oprtMallocFailed ≠ oprtOk ∧ lfsErrNoent ≠ oprtOk ∧ oprtInvalidParm ≠ oprtOk := by
    decide
  constructor
  · intro h
    unfold activatedDataRead at h
    split_ifs at h with hmem
    · exact absurd (congrArg Prod.fst (Option.some.inj h)) hfail.1
    refine ⟨Bool.of_not_eq_false hmem, ?_⟩
    split at h
    · exact absurd (congrArg Prod.fst (Option.some.inj h)) hfail.2.1
    rename_i text htext
    obtain ⟨⟨rt, out'⟩, hparse, h⟩ := Option.bind_eq_some_iff.mp h
    dsimp only at h
    split_ifs at h with hrt
    · exact absurd (congrArg Prod.fst (Option.some.inj h)) hrt
    cases hzone : getTimeZone out'.timezone with
    | none =>
        rw [hzone] at h
        exact absurd (congrArg Prod.fst (Option.some.inj h)) hfail.2.2
    | some posix' =>
        rw [hzone] at h
        cases h
        exact ⟨text, htext, by rw [hparse, not_not.mp hrt], hzone⟩
  · rintro ⟨rfl, text, htext, hparse, hzone⟩
    rw [read_parsed path htext hparse timeTz, hzone]

variable (restart) in
theorem restored_iff_storedAs :
    Restored create path restart kv storageNamespace response ↔
      restart.data = true ∧ restart.schema = true ∧
        StoredAs create path kv storageNamespace response := by
  constructor
  · rintro ⟨client, hinit, hactivated, hdev, hsec, hlocal, hschema⟩
    obtain ⟨⟨rt, activate, posix⟩, hread, hinit⟩ := Option.bind_eq_some_iff.mp hinit
    dsimp only at hinit
    split_ifs at hinit with hrt
    · obtain rfl := Option.some.inj hinit
      cases hactivated
    obtain rfl := Option.some.inj hinit
    rw [not_not.mp hrt] at hread
    obtain ⟨hdata, text, htext, hparse, hzone⟩ := (activatedDataRead_ok_iff path).mp hread
    dsimp only at hactivated hdev hsec hlocal hschema
    have hmem : restart.schema = true := by
      by_contra hmem
      rw [schemaInstanceCreate, if_pos (by simpa using hmem)] at hactivated
      cases hactivated
    rw [hschema] at hactivated
    rw [schemaInstanceCreate, if_neg (by simp [hmem]), hdev] at hschema
    exact ⟨hdata, hmem, text, activate, htext, hparse, by rw [hzone]; rfl, hdev, hsec, hlocal,
      hactivated, hschema⟩
  · rintro ⟨hdata, hmem, text, activate, htext, hparse, hzone, hdev, hsec, hlocal, hsome, hschema⟩
    obtain ⟨posix, hposix⟩ := Option.isSome_iff_exists.mp hzone
    have hread : activatedDataRead c path restart.data kv storageNamespace ⟨[], [], [], [], []⟩ 0 =
        some (oprtOk, activate, posix) :=
      (activatedDataRead_ok_iff path).mpr ⟨hdata, text, htext, hparse, hposix⟩
    have hmade : schemaInstanceCreate create path restart.schema kv activate.devid
        activate.schemaId = create response.devId response.schema := by
      rw [schemaInstanceCreate, if_neg (by simp [hmem]), hdev, hschema]
    refine ⟨_, init_read create path hread, ?_, hdev, hsec, hlocal, hmade⟩
    dsimp only
    rw [hmade, hsome]

variable (restart) in
theorem restart_iff (hc : c.Standard) (hprint : c.parse response.stored =
      some (c.detach response.root ActivateField.schema.key))
    (htext : kv (path storageNamespace) = some response.stored) :
    Restored create path restart kv storageNamespace response ↔
    (∃ timeZone, response.timeZone = some timeZone ∧ (getTimeZone timeZone).isSome) ∧
      (create response.devId response.schema).isSome ∧
      (kv (path response.schemaId)).bind (create response.devId) =
        create response.devId response.schema ∧
      restart.data = true ∧ restart.schema = true := by
  have hparse := parse_stored hc hprint ⟨[], [], [], [], []⟩
  rw [restored_iff_storedAs]
  constructor
  · rintro ⟨hdata, hmem, text, activate, htext', hparse', hzone, -, -, -, hsome, hschema⟩
    obtain rfl := Option.some.inj (htext.symm.trans htext')
    obtain rfl := (Prod.mk.inj (Option.some.inj (hparse.symm.trans hparse'))).2
    refine ⟨?_, hsome, hschema, hdata, hmem⟩
    cases htime : response.timeZone with
    | none =>
        rw [htime, Option.getD_none, getTimeZone_nil] at hzone
        cases hzone
    | some timeZone =>
        rw [htime, Option.getD_some] at hzone
        exact ⟨timeZone, rfl, hzone⟩
  · rintro ⟨⟨timeZone, htime, hzone⟩, hsome, hschema, hdata, hmem⟩
    rw [htime, Option.getD_some] at hparse
    exact ⟨hdata, hmem, _, _, htext, hparse, hzone, rfl, rfl, rfl, hsome, hschema⟩

variable [DecidableEq κ]

theorem responseParse_first (hfirst : FirstDone env response) :
    activateResponseParse c path env kv storageNamespace response.root =
      some (if (kvWrite path env.dataSet (Function.update kv (path response.schemaId)
          (some response.schema)) storageNamespace response.stored).1 = oprtOk then oprtOk
        else oprtKvsWrFail, failedStore path env kv storageNamespace response) := by
  obtain ⟨hset, hne, hprint⟩ := hfirst
  obtain ⟨schemaId, hschemaId, hvalue⟩ := Option.bind_eq_some_iff.mp response.schemaId_eq
  obtain ⟨schema, hschema, htext⟩ := Option.bind_eq_some_iff.mp response.schema_eq
  have hwrite : kvWrite path env.schemaSet kv response.schemaId response.schema =
      (oprtOk, Function.update kv (path response.schemaId) (some response.schema)) := by
    simp [kvWrite, hne, hset]
  simp only [activateResponseParse, hschemaId, hschema, hvalue, htext, hwrite, hprint, failedStore,
    ActivateResponse.stored, Option.bind_eq_bind, Option.bind_some, ne_eq, if_false,
    Bool.true_eq_false, ite_not]
  rfl

theorem kvWrite_code (env : ActivateEnv) (response : ActivateResponse c) (kv : κ → Option CString)
    (storageNamespace : CString) :
    (kvWrite path env.dataSet kv storageNamespace response.stored).1 = oprtOk ↔
      SecondDone env response := by
  have hfail : oprtInvalidParm ≠ oprtOk ∧ oprtKvsWrFail ≠ oprtOk := by decide
  unfold kvWrite SecondDone
  by_cases hempty : response.stored = []
  · simp [hempty, hfail.1]
  · cases env.dataSet <;> simp [hempty, hfail.2]

variable (kv) in
theorem bothDone_schema (hsecond : SecondDone env response) :
    failedStore path env kv storageNamespace response (path storageNamespace) =
      some response.stored ∧
    failedStore path env kv storageNamespace response (path response.schemaId) =
      some (if path response.schemaId = path storageNamespace then response.stored
        else response.schema) := by
  obtain ⟨hset, hne⟩ := hsecond
  simp only [failedStore, kvWrite, hne, if_false, hset]
  refine ⟨Function.update_self _ _ _, ?_⟩
  by_cases hsame : path response.schemaId = path storageNamespace
  · simp [hsame]
  · simp [hsame]

theorem endpointSet_other (env : ActivateEnv) (kv : κ → Option CString) {key : CString}
    (hkey : ∀ other ∈ endpointKeys, path other ≠ path key) : endpointSet path env kv (path key) =
      kv (path key) := by
  simp only [endpointKeys, List.forall_mem_cons] at hkey
  unfold endpointSet
  rw [Function.update_of_ne hkey.2.1.symm, Function.update_of_ne hkey.1.symm]

theorem stateActivating_bothDone (hfirst : FirstDone env response)
    (hsecond : SecondDone env response) (client : ActivateClient σ) :
    stateActivating c create path env kv storageNamespace client response.root =
      (activatedDataRead c path env.read.data (failedStore path env kv storageNamespace response)
        storageNamespace client.activate client.timeTz).bind fun (rt, activate, timeTz) ↦
      let client := { client with activate := activate, timeTz := timeTz }
      if rt ≠ oprtOk then
        some ({ client with nextstate := .reset },
          failedStore path env kv storageNamespace response)
      else
        match schemaInstanceCreate create path env.read.schema
          (failedStore path env kv storageNamespace response) activate.devid activate.schemaId with
        | none => some ({ client with schema := none, nextstate := .reset },
            failedStore path env kv storageNamespace response)
        | some schema =>
            some ({ client with
                schema := some schema, isActivated := true, nextstate := .startupUpdate },
              endpointSet path env (failedStore path env kv storageNamespace response)) := by
  have hcode := (kvWrite_code path env response (Function.update kv (path response.schemaId)
    (some response.schema)) storageNamespace).mpr hsecond
  rw [stateActivating, responseParse_first path hfirst, if_pos hcode]
  rfl

variable (kv storageNamespace) in
/-- Behind both writes, the client is activated where there is a time zone, its own or that of an
earlier attempt, and the schema can be created. -/
theorem stateActivating_iff (hc : c.Standard) (hprint : c.parse response.stored =
      some (c.detach response.root ActivateField.schema.key)) (hfirst : FirstDone env response)
    (hsecond : SecondDone env response) (stale : TuyaActivatedData) (timeTz : ℤ)
    (kv' : κ → Option CString) :
    (∃ client, stateActivating c create path env kv storageNamespace (idleClient stale timeTz)
        response.root = some (client, kv') ∧ client.isActivated = true) ↔
      endpointSet path env (failedStore path env kv storageNamespace response) = kv' ∧
      env.read.data = true ∧ (getTimeZone (response.timeZone.getD stale.timezone)).isSome ∧
      (schemaInstanceCreate create path env.read.schema (failedStore path env kv storageNamespace
        response) response.devId response.schemaId).isSome := by
  have htext : failedStore path env kv storageNamespace response (path storageNamespace) =
      some response.stored := (bothDone_schema path kv hsecond).1
  have hread := read_stored path hc hprint htext env.read.data stale timeTz
  have hfail : oprtMallocFailed ≠ oprtOk ∧ oprtInvalidParm ≠ oprtOk := by decide
  rw [stateActivating_bothDone create path hfirst hsecond]
  simp only [idleClient, hread]
  cases hdata : env.read.data with
  | false => simp [hfail.1]
  | true =>
      cases hposix : getTimeZone (response.timeZone.getD stale.timezone) with
      | none => simp [hfail.2]
      | some posix =>
          cases hmade : schemaInstanceCreate create path env.read.schema
              (failedStore path env kv storageNamespace response) response.devId
              response.schemaId with
          | none => simp [hmade]
          | some schema => simp [hmade]

theorem durable_iff (hc : c.Standard) (hprint : c.parse response.stored =
      some (c.detach response.root ActivateField.schema.key)) (hfirst : FirstDone env response)
    (hsecond : SecondDone env response) (stale : TuyaActivatedData) (timeTz : ℤ)
    (hkeys : EndpointsApart path storageNamespace response.schemaId) :
    (∃ client kv', stateActivating c create path env kv storageNamespace (idleClient stale timeTz)
        response.root = some (client, kv') ∧ client.isActivated = true ∧
      Restored create path restart kv' storageNamespace response) ↔
      (∃ timeZone, response.timeZone = some timeZone ∧ (getTimeZone timeZone).isSome) ∧
      (create response.devId response.schema).isSome ∧
      (path response.schemaId = path storageNamespace →
        create response.devId response.stored = create response.devId response.schema) ∧
      env.read.data = true ∧ env.read.schema = true ∧ restart.data = true ∧
      restart.schema = true := by
  obtain ⟨htext, hschemaAt⟩ := bothDone_schema path kv hsecond
  have hends := endpointSet_other path env (failedStore path env kv storageNamespace response)
    fun key hkey ↦ (hkeys key hkey).1
  have hends' := endpointSet_other path env (failedStore path env kv storageNamespace response)
    fun key hkey ↦ (hkeys key hkey).2
  have hrestart := restart_iff create path restart hc hprint (hends.trans htext)
  have hcreate : create response.devId (if path response.schemaId = path storageNamespace then
      response.stored else response.schema) = create response.devId response.schema ↔
      (path response.schemaId = path storageNamespace →
        create response.devId response.stored = create response.devId response.schema) := by
    split_ifs with hsame <;> simp [hsame]
  rw [hends', hschemaAt, Option.bind_some, hcreate] at hrestart
  have hstate := stateActivating_iff create path kv storageNamespace hc hprint hfirst hsecond stale
    timeTz
  constructor
  · rintro ⟨client, kv', hdone, hactivated, hrestored⟩
    obtain ⟨rfl, hdata, -, hmade⟩ := (hstate _).mp ⟨client, hdone, hactivated⟩
    obtain ⟨hzone, hsome, hsame, hagain⟩ := hrestart.mp hrestored
    refine ⟨hzone, hsome, hsame, hdata, ?_, hagain⟩
    cases hmem : env.read.schema with
    | false => simp [schemaInstanceCreate, hmem] at hmade
    | true => rfl
  · rintro ⟨hzone, hsome, hsame, hdata, hmem, hagain⟩
    have hmade : schemaInstanceCreate create path env.read.schema (failedStore path env kv
        storageNamespace response) response.devId response.schemaId =
          create response.devId response.schema := by
      rw [schemaInstanceCreate, hmem, if_neg (by simp), hschemaAt, Option.bind_some,
        hcreate.mpr hsame]
    obtain ⟨timeZone, htime, hposix⟩ := hzone
    obtain ⟨client, hdone, hactivated⟩ := (hstate _).mpr ⟨rfl, hdata, by simpa [htime] using hposix,
      hmade.symm ▸ hsome⟩
    exact ⟨client, _, hdone, hactivated,
      hrestart.mpr ⟨⟨timeZone, htime, hposix⟩, hsome, hsame, hagain⟩⟩

/-- Where the endpoint has written over the data or the schema, a restart reads what it wrote. -/
theorem overwritten_iff (hc : c.Standard) (hprint : c.parse response.stored =
      some (c.detach response.root ActivateField.schema.key)) (hfirst : FirstDone env response)
    (hsecond : SecondDone env response) (stale : TuyaActivatedData) (timeTz : ℤ) :
    (∃ client kv', stateActivating c create path env kv storageNamespace (idleClient stale timeTz)
        response.root = some (client, kv') ∧ client.isActivated = true ∧
      Restored create path restart kv' storageNamespace response) ↔
      ((getTimeZone (response.timeZone.getD stale.timezone)).isSome ∧
        (create response.devId (if path response.schemaId = path storageNamespace then
          response.stored else response.schema)).isSome ∧
        env.read.data = true ∧ env.read.schema = true) ∧
      restart.data = true ∧ restart.schema = true ∧
      StoredAs create path
        (endpointSet path env (failedStore path env kv storageNamespace response))
        storageNamespace response := by
  have hstate := stateActivating_iff create path kv storageNamespace hc hprint hfirst hsecond stale
    timeTz
  have hschemaAt : failedStore path env kv storageNamespace response (path response.schemaId) =
      some (if path response.schemaId = path storageNamespace then response.stored
        else response.schema) := (bothDone_schema path kv hsecond).2
  have hmade : (schemaInstanceCreate create path env.read.schema (failedStore path env kv
      storageNamespace response) response.devId response.schemaId).isSome ↔
      env.read.schema = true ∧ (create response.devId (if path response.schemaId =
        path storageNamespace then response.stored else response.schema)).isSome := by
    rw [schemaInstanceCreate, hschemaAt, Option.bind_some]
    cases env.read.schema <;> simp
  constructor
  · rintro ⟨client, kv', hdone, hactivated, hrestored⟩
    obtain ⟨rfl, hdata, hzone, hschema⟩ := (hstate _).mp ⟨client, hdone, hactivated⟩
    obtain ⟨hmem, hcreate⟩ := hmade.mp hschema
    exact ⟨⟨hzone, hcreate, hdata, hmem⟩, (restored_iff_storedAs create path restart).mp hrestored⟩
  · rintro ⟨⟨hzone, hcreate, hdata, hmem⟩, hstored⟩
    obtain ⟨client, hdone, hactivated⟩ :=
      (hstate _).mpr ⟨rfl, hdata, hzone, hmade.mpr ⟨hmem, hcreate⟩⟩
    exact ⟨client, _, hdone, hactivated, (restored_iff_storedAs create path restart).mpr hstored⟩

theorem failed_iff (hfirst : FirstDone env response) (hsecond : ¬SecondDone env response)
    (stale : TuyaActivatedData) (timeTz : ℤ) :
    (∃ client kv', stateActivating c create path env kv storageNamespace (idleClient stale timeTz)
        response.root = some (client, kv') ∧
      NotActivated c create path restart kv' storageNamespace) ↔ (restart.data = true →
        NotStored c create path restart (failedStore path env kv storageNamespace response)
          storageNamespace) := by
  have hcode := (kvWrite_code path env response (Function.update kv (path response.schemaId)
    (some response.schema)) storageNamespace).not.mpr hsecond
  have hfail : oprtKvsWrFail ≠ oprtOk := by decide
  rw [← init_not_activated_iff create path, stateActivating, responseParse_first path hfirst,
    if_neg hcode]
  simp [hfail]

end

/-- The activation is sound exactly when its condition holds. -/
theorem activation_sound_iff {V σ κ : Type} [DecidableEq κ] (c : ActivateCjson V) (hc : c.Standard)
    (create : CString → CString → Option σ) (path : CString → κ) (env : ActivateEnv)
    (restart : ActivateRead) (kv : κ → Option CString) (storageNamespace : CString)
    (stale : TuyaActivatedData) (timeTz : ℤ) (response : ActivateResponse c)
    (hprint : c.parse response.stored =
      some (c.detach response.root ActivateField.schema.key)) :
    ActivationSound create path env restart kv storageNamespace stale timeTz response ↔
      ActivationSafe create path env restart kv storageNamespace stale response := by
  constructor
  · intro h
    refine ⟨fun hfirst hsecond hapart ↦ ?_, fun hfirst hsecond _ ↦ ?_, fun hfirst hsecond ↦ ?_⟩
    · exact (durable_iff create path hc hprint hfirst hsecond stale timeTz hapart).mp
        (h.durable hfirst hsecond)
    · exact (overwritten_iff create path hc hprint hfirst hsecond stale timeTz).mp
        (h.durable hfirst hsecond)
    · exact (failed_iff create path hfirst hsecond stale timeTz).mp (h.failed hfirst hsecond)
  · intro h
    refine ⟨fun hfirst hsecond ↦ ?_, fun hfirst hsecond ↦ ?_⟩
    · by_cases hapart : EndpointsApart path storageNamespace response.schemaId
      · exact (durable_iff create path hc hprint hfirst hsecond stale timeTz hapart).mpr
          (h.durable hfirst hsecond hapart)
      · exact (overwritten_iff create path hc hprint hfirst hsecond stale timeTz).mpr
          (h.overwritten hfirst hsecond hapart)
    · exact (failed_iff create path hfirst hsecond stale timeTz).mpr (h.failed hfirst hsecond)

end

/-! ## A sample -/

/-- The members of a result, with the time zone or without one. -/
def sampleMembers (timeZone : Option CString) : List (CString × Json) :=
  [(ActivateField.devId.key, .string (bytesOf "d1")),
    (ActivateField.secKey.key, .string (bytesOf "s1")),
    (ActivateField.localKey.key, .string (bytesOf "l1")),
    (ActivateField.schemaId.key, .string (bytesOf "000001"))] ++
    (timeZone.map fun timeZone ↦ (ActivateField.stdTimeZone.key, Json.string timeZone)).toList

def eighthZone : CString := bytesOf "+08:00"

def sampleActivateCjson : ActivateCjson Json where
  parse s := [Json.object (sampleMembers none), .object (sampleMembers (some eighthZone))].find?
    fun v ↦ printJson v = s
  print := printJson
  getObjectItem
    | .object members, key => (members.find? fun member ↦ lower member.1 = lower key).map Prod.snd
    | _, _ => none
  valuestring
    | .string s => some s
    | _ => none
  detach
    | .object members, key => .object (members.eraseP fun member ↦ lower member.1 = lower key)
    | v, _ => v

theorem sampleActivateCjson_standard : sampleActivateCjson.Standard := by
  intro root key key' hne
  cases root with
  | object members =>
      apply congrArg (Option.map Prod.snd)
      induction members with
      | nil => rfl
      | cons member members ih =>
          by_cases hkey : lower member.1 = lower key
          · have hother : lower member.1 ≠ lower key' := fun h ↦ hne (h.symm.trans hkey)
            rw [hkey] at hother
            simp [hkey, hother]
          · simp only [List.eraseP_cons, hkey, decide_false, cond_false, List.find?_cons]
            rw [ih]
  | _ => rfl

/-- A schema of one raw data point. -/
def rawSchema : CString := bytesOf "[\x7b\"id\":1,\"mode\":\"rw\",\"type\":\"raw\"\x7d]"

/-- `dp_schema_create`, where its answers are known. -/
def rawCreate (_ text : CString) : Option CString := if text = rawSchema then some text else none

def sampleResponse (timeZone : Option CString)
    (hle : ∀ timeZone', timeZone = some timeZone' → timeZone'.length ≤ maxLengthTimezone) :
    ActivateResponse sampleActivateCjson where
  root := .object
    ((ActivateField.schema.key, .string rawSchema) :: sampleMembers timeZone)
  devId := bytesOf "d1"
  secKey := bytesOf "s1"
  localKey := bytesOf "l1"
  schemaId := bytesOf "000001"
  schema := rawSchema
  timeZone := timeZone
  devId_eq := rfl
  secKey_eq := rfl
  localKey_eq := rfl
  schemaId_eq := rfl
  schema_eq := rfl
  timeZone_eq := by cases timeZone <;> rfl
  devId_le := by decide
  secKey_le := by decide
  localKey_le := by decide
  schemaId_le := by decide
  timeZone_le := hle

def sampleActivateEnv : ActivateEnv := ⟨.done, true, .done, ⟨true, true⟩, none, none⟩

def zonedResponse : ActivateResponse sampleActivateCjson :=
  sampleResponse (some eighthZone) (by rintro _ ⟨⟩; decide)

def unzonedResponse : ActivateResponse sampleActivateCjson :=
  sampleResponse none (by rintro _ ⟨⟩)

theorem activation_sound_zoned : sampleActivateCjson.Standard ∧
    ActivationSound rawCreate id sampleActivateEnv ⟨true, true⟩ (fun _ ↦ none)
      (bytesOf "uuid") ⟨[], [], [], [], []⟩ 0 zonedResponse := by
  refine ⟨sampleActivateCjson_standard, ?_⟩
  refine (activation_sound_iff sampleActivateCjson sampleActivateCjson_standard _ id _ _ _ _ _ _
    zonedResponse rfl).mpr ⟨fun _ _ _ ↦ ?_, fun _ _ hover ↦ ?_, fun _ hfailed ↦ ?_⟩
  · exact ⟨⟨eighthZone, rfl, rfl⟩, rfl, fun h ↦ absurd h (by decide), rfl, rfl, rfl, rfl⟩
  · exact absurd (by unfold EndpointsApart; decide) hover
  · exact absurd ⟨rfl, by decide⟩ hfailed

/-- Without a time zone the device is reset. -/
theorem missing_zone_resets :
    ¬ActivationSound rawCreate id sampleActivateEnv ⟨true, true⟩ (fun _ ↦ none)
      (bytesOf "uuid") ⟨[], [], [], [], []⟩ 0 unzonedResponse := by
  intro h
  obtain ⟨client, kv', hstate, hactivated, -⟩ := h.durable ⟨rfl, by decide, rfl⟩ ⟨rfl, by decide⟩
  have hreset : (stateActivating sampleActivateCjson rawCreate id sampleActivateEnv
      (fun _ ↦ none) (bytesOf "uuid") (idleClient ⟨[], [], [], [], []⟩ 0) unzonedResponse.root).map
      (fun result ↦ result.1.isActivated) = some false := by decide
  rw [hstate, Option.map_some, hactivated] at hreset
  cases hreset

end TuyaOpen.Cloud
