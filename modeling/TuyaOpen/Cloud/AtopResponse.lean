import TuyaOpen.Cloud.AtopRequest
import TuyaOpen.Kv.Serialize
import TuyaOpen.Lan.Codec

/-!
# ATOP responses

`atop_base.c`: the result of a response is decoded and decrypted.  Where that fails, the body itself
is parsed in its place.
-/

namespace TuyaOpen.Cloud

open CStr (textOf)
open JsonRead (Json cstr)
open Kv (Cjson lower)
open Lan (Gcm)
open Utilities (base64Check base64Loop)

structure AtopResponseEnv where
  cjson : Cjson
  gcm : Gcm
  /-- Whether there is memory, by the size. -/
  alloc : ℕ → Bool
  /-- The 16 bytes from `request->key` on. -/
  aesKey : List UInt8

/-- `result`. -/
def resultName : List UInt8 := [0x72, 0x65, 0x73, 0x75, 0x6c, 0x74]

/-- `success`. -/
def successName : List UInt8 := [0x73, 0x75, 0x63, 0x63, 0x65, 0x73, 0x73]

/-- `errorCode`. -/
def errorCodeName : List UInt8 := [0x65, 0x72, 0x72, 0x6f, 0x72, 0x43, 0x6f, 0x64, 0x65]

/-- `GATEWAY_NOT_EXISTS`. -/
def gatewayNotExists : List UInt8 :=
  [0x47, 0x41, 0x54, 0x45, 0x57, 0x41, 0x59, 0x5f, 0x4e, 0x4f, 0x54, 0x5f, 0x45, 0x58, 0x49, 0x53,
    0x54, 0x53]

/-- `item->valuestring`, which is `NULL` unless the item is a string. -/
def valuestring : Json → Option (List UInt8)
  | .string s => some (cstr s)
  | _ => none

/-- `item->valueint`. -/
def valueint : Json → ℤ
  | .number n => n
  | .bool true => 1
  | _ => 0

def mbedtlsErrBase64BufferTooSmall : OperateRet := -0x002a
def mbedtlsErrBase64InvalidCharacter : OperateRet := -0x002c

/-- `mbedtls_base64_decode` into `dlen` bytes, if there are any. -/
def mbedtlsBase64Decode (dst : Bool) (dlen : ℕ) (src : List UInt8) :
    Except OperateRet (List UInt8) :=
  match base64Check src false 0 0 with
  | none => .error mbedtlsErrBase64InvalidCharacter
  | some (n, equals) =>
      if n = 0 then .ok []
      else if dst = false ∨ dlen < 6 * (n / 8) + (6 * (n % 8) + 7) / 8 - equals then
        .error mbedtlsErrBase64BufferTooSmall
      else .ok (base64Loop src 0 0 0)

/-- `atop_response_result_decrpyt`.  The wrapper of the cipher copies the data and the tag to memory
of their length, which a short input makes very large. -/
def atopResponseResultDecrpyt (env : AtopResponseEnv) (input : List UInt8) :
    Except Stop (List UInt8) :=
  let ilen := toInt input.length
  let dataLen := ((ilen - 12 - 16) % 2 ^ 64).toNat
  if ilen = 0 then .error (.returns oprtInvalidParm)
  else if env.alloc ((dataLen + 16) % 2 ^ 64) = false then .error (.returns oprtMallocFailed)
  else if input.length < 12 + dataLen + 16 then .error .outside
  else
    match env.gcm.decrypt env.aesKey (input.take 12) [] ((input.drop 12).take dataLen)
      ((input.drop (12 + dataLen)).take 16) with
    | .error rt => .error (.returns rt)
    | .ok output => .ok output

/-- `atop_response_data_decode`.  `strlen` of `NULL` leaves everything. -/
def atopResponseDataDecode (env : AtopResponseEnv) (input : List UInt8) :
    Except Stop (List UInt8) :=
  match env.cjson.parse (textOf input).1 with
  | none => .error (.returns oprtCjsonParseErr)
  | some root =>
      match env.cjson.getObjectItem root resultName with
      | none => .error (.returns oprtCjsonGetErr)
      | some item =>
          match valuestring item with
          | none => .error .outside
          | some value =>
              let b64bufferLen := value.length * 3 / 4
              match mbedtlsBase64Decode (env.alloc b64bufferLen) b64bufferLen value with
              | .error rt => .error (.returns rt)
              | .ok b64buffer => atopResponseResultDecrpyt env b64buffer

/-- `atop_base_response_t`. -/
structure AtopHttpResponse where
  success : Bool
  result : Option Json
  t : ℤ

/-- `atop_response_result_parse_cjson`. -/
def atopResponseResultParseCjson (env : AtopResponseEnv) (input : List UInt8)
    (response : AtopHttpResponse) : Except Stop (OperateRet × AtopHttpResponse) :=
  match env.cjson.parse (textOf input).1 with
  | none => .ok (oprtCjsonParseErr, response)
  | some root =>
      match env.cjson.getObjectItem root successName with
      | none => .ok (oprtCjsonGetErr, response)
      | some success =>
          let t := (env.cjson.getObjectItem root [0x74]).elim response.t valueint
          match success with
          | .bool true => .ok (oprtOk, ⟨true, env.cjson.getObjectItem root resultName, t⟩)
          | _ =>
              let response : AtopHttpResponse := ⟨false, none, t⟩
              match env.cjson.getObjectItem root errorCodeName with
              | none => .ok (oprtComError, response)
              | some item =>
                  match valuestring item with
                  | none => .error .outside
                  | some errorCode =>
                      .ok (if lower errorCode = lower gatewayNotExists
                        then oprtLinkCoreHttpGwNotExist else oprtOk, response)

/-- `atop_base_request` from the body of its HTTP response on. -/
def atopBaseResponse (env : AtopResponseEnv) (body : List UInt8) (response : AtopHttpResponse) :
    Except Stop (OperateRet × AtopHttpResponse) :=
  if env.alloc body.length = false then .ok (oprtMallocFailed, response)
  else
    match atopResponseDataDecode env body with
    | .error .outside => .error .outside
    | .error (.returns _) => atopResponseResultParseCjson env body response
    | .ok output => atopResponseResultParseCjson env output response

/-! ## What is promised -/

/-- The `result` of a body. -/
def resultOf (env : AtopResponseEnv) (body : List UInt8) : Option Json :=
  (env.cjson.parse (textOf body).1).bind (env.cjson.getObjectItem · resultName)

/-- The base64 of a text. -/
def decoded (env : AtopResponseEnv) (value : List UInt8) : Except OperateRet (List UInt8) :=
  mbedtlsBase64Decode (env.alloc (value.length * 3 / 4)) (value.length * 3 / 4) value

/-- A plaintext is what was encrypted under the key to the nonce, the ciphertext and the tag that
the result of the body holds. -/
def AuthenticPlaintext (env : AtopResponseEnv) (body plaintext : List UInt8) : Prop :=
  ∃ s nonce ct tag rest, resultOf env body = some (.string s) ∧
    decoded env (cstr s) = .ok (nonce ++ (ct ++ (tag ++ rest))) ∧
    nonce.length = 12 ∧ tag.length = 16 ∧
    ((nonce ++ (ct ++ (tag ++ rest))).length < 2 ^ 31 → rest = []) ∧
    env.gcm.encrypt env.aesKey nonce [] plaintext = .ok (ct, tag)

/-- A JSON text says that the request succeeded. -/
def SaysSuccess (env : AtopResponseEnv) (text : List UInt8) : Prop :=
  ∃ root, env.cjson.parse (textOf text).1 = some root ∧
    env.cjson.getObjectItem root successName = some (.bool true)

/-- The result, if there is one, is a string, and its base64 has no bytes or enough for a nonce and
a tag. -/
def ResultWhole (env : AtopResponseEnv) (body : List UInt8) : Prop :=
  ∀ item, resultOf env body = some item → ∃ value, valuestring item = some value ∧
    ∀ bytes, decoded env value = .ok bytes → bytes = [] ∨ 28 ≤ bytes.length ∧ bytes.length < 2 ^ 31

/-! ## Proofs -/

section

variable {env : AtopResponseEnv} {body : List UInt8}

theorem decrpyt_inside {input : List UInt8}
    (h : input = [] ∨ 28 ≤ input.length ∧ input.length < 2 ^ 31) :
    atopResponseResultDecrpyt env input ≠ .error .outside := by
  unfold atopResponseResultDecrpyt
  obtain rfl | ⟨hlong, hint⟩ := h
  · simp [toInt]
  · have hilen : toInt (input.length : ℤ) = input.length := toInt_of_lt hint
    have hdata : (((input.length : ℤ) - 12 - 16) % 2 ^ 64).toNat = input.length - 28 := by omega
    have hinside : ¬input.length < 12 + (input.length - 28) + 16 := by omega
    have hzero : ¬(input.length : ℤ) = 0 := by omega
    simp only [hilen, hdata, hinside, hzero, if_false]
    split
    · simp
    · split <;> simp

theorem decode_inside (h : ResultWhole env body) :
    atopResponseDataDecode env body ≠ .error .outside := by
  unfold ResultWhole resultOf at h
  unfold atopResponseDataDecode
  cases hparse : env.cjson.parse (textOf body).1 with
  | none => simp
  | some root =>
      cases hitem : env.cjson.getObjectItem root resultName with
      | none => simp [hitem]
      | some item =>
          obtain ⟨value, hvalue, hbytes⟩ := h item (by rw [hparse, Option.bind_some, hitem])
          simp only [hitem, hvalue]
          unfold decoded at hbytes
          cases hdecode : mbedtlsBase64Decode (env.alloc (value.length * 3 / 4))
              (value.length * 3 / 4) value with
          | error rt => simp
          | ok bytes => exact decrpyt_inside (hbytes bytes hdecode)

theorem decrpyt_authentic (hauth : env.gcm.Authentic) {input plaintext : List UInt8}
    (h : atopResponseResultDecrpyt env input = .ok plaintext) :
    ∃ nonce ct tag rest, input = nonce ++ (ct ++ (tag ++ rest)) ∧ nonce.length = 12 ∧
      tag.length = 16 ∧ (input.length < 2 ^ 31 → rest = []) ∧
      env.gcm.encrypt env.aesKey nonce [] plaintext = .ok (ct, tag) := by
  simp only [atopResponseResultDecrpyt] at h
  generalize hdata : ((toInt (input.length : ℤ) - 12 - 16) % 2 ^ 64).toNat = dataLen at h
  split_ifs at h with hzero hmem hshort
  refine ⟨input.take 12, (input.drop 12).take dataLen, (input.drop (12 + dataLen)).take 16,
    input.drop (12 + dataLen + 16), ?_, ?_, ?_, ?_, ?_⟩
  · have hnonce := List.take_append_drop 12 input
    have hct := List.take_append_drop dataLen (input.drop 12)
    have htag := List.take_append_drop 16 (input.drop (12 + dataLen))
    simp only [List.drop_drop] at hct htag
    rw [htag, hct, hnonce]
  · exact List.length_take_of_le (by omega)
  · exact List.length_take_of_le (by simp only [List.length_drop]; omega)
  · intro hint
    rw [toInt_of_lt hint] at hdata
    exact List.drop_eq_nil_of_le (by omega)
  · cases hdecrypt : env.gcm.decrypt env.aesKey (input.take 12) [] ((input.drop 12).take dataLen)
        ((input.drop (12 + dataLen)).take 16) with
    | error rt => simp [hdecrypt] at h
    | ok output =>
        obtain rfl : output = plaintext := by simpa [hdecrypt] using h
        exact hauth _ _ _ _ _ _ hdecrypt

theorem decode_authentic (hauth : env.gcm.Authentic) {plaintext : List UInt8}
    (h : atopResponseDataDecode env body = .ok plaintext) :
    AuthenticPlaintext env body plaintext := by
  unfold atopResponseDataDecode at h
  cases hparse : env.cjson.parse (textOf body).1 with
  | none => simp [hparse] at h
  | some root =>
      cases hitem : env.cjson.getObjectItem root resultName with
      | none => simp [hparse, hitem] at h
      | some item =>
          have hresult : resultOf env body = some item := by
            simp only [resultOf, hparse, Option.bind_some, hitem]
          cases item with
          | string s =>
              cases hdecode : decoded env (cstr s) with
              | error rt =>
                  unfold decoded at hdecode
                  simp [hparse, hitem, valuestring, hdecode] at h
              | ok input =>
                  have hplain : atopResponseResultDecrpyt env input = .ok plaintext := by
                    unfold decoded at hdecode
                    simpa only [hparse, hitem, valuestring, hdecode] using h
                  obtain ⟨nonce, ct, tag, rest, rfl, hnonce, htag, hrest, hencrypt⟩ :=
                    decrpyt_authentic hauth hplain
                  exact ⟨s, nonce, ct, tag, rest, hresult, hdecode, hnonce, htag, hrest, hencrypt⟩
          | _ => simp [hparse, hitem, valuestring] at h

theorem parse_success {input : List UInt8} {response response' : AtopHttpResponse}
    {rt : OperateRet}
    (h : atopResponseResultParseCjson env input response = .ok (rt, response'))
    (hold : response.success = false) (hnew : response'.success = true) :
    SaysSuccess env input := by
  unfold atopResponseResultParseCjson at h
  cases hparse : env.cjson.parse (textOf input).1 with
  | none =>
      obtain ⟨-, rfl⟩ : oprtCjsonParseErr = rt ∧ response = response' := by simpa [hparse] using h
      simp [hold] at hnew
  | some root =>
      cases hitem : env.cjson.getObjectItem root successName with
      | none =>
          obtain ⟨-, rfl⟩ : oprtCjsonGetErr = rt ∧ response = response' := by
            simpa [hparse, hitem] using h
          simp [hold] at hnew
      | some success =>
          refine ⟨root, hparse, ?_⟩
          by_cases htrue : success = .bool true
          · exact htrue ▸ hitem
          · -- without the item `true`, every way out has `success` cleared
            exfalso
            simp only [hparse, hitem] at h
            cases herror : env.cjson.getObjectItem root errorCodeName with
            | none =>
                simp only [herror, Except.ok.injEq, Prod.mk.injEq] at h
                simp [← h.2] at hnew
            | some item =>
                cases hcode : valuestring item with
                | none => simp [herror, hcode] at h
                | some errorCode =>
                    simp only [herror, hcode, Except.ok.injEq, Prod.mk.injEq] at h
                    simp [← h.2] at hnew

end

/-- No read leaves a result that is a string and decodes to no bytes or to enough of them, and a
success was told by an authenticated plaintext, or else by a body that no plaintext was got from. -/
theorem atop_response_authentic (env : AtopResponseEnv) (hauth : env.gcm.Authentic) :
    (∀ body, ResultWhole env body → atopResponseDataDecode env body ≠ .error .outside) ∧
      ∀ body response rt response', response.success = false →
        atopBaseResponse env body response = .ok (rt, response') → response'.success = true →
        (∃ plaintext, atopResponseDataDecode env body = .ok plaintext ∧
          AuthenticPlaintext env body plaintext ∧ SaysSuccess env plaintext) ∨
        (∃ rt', atopResponseDataDecode env body = .error (.returns rt')) ∧
          SaysSuccess env body := by
  refine ⟨fun body ↦ decode_inside, fun body response rt response' hold h hnew ↦ ?_⟩
  unfold atopBaseResponse at h
  split at h
  · obtain ⟨-, rfl⟩ : oprtMallocFailed = rt ∧ response = response' := by simpa using h
    simp [hold] at hnew
  · cases hdecode : atopResponseDataDecode env body with
    | ok plaintext =>
        simp only [hdecode] at h
        exact .inl ⟨plaintext, rfl, decode_authentic hauth hdecode, parse_success h hold hnew⟩
    | error stop =>
        cases stop with
        | outside => simp [hdecode] at h
        | returns rt' =>
            simp only [hdecode] at h
            exact .inr ⟨⟨rt', rfl⟩, parse_success h hold hnew⟩

/-- `{"success":true}`. -/
def successText : List UInt8 :=
  [0x7b, 0x22, 0x73, 0x75, 0x63, 0x63, 0x65, 0x73, 0x73, 0x22, 0x3a, 0x74, 0x72, 0x75, 0x65, 0x7d]

/-- What is encrypted of it under a key and a nonce of zeros. -/
def successEntry : Lan.GcmEntry where
  ad := []
  data := successText
  ct := [0x78, 0xaa, 0xa9, 0xbb, 0x03, 0xd5, 0xc6, 0xe1, 0x80, 0x0a, 0xf8, 0xcd, 0x03, 0xc7, 0x9b,
    0x05]
  tag := [0x90, 0xf1, 0x91, 0x36, 0x1b, 0x7d, 0xa5, 0x77, 0x70, 0x54, 0xbb, 0x33, 0x0c, 0x49, 0x46,
    0x03]

def successResult : List UInt8 :=
  Utilities.base64Encode (List.replicate 12 0 ++ (successEntry.ct ++ successEntry.tag))

/-- The body with `result` for its one member. -/
def successBody : List UInt8 :=
  [0x7b, 0x22] ++ resultName ++ [0x22, 0x3a, 0x22] ++ successResult ++ [0x22, 0x7d]

def sampleResponseEnv : AtopResponseEnv where
  cjson := {
    parse := fun s ↦
      if s = successText then some (.object [(successName, .bool true)])
      else if s = successBody then some (.object [(resultName, .string successResult)])
      else none
    getObjectItem := fun
      | .object members, key =>
        (members.find? fun member ↦ lower (cstr member.1) = lower key).map Prod.snd
      | _, _ => none }
  gcm := Lan.tableGcm (List.replicate 16 0) (List.replicate 12 0) [successEntry]
  alloc := fun _ ↦ true
  aesKey := List.replicate 16 0

theorem atop_response_authentic_sample :
    sampleResponseEnv.gcm.Authentic ∧
      atopBaseResponse sampleResponseEnv successBody ⟨false, none, 0⟩ =
        .ok (oprtOk, ⟨true, none, 0⟩) ∧
      atopResponseDataDecode sampleResponseEnv successBody ≠ .error .outside ∧
      ((∃ plaintext, atopResponseDataDecode sampleResponseEnv successBody = .ok plaintext ∧
          AuthenticPlaintext sampleResponseEnv successBody plaintext ∧
          SaysSuccess sampleResponseEnv plaintext) ∨
        (∃ rt', atopResponseDataDecode sampleResponseEnv successBody = .error (.returns rt')) ∧
          SaysSuccess sampleResponseEnv successBody) := by
  have hauth : sampleResponseEnv.gcm.Authentic := Lan.tableGcm_authentic (by decide)
  have hdecode : atopResponseDataDecode sampleResponseEnv successBody = .ok successText := by
    decide +kernel
  have hbody : atopBaseResponse sampleResponseEnv successBody ⟨false, none, 0⟩ =
      .ok (oprtOk, ⟨true, none, 0⟩) := by
    simp only [atopBaseResponse, hdecode]
    rfl
  have hwhole : ResultWhole sampleResponseEnv successBody := by
    intro item hitem
    have hresult : resultOf sampleResponseEnv successBody = some (.string successResult) := rfl
    obtain rfl : .string successResult = item := by simpa [hresult] using hitem
    refine ⟨cstr successResult, rfl, fun bytes hbytes ↦ .inr ?_⟩
    have h44 : decoded sampleResponseEnv (cstr successResult) =
        .ok (List.replicate 12 0 ++ (successEntry.ct ++ successEntry.tag)) := by
      decide +kernel
    obtain rfl := Except.ok.inj (h44.symm.trans hbytes)
    exact ⟨by decide, by decide⟩
  have h := atop_response_authentic sampleResponseEnv hauth
  exact ⟨hauth, hbody, h.1 successBody hwhole,
    h.2 successBody ⟨false, none, 0⟩ oprtOk ⟨true, none, 0⟩ rfl hbody rfl⟩

/-- A body that is no more than `{"success":true}` is taken, and nothing of it was encrypted. -/
theorem plain_success_taken :
    sampleResponseEnv.gcm.Authentic ∧
      atopBaseResponse sampleResponseEnv successText ⟨false, none, 0⟩ =
        .ok (oprtOk, ⟨true, none, 0⟩) ∧
      ¬∃ plaintext, AuthenticPlaintext sampleResponseEnv successText plaintext := by
  have hresult : resultOf sampleResponseEnv successText = none := by decide
  refine ⟨Lan.tableGcm_authentic (by decide), rfl, ?_⟩
  rintro ⟨plaintext, s, nonce, ct, tag, rest, hitem, -⟩
  simp [hresult] at hitem

end TuyaOpen.Cloud
