import TuyaOpen.Lan.Frame
import TuyaOpen.Lib.CStr
import TuyaOpen.Lib.JsonRead

/-!
# ATOP requests

`atop_base.c`: the URL of a request with its parameters and their signature, in a buffer of 255
bytes, and the body with the encrypted data in hexadecimal.
-/

namespace TuyaOpen.Cloud

open CStr (Text textOf textOf_append snprintfAt snprintfAt_append snprintfAt_isSome_iff)
open JsonRead (natText)
open Lan (Gcm)

def maxUrlLength : ℕ := 255

/-- How a function ends early: with a code, or by leaving its buffer. -/
inductive Stop
  | returns (rt : OperateRet)
  | outside
  deriving DecidableEq

/-! ## Printing with a check -/

/-- `snprintf` up to `stop`, which is a failure if the text does not fit. -/
def printAt (stop : ℕ) (s : List UInt8 × ℕ) (text : List UInt8) : Except Stop (List UInt8 × ℕ) :=
  match snprintfAt s.1 s.2 (stop - s.2) text with
  | none => .error .outside
  | some buffer =>
      if text.length < stop - s.2 then .ok (buffer, s.2 + text.length)
      else .error (.returns oprtBufferNotEnough)

def printAll (stop : ℕ) (s : List UInt8 × ℕ) (texts : List (List UInt8)) :
    Except Stop (List UInt8 × ℕ) :=
  texts.foldlM (printAt stop) s

/-- Fresh memory. -/
def fresh (n : ℕ) : List UInt8 × ℕ := (List.replicate n 0, 0)

def hexDigitText (letters : UInt8) (n : UInt8) : UInt8 := if n < 10 then 0x30 + n else letters + n

/-- Two hexadecimal digits. -/
def hexText (letters : UInt8) (b : UInt8) : List UInt8 :=
  [hexDigitText letters (b / 16), hexDigitText letters (b % 16)]

/-- `%02x`. -/
def hexLower : UInt8 → List UInt8 := hexText 0x57

/-- `%02X`. -/
def hexUpper : UInt8 → List UInt8 := hexText 0x37

/-! ## The request -/

/-- `atop_base_request_t`, with what the parameter checks let pass. -/
structure AtopBaseRequest where
  path : Text
  key : Text
  api : Text
  version : Option Text
  uuid : Option Text
  devid : Option Text
  timestamp : UInt32
  data : Option (List UInt8)
  path_ne : path.1 ≠ []
  key_ne : key.1 ≠ []
  api_ne : api.1 ≠ []
  data_ne : ∀ d ∈ data, d ≠ []

def AtopBaseRequest.datalen (request : AtopBaseRequest) : ℕ := (request.data.getD []).length

abbrev UrlParam := List UInt8 × List UInt8

/-- The parameters in their order: `a`, `devId`, `et`, `t`, `uuid`, `v`. -/
def AtopBaseRequest.params (request : AtopBaseRequest) : List UrlParam :=
  [([0x61], request.api.1)] ++
    request.devid.elim [] (fun devid ↦ [([0x64, 0x65, 0x76, 0x49, 0x64], devid.1)]) ++
    [([0x65, 0x74], [0x33]), ([0x74], natText request.timestamp.toNat)] ++
    request.uuid.elim [] (fun uuid ↦ [([0x75, 0x75, 0x69, 0x64], uuid.1)]) ++
    request.version.elim [] fun version ↦ [([0x76], version.1)]

inductive AtopAlloc
  | path
  | sign
  | body
  | encrypted

/-- What is around a request. -/
structure AtopEnv where
  mem : AtopAlloc → Bool
  md5 : List UInt8 → {digest : List UInt8 // digest.length = 16}
  gcm : Gcm
  gcm_lawful : gcm.Lawful
  nonce : {nonce : List UInt8 // nonce.length = 12}
  /-- What stands behind the key, of which 16 bytes are used. -/
  behindKey : List UInt8

/-! ## The URL -/

/-- `%s=%s&`. -/
def paramText (param : UrlParam) : List UInt8 := param.1 ++ 0x3d :: (param.2 ++ [0x26])

/-- `%s=%s||`. -/
def signParamText (param : UrlParam) : List UInt8 := param.1 ++ 0x3d :: (param.2 ++ [0x7c, 0x7c])

/-- `sign=`. -/
def signEq : List UInt8 := [0x73, 0x69, 0x67, 0x6e, 0x3d]

/-- `atop_url_params_sign`; `out` is a place in the buffer of the caller, whose end it is not
told. -/
def atopUrlParamsSign (env : AtopEnv) (key : List UInt8) (params : List UrlParam)
    (buffer : List UInt8) (out : ℕ) : Except Stop (List UInt8 × ℕ) := do
  if env.mem .sign = false then throw (.returns oprtMallocFailed)
  let text ← printAll 512 (fresh 512) (params.map signParamText ++ [key])
  let digest := env.md5 (text.1.take text.2)
  let sign ← printAll 33 (fresh 33) (digest.1.map hexLower)
  if out + (sign.2 + 1) ≤ buffer.length then
    return (buffer.splice out (sign.1.take sign.2 ++ [0]), sign.2)
  else
    throw .outside

/-- `atop_url_params_encode`, behind `start` in the buffer. -/
def atopUrlParamsEncode (env : AtopEnv) (key : List UInt8) (params : List UrlParam)
    (buffer : List UInt8) (start outLen : ℕ) : Except Stop (List UInt8 × ℕ) := do
  let s ← printAll (start + outLen) (buffer, start) (params.map paramText ++ [signEq])
  let (buffer, signLen) ← atopUrlParamsSign env key params s.1 s.2
  let printlen := s.2 + signLen
  if start + outLen ≤ printlen then throw (.returns oprtBufferNotEnough)
  return (buffer.set printlen 0, printlen)

/-- `atop_base_request` up to its URL. -/
def atopBaseUrl (env : AtopEnv) (request : AtopBaseRequest) : Except Stop (List UInt8) := do
  if env.mem .path = false then throw (.returns oprtMallocFailed)
  let s ← printAll maxUrlLength (fresh maxUrlLength) [request.path.1 ++ [0x3f]]
  let s ← atopUrlParamsEncode env request.key.1 request.params s.1 s.2 (maxUrlLength - s.2)
  return (textOf s.1).1

/-! ## The body -/

/-- `data=`. -/
def dataEq : List UInt8 := [0x64, 0x61, 0x74, 0x61, 0x3d]

def bodyBufferLen (datalen : ℕ) : ℕ := (5 + (datalen + 12 + 16) * 2 + 1) % 2 ^ 64

/-- Conversion to `int`. -/
def toInt (n : ℤ) : ℤ := (n + 2 ^ 31) % 2 ^ 32 - 2 ^ 31

/-- The 16 bytes from the key on. -/
def AtopEnv.aesKey (env : AtopEnv) (key : List UInt8) : List UInt8 :=
  (key ++ 0 :: env.behindKey).take 16

/-- `atop_request_data_encode`; the length of the data comes as an `int`. -/
def atopRequestDataEncode (env : AtopEnv) (key : List UInt8) (input : Option (List UInt8))
    (ilen : ℤ) (outputLen : ℕ) : Except Stop (List UInt8) := do
  match input with
  | none => throw (.returns oprtInvalidParm)
  | some input =>
      if ilen = 0 then throw (.returns oprtInvalidParm)
      let buflen := (toInt (12 + ilen + 16) % 2 ^ 64).toNat
      if env.mem .encrypted = false then throw (.returns oprtMallocFailed)
      if ilen < 0 ∨ (input.length : ℤ) < ilen then throw .outside
      match env.gcm.encrypt (env.aesKey key) env.nonce.1 [] (input.take ilen.toNat) with
      | .error e => throw (.returns e.1)
      | .ok (ct, tag) =>
          let encrypted := env.nonce.1 ++ (ct ++ tag)
          let s ← printAll outputLen (fresh outputLen)
            (dataEq :: (encrypted.take (toInt buflen).toNat).map hexUpper)
          if outputLen ≤ s.2 then throw (.returns oprtBufferNotEnough)
          return s.1.take s.2

/-- `atop_base_request` from its URL to the body that is sent. -/
def atopBaseBody (env : AtopEnv) (request : AtopBaseRequest) : Except Stop (List UInt8) := do
  if env.mem .body = false then throw (.returns oprtMallocFailed)
  atopRequestDataEncode env request.key.1 request.data (toInt request.datalen)
    (bodyBufferLen request.datalen)

/-! ## What is promised -/

/-- The text that is signed: the same parameters in the same order, and the key. -/
def atopSignText (request : AtopBaseRequest) : List UInt8 :=
  request.params.flatMap signParamText ++ request.key.1

/-- The URL up to its signature. -/
def atopUrlFront (request : AtopBaseRequest) : List UInt8 :=
  request.path.1 ++ 0x3f :: (request.params.flatMap paramText ++ signEq)

def atopUrlText (env : AtopEnv) (request : AtopBaseRequest) : List UInt8 :=
  atopUrlFront request ++ (env.md5 (atopSignText request)).1.flatMap hexLower

/-- The body is as long as its buffer but one byte: the hexadecimal text of the nonce, of all data
encrypted, and of the tag. -/
def BodyWhole (env : AtopEnv) (request : AtopBaseRequest) : Prop :=
  ∃ data ct tag body, request.data = some data ∧
    env.gcm.encrypt (env.aesKey request.key.1) env.nonce.1 [] data = .ok (ct, tag) ∧
    atopBaseBody env request = .ok body ∧
    body = dataEq ++ (env.nonce.1 ++ (ct ++ tag)).flatMap hexUpper ∧
    body.length + 1 = bodyBufferLen request.datalen

structure AtopSound (env : AtopEnv) (request : AtopBaseRequest) : Prop where
  inside : atopBaseUrl env request ≠ .error .outside
  faithful : ∀ url, atopBaseUrl env request = .ok url → url = atopUrlText env request
  body : ∀ url, atopBaseUrl env request = .ok url → env.mem .body = true →
    env.mem .encrypted = true → BodyWhole env request

/-- The signature has room, or is not written: there is no memory for the signed text, or that or
what stands in front of the signature is too long. -/
def SignRoom (env : AtopEnv) (request : AtopBaseRequest) : Prop :=
  (atopUrlFront request).length + 33 ≤ maxUrlLength ∨ maxUrlLength ≤ (atopUrlFront request).length ∨
    env.mem .path = false ∨ env.mem .sign = false ∨ 512 ≤ (atopSignText request).length

/-- The body is come to: the URL fits, and there is memory for everything. -/
def BodyReached (env : AtopEnv) (request : AtopBaseRequest) : Prop :=
  (atopUrlFront request).length + 33 ≤ maxUrlLength ∧ (atopSignText request).length < 512 ∧
    ∀ alloc, env.mem alloc = true

/-- The data are given, not too long for an `int`, and can be encrypted. -/
def DataFits (env : AtopEnv) (request : AtopBaseRequest) : Prop :=
  request.datalen + 28 < 2 ^ 31 ∧
    ∃ data out, request.data = some data ∧
      env.gcm.encrypt (env.aesKey request.key.1) env.nonce.1 [] data = .ok out

/-! ## Printing -/

theorem printAt_append {front rest text : List UInt8} {stop : ℕ}
    (hstop : stop ≤ (front ++ rest).length) (h : front.length + text.length < stop) :
    printAt stop (front ++ rest, front.length) text =
      .ok (front ++ text ++ 0 :: rest.drop (text.length + 1), (front ++ text).length) := by
  rw [List.length_append] at hstop
  have hroom : text.length < stop - front.length := by omega
  unfold printAt
  dsimp only
  rw [snprintfAt_append hroom (by omega)]
  dsimp only
  rw [if_pos hroom, List.length_append]

theorem printAt_full {front rest text : List UInt8} {stop : ℕ}
    (hstop : stop ≤ (front ++ rest).length) (hfront : front.length < stop)
    (h : stop ≤ front.length + text.length) :
    printAt stop (front ++ rest, front.length) text = .error (.returns oprtBufferNotEnough) := by
  have hsome : (snprintfAt (front ++ rest) front.length (stop - front.length) text).isSome := by
    rw [snprintfAt_isSome_iff (by omega)]
    omega
  obtain ⟨buffer, hbuffer⟩ := Option.isSome_iff_exists.mp hsome
  unfold printAt
  dsimp only
  rw [hbuffer]
  exact if_neg (by omega)

theorem printAll_append {stop : ℕ} (texts : List (List UInt8)) (front rest : List UInt8)
    (hstop : stop ≤ (front ++ rest).length) (h : front.length + texts.flatten.length < stop) :
    ∃ rest', printAll stop (front ++ rest, front.length) texts =
        .ok (front ++ texts.flatten ++ rest', (front ++ texts.flatten).length) ∧
      (front ++ texts.flatten ++ rest').length = (front ++ rest).length := by
  induction texts generalizing front rest with
  | nil => exact ⟨rest, by simp [printAll, pure, Except.pure], by simp⟩
  | cons text texts ih =>
      rw [List.flatten_cons, List.length_append] at h
      have hprint := @printAt_append front rest text stop hstop (by omega)
      have hlength : (front ++ text ++ 0 :: rest.drop (text.length + 1)).length =
          (front ++ rest).length := by
        simp only [List.length_append, List.length_cons, List.length_drop] at hstop ⊢
        omega
      obtain ⟨rest', hrun, hrest⟩ :=
        ih (front ++ text) (0 :: rest.drop (text.length + 1)) (hlength ▸ hstop)
        (by rw [List.length_append]; omega)
      refine ⟨rest', ?_, ?_⟩
      · unfold printAll at hrun ⊢
        rw [List.foldlM_cons, hprint, List.flatten_cons, ← List.append_assoc, ← hrun]
        rfl
      · rw [List.flatten_cons, ← List.append_assoc, hrest, hlength]

theorem printAll_full {stop : ℕ} (texts : List (List UInt8)) (front rest : List UInt8)
    (hstop : stop ≤ (front ++ rest).length) (hfront : front.length < stop)
    (h : stop ≤ front.length + texts.flatten.length) :
    printAll stop (front ++ rest, front.length) texts =
      .error (.returns oprtBufferNotEnough) := by
  induction texts generalizing front rest with
  | nil =>
      rw [List.flatten_nil, List.length_nil] at h
      omega
  | cons text texts ih =>
      rw [List.flatten_cons, List.length_append] at h
      unfold printAll at ih ⊢
      rw [List.foldlM_cons]
      by_cases htext : front.length + text.length < stop
      · have hlength : (front ++ text ++ 0 :: rest.drop (text.length + 1)).length =
            (front ++ rest).length := by
          simp only [List.length_append, List.length_cons, List.length_drop] at hstop ⊢
          omega
        rw [printAt_append hstop htext]
        exact ih (front ++ text) _ (hlength ▸ hstop) (by rwa [List.length_append])
          (by rw [List.length_append]; omega)
      · rw [printAt_full hstop hfront (by omega)]
        rfl

theorem printAll_fresh {n : ℕ} (texts : List (List UInt8)) (h : texts.flatten.length < n) :
    ∃ rest, printAll n (fresh n) texts = .ok (texts.flatten ++ rest, texts.flatten.length) ∧
      (texts.flatten ++ rest).length = n := by
  simpa [fresh] using printAll_append texts [] (List.replicate n 0) (by simp)
    (by simpa using h)

theorem printAll_fresh_full {n : ℕ} (texts : List (List UInt8)) (hn : 0 < n)
    (h : n ≤ texts.flatten.length) :
    printAll n (fresh n) texts = .error (.returns oprtBufferNotEnough) := by
  simpa [fresh] using printAll_full texts [] (List.replicate n 0) (by simp)
    (by simpa using hn) (by simpa using h)

@[simp] theorem length_hexText (letters : UInt8) (bytes : List UInt8) :
    (bytes.flatMap (hexText letters)).length = 2 * bytes.length := by
  induction bytes with
  | nil => rfl
  | cons b bytes ih =>
      rw [List.flatMap_cons, List.length_append, ih]
      simp [hexText]
      omega

/-! ## The signature -/

section Url

variable {env : AtopEnv} {request : AtopBaseRequest}

theorem length_digest (env : AtopEnv) (text : List UInt8) :
    ((env.md5 text).1.flatMap hexLower).length = 32 := by
  have hlength := length_hexText 0x57 (env.md5 text).1
  rwa [(env.md5 text).2] at hlength

theorem flatten_signTexts (key : List UInt8) (params : List UrlParam) :
    (params.map signParamText ++ [key]).flatten = params.flatMap signParamText ++ key := by
  simp [List.flatMap]

/-- The signature is written without a look at the room behind `out`. -/
theorem atopUrlParamsSign_eq (hmem : env.mem .sign = true) {key buffer : List UInt8}
    {params : List UrlParam} {out : ℕ}
    (htext : (params.flatMap signParamText ++ key).length < 512) :
    atopUrlParamsSign env key params buffer out =
      if out + 33 ≤ buffer.length then
        .ok (buffer.splice out
          ((env.md5 (params.flatMap signParamText ++ key)).1.flatMap hexLower ++ [0]), 32)
      else .error .outside := by
  have hflat := flatten_signTexts key params
  obtain ⟨rest, htexts, -⟩ := printAll_fresh (n := 512) _ (hflat ▸ htext)
  rw [hflat] at htexts
  have hsign := length_digest env (params.flatMap signParamText ++ key)
  obtain ⟨rest', hdigest, -⟩ := printAll_fresh (n := 33)
    ((env.md5 (params.flatMap signParamText ++ key)).1.map hexLower)
    (by rw [← List.flatMap, hsign]; omega)
  rw [← List.flatMap] at hdigest
  unfold atopUrlParamsSign
  simp only [hmem, Bool.true_eq_false, if_false, htexts, bind, Except.bind, pure, Except.pure,
    throw, throwThe, MonadExceptOf.throw, List.take_left, hdigest, hsign]
  rw [List.take_left' hsign]

theorem atopUrlParamsSign_full (hmem : env.mem .sign = true) {key buffer : List UInt8}
    {params : List UrlParam} {out : ℕ}
    (htext : 512 ≤ (params.flatMap signParamText ++ key).length) :
    atopUrlParamsSign env key params buffer out = .error (.returns oprtBufferNotEnough) := by
  have hflat := flatten_signTexts key params
  have htexts := printAll_fresh_full (n := 512) _ (by decide) (hflat ▸ htext)
  unfold atopUrlParamsSign
  simp only [hmem, Bool.true_eq_false, if_false, htexts, bind, Except.bind]

/-! ## The URL -/

theorem flatten_urlTexts (params : List UrlParam) :
    (params.map paramText ++ [signEq]).flatten = params.flatMap paramText ++ signEq := by
  simp [List.flatMap]

theorem atopBaseUrl_of_lt (hmem : env.mem .path = true)
    (h : (atopUrlFront request).length < maxUrlLength) :
    ∃ rest, (atopUrlFront request ++ rest).length = maxUrlLength ∧
      atopBaseUrl env request =
        match atopUrlParamsSign env request.key.1 request.params (atopUrlFront request ++ rest)
          (atopUrlFront request).length with
        | .error e => .error e
        | .ok (buffer, signLen) =>
            if maxUrlLength ≤ (atopUrlFront request).length + signLen then
              .error (.returns oprtBufferNotEnough)
            else .ok (textOf (buffer.set ((atopUrlFront request).length + signLen) 0)).1 := by
  have hfront : atopUrlFront request =
      (request.path.1 ++ [0x3f]) ++ (request.params.map paramText ++ [signEq]).flatten := by
    rw [flatten_urlTexts]
    simp [atopUrlFront]
  have hlength := congrArg List.length hfront
  rw [List.length_append] at hlength
  obtain ⟨rest, hpath, hrest⟩ := printAll_fresh (n := maxUrlLength)
    [request.path.1 ++ [0x3f]] (by rw [List.flatten_singleton]; omega)
  rw [List.flatten_singleton] at hpath hrest
  obtain ⟨rest', hparams, hrest'⟩ := @printAll_append maxUrlLength
    (request.params.map paramText ++ [signEq]) (request.path.1 ++ [0x3f]) rest (by omega) (by omega)
  have hstop : (request.path.1 ++ [0x3f]).length +
      (maxUrlLength - (request.path.1 ++ [0x3f]).length) = maxUrlLength := by omega
  rw [← hfront] at hparams hrest'
  refine ⟨rest', hrest'.trans hrest, ?_⟩
  unfold atopBaseUrl atopUrlParamsEncode
  simp only [hmem, Bool.true_eq_false, if_false, hpath, hstop, hparams, bind, Except.bind, pure,
    Except.pure, throw, throwThe, MonadExceptOf.throw]
  cases atopUrlParamsSign env request.key.1 request.params (atopUrlFront request ++ rest')
      (atopUrlFront request).length with
  | error e => rfl
  | ok out =>
      by_cases hlength : maxUrlLength ≤ (atopUrlFront request).length + out.2 <;> simp [hlength]

theorem atopBaseUrl_full (hmem : env.mem .path = true)
    (h : maxUrlLength ≤ (atopUrlFront request).length) :
    atopBaseUrl env request = .error (.returns oprtBufferNotEnough) := by
  have hfront : atopUrlFront request =
      (request.path.1 ++ [0x3f]) ++ (request.params.map paramText ++ [signEq]).flatten := by
    rw [flatten_urlTexts]
    simp [atopUrlFront]
  have hlength := congrArg List.length hfront
  rw [List.length_append] at hlength
  by_cases hpath : (request.path.1 ++ [0x3f]).length < maxUrlLength
  · obtain ⟨rest, hrun, hrest⟩ := printAll_fresh (n := maxUrlLength)
      [request.path.1 ++ [0x3f]] (by rwa [List.flatten_singleton])
    rw [List.flatten_singleton] at hrun hrest
    have hparams := @printAll_full maxUrlLength
      (request.params.map paramText ++ [signEq]) (request.path.1 ++ [0x3f]) rest (by omega) hpath
      (by omega)
    have hstop : (request.path.1 ++ [0x3f]).length +
        (maxUrlLength - (request.path.1 ++ [0x3f]).length) = maxUrlLength := by omega
    unfold atopBaseUrl atopUrlParamsEncode
    simp only [hmem, Bool.true_eq_false, if_false, hrun, hstop, hparams, bind, Except.bind]
  · have hrun := printAll_fresh_full (n := maxUrlLength) [request.path.1 ++ [0x3f]]
      (by decide) (by rw [List.flatten_singleton]; omega)
    unfold atopBaseUrl
    simp only [hmem, Bool.true_eq_false, if_false, hrun, bind, Except.bind]

theorem hexDigitText_ne_zero {letters n : UInt8} (hletters : letters = 0x57 ∨ letters = 0x37)
    (hn : n.toNat < 16) : hexDigitText letters n ≠ 0 := by
  have hall : ∀ m < 16, hexDigitText 0x57 (UInt8.ofNat m) ≠ 0 ∧
      hexDigitText 0x37 (UInt8.ofNat m) ≠ 0 := by decide
  have hdigit := hall n.toNat hn
  rw [UInt8.ofNat_toNat] at hdigit
  obtain rfl | rfl := hletters
  · exact hdigit.1
  · exact hdigit.2

theorem zero_notMem_hexLower (bytes : List UInt8) : 0 ∉ bytes.flatMap hexLower := by
  intro h
  obtain ⟨b, -, hb⟩ := List.mem_flatMap.mp h
  have hhigh : (b / 16).toNat < 16 := by
    rw [UInt8.toNat_div]
    have hlt := b.toNat_lt
    simp
    omega
  have hlow : (b % 16).toNat < 16 := by
    rw [UInt8.toNat_mod]
    exact Nat.mod_lt _ (by decide)
  simp only [hexLower, hexText, List.mem_cons, List.not_mem_nil, or_false] at hb
  obtain hb | hb := hb
  · exact hexDigitText_ne_zero (.inl rfl) hhigh hb.symm
  · exact hexDigitText_ne_zero (.inl rfl) hlow hb.symm

theorem zero_notMem_natText (n : ℕ) : 0 ∉ natText n := by
  intro h
  have hdigit := JsonRead.natText_digits n 0 h
  unfold JsonText.IsDigit at hdigit
  revert hdigit
  decide

theorem zero_notMem_atopUrlText : 0 ∉ atopUrlText env request := by
  have htext : ∀ t : Text, 0 ∉ t.1 := Subtype.prop
  have hparams : ∀ param ∈ request.params, 0 ∉ paramText param := by
    have htime := zero_notMem_natText request.timestamp.toNat
    unfold AtopBaseRequest.params paramText
    cases request.devid <;> cases request.uuid <;> cases request.version <;>
      simp [htext, htime]
  have hflat : 0 ∉ request.params.flatMap paramText := by
    intro h
    obtain ⟨param, hparam, hzero⟩ := List.mem_flatMap.mp h
    exact hparams param hparam hzero
  have hsign := zero_notMem_hexLower (env.md5 (atopSignText request)).1
  unfold atopUrlText atopUrlFront
  simp only [List.mem_append, List.mem_cons, not_or]
  exact ⟨⟨htext _, by decide, hflat, by decide⟩, hsign⟩

theorem atopBaseUrl_signed (hpath : env.mem .path = true) (hsign : env.mem .sign = true)
    (htext : (atopSignText request).length < 512)
    (h : (atopUrlFront request).length + 33 ≤ maxUrlLength) :
    atopBaseUrl env request = .ok (atopUrlText env request) := by
  have hfront : (atopUrlFront request).length < maxUrlLength := by omega
  obtain ⟨rest, hrest, hurl⟩ := atopBaseUrl_of_lt hpath hfront
  have hdigest := length_digest env (atopSignText request)
  rw [hurl, atopUrlParamsSign_eq hsign htext, if_pos (by omega)]
  dsimp only
  rw [if_neg (by omega)]
  have hlength : 33 ≤ rest.length := by
    rw [List.length_append] at hrest
    omega
  have hbuffer : (((atopUrlFront request ++ rest).splice (atopUrlFront request).length
      ((env.md5 (atopSignText request)).1.flatMap hexLower ++ [0])).set
        ((atopUrlFront request).length + 32) 0) =
      atopUrlText env request ++ 0 :: rest.drop 33 := by
    have hsplice : (atopUrlFront request ++ rest).splice (atopUrlFront request).length
        ((env.md5 (atopSignText request)).1.flatMap hexLower ++ [0]) =
          atopUrlText env request ++ 0 :: rest.drop 33 := by
      simp [List.splice, hdigest, atopUrlText]
    have hplace : (atopUrlFront request).length + 32 = (atopUrlText env request).length := by
      rw [atopUrlText, List.length_append, hdigest]
    rw [hsplice, hplace, List.set_append_right _ _ (Nat.le_refl _), Nat.sub_self]
    rfl
  have hsigned : request.params.flatMap signParamText ++ request.key.1 = atopSignText request := rfl
  rw [hsigned, hbuffer, textOf_append ⟨_, zero_notMem_atopUrlText⟩]

theorem atopBaseUrl_outside (h : ¬SignRoom env request) :
    atopBaseUrl env request = .error .outside := by
  simp only [SignRoom, not_or, Bool.not_eq_false, Nat.not_le] at h
  obtain ⟨hroom, hfront, hpath, hsign, htext⟩ := h
  obtain ⟨rest, hrest, hurl⟩ := atopBaseUrl_of_lt hpath hfront
  rw [hurl, atopUrlParamsSign_eq hsign htext, if_neg (by omega)]

theorem atopBaseUrl_cases (h : SignRoom env request) :
    (∃ rt, atopBaseUrl env request = .error (.returns rt)) ∨
      atopBaseUrl env request = .ok (atopUrlText env request) ∧
        (atopUrlFront request).length + 33 ≤ maxUrlLength ∧ (atopSignText request).length < 512 ∧
          env.mem .path = true ∧ env.mem .sign = true := by
  by_cases hpath : env.mem .path = false
  · exact .inl ⟨oprtMallocFailed, by simp [atopBaseUrl, hpath, bind, Except.bind, throw, throwThe,
      MonadExceptOf.throw]⟩
  rw [Bool.not_eq_false] at hpath
  by_cases hfront : maxUrlLength ≤ (atopUrlFront request).length
  · exact .inl ⟨_, atopBaseUrl_full hpath hfront⟩
  obtain ⟨rest, hrest, hurl⟩ := atopBaseUrl_of_lt hpath (Nat.lt_of_not_le hfront)
  by_cases hsign : env.mem .sign = false
  · refine .inl ⟨oprtMallocFailed, ?_⟩
    simp [hurl, atopUrlParamsSign, hsign, bind, Except.bind, throw, throwThe, MonadExceptOf.throw]
  rw [Bool.not_eq_false] at hsign
  by_cases htext : 512 ≤ (atopSignText request).length
  · exact .inl ⟨oprtBufferNotEnough, by rw [hurl, atopUrlParamsSign_full hsign htext]⟩
  have hroom : (atopUrlFront request).length + 33 ≤ maxUrlLength := by
    simpa [SignRoom, hpath, hfront, hsign, htext] using h
  exact .inr ⟨atopBaseUrl_signed hpath hsign (Nat.lt_of_not_le htext) hroom, hroom,
    Nat.lt_of_not_le htext, hpath, hsign⟩

end Url

/-! ## The body -/

section Body

variable {env : AtopEnv} {request : AtopBaseRequest}

theorem flatten_bodyTexts (bytes : List UInt8) :
    (dataEq :: bytes.map hexUpper).flatten = dataEq ++ bytes.flatMap hexUpper := by
  simp [List.flatMap]

theorem length_bodyText (bytes : List UInt8) :
    (dataEq ++ bytes.flatMap hexUpper).length = 5 + 2 * bytes.length := by
  rw [List.length_append, hexUpper, length_hexText]
  rfl

theorem toInt_of_lt {n : ℕ} (h : n < 2 ^ 31) : toInt n = n := by
  unfold toInt
  omega

theorem bodyWhole_of_fits (h : DataFits env request) (hbody : env.mem .body = true)
    (hencrypted : env.mem .encrypted = true) : BodyWhole env request := by
  obtain ⟨hlen, data, ⟨ct, tag⟩, hdata, hencrypt⟩ := h
  obtain ⟨hct, htag, -⟩ := env.gcm_lawful _ _ _ _ _ _ hencrypt
  have hdatalen : request.datalen = data.length := by simp [AtopBaseRequest.datalen, hdata]
  have hne : 0 < data.length := List.length_pos_iff.mpr (request.data_ne data hdata)
  rw [hdatalen] at hlen
  have hilen : toInt (data.length : ℤ) = data.length := toInt_of_lt (by omega)
  have hbuflen : (toInt (12 + (data.length : ℤ) + 16) % 2 ^ 64).toNat = data.length + 28 := by
    unfold toInt
    omega
  have hcount : (toInt ((data.length + 28 : ℕ) : ℤ)).toNat = data.length + 28 := by
    rw [toInt_of_lt hlen, Int.toNat_natCast]
  have hwhole : (env.nonce.1 ++ (ct ++ tag)).length = data.length + 28 := by
    simp only [List.length_append, env.nonce.2, hct, htag, Lan.lpv35FrameTagSize]
    omega
  have hoffset : 5 + (data.length + 12 + 16) * 2 + 1 < 2 ^ 64 := by omega
  have hbufferLen : bodyBufferLen data.length = 5 + 2 * (data.length + 28) + 1 := by
    rw [bodyBufferLen, Nat.mod_eq_of_lt hoffset]
    omega
  have hflat := flatten_bodyTexts (env.nonce.1 ++ (ct ++ tag))
  have htext := length_bodyText (env.nonce.1 ++ (ct ++ tag))
  rw [hwhole] at htext
  obtain ⟨rest, hprint, -⟩ := printAll_fresh (n := bodyBufferLen data.length)
    (dataEq :: (env.nonce.1 ++ (ct ++ tag)).map hexUpper) (by rw [hflat, htext]; omega)
  rw [hflat, htext] at hprint
  have hall : (env.nonce.1 ++ (ct ++ tag)).take (data.length + 28) = env.nonce.1 ++ (ct ++ tag) :=
    List.take_of_length_le hwhole.le
  have hinside : ¬((data.length : ℤ) < 0 ∨ (data.length : ℤ) < data.length) := by omega
  have hnonzero : ¬(data.length : ℤ) = 0 := by omega
  have hroom : ¬bodyBufferLen data.length ≤ 5 + 2 * (data.length + 28) := by omega
  refine ⟨data, ct, tag, _, hdata, hencrypt, ?_, rfl, ?_⟩
  · unfold atopBaseBody atopRequestDataEncode
    simp only [hbody, Bool.true_eq_false, if_false, hdata, hdatalen, hilen, hnonzero, hbuflen,
      hencrypted, hinside, Int.toNat_natCast, List.take_length, hencrypt, hcount, hall, hprint,
      hroom, bind, Except.bind, pure, Except.pure, List.take_left' htext]
  · rw [htext, hdatalen, hbufferLen]

theorem length_body_le {body : List UInt8} (h : atopBaseBody env request = .ok body) :
    body.length ≤ 5 + 2 * (2 ^ 31 - 1) := by
  have htext : ∀ (n k : ℕ) (bytes : List UInt8) (s : List UInt8 × ℕ), k < 2 ^ 31 →
      printAll n (fresh n) (dataEq :: (bytes.take k).map hexUpper) = .ok s →
      (s.1.take s.2).length ≤ 5 + 2 * (2 ^ 31 - 1) := by
    intro n k bytes s hk hprint
    have hlength := length_bodyText (bytes.take k)
    rw [← flatten_bodyTexts] at hlength
    obtain rfl | hn := Nat.eq_zero_or_pos n
    · cases hprint
    by_cases hroom : (dataEq :: (bytes.take k).map hexUpper).flatten.length < n
    · obtain ⟨rest, hrun, -⟩ := printAll_fresh _ hroom
      obtain rfl := Except.ok.inj (hrun.symm.trans hprint)
      rw [List.take_left, hlength, List.length_take]
      omega
    · rw [printAll_fresh_full _ hn (Nat.le_of_not_lt hroom)] at hprint
      cases hprint
  have hcount : ∀ n : ℕ, (toInt n).toNat < 2 ^ 31 := by
    intro n
    unfold toInt
    omega
  unfold atopBaseBody atopRequestDataEncode at h
  simp only [bind, Except.bind, pure, Except.pure, throw, throwThe, MonadExceptOf.throw] at h
  by_cases hbody : env.mem .body = false
  · simp [hbody] at h
  cases hdata : request.data with
  | none => simp [hbody, hdata] at h
  | some data =>
      by_cases hzero : toInt request.datalen = 0
      · simp [hbody, hdata, hzero] at h
      by_cases hencrypted : env.mem .encrypted = false
      · simp [hbody, hdata, hzero, hencrypted] at h
      by_cases hinside : toInt request.datalen < 0 ∨ (data.length : ℤ) < toInt request.datalen
      · simp [hbody, hdata, hzero, hencrypted, hinside] at h
      simp only [hbody, hdata, hzero, hencrypted, hinside, if_false] at h
      cases hencrypt : env.gcm.encrypt (env.aesKey request.key.1) env.nonce.1 []
          (data.take (toInt request.datalen).toNat) with
      | error e => simp [hencrypt] at h
      | ok out =>
          simp only [hencrypt] at h
          generalize hprint : printAll _ _ _ = printed at h
          cases printed with
          | error e => simp at h
          | ok s =>
              by_cases hroom : bodyBufferLen request.datalen ≤ s.2
              · simp [hroom] at h
              · obtain rfl : s.1.take s.2 = body := by simpa [hroom] using h
                exact htext _ _ _ s (hcount _) hprint

theorem fits_of_bodyWhole (h : BodyWhole env request) : DataFits env request := by
  obtain ⟨data, ct, tag, body, hdata, hencrypt, hbody, htext, -⟩ := h
  obtain ⟨hct, htag, -⟩ := env.gcm_lawful _ _ _ _ _ _ hencrypt
  refine ⟨?_, data, _, hdata, hencrypt⟩
  have hle := length_body_le hbody
  rw [htext, length_bodyText] at hle
  simp only [List.length_append, env.nonce.2, hct, htag, Lan.lpv35FrameTagSize] at hle
  have hdatalen : request.datalen = data.length := by simp [AtopBaseRequest.datalen, hdata]
  omega

end Body

/-- The request stays in its buffers and is faithful if the signature has room and the data fit. -/
theorem atop_request_iff (env : AtopEnv) (request : AtopBaseRequest) :
    AtopSound env request ↔
      SignRoom env request ∧ (BodyReached env request → DataFits env request) := by
  have hreached : ∀ hreached : BodyReached env request,
      atopBaseUrl env request = .ok (atopUrlText env request) :=
    fun ⟨hfront, htext, hmem⟩ ↦ atopBaseUrl_signed (hmem .path) (hmem .sign) htext hfront
  constructor
  · intro h
    refine ⟨?_, fun hbody ↦ ?_⟩
    · by_contra hroom
      exact h.inside (atopBaseUrl_outside hroom)
    · exact fits_of_bodyWhole (h.body _ (hreached hbody) (hbody.2.2 .body) (hbody.2.2 .encrypted))
  · rintro ⟨hroom, hdata⟩
    obtain ⟨rt, hrt⟩ | ⟨hurl, hfront, htext, hpath, hsign⟩ := atopBaseUrl_cases hroom
    · exact ⟨by simp [hrt], by simp [hrt], by simp [hrt]⟩
    · refine ⟨by simp [hurl], fun url h ↦ (Except.ok.inj (hurl.symm.trans h)).symm, ?_⟩
      intro url _ hbody hencrypted
      refine bodyWhole_of_fits (hdata ⟨hfront, htext, fun alloc ↦ ?_⟩) hbody hencrypted
      cases alloc with
      | path => exact hpath
      | sign => exact hsign
      | body => exact hbody
      | encrypted => exact hencrypted

/-- A request to `/d.json` with two braces as its data. -/
def sampleRequest (api : Text) (api_ne : api.1 ≠ []) : AtopBaseRequest where
  path := ⟨[0x2f, 0x64, 0x2e, 0x6a, 0x73, 0x6f, 0x6e], by decide⟩
  key := ⟨List.replicate 16 0x6b, fun h ↦ absurd (List.eq_of_mem_replicate h) (by decide)⟩
  api := api
  version := none
  uuid := none
  devid := none
  timestamp := 0
  data := some [0x7b, 0x7d]
  path_ne := by simp
  key_ne := List.cons_ne_nil _ _
  api_ne := api_ne
  data_ne := by simp

/-- `tuya.device.reset`. -/
def resetApi : AtopBaseRequest :=
  sampleRequest ⟨[0x74, 0x75, 0x79, 0x61, 0x2e, 0x64, 0x65, 0x76, 0x69, 0x63, 0x65, 0x2e, 0x72,
    0x65, 0x73, 0x65, 0x74], by decide⟩ (List.cons_ne_nil _ _)

/-- An API of two hundred letters a. -/
def longApi : AtopBaseRequest :=
  sampleRequest ⟨List.replicate 200 0x61, fun h ↦ absurd (List.eq_of_mem_replicate h) (by decide)⟩
    (List.cons_ne_nil _ _)

def resetDigest : List UInt8 :=
  [0xb2, 0xa5, 0x14, 0x17, 0xa8, 0xc0, 0xb5, 0x64, 0x7f, 0x93, 0x49, 0x6b, 0xac, 0x3f, 0x00, 0x18]

def longDigest : List UInt8 :=
  [0x81, 0x2c, 0x5f, 0xc3, 0xf6, 0x30, 0x03, 0x4c, 0xad, 0xda, 0xad, 0xba, 0xd5, 0xac, 0xf8, 0x4a]

theorem length_resetDigest : resetDigest.length = 16 := rfl

theorem length_longDigest : longDigest.length = 16 := rfl

/-- MD5 on the texts of these requests. -/
def sampleAtopEnv : AtopEnv where
  mem _ := true
  md5 text :=
    if text = atopSignText resetApi then ⟨resetDigest, length_resetDigest⟩
    else if text = atopSignText longApi then ⟨longDigest, length_longDigest⟩
    else ⟨List.replicate 16 0, List.length_replicate⟩
  gcm := Lan.aesGcm
  gcm_lawful := Lan.aesGcm_lawful
  nonce := ⟨List.replicate 12 0x30, List.length_replicate⟩
  behindKey := []

theorem params_sampleRequest (api : Text) (api_ne : api.1 ≠ []) :
    (sampleRequest api api_ne).params =
      [([0x61], api.1), ([0x65, 0x74], [0x33]), ([0x74], [0x30])] := by
  have hnat : natText ((sampleRequest api api_ne).timestamp.toNat) = [0x30] := by
    change natText 0 = [0x30]
    decide
  rw [AtopBaseRequest.params, hnat]
  rfl

theorem length_atopUrlFront_sampleRequest (api : Text) (api_ne : api.1 ≠ []) :
    (atopUrlFront (sampleRequest api api_ne)).length = api.1.length + 25 := by
  have hpath : (sampleRequest api api_ne).path.1.length = 7 := rfl
  rw [atopUrlFront, params_sampleRequest]
  simp only [List.flatMap_cons, List.flatMap_nil, paramText, signEq, List.length_append,
    List.length_cons, List.length_nil, hpath]
  omega

theorem length_atopSignText_sampleRequest (api : Text) (api_ne : api.1 ≠ []) :
    (atopSignText (sampleRequest api api_ne)).length = api.1.length + 31 := by
  have hkey : (sampleRequest api api_ne).key.1.length = 16 := List.length_replicate
  rw [atopSignText, params_sampleRequest]
  simp only [List.flatMap_cons, List.flatMap_nil, signParamText, List.length_append,
    List.length_cons, List.length_nil, hkey]
  omega

/-- The request is signed, and its data are sent. -/
theorem atop_request_reset : AtopSound sampleAtopEnv resetApi ∧
    atopBaseUrl sampleAtopEnv resetApi =
      .ok (atopUrlFront resetApi ++ resetDigest.flatMap hexLower) := by
  have hfront : (atopUrlFront resetApi).length + 33 ≤ maxUrlLength := by
    rw [resetApi, length_atopUrlFront_sampleRequest]
    decide
  have htext : (atopSignText resetApi).length < 512 := by
    rw [resetApi, length_atopSignText_sampleRequest]
    decide
  have hkey : (sampleAtopEnv.aesKey resetApi.key.1).length = 16 := by decide
  have hnonce : sampleAtopEnv.nonce.1.length = Lan.lpv35FrameNonceSize := List.length_replicate
  obtain ⟨ct, tag, hencrypt⟩ := Lan.aesGcm_encrypts hkey hnonce [] [0x7b, 0x7d]
  have hsound := (atop_request_iff sampleAtopEnv resetApi).mpr
    ⟨.inl hfront, fun _ ↦ ⟨by decide, _, _, rfl, hencrypt⟩⟩
  refine ⟨hsound, ?_⟩
  rw [atopBaseUrl_signed rfl rfl htext hfront, atopUrlText, sampleAtopEnv]
  dsimp only
  rw [if_pos rfl]

/-- The signature of a long request is written behind the buffer. -/
theorem long_api_leaves_buffer : ¬AtopSound sampleAtopEnv longApi := by
  have hfront : (atopUrlFront longApi).length = 225 := by
    rw [longApi, length_atopUrlFront_sampleRequest, List.length_replicate]
  have htext : (atopSignText longApi).length = 231 := by
    rw [longApi, length_atopSignText_sampleRequest, List.length_replicate]
  intro h
  refine h.inside (atopBaseUrl_outside ?_)
  simp [SignRoom, hfront, htext, maxUrlLength, sampleAtopEnv]

end TuyaOpen.Cloud
