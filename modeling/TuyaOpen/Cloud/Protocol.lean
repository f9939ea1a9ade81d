import TuyaOpen.Lan.Codec
import TuyaOpen.Lib.CStr
import TuyaOpen.Schema.DpReportOut

/-!
# Payloads of the two protocols, `tuya_protocol.c`

`tuya_pack_protocol_data` wraps a text in JSON, and puts it behind the head of
PV2.3, encrypted, or of LPV3.5, as it is.  `tuya_parse_protocol_data` takes it
out again, by one check of the length for both.

An access outside the bytes of the payload, and an overflow of an `int`, have
no result here.
-/

namespace TuyaOpen.Protocol

open Bytes Lan Schema

def dpCmdLan : ℕ := 0
def dpCmdMq : ℕ := 1

/-- `"2.3"` and `"3.5"`. -/
def tuyaPv23 : List UInt8 := [50, 46, 51]
def tuyaLpv35 : List UInt8 := [51, 46, 53]

/-! ## Parsing -/

/-- What was asked for with `tal_malloc`, and what is returned: the bytes of
`out_data` with the zero behind them. -/
structure ParseOut where
  alloc : ℕ
  result : Except OperateRet (List UInt8)

def parseDataWithPv23 (gcm : Gcm) (malloc : ℕ → Bool) (key data : List UInt8) (len : ℕ) :
    Option ParseOut :=
  if data.length < 3 then none
  else if data.take 3 ≠ tuyaPv23 then some ⟨0, .error oprtVersionFmtErr⟩
  else if data.length < 12 then none
  else if (data.drop 11).take 1 ≠ [0] then some ⟨0, .error oprtVersionFmtErr⟩
  else
    let dataLen := u32 (len - 40)
    let size := (dataLen + 1) % 2 ^ 32
    let tagAt := u32 (len - 16)
    if malloc size = false then some ⟨size, .error oprtMallocFailed⟩
    else if data.length < 24 + dataLen ∨ data.length < tagAt + 16 then none
    else
      let nonce := (data.drop 12).take 12
      let tag := (data.drop tagAt).take 16
      match gcm.decrypt key nonce (data.take 12) ((data.drop 24).take dataLen) tag with
      | .error e => some ⟨size, .error e⟩
      | .ok ecData => some ⟨size, .ok (ecData ++ [0])⟩

def parseDataWithLpv35 (malloc : ℕ → Bool) (data : List UInt8) (len : ℕ) : Option ParseOut :=
  if data.length < 15 then none
  else
    let ecLen := u32 (len - 15)
    let size := (ecLen + 1) % 2 ^ 32
    if malloc size = false then some ⟨size, .error oprtMallocFailed⟩
    else if data.length < 15 + ecLen then none
    else some ⟨size, .ok ((data.drop 15).take ecLen ++ [0])⟩

/-- The check compares the `int` with a `size_t`: a negative length passes. -/
def tuyaParseProtocolData (gcm : Gcm) (malloc : ℕ → Bool) (cmd : ℕ) (key data : List UInt8)
    (len : ℤ) : Option ParseOut :=
  if 0 ≤ len ∧ len < 15 then some ⟨0, .error oprtInvalidParm⟩
  else if cmd = dpCmdLan then parseDataWithLpv35 malloc data (u32 len)
  else if cmd = dpCmdMq then parseDataWithPv23 gcm malloc key data (u32 len)
  else some ⟨0, .error oprtComError⟩

/-! ## Packing -/

/-- The two allocations, the time, the serial number and the random nonce. -/
structure PackEnv where
  out : Bool
  buf : Bool
  posix : ℕ
  num : ℕ
  nonce : List UInt8
  posix_lt : posix < 2 ^ 32
  nonce_length : nonce.length = 12

/-- What `snprintf` makes of `{"protocol":%u,"t":%u,"data":%s`. -/
def printed (pro posix : ℕ) (src : List UInt8) : List UInt8 :=
  [123, 34, 112, 114, 111, 116, 111, 99, 111, 108, 34, 58] ++ decimal pro ++
    [44, 34, 116, 34, 58] ++ decimal posix ++ [44, 34, 100, 97, 116, 97, 34, 58] ++ src

def jsonText (pro posix : ℕ) (src : List UInt8) : List UInt8 := printed pro posix src ++ [125]

/-- The JSON data of both packers.  `snprintf` has no answer for more than an
`int` can count. -/
def packText (env : PackEnv) (pro : ℕ) (src : List UInt8) : Except OperateRet (List UInt8) :=
  let len := i32 (src.length + 60)
  let ret := (printed pro env.posix src).length
  if env.out = false then .error oprtMallocFailed
  else if 2 ^ 31 ≤ ret ∨ len ≤ ret then .error oprtBufferNotEnough
  else if len - 2 < ret then .error oprtBufferNotEnough
  else .ok (jsonText pro env.posix src)

def packDataWithCmdPv23 (gcm : Gcm) (env : PackEnv) (key : List UInt8) (pro : ℕ)
    (src : List UInt8) : Option (Except OperateRet (List UInt8)) :=
  match packText env pro src with
  | .error e => some (.error e)
  | .ok out =>
    if 2 ^ 31 ≤ out.length + 40 then none
    else if env.buf = false then some (.error oprtMallocFailed)
    else
      let ad := tuyaPv23 ++ encodeBE 4 env.num ++ encodeBE 4 1 ++ [0]
      match gcm.encrypt key env.nonce ad out with
      | .error e => some (.error e.1)
      | .ok (ct, tag) => some (.ok (ad ++ env.nonce ++ ct ++ tag))

def packDataWithCmdLpv35 (env : PackEnv) (pro : ℕ) (src : List UInt8) :
    Except OperateRet (List UInt8) :=
  match packText env pro src with
  | .error e => .error e
  | .ok out =>
    if env.buf = false then .error oprtMallocFailed
    else .ok (tuyaLpv35 ++ encodeBE 4 0 ++ encodeBE 4 env.num ++ encodeBE 4 1 ++ out)

def tuyaPackProtocolData (gcm : Gcm) (env : PackEnv) (cmd : ℕ) (key : List UInt8) (pro : ℕ)
    (src : List UInt8) : Option (Except OperateRet (List UInt8)) :=
  if cmd = dpCmdLan then some (packDataWithCmdLpv35 env pro src)
  else if cmd = dpCmdMq then packDataWithCmdPv23 gcm env key pro src
  else some (.error oprtComError)

/-! ## What is expected of them -/

/-- Where there is memory bytes are produced, and what is produced is parsed to
the text, as a string. -/
structure RoundTrips (gcm : Gcm) (env : PackEnv) (cmd : ℕ) (key : List UInt8) (pro : ℕ)
    (src : List UInt8) : Prop where
  produced : env.out = true → env.buf = true →
    ∃ bytes, tuyaPackProtocolData gcm env cmd key pro src = some (.ok bytes)
  parsed : ∀ bytes malloc, tuyaPackProtocolData gcm env cmd key pro src = some (.ok bytes) →
    (∀ size, malloc size = true) →
    ∃ out dst, tuyaParseProtocolData gcm malloc cmd key bytes (i32 bytes.length) = some out ∧
      out.result = .ok dst ∧ CStr.read dst 0 = some (jsonText pro env.posix src)

/-- Whatever the allocator answers, no byte outside of `data[0..len)` is read and
no more than `len + 1` are asked for. -/
def ParseBounded (gcm : Gcm) (cmd : ℕ) (key data : List UInt8) (len : ℤ) : Prop :=
  ∀ malloc, ∃ out, tuyaParseProtocolData gcm malloc cmd key (data.take len.toNat) len = some out ∧
    (out.alloc : ℤ) ≤ max 0 len + 1

/-- The lengths can be counted in an `int`, or there is no memory for them. -/
def PackFits (env : PackEnv) (cmd pro : ℕ) (src : List UInt8) : Prop :=
  env.out = true → env.buf = true → src.length + 60 < 2 ^ 31 ∧
    (cmd = dpCmdMq → (jsonText pro env.posix src).length + 40 < 2 ^ 31)

/-- The length is not negative; and for PV2.3 the payload is not shorter than its
fixed parts, or is refused before they are read. -/
def ParseFits (cmd : ℕ) (data : List UInt8) (len : ℤ) : Prop :=
  (cmd = dpCmdLan ∨ cmd = dpCmdMq → 0 ≤ len) ∧
    (cmd = dpCmdMq → len < 15 ∨ 40 ≤ len ∨ data.take 3 ≠ tuyaPv23 ∨ (data.drop 11).take 1 ≠ [0])

/-- The cipher takes the key, with every nonce of twelve bytes and all data that an `int` can
count. -/
def Encrypts (gcm : Gcm) (key : List UInt8) : Prop :=
  ∀ nonce ad data, nonce.length = lpv35FrameNonceSize → data.length < 2 ^ 31 →
    ∃ ct tag, gcm.encrypt key nonce ad data = .ok (ct, tag)

/-! ## The text -/

variable {gcm : Gcm} {env : PackEnv} {key src : List UInt8} {cmd pro posix : ℕ}

theorem length_decimal_le {n : ℕ} (h : n < 2 ^ 32) : (decimal n).length ≤ 10 := by
  rw [decimal, List.length_map, Nat.length_toDigits_le_iff (by decide) (by decide)]
  omega

theorem decimal_nonzero (n : ℕ) : 0 ∉ decimal n := by
  rw [decimal, List.mem_map]
  rintro ⟨c, hc, hzero⟩
  have hdigit := Nat.isDigit_of_mem_toDigits (by decide) (by decide) hc
  rw [Char.isDigit, Bool.and_eq_true, decide_eq_true_eq, decide_eq_true_eq] at hdigit
  have hlow : 48 ≤ c.toNat := hdigit.1
  have hhigh : c.toNat ≤ 57 := hdigit.2
  have hnat := congrArg UInt8.toNat hzero
  rw [Nat.toUInt8, UInt8.toNat_ofNat'] at hnat
  change c.toNat % 2 ^ 8 = 0 at hnat
  omega

theorem length_printed (pro posix : ℕ) (src : List UInt8) :
    (printed pro posix src).length =
      25 + (decimal pro).length + (decimal posix).length + src.length := by
  simp only [printed, List.length_append, List.length_cons, List.length_nil]
  omega

theorem length_jsonText (pro posix : ℕ) (src : List UInt8) :
    (jsonText pro posix src).length = (printed pro posix src).length + 1 := List.length_append

theorem jsonText_nonzero (h : 0 ∉ src) : 0 ∉ jsonText pro posix src := by
  have hpro := decimal_nonzero pro
  have hposix := decimal_nonzero posix
  simp [jsonText, printed, h, hpro, hposix]

theorem read_jsonText (h : 0 ∉ src) :
    CStr.read (jsonText pro posix src ++ [0]) 0 = some (jsonText pro posix src) :=
  CStr.read_zero (jsonText_nonzero h) []

theorem packText_eq_ok_iff (hpro : pro < 2 ^ 32) {out : List UInt8} :
    packText env pro src = .ok out ↔
      env.out = true ∧ src.length + 60 < 2 ^ 31 ∧ out = jsonText pro env.posix src := by
  have hlen := length_printed pro env.posix src
  have hdec := length_decimal_le hpro
  have hdec' := length_decimal_le env.posix_lt
  rw [packText]
  cases env.out with
  | false => simp
  | true =>
      simp only [Bool.true_eq_false, if_false, true_and]
      by_cases hsmall : src.length + 60 < 2 ^ 31
      · have hint : i32 ((src.length : ℤ) + 60) = src.length + 60 := i32_of_lt hsmall
        rw [hint, if_neg (by omega), if_neg (by omega)]
        simp only [hsmall, true_and, Except.ok.injEq]
        exact eq_comm
      · have hrefused : 2 ^ 31 ≤ (printed pro env.posix src).length ∨
            i32 ((src.length : ℤ) + 60) ≤ (printed pro env.posix src).length := by
          rw [i32, Int.bmod]
          split_ifs <;> omega
        rw [if_pos hrefused]
        exact iff_of_false (fun h ↦ by cases h) fun h ↦ hsmall h.1

theorem u32_i32 {n : ℕ} (h : n < 2 ^ 32) : u32 (i32 n) = n := by
  rw [u32, i32, Int.bmod]
  split_ifs <;> omega

/-! ## The round trip -/

theorem parse_lpv35 {malloc : ℕ → Bool} (hmalloc : ∀ size, malloc size = true)
    {head text : List UInt8} (hhead : head.length = 15) (hlen : 15 + text.length < 2 ^ 32) :
    parseDataWithLpv35 malloc (head ++ text) (15 + text.length) =
      some ⟨(text.length + 1) % 2 ^ 32, .ok (text ++ [0])⟩ := by
  have hec : u32 (((15 + text.length : ℕ) : ℤ) - 15) = text.length := by
    rw [u32]
    omega
  rw [parseDataWithLpv35]
  simp only [hec, hmalloc, Bool.true_eq_false, if_false, List.length_append, hhead]
  rw [if_neg (by omega), if_neg (by omega), List.drop_left' hhead, List.take_length]

theorem parse_pv23 (hgcm : gcm.Lawful) {malloc : ℕ → Bool} (hmalloc : ∀ size, malloc size = true)
    {rest nonce text ct tag : List UInt8} (hrest : rest.length = 8) (hnonce : nonce.length = 12)
    (hlen : 40 + text.length < 2 ^ 32)
    (henc : gcm.encrypt key nonce (tuyaPv23 ++ rest ++ [0]) text = .ok (ct, tag)) :
    parseDataWithPv23 gcm malloc key (tuyaPv23 ++ rest ++ [0] ++ nonce ++ ct ++ tag)
        (40 + text.length) =
      some ⟨(text.length + 1) % 2 ^ 32, .ok (text ++ [0])⟩ := by
  obtain ⟨hct, htag, hdec⟩ := hgcm _ _ _ _ _ _ henc
  have htag' : tag.length = 16 := htag
  have hpv : tuyaPv23.length = 3 := rfl
  have hdataLen : u32 (((40 + text.length : ℕ) : ℤ) - 40) = text.length := by
    rw [u32]
    omega
  have htagAt : u32 (((40 + text.length : ℕ) : ℤ) - 16) = 24 + text.length := by
    rw [u32]
    omega
  generalize hdata : tuyaPv23 ++ rest ++ [0] ++ nonce ++ ct ++ tag = data
  have hall : data.length = 40 + text.length := by
    rw [← hdata]
    simp only [List.length_append, hpv, hrest, hnonce, hct, htag', List.length_singleton]
    omega
  have hversion : data.take 3 = tuyaPv23 := by
    rw [← hdata]
    simp only [List.append_assoc]
    exact List.take_left' hpv
  have hreserve : (data.drop 11).take 1 = [0] := by
    have hsplit : data = (tuyaPv23 ++ rest) ++ ([0] ++ (nonce ++ (ct ++ tag))) := by
      simp only [← hdata, List.append_assoc]
    rw [hsplit]
    have hone : ([0] : List UInt8).length = 1 := rfl
    refine take_drop_append ?_ hone _
    rw [List.length_append, hpv, hrest]
  have had : data.take 12 = tuyaPv23 ++ rest ++ [0] := by
    rw [← hdata, List.append_assoc, List.append_assoc]
    refine List.take_left' ?_
    rw [List.length_append, List.length_append, hpv, hrest, List.length_singleton]
  have hnonceAt : (data.drop 12).take 12 = nonce := by
    rw [← hdata, List.append_assoc, List.append_assoc]
    refine take_drop_append ?_ hnonce _
    rw [List.length_append, List.length_append, hpv, hrest, List.length_singleton]
  have hctAt : (data.drop 24).take text.length = ct := by
    rw [← hdata, List.append_assoc]
    refine take_drop_append ?_ hct _
    simp only [List.length_append, hpv, hrest, hnonce, List.length_singleton]
  have htagIs : (data.drop (24 + text.length)).take 16 = tag := by
    have hsplit : data = (tuyaPv23 ++ rest ++ [0] ++ nonce ++ ct) ++ (tag ++ []) := by
      rw [← hdata, List.append_nil]
    rw [hsplit]
    refine take_drop_append ?_ htag' _
    simp only [List.length_append, hpv, hrest, hnonce, hct, List.length_singleton]
  rw [parseDataWithPv23]
  simp only [hdataLen, htagAt, hmalloc, hversion, hreserve, had, hnonceAt, hctAt, htagIs, hdec,
    ne_eq, not_true_eq_false, Bool.true_eq_false, if_false]
  rw [if_neg (by omega), if_neg (by omega), if_neg (by omega)]

theorem parse_of_length {malloc : ℕ → Bool} {data : List UInt8} (hmin : 15 ≤ data.length)
    (hmax : data.length < 2 ^ 32) :
    tuyaParseProtocolData gcm malloc cmd key data (i32 data.length) =
      if cmd = dpCmdLan then parseDataWithLpv35 malloc data data.length
      else if cmd = dpCmdMq then parseDataWithPv23 gcm malloc key data data.length
      else some ⟨0, .error oprtComError⟩ := by
  have hlong : ¬ (0 ≤ i32 data.length ∧ i32 data.length < 15) := by
    rw [i32, Int.bmod]
    split_ifs <;> omega
  rw [tuyaParseProtocolData, if_neg hlong, u32_i32 hmax]

theorem packDataWithCmdLpv35_eq_ok_iff {bytes : List UInt8} :
    packDataWithCmdLpv35 env pro src = .ok bytes ↔
      ∃ out, packText env pro src = .ok out ∧ env.buf = true ∧
        bytes = tuyaLpv35 ++ encodeBE 4 0 ++ encodeBE 4 env.num ++ encodeBE 4 1 ++ out := by
  rw [packDataWithCmdLpv35]
  cases packText env pro src with
  | error e => simp
  | ok out =>
      cases env.buf with
      | false => simp
      | true => simp [eq_comm]

theorem packDataWithCmdPv23_eq_ok_iff {bytes : List UInt8} :
    packDataWithCmdPv23 gcm env key pro src = some (.ok bytes) ↔
      ∃ out ct tag, packText env pro src = .ok out ∧ out.length + 40 < 2 ^ 31 ∧ env.buf = true ∧
        gcm.encrypt key env.nonce (tuyaPv23 ++ encodeBE 4 env.num ++ encodeBE 4 1 ++ [0]) out =
          .ok (ct, tag) ∧
        bytes = tuyaPv23 ++ encodeBE 4 env.num ++ encodeBE 4 1 ++ [0] ++ env.nonce ++ ct ++
          tag := by
  rw [packDataWithCmdPv23]
  cases packText env pro src with
  | error e => simp
  | ok out =>
      dsimp only
      by_cases hint : 2 ^ 31 ≤ out.length + 40
      · rw [if_pos hint]
        refine iff_of_false (fun h ↦ by cases h) ?_
        rintro ⟨_, _, _, hout, hlt, -⟩
        cases hout
        exact absurd hint (Nat.not_le_of_lt hlt)
      rw [if_neg hint]
      cases env.buf with
      | false => simp
      | true =>
          rw [if_neg (by decide)]
          constructor
          · intro h
            split at h
            · cases h
            · rename_i ct tag henc
              cases h
              exact ⟨out, ct, tag, rfl, Nat.lt_of_not_le hint, rfl, henc, rfl⟩
          · rintro ⟨_, ct, tag, hout, -, -, henc, rfl⟩
            cases hout
            rw [henc]

theorem roundTrips_lan_iff (hsrc : 0 ∉ src) (hpro : pro < 2 ^ 32) :
    RoundTrips gcm env dpCmdLan key pro src ↔ PackFits env dpCmdLan pro src := by
  have hpack : ∀ bytes, tuyaPackProtocolData gcm env dpCmdLan key pro src = some (.ok bytes) ↔
      packDataWithCmdLpv35 env pro src = .ok bytes := fun bytes ↦ by
    rw [tuyaPackProtocolData, if_pos rfl, Option.some.injEq]
  constructor
  · intro h hout hbuf
    obtain ⟨bytes, hbytes⟩ := h.produced hout hbuf
    rw [hpack, packDataWithCmdLpv35_eq_ok_iff] at hbytes
    obtain ⟨out, htext, -⟩ := hbytes
    refine ⟨((packText_eq_ok_iff hpro).mp htext).2.1, fun hmq ↦ ?_⟩
    cases hmq
  · intro hfits
    refine ⟨fun hout hbuf ↦ ?_, fun bytes malloc hbytes hmalloc ↦ ?_⟩
    · have htext := (packText_eq_ok_iff hpro).mpr ⟨hout, (hfits hout hbuf).1, rfl⟩
      exact ⟨_, (hpack _).mpr (packDataWithCmdLpv35_eq_ok_iff.mpr ⟨_, htext, hbuf, rfl⟩)⟩
    · rw [hpack, packDataWithCmdLpv35_eq_ok_iff] at hbytes
      obtain ⟨out, htext, -, rfl⟩ := hbytes
      obtain ⟨-, hsmall, rfl⟩ := (packText_eq_ok_iff hpro).mp htext
      have hdec := length_decimal_le hpro
      have hdec' := length_decimal_le env.posix_lt
      have hlen := length_jsonText pro env.posix src
      rw [length_printed] at hlen
      generalize hhead : tuyaLpv35 ++ encodeBE 4 0 ++ encodeBE 4 env.num ++ encodeBE 4 1 = head
      have hhead15 : head.length = 15 := by
        rw [← hhead]
        simp only [List.length_append, length_encodeBE]
        rfl
      have hall : (head ++ jsonText pro env.posix src).length =
          15 + (jsonText pro env.posix src).length := by rw [List.length_append, hhead15]
      refine ⟨⟨((jsonText pro env.posix src).length + 1) % 2 ^ 32, .ok (_ ++ [0])⟩, _, ?_, rfl,
        read_jsonText hsrc⟩
      rw [parse_of_length (by omega) (by omega), if_pos rfl, hall]
      exact parse_lpv35 hmalloc hhead15 (by omega)

theorem roundTrips_mq_iff (hgcm : gcm.Lawful) (henc : Encrypts gcm key) (hsrc : 0 ∉ src)
    (hpro : pro < 2 ^ 32) :
    RoundTrips gcm env dpCmdMq key pro src ↔ PackFits env dpCmdMq pro src := by
  have hpack : tuyaPackProtocolData gcm env dpCmdMq key pro src =
      packDataWithCmdPv23 gcm env key pro src := by
    rw [tuyaPackProtocolData, if_neg (by decide), if_pos rfl]
  constructor
  · intro h hout hbuf
    obtain ⟨bytes, hbytes⟩ := h.produced hout hbuf
    rw [hpack, packDataWithCmdPv23_eq_ok_iff] at hbytes
    obtain ⟨out, ct, tag, htext, hint, -⟩ := hbytes
    obtain ⟨-, hsmall, rfl⟩ := (packText_eq_ok_iff hpro).mp htext
    exact ⟨hsmall, fun _ ↦ hint⟩
  · intro hfits
    refine ⟨fun hout hbuf ↦ ?_, fun bytes malloc hbytes hmalloc ↦ ?_⟩
    · obtain ⟨hsmall, hint⟩ := hfits hout hbuf
      obtain ⟨ct, tag, hct⟩ := henc env.nonce
        (tuyaPv23 ++ encodeBE 4 env.num ++ encodeBE 4 1 ++ [0]) (jsonText pro env.posix src)
        env.nonce_length (by have hshort := hint rfl; omega)
      have htext := (packText_eq_ok_iff hpro).mpr ⟨hout, hsmall, rfl⟩
      rw [hpack]
      exact ⟨_, packDataWithCmdPv23_eq_ok_iff.mpr ⟨_, ct, tag, htext, hint rfl, hbuf, hct, rfl⟩⟩
    · rw [hpack, packDataWithCmdPv23_eq_ok_iff] at hbytes
      obtain ⟨out, ct, tag, htext, hint, -, hct, rfl⟩ := hbytes
      obtain ⟨-, hsmall, rfl⟩ := (packText_eq_ok_iff hpro).mp htext
      obtain ⟨hctLen, htagLen, -⟩ := hgcm _ _ _ _ _ _ hct
      rw [List.append_assoc tuyaPv23] at hct ⊢
      have hrest : (encodeBE 4 env.num ++ encodeBE 4 1).length = 8 := by
        rw [List.length_append, length_encodeBE, length_encodeBE]
      have hall : (tuyaPv23 ++ (encodeBE 4 env.num ++ encodeBE 4 1) ++ [0] ++ env.nonce ++ ct ++
          tag).length = 40 + (jsonText pro env.posix src).length := by
        have hpv : tuyaPv23.length = 3 := rfl
        have htag16 : tag.length = 16 := htagLen
        have hnonce := env.nonce_length
        rw [List.length_append, List.length_append, List.length_append, List.length_append,
          List.length_append, hrest, List.length_singleton]
        omega
      refine ⟨⟨((jsonText pro env.posix src).length + 1) % 2 ^ 32, .ok (_ ++ [0])⟩, _, ?_, rfl,
        read_jsonText hsrc⟩
      rw [parse_of_length (by omega) (by omega), if_neg (by decide), if_pos rfl, hall]
      exact parse_pv23 hgcm hmalloc hrest env.nonce_length (by omega) hct

/-! ## The bounds -/

variable {data : List UInt8} {len : ℤ}

theorem parse_short (hlen : 0 ≤ len ∧ len < 15) (malloc : ℕ → Bool) :
    tuyaParseProtocolData gcm malloc cmd key data len = some ⟨0, .error oprtInvalidParm⟩ := by
  rw [tuyaParseProtocolData, if_pos hlen]

theorem parse_negative (hcmd : cmd = dpCmdLan ∨ cmd = dpCmdMq) (hlen : len < 0)
    (malloc : ℕ → Bool) : tuyaParseProtocolData gcm malloc cmd key [] len = none := by
  rw [tuyaParseProtocolData, if_neg (by omega)]
  rcases hcmd with rfl | rfl
  · rw [if_pos rfl]
    rfl
  · rw [if_neg (by decide), if_pos rfl]
    rfl

theorem parse_lpv35_bounded {n : ℕ} (hn : 15 ≤ n) (hmax : n < 2 ^ 31) (hdata : data.length = n)
    (malloc : ℕ → Bool) :
    ∃ out, parseDataWithLpv35 malloc data n = some out ∧ out.alloc ≤ n + 1 := by
  have hec : u32 ((n : ℤ) - 15) = n - 15 := by
    rw [u32]
    omega
  rw [parseDataWithLpv35, if_neg (by omega)]
  simp only [hec]
  by_cases hmalloc : malloc ((n - 15 + 1) % 2 ^ 32) = false
  · rw [if_pos hmalloc]
    exact ⟨_, rfl, by dsimp only; omega⟩
  · rw [if_neg hmalloc, if_neg (by omega)]
    exact ⟨_, rfl, by dsimp only; omega⟩

theorem parse_pv23_bounded {n : ℕ} (hn : 40 ≤ n) (hmax : n < 2 ^ 31) (hdata : data.length = n)
    (malloc : ℕ → Bool) :
    ∃ out, parseDataWithPv23 gcm malloc key data n = some out ∧ out.alloc ≤ n + 1 := by
  have hdataLen : u32 ((n : ℤ) - 40) = n - 40 := by
    rw [u32]
    omega
  have htagAt : u32 ((n : ℤ) - 16) = n - 16 := by
    rw [u32]
    omega
  rw [parseDataWithPv23, if_neg (by omega)]
  by_cases hversion : data.take 3 ≠ tuyaPv23
  · rw [if_pos hversion]
    exact ⟨_, rfl, Nat.zero_le _⟩
  rw [if_neg hversion, if_neg (by omega)]
  by_cases hreserve : (data.drop 11).take 1 ≠ [0]
  · rw [if_pos hreserve]
    exact ⟨_, rfl, Nat.zero_le _⟩
  rw [if_neg hreserve]
  simp only [hdataLen, htagAt]
  by_cases hmalloc : malloc ((n - 40 + 1) % 2 ^ 32) = false
  · rw [if_pos hmalloc]
    exact ⟨_, rfl, by dsimp only; omega⟩
  rw [if_neg hmalloc, if_neg (by omega)]
  split
  · exact ⟨_, rfl, by dsimp only; omega⟩
  · exact ⟨_, rfl, by dsimp only; omega⟩

theorem parse_pv23_short {n : ℕ} (hn : 15 ≤ n) (hmax : n < 40) (hdata : data.length = n) :
    (∀ malloc, ∃ out, parseDataWithPv23 gcm malloc key data n = some out ∧ out.alloc ≤ n + 1) ↔
      data.take 3 ≠ tuyaPv23 ∨ (data.drop 11).take 1 ≠ [0] := by
  have hdataLen : u32 ((n : ℤ) - 40) = 2 ^ 32 + n - 40 := by
    rw [u32]
    omega
  constructor
  · intro h
    by_contra hhead
    rw [not_or, not_not, not_not] at hhead
    obtain ⟨out, hout, -⟩ := h fun _ ↦ true
    rw [parseDataWithPv23, if_neg (by omega), if_neg (not_not_intro hhead.1), if_neg (by omega),
      if_neg (not_not_intro hhead.2)] at hout
    simp only [hdataLen, Bool.true_eq_false, if_false] at hout
    rw [if_pos (by omega)] at hout
    cases hout
  · intro hhead malloc
    rw [parseDataWithPv23, if_neg (by omega)]
    by_cases hversion : data.take 3 ≠ tuyaPv23
    · rw [if_pos hversion]
      exact ⟨_, rfl, Nat.zero_le _⟩
    rw [if_neg hversion, if_neg (by omega), if_pos (hhead.resolve_left hversion)]
    exact ⟨_, rfl, Nat.zero_le _⟩

theorem parseBounded_iff (hin : len ≤ data.length) (hlow : -2 ^ 31 ≤ len) (hhigh : len < 2 ^ 31) :
    ParseBounded gcm cmd key data len ↔ ParseFits cmd data len := by
  by_cases hcmd : cmd = dpCmdLan ∨ cmd = dpCmdMq
  case neg =>
    -- nothing is read for any other command
    rw [not_or] at hcmd
    refine iff_of_true (fun malloc ↦ ?_) ⟨fun h ↦ (not_or.mpr hcmd h).elim, fun h ↦ (hcmd.2 h).elim⟩
    by_cases hshort : 0 ≤ len ∧ len < 15
    · exact ⟨_, parse_short hshort malloc, by dsimp only; omega⟩
    · refine ⟨⟨0, .error oprtComError⟩, ?_, by dsimp only; omega⟩
      rw [tuyaParseProtocolData, if_neg hshort, if_neg hcmd.1, if_neg hcmd.2]
  by_cases hneg : len < 0
  · refine iff_of_false (fun h ↦ ?_) fun h ↦ absurd (h.1 hcmd) (by omega)
    obtain ⟨out, hout, -⟩ := h fun _ ↦ true
    rw [show len.toNat = 0 by omega, List.take_zero, parse_negative hcmd hneg] at hout
    cases hout
  by_cases hshort : len < 15
  · refine iff_of_true (fun malloc ↦ ?_) ⟨fun _ ↦ by omega, fun _ ↦ .inl hshort⟩
    exact ⟨_, parse_short ⟨by omega, hshort⟩ malloc, by dsimp only; omega⟩
  obtain ⟨n, rfl⟩ := Int.eq_ofNat_of_zero_le (Int.not_lt.mp hneg)
  have hn : 15 ≤ n := by omega
  have hu32 : u32 n = n := u32_of_lt (by omega)
  have hseg : (data.take n).length = n := List.length_take_of_le (by omega)
  have hmax : (max 0 (n : ℤ)) + 1 = ((n + 1 : ℕ) : ℤ) := by omega
  have hcheck : ¬ (0 ≤ (n : ℤ) ∧ (n : ℤ) < 15) := by omega
  rw [ParseBounded, ParseFits]
  simp only [Int.toNat_natCast, tuyaParseProtocolData, hu32, hmax, Nat.cast_le, if_neg hcheck]
  rcases hcmd with rfl | rfl
  · refine iff_of_true (fun malloc ↦ ?_) ⟨fun _ ↦ by omega, fun h ↦ by cases h⟩
    exact parse_lpv35_bounded hn (by omega) hseg malloc
  · have hmq : ¬ dpCmdMq = dpCmdLan := by decide
    simp only [if_neg hmq, if_true]
    by_cases hlong : 40 ≤ n
    · refine iff_of_true (fun malloc ↦ ?_) ⟨fun _ ↦ by omega, fun _ ↦ .inr (.inl (by omega))⟩
      exact parse_pv23_bounded hlong (by omega) hseg malloc
    · have htake : (data.take n).take 3 = data.take 3 := by
        rw [List.take_take, Nat.min_eq_left (by omega)]
      have hdrop : ((data.take n).drop 11).take 1 = (data.drop 11).take 1 := by
        rw [List.drop_take, List.take_take, Nat.min_eq_left (by omega)]
      refine (parse_pv23_short hn (by omega) hseg).trans ?_
      rw [htake, hdrop]
      constructor
      · intro h
        exact ⟨fun _ ↦ by omega, fun _ ↦ .inr (.inr h)⟩
      · rintro ⟨-, h⟩
        rcases h trivial with h | h | h
        · omega
        · omega
        · exact h

/-- Both formats give back the text that fits them; a payload of PV2.3 has to be
as long as its fixed parts. -/
theorem protocol_data_iff (hgcm : gcm.Lawful) (henc : Encrypts gcm key) :
    (∀ env pro src, 0 ∉ src → pro < 2 ^ 32 → ∀ cmd, cmd = dpCmdLan ∨ cmd = dpCmdMq →
      (RoundTrips gcm env cmd key pro src ↔ PackFits env cmd pro src)) ∧
    ∀ cmd data (len : ℤ), len ≤ data.length → -2 ^ 31 ≤ len → len < 2 ^ 31 →
      (ParseBounded gcm cmd key data len ↔ ParseFits cmd data len) := by
  refine ⟨fun env pro src hsrc hpro cmd hcmd ↦ ?_, fun cmd data len ↦ parseBounded_iff⟩
  rcases hcmd with rfl | rfl
  · exact roundTrips_lan_iff hsrc hpro
  · exact roundTrips_mq_iff hgcm henc hsrc hpro

theorem sampleNonce_length : (List.replicate 12 (48 : UInt8)).length = 12 := List.length_replicate

def samplePackEnv : PackEnv :=
  ⟨true, true, 1700000000, 1, List.replicate 12 48, by decide, sampleNonce_length⟩

theorem protocol_data_iff_braces :
    RoundTrips aesGcm samplePackEnv dpCmdMq sampleKey 4 [123, 125] ∧
      ParseBounded aesGcm dpCmdMq sampleKey (tuyaPv23 ++ List.replicate 37 0) 40 := by
  have h := @protocol_data_iff aesGcm sampleKey aesGcm_lawful fun _ ad data hnonce _ ↦
    aesGcm_encrypts sampleKey_length hnonce ad data
  refine ⟨(h.1 samplePackEnv 4 [123, 125] (by decide) (by decide) dpCmdMq (.inr rfl)).mpr ?_, ?_⟩
  · exact fun _ _ ↦ ⟨by decide, fun _ ↦ by decide +kernel⟩
  · exact (h.2 dpCmdMq _ 40 (by decide) (by decide) (by decide)).mpr
      ⟨fun _ ↦ by decide, fun _ ↦ .inr (.inl (by decide))⟩

/-- Fifteen bytes pass the check of both formats. -/
theorem protocol_data_unbounded :
    ¬ ∀ (cmd : ℕ) (data : List UInt8) (len : ℤ), len ≤ data.length → ¬ (0 ≤ len ∧ len < 15) →
      ParseBounded aesGcm cmd sampleKey data len := by
  intro h
  have hfifteen := h dpCmdMq (tuyaPv23 ++ List.replicate 12 0) 15 (by decide) (by decide)
  rw [parseBounded_iff (by decide) (by decide) (by decide)] at hfifteen
  exact absurd (hfifteen.2 rfl) (by decide)

end TuyaOpen.Protocol
