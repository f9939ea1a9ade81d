import Mathlib.Order.Basic
import TuyaOpen.Http.Download
import TuyaOpen.Lib.Mealy
import TuyaOpen.Utilities.MixMethod

/-!
# Firmware upgrades

`tuya_ota.c`: the events of a download go to the flash for the main firmware, which is channel 0,
and to the application for the others.  What the flash takes is hashed, and at the end the HMAC of
the hash is compared with that of the upgrade message.
-/

namespace TuyaOpen.Cloud

open Http Utilities

/-- `tal_sha256_finish_ret` over what was hashed, and `tal_sha256_mac`. -/
structure OtaCrypto where
  sha256 : List UInt8 → List UInt8
  mac : List UInt8 → List UInt8 → List UInt8
  length_mac (key data : List UInt8) : (mac key data).length = 32

def tusUpgrding : ℕ := 2

def tusUpgrdFini : ℕ := 3

def tusUpgrdExec : ℕ := 4

def fwHmacLen : ℕ := 64

/-- `tuya_ota_config_t` with the key of its client: whether there is an `event_cb`. -/
structure OtaConfig where
  eventCb : Bool
  seckey : List UInt8

/-- The items `type` and `hmac` of an upgrade message. -/
structure OtaUpgrade where
  type : ℤ
  hmac : List UInt8
  deriving DecidableEq

/-- An upgrade is none, its thread has begun, or its download has. -/
inductive OtaPhase where
  | idle
  | created
  | running
  deriving DecidableEq

/-- `tuya_ota_t`; `sha256` is what was hashed. -/
structure TuyaOta where
  phase : OtaPhase
  channel : ℕ
  fwHmac : List UInt8
  progressPercent : ℕ
  sha256 : List UInt8

inductive OtaStep where
  | upgrade (upgrade : OtaUpgrade) (thread : Bool)
  | download (event : DlEvent)

/-- The reports, what goes to the flash, and what goes to the application. -/
inductive OtaEvent where
  | statusReport (status : ℕ)
  | progressReport (percent : ℕ)
  | startNotify (fileSize : ℕ)
  | dataProcess (data : DlData)
  | endNotify
  | appStart (fileSize : ℕ)
  | appData (data : List UInt8) (offset : ℕ)
  | appFinish
  | appFault
  deriving DecidableEq

/-- The `strncpy` of the string to `fw_hmac`, filled up with NULs. -/
def fwHmacCopy (hmac : List UInt8) : List UInt8 :=
  let chars := (hmac.takeWhile (· ≠ 0)).take fwHmacLen
  chars ++ List.replicate (fwHmacLen - chars.length) 0

/-- The percentage, with a `size_t` of 32 bits, as a byte. -/
def downloadPercent (data : DlData) : ℕ := data.offset * 100 % 2 ^ 32 / data.fileSize % 256

namespace TuyaOta

variable (crypto : OtaCrypto) (config : OtaConfig) (s : TuyaOta)

/-- `tuya_ota_start`. -/
def otaStart (upgrade : OtaUpgrade) (thread : Bool) : TuyaOta :=
  { s with
    channel := (upgrade.type % 2 ^ 8).toNat
    fwHmac := fwHmacCopy upgrade.hmac
    phase := if thread = true then .created else s.phase }

/-- The HMAC over the hexadecimal hash of some data. -/
def hashMac (data : List UInt8) :
    List UInt8 := crypto.mac config.seckey (hex2str (crypto.sha256 data))

/-- What the application gets of the data of another channel. -/
def appData (data : DlData) : List OtaEvent :=
  if config.eventCb = true then [.appData data.data data.offset] else []

/-- More than five percent behind the latest report. -/
def Reports (data : DlData) : Prop := s.progressPercent + 5 < downloadPercent data

instance (data : DlData) : Decidable (s.Reports data) := inferInstanceAs (Decidable (_ < _))

/-- Data go to the flash, which is hashed, or to the application. -/
def deliver (data : DlData) : TuyaOta × List OtaEvent :=
  if s.channel = 0 then ({ s with sha256 := s.sha256 ++ data.consumed }, [.dataProcess data])
  else (s, appData config data)

/-- `DL_EVENT_ON_DATA`. -/
def onData (data : DlData) : TuyaOta × List OtaEvent :=
  let (s, events) := s.deliver config data
  if s.Reports data then
    ({ s with progressPercent := downloadPercent data },
      events ++ [.progressReport (downloadPercent data)])
  else (s, events)

/-- `DL_EVENT_FINISH`. -/
def onFinish : List OtaEvent :=
  if ascs2hex s.fwHmac = hashMac crypto config s.sha256 then
    [.progressReport 100, .statusReport tusUpgrdFini] ++
      (if s.channel = 0 then [.endNotify] else if config.eventCb = true then [.appFinish] else [])
  else []

/-- `file_download_event_cb`. -/
def downloadEvent : DlEvent → TuyaOta × List OtaEvent
  | .start => ({ s with sha256 := [], phase := .running }, [.statusReport tusUpgrding])
  | .onFilesize fileSize =>
      (s, if s.channel = 0 then [.startNotify fileSize]
        else if config.eventCb = true then [.appStart fileSize] else [])
  | .onData data => s.onData config data
  | .finish => ({ s with phase := .idle }, s.onFinish crypto config)
  | .fault =>
      ({ s with phase := .idle },
        .statusReport tusUpgrdExec :: (if config.eventCb = true then [.appFault] else []))

end TuyaOta

/-- Upgrades in a row: a message when there is none, `DL_EVENT_START` first, and the others behind
it. -/
def otaStep (crypto : OtaCrypto) (config : OtaConfig) (s : TuyaOta) :
    OtaStep → TuyaOta × List OtaEvent
  | .upgrade upgrade thread => if s.phase = .idle then (s.otaStart upgrade thread, []) else (s, [])
  | .download event =>
      if (if event = .start then s.phase = .created else s.phase = .running) then
        s.downloadEvent crypto config event
      else (s, [])

/-- Behind `tuya_ota_init`. -/
def otaInit : TuyaOta where
  phase := .idle
  channel := 0
  fwHmac := List.replicate fwHmacLen 0
  progressPercent := 0
  sha256 := []

/-!
## When firmware is accepted

An upgrade is accepted at its end when the HMAC over the hash of what was handed over is that of the
message. The code hashes what the flash takes of channel 0, and nothing of the other channels.
-/

/-- What was handed over in the latest upgrade, and the percentages that were reported of it. -/
structure OtaLog where
  handed : List UInt8
  percents : List ℕ

namespace OtaLog

/-- `TUS_UPGRDING` is the beginning of an upgrade. -/
def record (log : OtaLog) : OtaEvent → OtaLog
  | .statusReport status => if status = tusUpgrding then ⟨[], []⟩ else log
  | .dataProcess data => { log with handed := log.handed ++ data.consumed }
  | .appData data _ => { log with handed := log.handed ++ data }
  | .progressReport percent => { log with percents := log.percents ++ [percent] }
  | _ => log

end OtaLog

abbrev LoggedOta := TuyaOta × OtaLog

def otaMachine (crypto : OtaCrypto) (config : OtaConfig) :
    Mealy LoggedOta OtaStep (List OtaEvent) where
  step s x :=
    (((otaStep crypto config s.1 x).1, (otaStep crypto config s.1 x).2.foldl OtaLog.record s.2),
      (otaStep crypto config s.1 x).2)

/-- How firmware of a channel is accepted. -/
def acceptEvent (channel : ℕ) : OtaEvent := if channel = 0 then .endNotify else .appFinish

/-- Firmware is accepted at `DL_EVENT_FINISH`, exactly when the text of the message is the HMAC of
what was handed over; and the percentages are those of the offsets, and do not decrease. -/
structure OtaSound (crypto : OtaCrypto) (config : OtaConfig) (s : LoggedOta) (x : OtaStep) :
    Prop where
  accept : ∀ event, event = .endNotify ∨ event = .appFinish →
    (event ∈ ((otaMachine crypto config).step s x).2 ↔
      x = .download .finish ∧ s.1.phase = .running ∧
      event = acceptEvent s.1.channel ∧
        IsHexOf s.1.fwHmac (TuyaOta.hashMac crypto config s.2.handed))
  percent : ∀ data p, x = .download (.onData data) →
    .progressReport p ∈ ((otaMachine crypto config).step s x).2 →
      p = 100 * data.offset / data.fileSize
  sorted : ((otaMachine crypto config).step s x).1.2.percents.Pairwise (· ≤ ·)

/-- What `http_file_download` hands over: an offset in a file that is not empty, in 32 bits. -/
def OtaStep.Possible : OtaStep → Prop
  | .download (.onData data) => 0 < data.fileSize ∧ data.fileSize < 2 ^ 32 ∧
    data.offset ≤ data.fileSize
  | _ => True

instance : (x : OtaStep) → Decidable x.Possible
  | .upgrade _ _ => isTrue trivial
  | .download .start => isTrue trivial
  | .download (.onFilesize _) => isTrue trivial
  | .download (.onData _) => inferInstanceAs (Decidable (_ ∧ _))
  | .download .finish => isTrue trivial
  | .download .fault => isTrue trivial

/-- A percentage that is reported does not wrap; and at the end of an upgrade of channel 0, the text
is of hexadecimal digits or is not accepted; of another channel, it is of hexadecimal digits, there
is a callback, and the HMAC is that of no data, or the text is neither the HMAC nor that of no
data. -/
def OtaSafe (crypto : OtaCrypto) (config : OtaConfig) (s : LoggedOta) : OtaStep → Prop
  | .download (.onData data) => s.1.phase = .running → s.1.Reports data → 100 * data.offset < 2 ^ 32
  | .download .finish => s.1.phase = .running →
      if s.1.channel = 0 then
        (∀ c ∈ s.1.fwHmac, IsHexDigit c) ∨
          ascs2hex s.1.fwHmac ≠ TuyaOta.hashMac crypto config s.2.handed
      else
        (config.eventCb = true ∧ (∀ c ∈ s.1.fwHmac, IsHexDigit c) ∧
          TuyaOta.hashMac crypto config s.2.handed = TuyaOta.hashMac crypto config []) ∨
        (¬IsHexOf s.1.fwHmac (TuyaOta.hashMac crypto config s.2.handed) ∧
          ¬(config.eventCb = true ∧ ascs2hex s.1.fwHmac = TuyaOta.hashMac crypto config []))
  | _ => True

instance (crypto : OtaCrypto) (config : OtaConfig) (s : LoggedOta) : (x : OtaStep) →
    Decidable (OtaSafe crypto config s x)
  | .upgrade _ _ => isTrue trivial
  | .download .start => isTrue trivial
  | .download (.onFilesize _) => isTrue trivial
  | .download (.onData _) => inferInstanceAs (Decidable (_ → _ → _))
  | .download .finish => inferInstanceAs (Decidable (_ → if s.1.channel = 0 then _ else _))
  | .download .fault => isTrue trivial

/-! ## The percentage -/

section Percent

variable {data : DlData}

theorem wholePercent_le (hpos : 0 < data.fileSize) (hoffset : data.offset ≤ data.fileSize) :
    data.offset * 100 / data.fileSize ≤ 100 := by
  rw [Nat.div_le_iff_le_mul_add_pred hpos]
  omega

theorem downloadPercent_le (hpos : 0 < data.fileSize) (hoffset : data.offset ≤ data.fileSize) :
    downloadPercent data ≤ 100 :=
  calc downloadPercent data ≤ data.offset * 100 % 2 ^ 32 / data.fileSize := Nat.mod_le _ _
    _ ≤ data.offset * 100 / data.fileSize := Nat.div_le_div_right (Nat.mod_le _ _)
    _ ≤ 100 := wholePercent_le hpos hoffset

theorem downloadPercent_eq_iff (hpos : 0 < data.fileSize) (hsize : data.fileSize < 2 ^ 32)
    (hoffset : data.offset ≤ data.fileSize) :
    downloadPercent data = 100 * data.offset / data.fileSize ↔ 100 * data.offset < 2 ^ 32 := by
  rw [Nat.mul_comm 100]
  constructor
  · intro heq
    by_contra hwraps
    have hless : data.offset * 100 % 2 ^ 32 / data.fileSize <
        data.offset * 100 / data.fileSize := by
      have hmod : data.offset * 100 % 2 ^ 32 + data.fileSize ≤ data.offset * 100 := by omega
      have hdiv := Nat.div_le_div_right (c := data.fileSize) hmod
      rw [Nat.add_div_right _ hpos] at hdiv
      exact hdiv
    have hpercent : downloadPercent data ≤ data.offset * 100 % 2 ^ 32 / data.fileSize :=
      Nat.mod_le _ _
    omega
  · intro hfits
    have hle := wholePercent_le hpos hoffset
    rw [downloadPercent, Nat.mod_eq_of_lt hfits]
    exact Nat.mod_eq_of_lt (by omega)

end Percent

/-! ## The invariant -/

/-- Of channel 0 all that is handed over is hashed, and of the others nothing. -/
structure OtaInv (s : LoggedOta) : Prop where
  fwHmac : s.1.fwHmac.length = fwHmacLen
  hashed : s.1.phase = .running → s.1.sha256 = if s.1.channel = 0 then s.2.handed else []
  percents : s.2.percents.Pairwise (· ≤ ·)
  latest : s.1.phase = .running → ∀ p ∈ s.2.percents, p ≤ s.1.progressPercent ∧ p ≤ 100

theorem length_fwHmacCopy (hmac : List UInt8) : (fwHmacCopy hmac).length = fwHmacLen := by
  rw [fwHmacCopy, List.length_append, List.length_replicate, List.length_take]
  omega

theorem OtaInv.report {s : LoggedOta} {p : ℕ} (h : OtaInv s) (hrunning : s.1.phase = .running)
    (hless : s.1.progressPercent < p) (hp : p ≤ 100) :
    OtaInv ({ s.1 with progressPercent := p }, { s.2 with percents := s.2.percents ++ [p] }) := by
  have hlatest : ∀ q ∈ s.2.percents, q ≤ p := by
    intro q hq
    have hle := (h.latest hrunning q hq).1
    omega
  refine ⟨h.fwHmac, h.hashed, ?_, fun _ q hq ↦ ?_⟩
  · apply List.pairwise_append.mpr
    exact ⟨h.percents, List.pairwise_singleton _ p, by simpa using hlatest⟩
  · rcases List.mem_append.mp hq with hq | hq
    · exact ⟨hlatest q hq, (h.latest hrunning q hq).2⟩
    · rw [List.mem_singleton] at hq
      subst hq
      exact ⟨Nat.le_refl _, hp⟩

section Step

variable {crypto : OtaCrypto} {config : OtaConfig} {s : LoggedOta} {x : OtaStep} {event : OtaEvent}

theorem isHexOf_hashMac (h : OtaInv s) (data : List UInt8) :
    IsHexOf s.1.fwHmac (TuyaOta.hashMac crypto config data) ↔
      (∀ c ∈ s.1.fwHmac, IsHexDigit c) ∧
        ascs2hex s.1.fwHmac = TuyaOta.hashMac crypto config data := by
  constructor
  · intro hhex
    exact ⟨hhex.digits, hhex.ascs2hex_eq⟩
  · rintro ⟨hdigits, heq⟩
    rw [isHexOf_iff hdigits (by rw [h.fwHmac]; rfl)]
    exact heq

theorem OtaInv.upgrade {upgrade : OtaUpgrade} {thread : Bool} (h : OtaInv s) :
    OtaInv ((otaMachine crypto config).step s (.upgrade upgrade thread)).1 := by
  rw [otaMachine]
  dsimp only
  rw [otaStep]
  by_cases hidle : s.1.phase = .idle
  · rw [if_pos hidle]
    have hstill : (s.1.otaStart upgrade thread).phase ≠ .running := by
      rw [TuyaOta.otaStart]
      dsimp only
      split
      · exact fun hphase ↦ nomatch hphase
      · rw [hidle]
        exact fun hphase ↦ nomatch hphase
    exact ⟨length_fwHmacCopy _, fun hrunning ↦ absurd hrunning hstill, h.percents,
      fun hrunning ↦ absurd hrunning hstill⟩
  · rw [if_neg hidle]
    exact h

theorem OtaInv.deliver {data : DlData} (h : OtaInv s) (hrunning : s.1.phase = .running) :
    OtaInv ((s.1.deliver config data).1, (s.1.deliver config data).2.foldl OtaLog.record s.2) := by
  rw [TuyaOta.deliver]
  have hhashed := h.hashed hrunning
  by_cases hchannel : s.1.channel = 0
  · rw [if_pos hchannel] at hhashed ⊢
    refine ⟨h.fwHmac, fun _ ↦ ?_, h.percents, h.latest⟩
    rw [if_pos hchannel]
    exact congrArg (· ++ data.consumed) hhashed
  · rw [if_neg hchannel] at hhashed ⊢
    rw [TuyaOta.appData]
    by_cases hcb : config.eventCb = true
    · rw [if_pos hcb]
      refine ⟨h.fwHmac, fun _ ↦ ?_, h.percents, h.latest⟩
      rw [if_neg hchannel]
      exact hhashed
    · rw [if_neg hcb]
      exact h

theorem deliver_phase (t : TuyaOta) (data : DlData) :
    (t.deliver config data).1.phase = t.phase := by
  rw [TuyaOta.deliver]
  split <;> rfl

theorem OtaInv.onData {data : DlData} (h : OtaInv s) (hrunning : s.1.phase = .running)
    (hpos : 0 < data.fileSize) (hoffset : data.offset ≤ data.fileSize) :
    OtaInv ((s.1.onData config data).1, (s.1.onData config data).2.foldl OtaLog.record s.2) := by
  have hdelivered : OtaInv
      ((s.1.deliver config data).1, (s.1.deliver config data).2.foldl OtaLog.record s.2) :=
    h.deliver hrunning
  rw [TuyaOta.onData]
  dsimp only
  by_cases hreports : (s.1.deliver config data).1.Reports data
  · rw [if_pos hreports, List.foldl_append]
    rw [TuyaOta.Reports] at hreports
    have hless : (s.1.deliver config data).1.progressPercent < downloadPercent data := by omega
    refine hdelivered.report ?_ hless (downloadPercent_le hpos hoffset)
    dsimp only
    rw [deliver_phase, hrunning]
  · rw [if_neg hreports]
    exact hdelivered

theorem OtaInv.onFinish (h : OtaInv s) (hrunning : s.1.phase = .running) :
    OtaInv ({ s.1 with phase := .idle }, (s.1.onFinish crypto config).foldl OtaLog.record s.2) := by
  have hidle : ∀ log : OtaLog, log.percents.Pairwise (· ≤ ·) →
      OtaInv ({ s.1 with phase := .idle }, log) := by
    intro log hpercents
    exact ⟨h.fwHmac, fun hphase ↦ (nomatch hphase), hpercents, fun hphase ↦ (nomatch hphase)⟩
  have hhundred : (s.2.percents ++ [100]).Pairwise (· ≤ ·) := by
    apply List.pairwise_append.mpr
    refine ⟨h.percents, List.pairwise_singleton _ _, ?_⟩
    simpa using fun q hq ↦ (h.latest hrunning q hq).2
  rw [TuyaOta.onFinish]
  by_cases hmac : ascs2hex s.1.fwHmac = TuyaOta.hashMac crypto config s.1.sha256
  · rw [if_pos hmac, List.foldl_append]
    apply hidle
    split
    · exact hhundred
    · split
      · exact hhundred
      · exact hhundred
  · rw [if_neg hmac]
    exact hidle _ h.percents

theorem OtaInv.step (h : OtaInv s) (hx : x.Possible) :
    OtaInv ((otaMachine crypto config).step s x).1 := by
  rcases x with ⟨upgrade, thread⟩ | event
  · exact h.upgrade
  rw [otaMachine]
  dsimp only
  rw [otaStep]
  by_cases hphase : if event = .start then s.1.phase = .created else s.1.phase = .running
  · rw [if_pos hphase]
    cases event with
    | start =>
        refine ⟨h.fwHmac, fun _ ↦ ?_, List.Pairwise.nil, fun _ p hp ↦ absurd hp List.not_mem_nil⟩
        exact (ite_self _).symm
    | onFilesize fileSize =>
        rw [TuyaOta.downloadEvent]
        split
        · exact h
        · split
          · exact h
          · exact h
    | onData data => exact h.onData hphase hx.1 hx.2.2
    | finish => exact h.onFinish hphase
    | fault =>
        have hrecord : (s.1.downloadEvent crypto config .fault).2.foldl OtaLog.record s.2 =
            s.2 := by
          rw [TuyaOta.downloadEvent]
          split
          · rfl
          · rfl
        rw [hrecord]
        exact ⟨h.fwHmac, fun hidle ↦ (nomatch hidle), h.percents, fun hidle ↦ (nomatch hidle)⟩
  · rw [if_neg hphase]
    exact h

/-! ## What a step hands over, and reports -/

theorem mem_deliver {t : TuyaOta} {data : DlData} {event : OtaEvent}
    (h : event ∈ (t.deliver config data).2) : event = .dataProcess data ∨
    event = .appData data.data data.offset := by
  rw [TuyaOta.deliver] at h
  split at h
  · exact .inl (List.mem_singleton.mp h)
  · rw [TuyaOta.appData] at h
    split at h
    · exact .inr (List.mem_singleton.mp h)
    · exact absurd h List.not_mem_nil

theorem reports_deliver (t : TuyaOta) (data : DlData) :
    (t.deliver config data).1.Reports data ↔ t.Reports data := by
  rw [TuyaOta.deliver]
  split
  · exact Iff.rfl
  · exact Iff.rfl

theorem mem_onData {t : TuyaOta} {data : DlData} {event : OtaEvent}
    (h : event ∈ (t.onData config data).2) : event = .dataProcess data ∨
    event = .appData data.data data.offset ∨
      (t.Reports data ∧ event = .progressReport (downloadPercent data)) := by
  rw [TuyaOta.onData] at h
  dsimp only at h
  split at h
  case isTrue hreports =>
    rcases List.mem_append.mp h with hmem | hmem
    · rcases mem_deliver hmem with hflash | happ
      · exact .inl hflash
      · exact .inr (.inl happ)
    · exact .inr (.inr ⟨(reports_deliver t data).mp hreports, List.mem_singleton.mp hmem⟩)
  case isFalse hquiet =>
    rcases mem_deliver h with hflash | happ
    · exact .inl hflash
    · exact .inr (.inl happ)

theorem report_mem_onData {t : TuyaOta} {data : DlData} (h : t.Reports data) :
    .progressReport (downloadPercent data) ∈ (t.onData config data).2 := by
  rw [TuyaOta.onData]
  dsimp only
  rw [if_pos ((reports_deliver t data).mpr h)]
  simp

theorem mem_onFinish (t : TuyaOta) {event : OtaEvent}
    (hevent : event = .endNotify ∨ event = .appFinish) :
    event ∈ t.onFinish crypto config ↔ event = acceptEvent t.channel ∧
      ascs2hex t.fwHmac = TuyaOta.hashMac crypto config t.sha256 ∧
        (t.channel = 0 ∨ config.eventCb = true) := by
  rw [TuyaOta.onFinish, acceptEvent]
  by_cases hmac : ascs2hex t.fwHmac = TuyaOta.hashMac crypto config t.sha256
  · by_cases hchannel : t.channel = 0
    · rcases hevent with rfl | rfl <;> simp [hmac, hchannel]
    · rcases hevent with rfl | rfl <;> simp [hmac, hchannel]
  · simp [hmac]

theorem accept_only_finish (hevent : event = .endNotify ∨ event = .appFinish)
    (hmem : event ∈ ((otaMachine crypto config).step s x).2) : x = .download .finish ∧
    s.1.phase = .running := by
  rw [otaMachine] at hmem
  dsimp only at hmem
  rcases x with ⟨upgrade, thread⟩ | dl
  · rw [otaStep] at hmem
    split at hmem <;> exact absurd hmem List.not_mem_nil
  rw [otaStep] at hmem
  by_cases hphase : if dl = .start then s.1.phase = .created else s.1.phase = .running
  · rw [if_pos hphase] at hmem
    cases dl with
    | start => rcases hevent with rfl | rfl <;> simp [TuyaOta.downloadEvent] at hmem
    | onFilesize fileSize =>
        rw [TuyaOta.downloadEvent] at hmem
        dsimp only at hmem
        rcases hevent with rfl | rfl <;> split_ifs at hmem <;> simp at hmem
    | onData data =>
        rcases mem_onData hmem with rfl | rfl | ⟨-, rfl⟩ <;> rcases hevent with h | h <;> cases h
    | finish => exact ⟨rfl, hphase⟩
    | fault => rcases hevent with rfl | rfl <;> simp [TuyaOta.downloadEvent] at hmem
  · rw [if_neg hphase] at hmem
    exact absurd hmem List.not_mem_nil

theorem accept_finish_iff (h : OtaInv s) (hrunning : s.1.phase = .running) :
    ((ascs2hex s.1.fwHmac = TuyaOta.hashMac crypto config s.1.sha256 ∧
        (s.1.channel = 0 ∨ config.eventCb = true)) ↔
      IsHexOf s.1.fwHmac (TuyaOta.hashMac crypto config s.2.handed)) ↔
    OtaSafe crypto config s (.download .finish) := by
  have hhashed := h.hashed hrunning
  have hdigits : IsHexOf s.1.fwHmac (TuyaOta.hashMac crypto config s.2.handed) ↔ _ :=
    isHexOf_hashMac h s.2.handed
  by_cases hchannel : s.1.channel = 0
  · rw [if_pos hchannel] at hhashed
    simp only [OtaSafe, hrunning, hchannel, if_true, hhashed, hdigits, true_or, and_true,
      true_implies]
    tauto
  · rw [if_neg hchannel] at hhashed
    simp only [OtaSafe, hrunning, hchannel, if_false, hhashed, false_or, true_implies]
    rw [hdigits]
    constructor
    · intro hsame
      by_cases haccepted : ascs2hex s.1.fwHmac = TuyaOta.hashMac crypto config [] ∧
        config.eventCb = true
      · obtain ⟨htext, hmac⟩ := hsame.mp haccepted
        exact .inl ⟨haccepted.2, htext, hmac.symm.trans haccepted.1⟩
      · exact .inr ⟨fun hhex ↦ haccepted (hsame.mpr hhex), fun hcb ↦ haccepted hcb.symm⟩
    · rintro (⟨hcb, htext, hmac⟩ | ⟨hother, hrefused⟩)
      · rw [hmac]
        exact ⟨fun haccepted ↦ ⟨htext, haccepted.1⟩, fun hhex ↦ ⟨hhex.2, hcb⟩⟩
      · exact ⟨fun haccepted ↦ absurd haccepted.symm hrefused, fun hhex ↦ absurd hhex hother⟩

theorem step_running {event : DlEvent} (hevent : event ≠ .start) (hrunning : s.1.phase = .running) :
    ((otaMachine crypto config).step s (.download event)).2 =
    (s.1.downloadEvent crypto config event).2 := by
  have hready : if event = .start then s.1.phase = .created else s.1.phase = .running := by
    rw [if_neg hevent]
    exact hrunning
  rw [otaMachine]
  dsimp only
  rw [otaStep, if_pos hready]

theorem step_not_running {event : DlEvent} (hevent : event ≠ .start)
    (hother : s.1.phase ≠ .running) :
    ((otaMachine crypto config).step s (.download event)).2 = [] := by
  have hready : ¬if event = .start then s.1.phase = .created else s.1.phase = .running := by
    rw [if_neg hevent]
    exact hother
  rw [otaMachine]
  dsimp only
  rw [otaStep, if_neg hready]

theorem step_finish (hrunning : s.1.phase = .running) :
    ((otaMachine crypto config).step s (.download .finish)).2 = s.1.onFinish crypto config :=
  step_running (fun h ↦ nomatch h) hrunning

theorem step_onData {data : DlData} (hrunning : s.1.phase = .running) :
    ((otaMachine crypto config).step s (.download (.onData data))).2 = (s.1.onData config data).2 :=
  step_running (fun h ↦ nomatch h) hrunning

theorem onData_running {data : DlData} {p : ℕ}
    (hmem : .progressReport p ∈ ((otaMachine crypto config).step s (.download (.onData data))).2) :
    s.1.phase = .running ∧ s.1.Reports data ∧ p = downloadPercent data := by
  have hrunning : s.1.phase = .running := by
    by_contra hother
    have hdata : DlEvent.onData data ≠ .start := fun h ↦ nomatch h
    rw [step_not_running hdata hother] at hmem
    exact absurd hmem List.not_mem_nil
  rw [step_onData hrunning] at hmem
  rcases mem_onData hmem with hflash | happ | ⟨hreports, hreport⟩
  · cases hflash
  · cases happ
  · exact ⟨hrunning, hreports, OtaEvent.progressReport.inj hreport⟩

theorem OtaSound.safe (hsound : OtaSound crypto config s x) (h : OtaInv s) (hx : x.Possible) :
    OtaSafe crypto config s x := by
  rcases x with ⟨upgrade, thread⟩ | event
  · trivial
  cases event with
  | start => trivial
  | onFilesize fileSize => trivial
  | onData data =>
      intro hrunning hreports
      have hreport : .progressReport (downloadPercent data) ∈
          ((otaMachine crypto config).step s (.download (.onData data))).2 := by
        rw [step_onData hrunning]
        exact report_mem_onData hreports
      rw [← downloadPercent_eq_iff hx.1 hx.2.1 hx.2.2]
      exact hsound.percent data _ rfl hreport
  | finish =>
      by_cases hrunning : s.1.phase = .running
      · rw [← accept_finish_iff h hrunning]
        have hevent : acceptEvent s.1.channel = .endNotify ∨ acceptEvent s.1.channel = .appFinish :=
          ite_eq_or_eq _ _ _
        have haccept := hsound.accept _ hevent
        rw [step_finish hrunning, mem_onFinish s.1 hevent] at haccept
        simpa [hrunning] using haccept
      · exact fun hrun ↦ absurd hrun hrunning
  | fault => trivial

theorem OtaSafe.sound (hsafe : OtaSafe crypto config s x) (h : OtaInv s) (hx : x.Possible) :
    OtaSound crypto config s x where
  accept event hevent := by
    by_cases hfinish : x = .download .finish ∧ s.1.phase = .running
    · obtain ⟨rfl, hrunning⟩ := hfinish
      rw [← accept_finish_iff h hrunning] at hsafe
      rw [step_finish hrunning, mem_onFinish s.1 hevent, hsafe]
      simp [hrunning]
    · constructor
      · exact fun hmem ↦ absurd (accept_only_finish hevent hmem) hfinish
      · exact fun haccept ↦ absurd ⟨haccept.1, haccept.2.1⟩ hfinish
  percent data p hdata hmem := by
    subst hdata
    obtain ⟨hrunning, hreports, rfl⟩ := onData_running hmem
    rw [downloadPercent_eq_iff hx.1 hx.2.1 hx.2.2]
    exact hsafe hrunning hreports
  sorted := (h.step hx).percents

end Step

/-! ## Runs -/

def otaStart : LoggedOta := (otaInit, ⟨[], []⟩)

theorem otaStart_inv : OtaInv otaStart :=
  ⟨rfl, fun hrunning ↦ (nomatch hrunning), List.Pairwise.nil, fun hrunning ↦ (nomatch hrunning)⟩

/-- Each step of a run is sound exactly when each is safe. -/
theorem ota_accepted (crypto : OtaCrypto) (config : OtaConfig) {xs : List OtaStep}
    (hxs : ∀ x ∈ xs, x.Possible) :
    (∀ k x, xs[k]? = some x →
      OtaSound crypto config ((otaMachine crypto config).final otaStart (xs.take k)) x) ↔
    (otaMachine crypto config).Guarded (OtaSafe crypto config) otaStart xs := by
  have hpossible : (otaMachine crypto config).Guarded (fun _ x ↦ x.Possible) otaStart xs := by
    rw [Mealy.guarded_iff]
    exact fun k x hx ↦ hxs x (List.mem_of_getElem? hx)
  have hinv : ∀ k, OtaInv ((otaMachine crypto config).final otaStart (xs.take k)) := fun k ↦
    Mealy.inv_final _ (fun _ _ h hx ↦ h.step hx) otaStart_inv (hpossible.take k)
  rw [Mealy.guarded_iff]
  constructor
  · intro hsound k x hx
    exact (hsound k x hx).safe (hinv k) (hxs x (List.mem_of_getElem? hx))
  · intro hsafe k x hx
    exact (hsafe k x hx).sound (hinv k) (hxs x (List.mem_of_getElem? hx))

def emptySha256 : List UInt8 :=
  [227, 176, 196, 66, 152, 252, 28, 20, 154, 251, 244, 200, 153, 111, 185, 36,
    39, 174, 65, 228, 100, 155, 147, 76, 164, 149, 153, 27, 120, 82, 184, 85]

def someSha256 : List UInt8 :=
  [3, 144, 88, 198, 242, 192, 203, 73, 44, 83, 59, 10, 77, 20, 239, 119,
    204, 15, 120, 171, 204, 206, 213, 40, 125, 132, 161, 162, 1, 28, 251, 129]

def emptyMac : List UInt8 :=
  [58, 88, 173, 162, 19, 103, 205, 35, 206, 25, 248, 252, 28, 31, 0, 16,
    242, 12, 148, 10, 236, 204, 253, 243, 230, 200, 170, 118, 141, 212, 172, 34]

def someMac : List UInt8 :=
  [84, 101, 51, 189, 71, 33, 159, 171, 198, 246, 48, 17, 56, 5, 246, 54,
    117, 26, 197, 241, 169, 25, 252, 8, 165, 142, 41, 207, 172, 101, 150, 105]

/-- The hashes of no data and of three bytes, with their HMAC under a key. -/
def someCrypto : OtaCrypto where
  sha256 data := if data = [] then emptySha256 else someSha256
  mac _ data := if data = hex2str emptySha256 then emptyMac else someMac
  length_mac key data := by
    split
    · rfl
    · rfl

/-- With a callback, and the key. -/
def someConfig : OtaConfig := ⟨true, [107, 101, 121]⟩

/-- An upgrade of three bytes, of which the last is left once. -/
def someUpgrade (type : ℤ) (hmac : List UInt8) : List OtaStep :=
  [.upgrade ⟨type, hmac⟩ true, .download .start, .download (.onFilesize 3),
    .download (.onData ⟨[1, 2, 3], 0, 3, 1⟩), .download (.onData ⟨[3], 2, 3, 0⟩), .download .finish]

def Accepted (xs : List OtaStep) : Prop :=
  ∀ k x, xs[k]? = some x →
    OtaSound someCrypto someConfig ((otaMachine someCrypto someConfig).final otaStart (xs.take k)) x

theorem ota_accepted_someUpgrade :
    (otaMachine someCrypto someConfig).Guarded (OtaSafe someCrypto someConfig) otaStart
      (someUpgrade 0 (hex2str someMac)) ∧
    Accepted (someUpgrade 0 (hex2str someMac)) :=
  have hsafe : (otaMachine someCrypto someConfig).Guarded (OtaSafe someCrypto someConfig) otaStart
      (someUpgrade 0 (hex2str someMac)) := by
    decide +kernel
  ⟨hsafe, (ota_accepted someCrypto someConfig (by decide)).mpr hsafe⟩

/-- A download of one part, that the application takes whole. -/
def appUpgrade (hmac : List UInt8) : List OtaStep :=
  [.upgrade ⟨1, hmac⟩ true, .download .start, .download (.onData ⟨[1, 2, 3], 0, 3, 0⟩),
    .download .finish]

/-- Another channel is not accepted with its HMAC, and accepted with that of no data; and beyond
2^32 a hundredth part, the whole file is reported as six percent. -/
theorem ota_not_accepted :
    ¬Accepted (appUpgrade (hex2str someMac)) ∧ ¬Accepted (appUpgrade (hex2str emptyMac)) ∧
    ¬Accepted [.upgrade ⟨0, []⟩ true, .download .start,
      .download (.onData ⟨[1], 46000000, 46000000, 0⟩)] := by
  refine ⟨fun h ↦ ?_, fun h ↦ ?_, fun h ↦ ?_⟩
  · have haccept := (h 3 _ rfl).accept .appFinish (.inr rfl)
    have hmem := haccept.mpr ⟨rfl, by decide +kernel, by decide +kernel, by decide +kernel⟩
    exact absurd hmem (by decide +kernel)
  · have haccept := (h 3 _ rfl).accept .appFinish (.inr rfl)
    obtain ⟨-, -, -, hhex⟩ := haccept.mp (by decide +kernel)
    exact absurd hhex (by decide +kernel)
  · have hpercent := (h 2 _ rfl).percent _ 6 rfl (by decide +kernel)
    exact absurd hpercent (by decide)

end TuyaOpen.Cloud
