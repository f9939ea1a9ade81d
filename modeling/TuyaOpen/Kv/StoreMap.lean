import TuyaOpen.Kv.Store
import TuyaOpen.Lib.Mealy

/-!
# The key-value store as a map

Any calls, whatever allocations and calls of the file system and of the cipher fail: what a get
reads is what the latest successful set wrote.
-/

namespace TuyaOpen.Kv

open TuyaOpen.Tal

/-- What the store should hold, by the calls that have returned. -/
abbrev KvMap (κ : Type*) := κ → Option (List UInt8)

section Spec

variable {κ : Type*} [DecidableEq κ]

def KvMap.after (map : KvMap κ) : KvReturn κ → KvMap κ
  | .set key value rt => if rt = oprtOk then Function.update map key (some value) else map
  | .get _ _ _ => map
  | .del key rt => if rt = oprtOk then Function.update map key none else map

/-- The store, and what it should hold. -/
def kvMachine (c : AesCbc) (cfg : KvCfg) :
    Mealy (KvStore κ × KvMap κ) (KvStep κ) (KvReturn κ) where
  step s x := (((kvStep c cfg s.1 x).1, s.2.after (kvStep c cfg s.1 x).2), (kvStep c cfg s.1 x).2)

/-- Nothing fails in a get. -/
structure KvGetEnv.Works (env : KvGetEnv) : Prop where
  opened : env.opened = lfsErrOk
  alloc : env.alloc = true
  read : env.read = .done
  decAlloc : env.decAlloc = true
  ciphers : env.aes.Ciphers
  code : env.aes.code = oprtOk

/-- What is set can be read, a get that succeeds returns what was set, and a call leaves no file
open. -/
structure RefinesMap (c : AesCbc) (cfg : KvCfg) (s : KvStore κ × KvMap κ) (x : KvStep κ) :
    Prop where
  readable : ∀ key value, s.2 key = some value → ∀ env : KvGetEnv, env.Works →
    (talKvGet c cfg s.1 key env).2 = (oprtOk, some value)
  exact : ∀ key value, (kvStep c cfg s.1 x).2 = .get key oprtOk (some value) →
    s.2 key = some value
  closed : (kvStep c cfg s.1 x).1.opened = 0

/-- The encryption of a set returns `OPRT_OK`. -/
def KvSetEnv.Encodes (env : KvSetEnv) (value : List UInt8) : Prop :=
  u32 value.length ≠ 0 ∧ env.alloc = true ∧ env.aes.code = oprtOk

instance (env : KvSetEnv) (value : List UInt8) : Decidable (env.Encodes value) :=
  inferInstanceAs (Decidable (_ ∧ _ ∧ _))

/-- Nothing is written to the file. -/
def KvSetEnv.WritesNothing (env : KvSetEnv) (value : List UInt8) : Prop :=
  ¬env.Encodes value ∨ ∃ err, env.write = .failed 0 err

def KvStore.NoValue (s : KvStore κ) (key : κ) : Prop := s.files key = none ∨ s.files key = some []

/-- Once the file is truncated, a set should succeed as a whole, and in truth; or else the
truncation should not reach the store, or do no harm there. -/
def SetSafe (s : KvStore κ) (key : κ) (value : List UInt8) (env : KvSetEnv) : Prop :=
  (addPkcs value).length < 2 ^ 31 ∧
    if env.Encodes value ∧ env.write = .done then env.aes.Ciphers ∧ env.close = lfsErrOk
    else env.close ≠ lfsErrOk ∨ s.NoValue key ∧ env.WritesNothing value

/-- The buffer of a get is there once the file is open, and the code of its cipher is true. -/
def GetSafe (s : KvStore κ) (key : κ) (env : KvGetEnv) : Prop :=
  s.files key ≠ none → env.opened = lfsErrOk →
    env.alloc = true ∧ (env.read = .done → env.decAlloc = true → env.aes.Honest)

def KvSafe (s : KvStore κ × KvMap κ) : KvStep κ → Prop
  | .set key value env => value ≠ [] → env.opened = lfsErrOk → SetSafe s.1 key value env
  | .get key env => GetSafe s.1 key env
  | .del _ _ => True

end Spec

/-! ## The invariant -/

/-- The file of a value. -/
def encoded (c : AesCbc) (cfg : KvCfg) (value : List UInt8) : List UInt8 :=
  c.encrypt cfg.key cfg.seed (addPkcs value)

/-- A file, with the value that its key should have. -/
def FileOk (c : AesCbc) (cfg : KvCfg) (file : Option (List UInt8)) : Option (List UInt8) → Prop
  | some value => file = some (encoded c cfg value) ∧ value ≠ [] ∧ (addPkcs value).length < 2 ^ 31
  | none => file = none ∨ file = some []

structure KvInv {κ : Type*} (c : AesCbc) (cfg : KvCfg) (s : KvStore κ) (map : KvMap κ) : Prop where
  opened : s.opened = 0
  files : ∀ key, FileOk c cfg (s.files key) (map key)

theorem kvInv_init {κ : Type*} (c : AesCbc) (cfg : KvCfg) :
    KvInv c cfg (kvInit : KvStore κ) fun _ ↦ none where
  opened := rfl
  files _ := .inl rfl

section Lengths

theorem length_encoded (c : AesCbc) (cfg : KvCfg) (value : List UInt8) :
    (encoded c cfg value).length = (addPkcs value).length :=
  c.length_encrypt _ _ _ (dvd_length_addPkcs value)

theorem bmod_of_lt {n : ℕ} (h : n < 2 ^ 31) : (n : ℤ).bmod (2 ^ 32) = n := by
  rw [Int.bmod_eq_of_le] <;> omega

theorem u32_bmod {n : ℕ} (h : n < 2 ^ 31) : u32 ((n : ℤ).bmod (2 ^ 32)) = n := by
  rw [bmod_of_lt h]
  exact u32_of_lt (by omega)

theorem u32_lfsErr_ne (err : Fin (2 ^ 31)) {n : ℕ} (h : n < 2 ^ 31) : u32 (lfsErr err) ≠ n := by
  have hlt := err.isLt
  rw [u32, lfsErr]
  omega

theorem lfsErr_nonpos (err : Fin (2 ^ 31)) : lfsErr err ≤ 0 := by
  rw [lfsErr]
  omega

end Lengths

section Set

variable {κ : Type*} [DecidableEq κ] {c : AesCbc} {cfg : KvCfg} {s : KvStore κ} {map : KvMap κ}
  {key : κ} {value : List UInt8}

theorem KvInv.update (h : KvInv c cfg s map) (key : κ) {file value : Option (List UInt8)}
    (hfile : FileOk c cfg file value) {opened : ℕ} (hopened : opened = 0) :
    KvInv c cfg ⟨Function.update s.files key file, opened⟩ (Function.update map key value) := by
  refine ⟨hopened, ?_⟩
  intro key'
  dsimp only
  by_cases hkey : key' = key
  · rw [hkey, Function.update_self, Function.update_self]
    exact hfile
  · rw [Function.update_of_ne hkey, Function.update_of_ne hkey]
    exact h.files key'

theorem KvInv.update_file (h : KvInv c cfg s map) {file : Option (List UInt8)}
    (hfile : FileOk c cfg file (map key)) {opened : ℕ} (hopened : opened = 0) :
    KvInv c cfg ⟨Function.update s.files key file, opened⟩ map := by
  have hupdate := h.update key hfile hopened
  rw [Function.update_eq_self] at hupdate
  exact hupdate

theorem FileOk.created {file value : Option (List UInt8)} (h : FileOk c cfg file value) :
    FileOk c cfg (some (file.getD [])) value := by
  cases value with
  | some value =>
      obtain ⟨rfl, hvalue⟩ := h
      exact ⟨rfl, hvalue⟩
  | none =>
      rcases h with rfl | rfl
      · exact .inr rfl
      · exact .inr rfl

theorem FileOk.empty {file value : Option (List UInt8)} (h : FileOk c cfg file value)
    (hno : file = none ∨ file = some []) : FileOk c cfg (some []) value := by
  cases value with
  | none => exact .inr rfl
  | some value =>
      obtain ⟨rfl, _⟩ := h
      have hpos := length_lt_length_addPkcs value
      rw [← length_encoded c cfg] at hpos
      rcases hno with hno | hno
      · cases hno
      · rw [Option.some.inj hno, List.length_nil] at hpos
        omega

/-! ## Set -/

theorem KvInv.close (h : KvInv c cfg s map) {content : List UInt8} {rt : OperateRet}
    (hcontent : rt ≠ lfsErrOk ∨ FileOk c cfg (some content) (map key)) :
    KvInv c cfg (lfsFileClose (lfsFileOpenTrunc s key lfsErrOk).2.1 ⟨key, content⟩ rt) map := by
  have hopened : s.opened + 1 - 1 = 0 := by
    rw [h.opened]
  rw [lfsFileOpenTrunc, if_neg (not_not.mpr rfl), lfsFileClose]
  dsimp only
  split_ifs with hrt
  · rw [Function.update_idem]
    exact h.update_file (hcontent.resolve_left (not_not.mpr hrt)) hopened
  · exact h.update_file (h.files key).created hopened

theorem KvInv.close_set (h : KvInv c cfg s map) (hne : value ≠ [])
    (hlen : (addPkcs value).length < 2 ^ 31) :
    KvInv c cfg (lfsFileClose (lfsFileOpenTrunc s key lfsErrOk).2.1
      ⟨key, encoded c cfg value⟩ lfsErrOk) (Function.update map key (some value)) := by
  have hopened : s.opened + 1 - 1 = 0 := by
    rw [h.opened]
  rw [lfsFileOpenTrunc, if_neg (not_not.mpr rfl), lfsFileClose]
  dsimp only
  rw [if_pos rfl, Function.update_idem]
  have hfile : FileOk c cfg (some (encoded c cfg value)) (some value) := ⟨rfl, hne, hlen⟩
  exact h.update key hfile hopened

theorem talKvSet_encode_failed {env : KvSetEnv} (hne : value ≠ []) (hopened : env.opened = lfsErrOk)
    {ret : OperateRet} {ecData : List UInt8} {ecLen : ℕ}
    (hencode : talAes128CbcEncode c value (u32 value.length) cfg.key cfg.seed env.alloc env.aes =
      (ret, ecData, ecLen)) (hret : ret ≠ oprtOk) :
    talKvSet c cfg s key value env =
      (lfsFileClose (lfsFileOpenTrunc s key lfsErrOk).2.1 ⟨key, []⟩ env.close, ret) := by
  rw [talKvSet, if_neg hne, hopened, hencode, lfsFileOpenTrunc, if_neg (not_not.mpr rfl)]
  dsimp only
  rw [if_neg (not_not.mpr rfl), if_pos hret]

theorem talKvSet_encoded {env : KvSetEnv} (hne : value ≠ []) (hopened : env.opened = lfsErrOk)
    {ecData : List UInt8} {ecLen : ℕ}
    (hencode : talAes128CbcEncode c value (u32 value.length) cfg.key cfg.seed env.alloc env.aes =
      (oprtOk, ecData, ecLen)) :
    talKvSet c cfg s key value env =
      (lfsFileClose (lfsFileOpenTrunc s key lfsErrOk).2.1
          (lfsFileWrite ⟨key, []⟩ ecData ecLen env.write).2 env.close,
        if u32 (lfsFileWrite (⟨key, []⟩ : LfsFile κ) ecData ecLen env.write).1 ≠ ecLen
        then oprtKvsWrFail else oprtOk) := by
  rw [talKvSet, if_neg hne, hopened, hencode, lfsFileOpenTrunc, if_neg (not_not.mpr rfl)]
  dsimp only
  rw [if_neg (not_not.mpr rfl), if_neg (not_not.mpr rfl)]
  split_ifs <;> rfl

theorem KvInv.set (h : KvInv c cfg s map) {env : KvSetEnv}
    (hsafe : KvSafe (s, map) (.set key value env)) :
    KvInv c cfg (talKvSet c cfg s key value env).1
      (map.after (.set key value (talKvSet c cfg s key value env).2)) := by
  by_cases hne : value = []
  · rw [talKvSet, if_pos hne]
    exact h
  by_cases hopened : env.opened = lfsErrOk
  · obtain ⟨hlen, hcase⟩ := hsafe hne hopened
    have hvalue : u32 value.length = value.length := by
      have hpad := length_lt_length_addPkcs value
      exact u32_of_lt (by omega)
    by_cases hencodes : env.Encodes value
    · have hencode : talAes128CbcEncode c value (u32 value.length) cfg.key cfg.seed env.alloc
          env.aes = (oprtOk, (env.aes.raw (c.encrypt cfg.key cfg.seed) (addPkcs value)).2,
            (addPkcs value).length) := by
        rw [talAes128CbcEncode_of_ok c value cfg.key cfg.seed hencodes.1 hencodes.2.1 hencodes.2.2,
          hvalue, List.take_length, u32_of_lt (by omega)]
      rw [talKvSet_encoded hne hopened hencode]
      cases hwrite : env.write with
      | done =>
          have hwhole : env.Encodes value ∧ env.write = .done := ⟨hencodes, hwrite⟩
          obtain ⟨hciphers, hclose⟩ := (if_pos hwhole).mp hcase
          have hdata : (env.aes.raw (c.encrypt cfg.key cfg.seed) (addPkcs value)).2 =
              encoded c cfg value := by
            rw [AesRun.raw_of_ciphers hciphers, encoded]
          have hall : (encoded c cfg value).take (addPkcs value).length = encoded c cfg value := by
            rw [← length_encoded c cfg, List.take_length]
          rw [lfsFileWrite_done, hdata, hall, hclose]
          dsimp only
          rw [u32_bmod hlen, if_neg (not_not.mpr rfl), KvMap.after, if_pos rfl]
          exact h.close_set hne hlen
      | failed n err =>
          have hpart : ¬(env.Encodes value ∧ env.write = .done) := by
            rintro ⟨_, hdone⟩
            cases hwrite.symm.trans hdone
          rw [if_neg hpart] at hcase
          rw [lfsFileWrite_failed]
          dsimp only
          rw [if_pos (u32_lfsErr_ne err hlen), KvMap.after, if_neg (by decide)]
          apply h.close
          refine hcase.imp_right ?_
          rintro ⟨hno, hnot | ⟨err', hzero⟩⟩
          · exact absurd hencodes hnot
          · obtain ⟨rfl, _⟩ := LfsWrite.failed.inj (hwrite.symm.trans hzero)
            rw [List.take_zero]
            exact (h.files key).empty hno
    · rw [if_neg fun hand ↦ hencodes hand.1] at hcase
      generalize hencode : talAes128CbcEncode c value (u32 value.length) cfg.key cfg.seed env.alloc
        env.aes = encode
      obtain ⟨ret, ecData, ecLen⟩ := encode
      have hret : ret ≠ oprtOk := by
        rintro rfl
        apply hencodes
        apply talAes128CbcEncode_ok_iff.mp
        rw [hencode]
      rw [talKvSet_encode_failed hne hopened hencode hret]
      dsimp only
      rw [KvMap.after, if_neg hret]
      apply h.close
      refine hcase.imp_right ?_
      rintro ⟨hno, _⟩
      exact (h.files key).empty hno
  · have hopen : lfsFileOpenTrunc s key env.opened = (env.opened, s, ⟨key, []⟩) := if_pos hopened
    have hfail : env.opened ≠ oprtOk := hopened
    rw [talKvSet, if_neg hne, hopen]
    dsimp only
    rw [if_pos hopened, KvMap.after, if_neg hfail]
    exact h

end Set

/-! ## Get -/

section Get

variable {κ : Type*} {c : AesCbc} {cfg : KvCfg} {s : KvStore κ} {key : κ} {value : List UInt8}

theorem talKvGet_store {env : KvGetEnv} (hsafe : GetSafe s key env) :
    (talKvGet c cfg s key env).1 = s := by
  cases hfile : s.files key with
  | none =>
      rw [talKvGet, lfsFileOpenRdonly, hfile]
      dsimp only
      rw [if_pos (by decide)]
  | some content =>
      rw [talKvGet, lfsFileOpenRdonly, hfile]
      dsimp only
      by_cases hopened : env.opened = lfsErrOk
      · obtain ⟨halloc, _⟩ := hsafe (by simp [hfile]) hopened
        rw [if_neg (not_not.mpr hopened)]
        dsimp only
        rw [if_neg (not_not.mpr rfl), if_neg (by simp [halloc])]
        split_ifs <;> rfl
      · rw [if_pos hopened]
        dsimp only
        rw [if_pos hopened]

theorem talKvGet_read (c : AesCbc) (cfg : KvCfg) {env : KvGetEnv} {content : List UInt8}
    (hfile : s.files key = some content) (hopened : env.opened = lfsErrOk)
    (halloc : env.alloc = true) :
    (talKvGet c cfg s key env).2 =
      if lfsFileRead ⟨key, content⟩ env.read ≤ 0 then (oprtKvsRdFail, none)
      else
        let (result, decData, decLen) := talAes128CbcDecode c content (u32 content.length) cfg.key
          cfg.seed env.decAlloc env.aes
        let decLen := u32 (talAesGetActualLength decData decLen)
        if result ≠ oprtOk ∨ u32 content.length < decLen then (oprtBufferNotEnough, none)
        else (oprtOk, decData.map (List.take decLen)) := by
  rw [talKvGet, lfsFileOpenRdonly, hfile]
  dsimp only
  rw [if_neg (not_not.mpr hopened)]
  dsimp only
  rw [if_neg (not_not.mpr rfl), if_neg (by simp [halloc])]
  split_ifs <;> rfl

theorem get_of_encoded {env : KvGetEnv} (hfile : FileOk c cfg (s.files key) (some value))
    (hopened : env.opened = lfsErrOk) (halloc : env.alloc = true) (hread : env.read = .done)
    (hdecAlloc : env.decAlloc = true) (hciphers : env.aes.Ciphers) (hcode : env.aes.code = oprtOk) :
    (talKvGet c cfg s key env).2 = (oprtOk, some value) := by
  obtain ⟨hfile, hne, hlen⟩ := hfile
  have hlength := length_encoded c cfg value
  have hpad := length_lt_length_addPkcs value
  have hu32 : u32 (encoded c cfg value).length = (addPkcs value).length := by
    rw [hlength]
    exact u32_of_lt (by omega)
  have hactual : u32 (talAesGetActualLength (some (addPkcs value)) (addPkcs value).length) =
      value.length := by
    rw [talAesGetActualLength_addPkcs hne]
    exact u32_of_lt (by omega)
  have hdecrypt : (env.aes.raw (c.decrypt cfg.key cfg.seed) (encoded c cfg value)).2 =
      addPkcs value := by
    rw [AesRun.raw_of_ciphers hciphers, encoded]
    exact c.decrypt_encrypt _ _ _ (dvd_length_addPkcs value)
  have hdecode : talAes128CbcDecode c (encoded c cfg value) (addPkcs value).length cfg.key cfg.seed
      env.decAlloc env.aes = (oprtOk, some (addPkcs value), (addPkcs value).length) := by
    rw [talAes128CbcDecode_of_ok c _ _ _ (by omega) hdecAlloc hcode, ← hlength, List.take_length,
      hdecrypt]
  have hvalue : (addPkcs value).take value.length = value := Pkcs7.take_pad value
  rw [talKvGet_read c cfg hfile hopened halloc, hread, lfsFileRead_done]
  dsimp only
  rw [hlength, bmod_of_lt hlen, if_neg (by omega), ← hlength, hu32, hdecode]
  dsimp only
  rw [hactual, if_neg (by simp; omega), Option.map_some, hvalue]

theorem talKvGet_failed {env : KvGetEnv} (hfail : s.files key = none ∨ env.opened ≠ lfsErrOk) :
    (talKvGet c cfg s key env).2.1 ≠ oprtOk := by
  cases hfile : s.files key with
  | none =>
      rw [talKvGet, lfsFileOpenRdonly, hfile]
      dsimp only
      rw [if_pos (by decide)]
      change lfsErrNoent ≠ oprtOk
      decide
  | some content =>
      have hopened := hfail.resolve_left (by simp [hfile])
      rw [talKvGet, lfsFileOpenRdonly, hfile]
      dsimp only
      rw [if_pos hopened]
      dsimp only
      rw [if_pos hopened]
      exact hopened

theorem get_exact {env : KvGetEnv} {file : Option (List UInt8)}
    (hfile : FileOk c cfg (s.files key) file) (hsafe : GetSafe s key env)
    (hget : (talKvGet c cfg s key env).2 = (oprtOk, some value)) : file = some value := by
  have hcode : (talKvGet c cfg s key env).2.1 = oprtOk := by rw [hget]
  have hopened : env.opened = lfsErrOk := by
    by_contra hfail
    exact talKvGet_failed (.inr hfail) hcode
  cases hcontent : s.files key with
  | none => exact absurd hcode (talKvGet_failed (.inl hcontent))
  | some content =>
      obtain ⟨halloc, hhonest⟩ := hsafe (by simp [hcontent]) hopened
      have hread := talKvGet_read c cfg hcontent hopened halloc
      rw [hget] at hread
      have hsome : ¬lfsFileRead ⟨key, content⟩ env.read ≤ 0 := by
        intro hnone
        rw [if_pos hnone] at hread
        cases (Prod.mk.inj hread).2
      rw [if_neg hsome] at hread
      have hdecode : (talAes128CbcDecode c content (u32 content.length) cfg.key cfg.seed
          env.decAlloc env.aes).1 = oprtOk := by
        by_contra hbad
        dsimp only at hread
        rw [if_pos (.inl hbad)] at hread
        cases (Prod.mk.inj hread).2
      obtain ⟨hdecAlloc, hok⟩ := talAes128CbcDecode_ok hdecode
      have hdone : env.read = .done := by
        cases hr : env.read with
        | done => rfl
        | failed err =>
            rw [hr, lfsFileRead_failed] at hsome
            exact absurd (lfsErr_nonpos err) hsome
      cases file with
      | none =>
          have hempty : content = [] := by
            rcases hfile with hfile | hfile
            · cases hcontent.symm.trans hfile
            · exact Option.some.inj (hcontent.symm.trans hfile)
          rw [hdone, hempty, lfsFileRead_done] at hsome
          dsimp only at hsome
          rw [List.length_nil, bmod_of_lt (by decide)] at hsome
          omega
      | some value' =>
          have hvalue := get_of_encoded hfile hopened halloc hdone hdecAlloc
            (hhonest hdone hdecAlloc hok) hok
          rw [hget] at hvalue
          exact ((Prod.mk.inj hvalue).2).symm

end Get

/-! ## Steps -/

section Steps

variable {κ : Type*} [DecidableEq κ] {c : AesCbc} {cfg : KvCfg} {s : KvStore κ} {map : KvMap κ}

theorem KvInv.del (h : KvInv c cfg s map) (key : κ) (remove : OperateRet) :
    KvInv c cfg (talKvDel s key remove).1 (map.after (.del key (talKvDel s key remove).2)) := by
  have herr : oprtComError ≠ oprtOk := by decide
  cases hfile : s.files key with
  | none =>
      rw [talKvDel, lfsRemove, hfile]
      dsimp only
      rw [if_neg (by decide), KvMap.after, if_neg herr]
      exact h
  | some content =>
      rw [talKvDel, lfsRemove, hfile]
      dsimp only
      by_cases hremove : remove = lfsErrOk
      · rw [if_neg (not_not.mpr hremove)]
        dsimp only
        rw [if_pos rfl, KvMap.after, if_pos rfl]
        have hnone : FileOk c cfg none none := .inl rfl
        exact h.update key hnone h.opened
      · rw [if_pos hremove]
        dsimp only
        rw [if_neg hremove, KvMap.after, if_neg herr]
        exact h

theorem KvInv.step {s : KvStore κ × KvMap κ} (h : KvInv c cfg s.1 s.2) {x : KvStep κ}
    (hx : KvSafe s x) :
    KvInv c cfg ((kvMachine c cfg).step s x).1.1 ((kvMachine c cfg).step s x).1.2 := by
  obtain ⟨s, map⟩ := s
  cases x with
  | set key value env => exact h.set hx
  | get key env =>
      change KvInv c cfg (talKvGet c cfg s key env).1 map
      rw [talKvGet_store hx]
      exact h
  | del key remove => exact h.del key remove

theorem KvInv.refines {s : KvStore κ × KvMap κ} (h : KvInv c cfg s.1 s.2) {x : KvStep κ}
    (hx : KvSafe s x) : RefinesMap c cfg s x where
  readable := by
    intro key value hmap env henv
    have hfile := h.files key
    rw [hmap] at hfile
    exact get_of_encoded hfile henv.opened henv.alloc henv.read henv.decAlloc henv.ciphers henv.code
  exact := by
    intro key value hreturn
    cases x with
    | get key' env =>
        obtain ⟨rfl, hrt, hvalue⟩ := KvReturn.get.inj hreturn
        exact get_exact (h.files key') hx (Prod.ext hrt hvalue)
    | set | del => cases hreturn
  closed := (h.step hx).opened

end Steps

/-! ## Runs -/

/-- In every run in which a set that has truncated its file succeeds, in truth, or else the
truncation does no harm, and a get has its buffer and a true code of its cipher. -/
theorem kv_refines_map {κ : Type*} [DecidableEq κ] (c : AesCbc) (cfg : KvCfg)
    {steps : List (KvStep κ)}
    (h : (kvMachine c cfg).Guarded KvSafe (kvInit, fun _ ↦ none) steps) (k : ℕ) {x : KvStep κ}
    (hx : steps[k]? = some x) :
    RefinesMap c cfg ((kvMachine c cfg).final (kvInit, fun _ ↦ none) (steps.take k)) x := by
  obtain ⟨hbefore, hsafe⟩ := h.step_at hx
  have hinv := (kvMachine c cfg).inv_final (I := fun s ↦ KvInv c cfg s.1 s.2)
    (fun _ _ hs hq ↦ hs.step hq) (kvInv_init c cfg) hbefore
  exact hinv.refines hsafe

/-- The hashes of the seed `vmlkasdh93dlvlcy` and the key `dflfuap134ddlduq`. -/
def someCfg : KvCfg where
  seed := [143, 8, 26, 230, 128, 19, 159, 102, 251, 41, 165, 231, 197, 87, 112, 218]
  key := [7, 225, 234, 45, 8, 249, 43, 248, 140, 155, 148, 234, 101, 146, 81, 52]

/-- What the values `7` and `8` encrypt to. -/
def valueTable : List (List UInt8 × List UInt8) :=
  [(addPkcs [7], [229, 2, 74, 251, 33, 91, 185, 45, 3, 63, 165, 189, 141, 39, 86, 159]),
    (addPkcs [8], [119, 13, 121, 203, 148, 140, 25, 65, 10, 86, 124, 235, 96, 198, 63, 248])]

theorem valueTable_lengths : ∀ e ∈ valueTable, e.1.length = e.2.length := by decide

def valueCbc : AesCbc := tableCbc someCfg.key someCfg.seed valueTable valueTable_lengths

def aesOk : AesRun := ⟨oprtOk, true, oprtOk, oprtOk, oprtOk, []⟩
def setOk : KvSetEnv := ⟨lfsErrOk, true, aesOk, .done, lfsErrOk⟩
def getOk : KvGetEnv := ⟨lfsErrOk, true, .done, true, aesOk⟩

theorem getOk_works : getOk.Works := ⟨rfl, rfl, rfl, rfl, ⟨rfl, rfl, rfl⟩, rfl⟩

theorem kv_refines_map_setOk :
    RefinesMap valueCbc someCfg ((kvMachine valueCbc someCfg).final (kvInit, fun _ ↦ none)
      (([.set 1 [7] setOk, .get 1 getOk] : List (KvStep ℕ)).take 1)) (.get 1 getOk) := by
  have hguard : (kvMachine valueCbc someCfg).Guarded KvSafe (kvInit, fun _ ↦ none)
      ([.set 1 [7] setOk, .get 1 getOk] : List (KvStep ℕ)) := by
    refine ⟨?_, ?_, trivial⟩
    · intro _ _
      have hwhole : setOk.Encodes [7] ∧ setOk.write = .done := ⟨⟨by decide, rfl, rfl⟩, rfl⟩
      refine ⟨by decide, ?_⟩
      rw [if_pos hwhole]
      exact ⟨⟨rfl, rfl, rfl⟩, rfl⟩
    · intro _ _
      exact ⟨rfl, fun _ _ _ ↦ ⟨rfl, rfl, rfl⟩⟩
  exact kv_refines_map valueCbc someCfg hguard 1 rfl

/-- There is no memory for the encryption of a second set; its write fails; its close fails; or the
cipher fails and the release of its context does not; and there is no memory for a get. -/
theorem kv_loses_values :
    ¬RefinesMap valueCbc someCfg ((kvMachine valueCbc someCfg).final (kvInit, fun _ ↦ none)
      ([.set 1 [7] setOk, .set 1 [8] { setOk with alloc := false }] : List (KvStep ℕ)))
      (.get 1 getOk) ∧
    ¬RefinesMap valueCbc someCfg ((kvMachine valueCbc someCfg).final (kvInit, fun _ ↦ none)
      ([.set 1 [7] setOk, .set 1 [8] { setOk with write := .failed 0 27 }] : List (KvStep ℕ)))
      (.get 1 getOk) ∧
    ¬RefinesMap valueCbc someCfg ((kvMachine valueCbc someCfg).final (kvInit, fun _ ↦ none)
      ([.set 1 [7] setOk, .set 1 [8] { setOk with close := -5 }] : List (KvStep ℕ)))
      (.get 1 getOk) ∧
    ¬RefinesMap valueCbc someCfg ((kvMachine valueCbc someCfg).final (kvInit, fun _ ↦ none)
      ([.set 1 [7] { setOk with aes := { aesOk with crypt := -1 } }] : List (KvStep ℕ)))
      (.get 1 getOk) ∧
    ¬RefinesMap valueCbc someCfg ((kvMachine valueCbc someCfg).final (kvInit, fun _ ↦ none)
      ([.set 1 [7] setOk] : List (KvStep ℕ))) (.get 1 { getOk with alloc := false }) := by
  refine ⟨?_, ?_, ?_, ?_, ?_⟩
  · intro h
    exact absurd (h.readable 1 [7] rfl getOk getOk_works) (by decide)
  · intro h
    exact absurd (h.readable 1 [7] rfl getOk getOk_works) (by decide)
  · intro h
    exact absurd (h.readable 1 [8] rfl getOk getOk_works) (by decide)
  · intro h
    exact absurd (h.readable 1 [7] rfl getOk getOk_works) (by decide)
  · intro h
    exact absurd h.closed (by decide)

end TuyaOpen.Kv
