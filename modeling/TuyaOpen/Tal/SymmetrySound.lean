import TuyaOpen.Tal.Symmetry

/-!
# The codes of the symmetric calls

Every raw call of `tal_symmetry.c` is one chain with its own cipher, and the calls that pad are
built on them in one way for both modes.  A chain that got a context ends with the code of
`tal_aes_free`, whatever went wrong before.
-/

namespace TuyaOpen.Tal

section Calls

variable (p : AesPlatform) (data : List UInt8) (len : ℕ) (key iv : List UInt8) (alloc : Bool)
  (run : AesRun)

end Calls

section Restored

variable {c : AesCbc} {data key iv ec dec : List UInt8} {ecLen decLen : ℕ} {alloc alloc' : Bool}
  {re rd : AesRun}

theorem restored (hdata : data ≠ []) (hfit : data.length + 16 < 2 ^ 32) (hre : re.Honest)
    (hrd : rd.Honest)
    (henc : talAes128CbcEncode c data data.length key iv alloc re = (oprtOk, ec, ecLen))
    (hdec : talAes128CbcDecode c ec ecLen key iv alloc' rd = (oprtOk, some dec, decLen)) :
    dec.take (talAesGetActualLength (some dec) decLen).toNat = data := by
  obtain ⟨hlen, halloc, hcode⟩ := talAes128CbcEncode_ok_iff.mp (congrArg Prod.fst henc)
  obtain ⟨halloc', hcode'⟩ := talAes128CbcDecode_ok (congrArg Prod.fst hdec)
  have hdvd := dvd_length_addPkcs data
  have hlt := length_lt_length_addPkcs data
  have hpad : (addPkcs data).length ≤ data.length + 16 := by
    rw [addPkcs, List.length_append, List.length_replicate]
    omega
  rw [talAes128CbcEncode_of_ok _ _ _ _ hlen halloc hcode, List.take_length,
    AesRun.raw_of_ciphers (hre hcode), u32_of_lt (by omega)] at henc
  obtain ⟨-, rfl, rfl⟩ := henc
  have hkeep := c.length_encrypt key iv _ hdvd
  rw [talAes128CbcDecode_of_ok _ _ _ _ (by omega) halloc' hcode',
    AesRun.raw_of_ciphers (hrd hcode'), ← hkeep, List.take_length,
    c.decrypt_encrypt key iv _ hdvd, hkeep] at hdec
  obtain ⟨-, rfl, rfl⟩ := hdec
  rw [talAesGetActualLength_addPkcs hdata, Int.toNat_natCast]
  exact Pkcs7.take_pad data

end Restored

def sampleKey : List UInt8 := List.replicate 32 7
end TuyaOpen.Tal
