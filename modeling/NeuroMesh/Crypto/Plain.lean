import NeuroMesh.Crypto.IdentityCore

/-!
This module contains a transparent instance of `IdentityCore`. It is not secure, but it has all of the
functional properties that the mesh relies on, so these properties are consistent, and it can be
evaluated.
-/

namespace NeuroMesh
namespace IdentityCore

def hexByte (c : UInt8) : Bytes :=
  [hexDigit (c.toNat / 16), hexDigit (c.toNat % 16)]

def plain : IdentityCore where
  PubKey := Bytes
  PrivKey := Bytes
  signPayload key data := key ++ data
  verifySignature key data signature := signature == key ++ data
  getPemFromPubkey key := key
  getPubkeyFromPem pem := some pem
  sha256Hex data := 0x30 :: data.flatMap hexByte

instance : DecidableEq plain.PubKey :=
  inferInstanceAs (DecidableEq Bytes)

theorem hexByte_injective : Function.Injective hexByte := by
  intro c d h
  have hc := c.toNat_lt
  have hd := d.toNat_lt
  simp only [hexByte, List.cons.injEq, and_true] at h
  have hhigh := congrArg hexValue h.1
  have hlow := congrArg hexValue h.2
  rw [Ascii.hexValue_hexDigit (by omega), Ascii.hexValue_hexDigit (by omega), Option.some.injEq] at hhigh hlow
  apply UInt8.toNat.inj
  omega

theorem flatMap_hexByte_injective : Function.Injective fun data : Bytes => data.flatMap hexByte := by
  intro a b h
  induction a generalizing b with
  | nil =>
    cases b with
    | nil => rfl
    | cons c b => simp [hexByte] at h
  | cons c a ih =>
    cases b with
    | nil => simp [hexByte] at h
    | cons d b =>
      simp only [List.flatMap_cons] at h
      have := List.append_inj h rfl
      rw [hexByte_injective this.1, ih this.2]

theorem plain_collisionFree : plain.CollisionFree := by
  intro a b h
  simp only [plain, List.cons.injEq, true_and] at h
  exact flatMap_hexByte_injective h

theorem plain_hexDigest : plain.HexDigest := by
  intro data
  constructor
  . simp [plain]
  . intro c hc
    simp only [plain, List.mem_cons, List.mem_flatMap, hexByte, List.not_mem_nil, or_false] at hc
    rcases hc with rfl | ⟨x, -, rfl | rfl⟩
    . decide
    . apply Ascii.hexDigit_hex
      have := x.toNat_lt
      omega
    . apply Ascii.hexDigit_hex
      omega

theorem plain_signatureCorrect : plain.SignatureCorrect := by
  intro key data
  simp [plain, verifyWith]

end IdentityCore
end NeuroMesh
