import NeuroMesh.Common.Bytes

/-!
This module contains the interface of `crypto::IdentityCore`. Its functions are thin wrappers around
OpenSSL, so they are parameters of the model and the properties that the mesh relies on are stated
as predicates on them.
-/

namespace NeuroMesh

structure IdentityCore where
  PubKey : Type
  PrivKey : Type
  signPayload : PrivKey → Bytes → Bytes
  verifySignature : PubKey → Bytes → Bytes → Bool
  getPemFromPubkey : PrivKey → Bytes
  getPubkeyFromPem : Bytes → Option PubKey
  sha256Hex : Bytes → Bytes

namespace IdentityCore

def verifyWith (C : IdentityCore) (key : Option C.PubKey) (data signature : Bytes) : Bool :=
  match key with
  | some key => C.verifySignature key data signature
  | none => false

def CollisionFree (C : IdentityCore) : Prop :=
  Function.Injective C.sha256Hex

/--
A SHA-256 digest is a non empty string of hexadecimal digits.
-/
def HexDigest (C : IdentityCore) : Prop :=
  ∀ data, C.sha256Hex data ≠ [] ∧
    ∀ c ∈ C.sha256Hex data, isDigit c ∨ (0x61 ≤ c ∧ c ≤ 0x66)

/--
A signature made with a private key verifies under the public key of its PEM.
-/
def SignatureCorrect (C : IdentityCore) : Prop :=
  ∀ key data, C.verifyWith (C.getPubkeyFromPem (C.getPemFromPubkey key)) data
    (C.signPayload key data) = true

end IdentityCore
end NeuroMesh
