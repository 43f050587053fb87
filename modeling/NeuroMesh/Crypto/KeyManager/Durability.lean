import NeuroMesh.Crypto.KeyManager

namespace NeuroMesh
namespace KeyManager

variable {O : OpenSSL}

def EncryptionFails (manager : KeyManager O) (faults : StoreFaults) : Prop :=
  manager.passphrase ≠ []
    ∧ (faults.salt = none ∨ faults.derive = true ∨ faults.iv = none ∨ EvpCall.all.any faults.evp = true)

structure Durable (manager : KeyManager O) (faults : StoreFaults) (keyPair : KeyPair O) : Prop where
  stored : (manager.storeKey faults keyPair).1 = true →
    ∃ loaded, (manager.storeKey faults keyPair).2.loadKey keyPair.keyId = some loaded
      ∧ loaded.privateKey = keyPair.privateKey
  kept : (manager.storeKey faults keyPair).1 = false →
    (manager.storeKey faults keyPair).2.loadKey keyPair.keyId = manager.loadKey keyPair.keyId
  encrypted : manager.EncryptionFails faults →
    (manager.storeKey faults keyPair).2.loadKey keyPair.keyId = manager.loadKey keyPair.keyId

structure Opens (manager : KeyManager O) (faults : StoreFaults) (keyPair : KeyPair O) (key : O.PKey) : Prop where
  keystorePath : manager.keystorePath ≠ []
  privateKey : keyPair.privateKey = some key
  serialized : (faults.bio || faults.pem) = false
  opened : faults.openFile = false

def Replaces (faults : StoreFaults) : Prop :=
  faults.write = none ∧ faults.rename = false

def blob (manager : KeyManager O) (faults : StoreFaults) (key : O.PKey) : Bytes :=
  manager.encryptBlob faults (O.writePrivateKey key)

def written (manager : KeyManager O) (faults : StoreFaults) (key : O.PKey) : Bytes :=
  (manager.blob faults key).take (faults.write.getD (manager.blob faults key).length)

def replaced (manager : KeyManager O) (faults : StoreFaults) (keyPair : KeyPair O) (key : O.PKey)
    : KeyManager O :=
  let tmpFile := cStr (manager.tmpFile keyPair.keyId)
  { manager with
    files := move (manager.files.insert tmpFile (manager.blob faults key)) tmpFile
      (cStr (manager.keyFile keyPair.keyId)),
    cachedKey := some keyPair }

def abandoned (manager : KeyManager O) (faults : StoreFaults) (keyPair : KeyPair O) (key : O.PKey)
    : KeyManager O :=
  let tmpFile := cStr (manager.tmpFile keyPair.keyId)
  { manager with files := remove faults (manager.files.insert tmpFile (manager.written faults key)) tmpFile }

def leftover (manager : KeyManager O) (faults : StoreFaults) (key : O.PKey) : Option Bytes :=
  if faults.unlink then some (manager.written faults key) else none

section Blob

variable {manager : KeyManager O} {faults : StoreFaults} {plaintext : Bytes}

theorem writePrivateKey_ne_nil (key : O.PKey) : O.writePrivateKey key ≠ [] := by
  intro h
  have hread := O.readPrivateKey_writePrivateKey key
  rw [h, O.readPrivateKey_nil] at hread
  contradiction

theorem aesGcmDecrypt_append (key plaintext : Bytes) (iv : Vector UInt8 12)
    : aesGcmDecrypt O
        (iv.toList ++ ((O.encrypt key iv.toList plaintext).1 ++ (O.encrypt key iv.toList plaintext).2)) key
        = plaintext := by
  have hiv : iv.toList.length = 12 := iv.length_toList
  have htag := O.length_tag key iv.toList plaintext
  have hopen := O.decrypt_encrypt key iv.toList plaintext
  generalize O.encrypt key iv.toList plaintext = sealed at htag hopen
  obtain ⟨ciphertext, tag⟩ := sealed
  have hlength : (iv.toList ++ (ciphertext ++ tag)).length - 16 = (iv.toList ++ ciphertext).length := by
    simp only [List.length_append] at htag ⊢
    omega
  have hctLen : (iv.toList ++ (ciphertext ++ tag)).length - 12 - 16 = ciphertext.length := by
    simp only [List.length_append] at htag ⊢
    omega
  unfold aesGcmDecrypt
  rw [if_neg]
  . dsimp only
    rw [hlength, hctLen, List.take_left' hiv, List.drop_left' hiv, List.take_left, ← List.append_assoc,
      List.drop_left, hopen]
    rfl
  . simp only [List.length_append] at htag ⊢
    omega

theorem encryptBlob_of_fails (h : manager.EncryptionFails faults) : manager.encryptBlob faults plaintext = [] := by
  obtain ⟨hpassphrase, hfails⟩ := h
  unfold encryptBlob
  rw [if_neg hpassphrase]
  cases hsalt : faults.salt with
  | none => rfl
  | some salt =>
    cases hiv : faults.iv with
    | none => simp [aesGcmEncrypt, hiv]
    | some iv =>
      simp only [hsalt, hiv, reduceCtorEq, false_or] at hfails
      rcases hfails with hderive | hevp
      . simp [hderive]
      . simp [aesGcmEncrypt, hiv, hevp]

theorem decryptBlob_encryptBlob (hne : plaintext ≠ []) (h : ¬manager.EncryptionFails faults)
    : manager.decryptBlob (manager.encryptBlob faults plaintext) = plaintext := by
  unfold EncryptionFails at h
  unfold decryptBlob encryptBlob
  by_cases hpassphrase : manager.passphrase = []
  . simp [hpassphrase]
  . simp only [hpassphrase, ne_eq, not_false_eq_true, true_and, not_or] at h
    obtain ⟨hsalt, hderive, hiv, hevp⟩ := h
    obtain ⟨salt, hsalt⟩ := Option.ne_none_iff_exists'.mp hsalt
    obtain ⟨iv, hiv⟩ := Option.ne_none_iff_exists'.mp hiv
    have hlength : salt.toList.length = 16 := salt.length_toList
    simp only [hpassphrase, if_false, hsalt, hderive, aesGcmEncrypt, hne, hiv, hevp, Bool.false_eq_true]
    have hsome : iv.toList ≠ [] := by
      apply List.ne_nil_of_length_pos
      simp
    rw [if_neg (by simp [hsome]), if_neg (by simp), List.drop_left' hlength, List.take_left' hlength]
    exact aesGcmDecrypt_append _ _ _

theorem readKey_blob (key : O.PKey)
    : manager.readKey (manager.blob faults key) = some key ↔ ¬manager.EncryptionFails faults := by
  unfold readKey blob
  constructor
  . intro h hfails
    have hnil : manager.decryptBlob [] = [] := by
      simp [decryptBlob]
    rw [encryptBlob_of_fails hfails, hnil, O.readPrivateKey_nil] at h
    contradiction
  . intro h
    rw [decryptBlob_encryptBlob (writePrivateKey_ne_nil key) h]
    exact O.readPrivateKey_writePrivateKey key

end Blob

section Files

variable {manager : KeyManager O} {faults : StoreFaults} {files : Map Bytes Bytes} {path path' content : Bytes}

theorem getElem?_remove_insert
    : (remove faults (files.insert path content) path)[path']?
        = if path = path' then (if faults.unlink then some content else none) else files[path']? := by
  unfold remove
  by_cases hpath : path = path'
  . subst hpath
    cases faults.unlink <;> simp
  . cases faults.unlink <;> simp [Std.ExtTreeMap.getElem?_insert, Std.ExtTreeMap.getElem?_erase, hpath]

theorem getElem?_move_insert_self : (move (files.insert path content) path path')[path']? = some content := by
  unfold move
  rw [Std.ExtTreeMap.getElem?_insert_self]
  dsimp only
  split
  . next h => rw [← h, Std.ExtTreeMap.getElem?_insert_self]
  . rw [Std.ExtTreeMap.getElem?_insert_self]

theorem cStr_tmpFile_eq_iff (manager : KeyManager O) (keyId : Bytes)
    : cStr (manager.tmpFile keyId) = cStr (manager.keyFile keyId) ↔ 0 ∈ manager.keyFile keyId := by
  unfold tmpFile
  rw [List.append_assoc]
  constructor
  . intro h
    by_contra hzero
    rw [cStr_append hzero, cStr_of_notMem hzero, List.append_right_eq_self] at h
    have hhead := congrArg List.head? h
    contradiction
  . exact cStr_append_of_mem _

end Files

section Store

variable {manager : KeyManager O} {faults : StoreFaults} {keyPair : KeyPair O} {key : O.PKey}

theorem storeKey_of_not_opens (h : ∀ key, ¬manager.Opens faults keyPair key)
    : manager.storeKey faults keyPair = (false, manager) := by
  unfold storeKey
  split
  . rfl
  . next hpath =>
    cases hkey : keyPair.privateKey with
    | none => rfl
    | some key =>
      dsimp only
      split
      . rfl
      . next hserialized =>
        rw [if_pos]
        by_contra hopened
        exact h key ⟨hpath, hkey, by simpa using hserialized, by simpa using hopened⟩

theorem storeKey_of_opens (h : manager.Opens faults keyPair key)
    : (Replaces faults ∧ manager.storeKey faults keyPair = (true, manager.replaced faults keyPair key))
        ∨ (¬Replaces faults ∧ manager.storeKey faults keyPair = (false, manager.abandoned faults keyPair key)) := by
  unfold storeKey Replaces replaced abandoned written blob
  rw [if_neg h.keystorePath, h.privateKey]
  simp only [h.serialized, h.opened, Bool.false_eq_true, if_false]
  cases hwrite : faults.write with
  | some written => simp
  | none =>
    cases hrename : faults.rename with
    | true => simp
    | false => simp

def loaded (keyId : Bytes) (key : O.PKey) : KeyPair O :=
  { keyId, publicKey := some key, privateKey := some key, type := (O.baseId key).getD .ed25519 }

theorem loadKey_eq (hpath : manager.keystorePath ≠ []) (keyId : Bytes)
    : manager.loadKey keyId
        = (manager.files[cStr (manager.keyFile keyId)]?.bind manager.readKey).map (loaded keyId) := by
  unfold loadKey
  rw [if_neg hpath]
  cases manager.files[cStr (manager.keyFile keyId)]? with
  | none => rfl
  | some stored =>
    cases hread : manager.readKey stored with
    | none => simp [hread]
    | some key => simp [hread, loaded]

theorem loaded_injective (keyId : Bytes) : Function.Injective (loaded (O := O) keyId) := by
  intro key key' h
  simpa [loaded] using congrArg KeyPair.privateKey h

theorem loadKey_replaced (hpath : manager.keystorePath ≠ [])
    : (manager.replaced faults keyPair key).loadKey keyPair.keyId
        = (manager.readKey (manager.blob faults key)).map (loaded keyPair.keyId) := by
  have hfile : (manager.replaced faults keyPair key).files[cStr (manager.keyFile keyPair.keyId)]?
      = some (manager.blob faults key) := getElem?_move_insert_self
  have hkept : (manager.replaced faults keyPair key).keystorePath ≠ [] := hpath
  have hload := loadKey_eq hkept keyPair.keyId
  rw [show (manager.replaced faults keyPair key).keyFile keyPair.keyId = manager.keyFile keyPair.keyId from rfl,
    hfile] at hload
  exact hload

theorem loadKey_abandoned (hpath : manager.keystorePath ≠ [])
    : (manager.abandoned faults keyPair key).loadKey keyPair.keyId = manager.loadKey keyPair.keyId
        ↔ (0 ∈ manager.keyFile keyPair.keyId →
            (manager.leftover faults key).bind manager.readKey
              = manager.files[cStr (manager.keyFile keyPair.keyId)]?.bind manager.readKey) := by
  have hkept : (manager.abandoned faults keyPair key).keystorePath ≠ [] := hpath
  have hload := loadKey_eq hkept keyPair.keyId
  have hfile : (manager.abandoned faults keyPair key).files[cStr (manager.keyFile keyPair.keyId)]?
      = if 0 ∈ manager.keyFile keyPair.keyId then manager.leftover faults key
        else manager.files[cStr (manager.keyFile keyPair.keyId)]? := by
    simp only [← cStr_tmpFile_eq_iff]
    exact getElem?_remove_insert
  rw [show (manager.abandoned faults keyPair key).keyFile keyPair.keyId = manager.keyFile keyPair.keyId from rfl,
    hfile] at hload
  rw [hload, loadKey_eq hpath, (Option.map_injective (loaded_injective keyPair.keyId)).eq_iff]
  by_cases hzero : 0 ∈ manager.keyFile keyPair.keyId
  . simp only [hzero, if_true, true_implies]
    rfl
  . simp only [hzero, if_false, false_implies, iff_true]
    rfl

theorem durable_iff_of_replaces (h : manager.Opens faults keyPair key) (hreplaces : Replaces faults)
    : manager.Durable faults keyPair ↔ ¬manager.EncryptionFails faults := by
  rcases storeKey_of_opens h with ⟨-, hstore⟩ | ⟨hnot, -⟩
  . rw [← readKey_blob key]
    have hload : (manager.replaced faults keyPair key).loadKey keyPair.keyId = _ :=
      loadKey_replaced h.keystorePath
    constructor
    . intro hdurable
      have hstored := hdurable.stored
      rw [hstore] at hstored
      obtain ⟨pair, hpair, hprivate⟩ := hstored rfl
      rw [hload, Option.map_eq_some_iff] at hpair
      obtain ⟨key', hkey', rfl⟩ := hpair
      rw [h.privateKey] at hprivate
      cases hprivate
      exact hkey'
    . intro hread
      rw [hread] at hload
      refine ⟨?_, ?_, ?_⟩
      . intro _
        rw [hstore, h.privateKey]
        exact ⟨_, hload, rfl⟩
      . rw [hstore]
        intro hfalse
        contradiction
      . intro hfails
        exact absurd hfails ((readKey_blob key).mp hread)
  . contradiction

theorem durable_iff_of_not_replaces (h : manager.Opens faults keyPair key) (hreplaces : ¬Replaces faults)
    : manager.Durable faults keyPair
        ↔ (manager.abandoned faults keyPair key).loadKey keyPair.keyId = manager.loadKey keyPair.keyId := by
  rcases storeKey_of_opens h with ⟨hyes, -⟩ | ⟨-, hstore⟩
  . contradiction
  . constructor
    . intro hdurable
      have hkept := hdurable.kept
      rw [hstore] at hkept
      exact hkept rfl
    . intro hload
      refine ⟨?_, ?_, ?_⟩
      . rw [hstore]
        intro htrue
        contradiction
      . intro _
        rw [hstore]
        exact hload
      . intro _
        rw [hstore]
        exact hload

theorem durable_of_not_opens (h : ∀ key, ¬manager.Opens faults keyPair key) : manager.Durable faults keyPair := by
  have hstore := storeKey_of_not_opens h
  refine ⟨?_, ?_, ?_⟩
  . rw [hstore]
    intro htrue
    contradiction
  . intro _
    rw [hstore]
  . intro _
    rw [hstore]

theorem durable_iff (manager : KeyManager O) (faults : StoreFaults) (keyPair : KeyPair O)
    : manager.Durable faults keyPair
        ↔ ∀ key, manager.Opens faults keyPair key →
            (Replaces faults → ¬manager.EncryptionFails faults)
            ∧ (¬Replaces faults → 0 ∈ manager.keyFile keyPair.keyId →
                (manager.leftover faults key).bind manager.readKey
                  = manager.files[cStr (manager.keyFile keyPair.keyId)]?.bind manager.readKey) := by
  constructor
  . intro hdurable key hopens
    constructor
    . intro hreplaces
      exact (durable_iff_of_replaces hopens hreplaces).mp hdurable
    . intro hreplaces
      rw [durable_iff_of_not_replaces hopens hreplaces, loadKey_abandoned hopens.keystorePath] at hdurable
      exact hdurable
  . intro h
    by_cases hopens : ∀ key, ¬manager.Opens faults keyPair key
    . exact durable_of_not_opens hopens
    . simp only [not_forall, not_not] at hopens
      obtain ⟨key, hopens⟩ := hopens
      by_cases hreplaces : Replaces faults
      . rw [durable_iff_of_replaces hopens hreplaces]
        exact (h key hopens).1 hreplaces
      . rw [durable_iff_of_not_replaces hopens hreplaces, loadKey_abandoned hopens.keystorePath]
        exact (h key hopens).2 hreplaces

end Store

section Example

def plainSSL : OpenSSL where
  PKey := Bytes
  baseId _ := some .ed25519
  writePrivateKey key := 0x2d :: key
  readPrivateKey pem := match pem with
    | 0x2d :: key => some key
    | _ => none
  writePubkey key := 0x2b :: key
  pbkdf2 _ salt := salt
  encrypt _ _ plaintext := (plaintext, List.replicate 16 0)
  decrypt _ _ ciphertext _ := some ciphertext
  readPrivateKey_writePrivateKey _ := rfl
  readPrivateKey_nil := rfl
  length_tag _ _ _ := rfl
  decrypt_encrypt _ _ _ := rfl

def pairOf (keyId key : Bytes) : KeyPair plainSSL where
  keyId
  publicKey := some key
  privateKey := some key
  type := .ed25519

def emptyStore : KeyManager plainSSL where
  keystorePath := bytes "/keys"
  passphrase := bytes "secret"
  pid := 7
  files := ∅

def noFaults : StoreFaults where
  salt := some (Vector.replicate 16 1)
  iv := some (Vector.replicate 12 2)

def oneKey : KeyManager plainSSL :=
  (emptyStore.storeKey noFaults (pairOf (bytes "node") (bytes "old"))).2

def noSalt : StoreFaults where
  salt := none
  iv := some (Vector.replicate 12 2)

theorem not_durable_noSalt
    : (oneKey.loadKey (bytes "node")).isSome ∧ ¬oneKey.Durable noSalt (pairOf (bytes "node") (bytes "new")) := by
  have hfacts : (oneKey.loadKey (bytes "node")).isSome
      ∧ (oneKey.storeKey noSalt (pairOf (bytes "node") (bytes "new"))).1 = true
      ∧ ((oneKey.storeKey noSalt (pairOf (bytes "node") (bytes "new"))).2.loadKey (bytes "node")).isNone := by
    decide +kernel
  obtain ⟨hbefore, hstored, hafter⟩ := hfacts
  refine ⟨hbefore, ?_⟩
  intro h
  obtain ⟨loaded, hloaded, -⟩ := h.stored hstored
  have hsome := congrArg Option.isNone hloaded
  exact absurd (hafter.symm.trans hsome) (by simp)

end Example

end KeyManager
end NeuroMesh
