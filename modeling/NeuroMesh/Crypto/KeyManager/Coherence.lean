import NeuroMesh.Crypto.KeyManager.Durability
import NeuroMesh.Data.Run

namespace NeuroMesh
namespace KeyManager

variable {O : OpenSSL}

inductive Call (O : OpenSSL) where
  | storeKey (faults : StoreFaults) (keyPair : KeyPair O)
  | loadKey (keyId : Bytes)
  | deleteKey (fails : Bool) (keyId : Bytes)

structure Watched (O : OpenSSL) where
  manager : KeyManager O
  deleted : Bool := false

def step (keyId : Bytes) (watched : Watched O) (c : Call O) : Watched O :=
  match c with
  | .storeKey faults keyPair =>
    let result := watched.manager.storeKey faults keyPair
    { manager := result.2, deleted := watched.deleted && !(result.1 && keyPair.keyId = keyId) }
  | .loadKey _ => watched
  | .deleteKey fails keyId' =>
    let result := watched.manager.deleteKey fails keyId'
    { manager := result.2, deleted := watched.deleted || (result.1 && keyId' = keyId) }

structure Agrees (manager : KeyManager O) (keyId : Bytes) : Prop where
  hasKey : manager.hasKey keyId = (manager.loadKey keyId).isSome
  publicKey : manager.getPublicKeyPem keyId = pem O.writePubkey ((manager.loadKey keyId).bind (·.publicKey))
  privateKey : manager.getPrivateKeyPem keyId = pem O.writePrivateKey ((manager.loadKey keyId).bind (·.privateKey))

structure ReportsNone (manager : KeyManager O) (keyId : Bytes) : Prop where
  hasKey : manager.hasKey keyId = false
  publicKey : manager.getPublicKeyPem keyId = []
  privateKey : manager.getPrivateKeyPem keyId = []

structure Coherent (keyId : Bytes) (watched : Watched O) : Prop where
  agrees : watched.manager.Agrees keyId
  deleted : watched.deleted = true → watched.manager.ReportsNone keyId

def path (manager : KeyManager O) (keyId : Bytes) : Bytes :=
  cStr (manager.keyFile keyId)

/--
The condition on a call: no other file gets in the way of the key file, only pairs that belong together replace it
and only after an encryption that does not fail, and it is not removed while the key is in the cache.
-/
def Harmless (keyId : Bytes) (watched : Watched O) (c : Call O) : Prop :=
  let manager := watched.manager
  match c with
  | .storeKey faults keyPair =>
    ∀ key, manager.Opens faults keyPair key →
      cStr (manager.tmpFile keyPair.keyId) ≠ manager.path keyId
      ∧ (Replaces faults → manager.path keyPair.keyId = manager.path keyId →
          keyPair.keyId = keyId
          ∧ ¬manager.EncryptionFails faults
          ∧ pem O.writePubkey keyPair.publicKey = O.writePubkey key)
  | .loadKey _ => True
  | .deleteKey fails keyId' =>
    (manager.deleteKey fails keyId').1 = true → manager.path keyId' = manager.path keyId →
      manager.cached keyId = none

structure Matched (keyId : Bytes) (watched : Watched O) : Prop where
  readable : ∀ stored, watched.manager.files[watched.manager.path keyId]? = some stored →
    (watched.manager.readKey stored).isSome
  cached : ∀ keyPair, watched.manager.cached keyId = some keyPair →
    ∃ key, watched.manager.keystorePath ≠ []
      ∧ keyPair.privateKey = some key
      ∧ pem O.writePubkey keyPair.publicKey = O.writePubkey key
      ∧ watched.manager.files[watched.manager.path keyId]?.bind watched.manager.readKey = some key
  deleted : watched.deleted = true →
    watched.manager.cached keyId = none ∧ watched.manager.files[watched.manager.path keyId]? = none

section Coherent

variable {keyId : Bytes} {watched : Watched O} {manager : KeyManager O}

theorem agrees_of_matched (h : Matched keyId watched) : watched.manager.Agrees keyId := by
  obtain ⟨manager, deleted⟩ := watched
  cases hcached : manager.cached keyId with
  | some keyPair =>
    obtain ⟨key, hpath, hprivate, hpublic, hread⟩ := h.cached keyPair hcached
    have hload : manager.loadKey keyId = some (loaded keyId key) := by
      rw [loadKey_eq hpath]
      exact congrArg (Option.map (loaded keyId)) hread
    constructor
    . simp [hasKey, hcached, hload]
    . unfold getPublicKeyPem
      rw [hcached, hload]
      exact hpublic
    . unfold getPrivateKeyPem
      rw [hcached, hload]
      exact congrArg (pem O.writePrivateKey) hprivate
  | none =>
    constructor
    . by_cases hpath : manager.keystorePath = []
      . simp [hasKey, hcached, loadKey, hpath]
      . have hreadable := h.readable
        rw [loadKey_eq hpath]
        dsimp only [path] at hreadable
        cases hfile : manager.files[cStr (manager.keyFile keyId)]? with
        | none => simp [hasKey, hcached, hpath, hfile, Std.ExtTreeMap.contains_eq_isSome_getElem?]
        | some stored =>
          simp [hasKey, hcached, hpath, hfile, Std.ExtTreeMap.contains_eq_isSome_getElem?, hreadable stored hfile]
    . unfold getPublicKeyPem
      rw [hcached]
      cases manager.loadKey keyId <;> rfl
    . unfold getPrivateKeyPem
      rw [hcached]
      cases manager.loadKey keyId <;> rfl

theorem coherent_of_matched (h : Matched keyId watched) : Coherent keyId watched := by
  have hagrees := agrees_of_matched h
  refine ⟨hagrees, ?_⟩
  intro hdeleted
  have hfile := (h.deleted hdeleted).2
  have hload : watched.manager.loadKey keyId = none := by
    unfold path at hfile
    simp [loadKey, hfile]
  constructor
  . rw [hagrees.hasKey, hload]
    rfl
  . rw [hagrees.publicKey, hload]
    rfl
  . rw [hagrees.privateKey, hload]
    rfl

end Coherent

section Step

variable {keyId : Bytes} {watched : Watched O}

theorem getElem?_move_insert_of_ne {files : Map Bytes Bytes} {path path' path'' content : Bytes} (h : path ≠ path'')
    (h' : path' ≠ path'')
    : (move (files.insert path content) path path')[path'']? = files[path'']? := by
  unfold move
  rw [Std.ExtTreeMap.getElem?_insert_self]
  dsimp only
  split
  . simp [Std.ExtTreeMap.getElem?_insert, h]
  . simp [Std.ExtTreeMap.getElem?_insert, Std.ExtTreeMap.getElem?_erase, h, h']

theorem Matched.of_eq {manager : KeyManager O} {deleted : Bool} (h : Matched keyId watched)
    (hkeystore : manager.keystorePath = watched.manager.keystorePath)
    (hpassphrase : manager.passphrase = watched.manager.passphrase)
    (hfile : manager.files[manager.path keyId]? = watched.manager.files[watched.manager.path keyId]?)
    (hcached : manager.cached keyId = watched.manager.cached keyId ∨ manager.cached keyId = none)
    (hdeleted : deleted = true → watched.deleted = true)
    : Matched keyId { manager, deleted } := by
  have hread (stored : Bytes) : manager.readKey stored = watched.manager.readKey stored := by
    unfold readKey decryptBlob
    rw [hpassphrase]
  constructor
  . intro stored hstored
    dsimp only at hstored ⊢
    rw [hfile] at hstored
    rw [hread]
    exact h.readable stored hstored
  . intro keyPair hpair
    dsimp only at hpair ⊢
    rcases hcached with hcached | hcached
    . rw [hcached] at hpair
      obtain ⟨key, hpath, hprivate, hpublic, hkey⟩ := h.cached keyPair hpair
      refine ⟨key, by rw [hkeystore]; exact hpath, hprivate, hpublic, ?_⟩
      rw [hfile, funext hread]
      exact hkey
    . rw [hcached] at hpair
      contradiction
  . intro hyes
    obtain ⟨hnone, hgone⟩ := h.deleted (hdeleted hyes)
    dsimp only
    rw [hfile, hgone]
    refine ⟨?_, rfl⟩
    rcases hcached with hcached | hcached
    . rw [hcached, hnone]
    . exact hcached

theorem matched_of_replaced {faults : StoreFaults} {keyPair : KeyPair O} {key : O.PKey} {deleted : Bool}
    (hpath : watched.manager.keystorePath ≠ []) (hprivate : keyPair.privateKey = some key)
    (hpublic : pem O.writePubkey keyPair.publicKey = O.writePubkey key)
    (hencrypted : ¬watched.manager.EncryptionFails faults) (hdeleted : deleted = false)
    : Matched keyPair.keyId { manager := watched.manager.replaced faults keyPair key, deleted } := by
  have hfile : (watched.manager.replaced faults keyPair key).files[watched.manager.path keyPair.keyId]?
      = some (watched.manager.blob faults key) := getElem?_move_insert_self
  have hread : watched.manager.readKey (watched.manager.blob faults key) = some key :=
    (readKey_blob key).mpr hencrypted
  constructor
  . intro stored hstored
    cases hfile.symm.trans hstored
    exact Option.isSome_of_eq_some hread
  . intro keyPair' hcached
    have hself : (watched.manager.replaced faults keyPair key).cached keyPair.keyId = some keyPair := by
      simp [cached, replaced]
    cases hself.symm.trans hcached
    refine ⟨key, hpath, hprivate, hpublic, ?_⟩
    have hbind := congrArg (Option.bind · watched.manager.readKey) hfile
    exact hbind.trans hread
  . rw [hdeleted]
    intro htrue
    contradiction

theorem matched_storeKey {faults : StoreFaults} {keyPair : KeyPair O} (h : Matched keyId watched)
    (hharmless : Harmless keyId watched (.storeKey faults keyPair))
    : Matched keyId (step keyId watched (.storeKey faults keyPair)) := by
  dsimp only [step]
  by_cases hopens : ∀ key, ¬watched.manager.Opens faults keyPair key
  . rw [storeKey_of_not_opens hopens]
    exact h.of_eq rfl rfl rfl (.inl rfl) (by simp)
  . simp only [not_forall, not_not] at hopens
    obtain ⟨key, hopens⟩ := hopens
    obtain ⟨htmp, hsame⟩ := hharmless key hopens
    rcases storeKey_of_opens hopens with ⟨hreplaces, hstore⟩ | ⟨-, hstore⟩
    . rw [hstore]
      by_cases hpath : watched.manager.path keyPair.keyId = watched.manager.path keyId
      . obtain ⟨rfl, hencrypted, hpublic⟩ := hsame hreplaces hpath
        exact matched_of_replaced hopens.keystorePath hopens.privateKey hpublic hencrypted (by simp)
      . have hne : keyPair.keyId ≠ keyId := by
          rintro rfl
          contradiction
        refine h.of_eq rfl rfl ?_ (.inr ?_) (by simp [hne])
        . exact getElem?_move_insert_of_ne htmp hpath
        . simp [cached, replaced, hne]
    . rw [hstore]
      refine h.of_eq rfl rfl ?_ (.inl rfl) (by simp)
      exact getElem?_remove_insert.trans (if_neg htmp)

theorem deleteKey_cases (manager : KeyManager O) (fails : Bool) (keyId : Bytes)
    : manager.deleteKey fails keyId = (false, manager)
        ∨ manager.deleteKey fails keyId
            = (true, { manager with files := manager.files.erase (manager.path keyId) }) := by
  unfold deleteKey path
  dsimp only
  split
  . exact .inl rfl
  . split
    . exact .inl rfl
    . exact .inr rfl

theorem matched_deleteKey {fails : Bool} {keyId' : Bytes} (h : Matched keyId watched)
    (hharmless : Harmless keyId watched (.deleteKey fails keyId'))
    : Matched keyId (step keyId watched (.deleteKey fails keyId')) := by
  dsimp only [step]
  rcases deleteKey_cases watched.manager fails keyId' with hdelete | hdelete
  . rw [hdelete]
    exact h.of_eq rfl rfl rfl (.inl rfl) (by simp)
  . have hcached := hharmless (by rw [hdelete])
    rw [hdelete]
    by_cases hpath : watched.manager.path keyId' = watched.manager.path keyId
    . have hgone : (watched.manager.files.erase (watched.manager.path keyId'))[watched.manager.path keyId]?
          = none := by
        rw [hpath]
        exact Std.ExtTreeMap.getElem?_erase_self
      constructor
      . intro stored hstored
        cases hgone.symm.trans hstored
      . intro keyPair hpair
        cases (hcached hpath).symm.trans hpair
      . intro _
        exact ⟨hcached hpath, hgone⟩
    . have hne : keyId' ≠ keyId := by
        rintro rfl
        contradiction
      refine h.of_eq rfl rfl ?_ (.inl rfl) (by simp [hne])
      have hkept : (watched.manager.files.erase (watched.manager.path keyId'))[watched.manager.path keyId]?
          = watched.manager.files[watched.manager.path keyId]? := by
        simp [Std.ExtTreeMap.getElem?_erase, hpath]
      exact hkept

theorem matched_step (watched : Watched O) (c : Call O) (h : Matched keyId watched)
    (hharmless : Harmless keyId watched c)
    : Matched keyId (step keyId watched c) := by
  cases c with
  | storeKey faults keyPair => exact matched_storeKey h hharmless
  | loadKey keyId' => exact h
  | deleteKey fails keyId' => exact matched_deleteKey h hharmless

end Step

theorem coherent_of_harmless (manager : KeyManager O) (keyId : Bytes) (calls : List (Call O))
    (hcache : manager.cachedKey = none)
    (hreadable : ∀ stored, manager.files[manager.path keyId]? = some stored → (manager.readKey stored).isSome)
    (h : Run.Along (step keyId) (Harmless keyId) { manager } calls)
    : Run.Always (step keyId) (Coherent keyId) { manager } calls := by
  refine Run.always_of_invariant (I := Matched keyId) matched_step ?_ ?_ h
  . intro watched hmatched
    exact coherent_of_matched hmatched
  . constructor
    . exact hreadable
    . intro keyPair hcached
      simp [cached, hcache] at hcached
    . intro hdeleted
      contradiction

section Example

def storedBefore : List (Call plainSSL) := [
  .storeKey noFaults (pairOf (bytes "node") (bytes "a")),
  .storeKey noFaults (pairOf (bytes "other") (bytes "b")),
  .deleteKey false (bytes "node")
]

theorem coherent_storedBefore
    : Run.Always (step (bytes "node")) (Coherent (bytes "node")) { manager := emptyStore } storedBefore := by
  apply coherent_of_harmless
  . rfl
  . intro stored hstored
    simp [emptyStore] at hstored
  . have hencrypted (manager : KeyManager plainSSL) : ¬manager.EncryptionFails noFaults := by
      rintro ⟨-, hfails⟩
      simp [noFaults] at hfails
    refine ⟨?_, ?_, ?_, trivial⟩
    . intro key hopens
      cases hopens.privateKey
      refine ⟨by decide +kernel, ?_⟩
      intro _ _
      exact ⟨rfl, hencrypted _, rfl⟩
    . intro key hopens
      refine ⟨by decide +kernel, ?_⟩
      intro _ hsame
      exact absurd hsame (by decide +kernel)
    . intro _ _
      exact Option.isNone_iff_eq_none.mp (by decide +kernel)

def storedLast : List (Call plainSSL) := [
  .storeKey noFaults (pairOf (bytes "node") (bytes "a")),
  .deleteKey false (bytes "node")
]

theorem not_always_coherent_storedLast
    : ¬Run.Always (step (bytes "node")) (Coherent (bytes "node")) { manager := emptyStore } storedLast := by
  intro h
  have hfacts : (storedLast.foldl (step (bytes "node")) { manager := emptyStore }).deleted = true
      ∧ (storedLast.foldl (step (bytes "node")) { manager := emptyStore }).manager.hasKey (bytes "node") = true := by
    decide +kernel
  have hcoherent := Run.foldl_of_always h
  have hnone := (hcoherent.deleted hfacts.1).hasKey
  rw [hfacts.2] at hnone
  contradiction

end Example

end KeyManager
end NeuroMesh
