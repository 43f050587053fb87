import NeuroMesh.Common.Inet
import NeuroMesh.Common.Text

/-!
This module contains the key store of `crypto/KeyManager.cpp`: the files that it writes, what it makes of them
when it reads them back, and its cache.
-/

namespace NeuroMesh

inductive KeyType where
  | ed25519
  | rsa
  | ed448
  deriving DecidableEq

structure OpenSSL where
  PKey : Type
  baseId : PKey → Option KeyType
  writePrivateKey : PKey → Bytes
  readPrivateKey : Bytes → Option PKey
  writePubkey : PKey → Bytes
  pbkdf2 : Bytes → Bytes → Bytes
  encrypt : Bytes → Bytes → Bytes → Bytes × Bytes
  decrypt : Bytes → Bytes → Bytes → Bytes → Option Bytes
  readPrivateKey_writePrivateKey : ∀ key, readPrivateKey (writePrivateKey key) = some key
  readPrivateKey_nil : readPrivateKey [] = none
  length_tag : ∀ key iv plaintext, (encrypt key iv plaintext).2.length = 16
  decrypt_encrypt : ∀ key iv plaintext,
    decrypt key iv (encrypt key iv plaintext).1 (encrypt key iv plaintext).2 = some plaintext

variable {O : OpenSSL}

structure KeyPair (O : OpenSSL) where
  keyId : Bytes
  publicKey : Option O.PKey
  privateKey : Option O.PKey
  type : KeyType

inductive EvpCall where
  | newCtx
  | initCipher
  | setIvLen
  | initKey
  | update
  | final
  | getTag
  deriving DecidableEq

def EvpCall.all : List EvpCall :=
  [.newCtx, .initCipher, .setIvLen, .initKey, .update, .final, .getTag]

/--
What the environment does during a call of `store_key`: the random bytes, if there are any, and the operations
that fail. A write that fails may have written some bytes.
-/
structure StoreFaults where
  bio : Bool := false
  pem : Bool := false
  salt : Option (Vector UInt8 16)
  derive : Bool := false
  iv : Option (Vector UInt8 12)
  evp : EvpCall → Bool := fun _ => false
  openFile : Bool := false
  write : Option Nat := none
  rename : Bool := false
  unlink : Bool := false

/--
The manager together with the files, whose names are the C strings of their paths, and its process id.
-/
structure KeyManager (O : OpenSSL) where
  keystorePath : Bytes
  passphrase : Bytes
  pid : Nat
  files : Map Bytes Bytes
  cachedKey : Option (KeyPair O) := none

def aesGcmEncrypt (O : OpenSSL) (faults : StoreFaults) (plaintext key : Bytes) : Bytes :=
  if plaintext = [] then
    []
  else
    match faults.iv with
    | none => []
    | some iv =>
      if EvpCall.all.any faults.evp then
        []
      else
        let (ciphertext, tag) := O.encrypt key iv.toList plaintext
        iv.toList ++ (ciphertext ++ tag)

def aesGcmDecrypt (O : OpenSSL) (ciphertext key : Bytes) : Bytes :=
  if ciphertext.length < 12 + 16 then
    []
  else
    let iv := ciphertext.take 12
    let tag := ciphertext.drop (ciphertext.length - 16)
    let ctLen := ciphertext.length - 12 - 16
    (O.decrypt key iv ((ciphertext.drop 12).take ctLen) tag).getD []

namespace KeyManager

def encryptBlob (manager : KeyManager O) (faults : StoreFaults) (plaintext : Bytes) : Bytes :=
  if manager.passphrase = [] then
    plaintext
  else
    match faults.salt with
    | none => []
    | some salt =>
      if faults.derive then
        []
      else
        let encrypted := aesGcmEncrypt O faults plaintext (O.pbkdf2 manager.passphrase salt.toList)
        if encrypted = [] then [] else salt.toList ++ encrypted

def decryptBlob (manager : KeyManager O) (ciphertext : Bytes) : Bytes :=
  if manager.passphrase = [] then
    ciphertext
  else if ciphertext.length < 16 then
    []
  else
    aesGcmDecrypt O (ciphertext.drop 16) (O.pbkdf2 manager.passphrase (ciphertext.take 16))

def keyFile (manager : KeyManager O) (keyId : Bytes) : Bytes :=
  manager.keystorePath ++ bytes "/" ++ keyId ++ bytes ".pem"

def tmpFile (manager : KeyManager O) (keyId : Bytes) : Bytes :=
  manager.keyFile keyId ++ bytes ".tmp." ++ toDecimal manager.pid

def remove (faults : StoreFaults) (files : Map Bytes Bytes) (path : Bytes) : Map Bytes Bytes :=
  if faults.unlink then files else files.erase path

def move (files : Map Bytes Bytes) (path path' : Bytes) : Map Bytes Bytes :=
  match files[path]? with
  | none => files
  | some content => if path = path' then files else (files.erase path).insert path' content

def storeKey (manager : KeyManager O) (faults : StoreFaults) (keyPair : KeyPair O) : Bool × KeyManager O :=
  if manager.keystorePath = [] then
    (false, manager)
  else
    match keyPair.privateKey with
    | none => (false, manager)
    | some key =>
      if faults.bio || faults.pem then
        (false, manager)
      else
        -- An encryption that fails is not told apart from one that yields the empty string.
        let encrypted := manager.encryptBlob faults (O.writePrivateKey key)
        let keyFile := cStr (manager.keyFile keyPair.keyId)
        let tmpFile := cStr (manager.tmpFile keyPair.keyId)
        if faults.openFile then
          (false, manager)
        else
          match faults.write with
          | some written =>
            let files := manager.files.insert tmpFile (encrypted.take written)
            (false, { manager with files := remove faults files tmpFile })
          | none =>
            let files := manager.files.insert tmpFile encrypted
            if faults.rename then
              (false, { manager with files := remove faults files tmpFile })
            else
              (true, { manager with files := move files tmpFile keyFile, cachedKey := some keyPair })

def readKey (manager : KeyManager O) (stored : Bytes) : Option O.PKey :=
  O.readPrivateKey (manager.decryptBlob stored)

def loadKey (manager : KeyManager O) (keyId : Bytes) : Option (KeyPair O) :=
  if manager.keystorePath = [] then
    none
  else do
    let stored ← manager.files[cStr (manager.keyFile keyId)]?
    let key ← manager.readKey stored
    return { keyId, publicKey := some key, privateKey := some key, type := (O.baseId key).getD .ed25519 }

def deleteKey (manager : KeyManager O) (fails : Bool) (keyId : Bytes) : Bool × KeyManager O :=
  let keyFile := cStr (manager.keyFile keyId)
  if manager.keystorePath = [] then
    (false, manager)
  else if fails || !manager.files.contains keyFile then
    (false, manager)
  else
    (true, { manager with files := manager.files.erase keyFile })

def cached (manager : KeyManager O) (keyId : Bytes) : Option (KeyPair O) :=
  manager.cachedKey.filter (·.keyId = keyId)

def pem (write : O.PKey → Bytes) (key : Option O.PKey) : Bytes :=
  (key.map write).getD []

def getPublicKeyPem (manager : KeyManager O) (keyId : Bytes) : Bytes :=
  match manager.cached keyId with
  | some keyPair => pem O.writePubkey keyPair.publicKey
  | none =>
    match manager.loadKey keyId with
    | none => []
    | some keyPair => pem O.writePubkey keyPair.publicKey

def getPrivateKeyPem (manager : KeyManager O) (keyId : Bytes) : Bytes :=
  match manager.cached keyId with
  | some keyPair => pem O.writePrivateKey keyPair.privateKey
  | none =>
    match manager.loadKey keyId with
    | none => []
    | some keyPair => pem O.writePrivateKey keyPair.privateKey

def hasKey (manager : KeyManager O) (keyId : Bytes) : Bool :=
  match manager.cached keyId with
  | some _ => true
  | none => manager.keystorePath ≠ [] && manager.files.contains (cStr (manager.keyFile keyId))

end KeyManager

end NeuroMesh
