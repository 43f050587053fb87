import NeuroMesh.Consensus.MeshNode.Lemmas.Contact

namespace NeuroMesh
namespace MeshNode

variable {C : IdentityCore}

def rejectsBeacon (node : MeshNode C) (env : Env) (msg senderIp : Bytes) : Bool :=
  match parseBeacon (splitString msg pipe) with
  | none => true
  | some beacon =>
    !node.passesBeacon (env 0).now beacon
      || (meetBeacon node.peerManager (env 1).now beacon senderIp).1.keyMismatch

def refusesKey (node : MeshNode C) (beacon : Beacon) : Bool :=
  ((node.peerManager.contact? beacon.peerId).getD (.fresh beacon.pem)).refuses
    node.peerManager.preProvisionedKeys[beacon.peerId]? pathBeacon beacon.pem

def leavesTrace (node : MeshNode C) (now : Time) (msg : Bytes) : Bool :=
  match parseBeacon (splitString msg pipe) with
  | none => false
  | some beacon =>
    let fingerprint := beacon.tlsFingerprint.getD []
    node.passesBeacon now beacon
      && node.refusesKey beacon
      && (beacon.peerId ∉ node.peerManager.peers
        ∨ fingerprint ≠ [] ∧ node.peerManager.tofuTrust[beacon.peerId]? ≠ some fingerprint)

section Trace

variable {m : PeerManager} {beacon : Beacon}

theorem tofuTrust_pinBeacon_eq_iff
    : (pinBeacon m beacon).tofuTrust = m.tofuTrust
        ↔
      ¬(beacon.tlsFingerprint.getD [] ≠ []
        ∧ m.tofuTrust[beacon.peerId]? ≠ some (beacon.tlsFingerprint.getD [])) := by
  unfold pinBeacon
  dsimp only
  split
  . next hpresent =>
    unfold PeerManager.pinTlsFingerprint
    simp only [hpresent, ne_eq, not_false_eq_true, true_and, not_not]
    constructor
    . intro h
      rw [← h, Std.ExtTreeMap.getElem?_insert_self]
    . intro h
      apply Std.ExtTreeMap.ext_getElem?
      intro p
      rw [Std.ExtTreeMap.getElem?_insert]
      split
      . next heq =>
        rw [Std.LawfulEqCmp.compare_eq_iff_eq] at heq
        rw [← heq, h]
      . rfl
  . next habsent => simp [habsent]

theorem peers_meetBeacon_eq_iff {now : Time} {senderIp : Bytes}
    (h : (meetBeacon m now beacon senderIp).1.keyMismatch = true)
    : (meetBeacon m now beacon senderIp).2.peers = m.peers ↔ beacon.peerId ∈ m.peers := by
  unfold meetBeacon addBeacon at h ⊢
  rw [PeerManager.snd_confirmPath_of_keyMismatch _ _ _ _ h]
  unfold PeerManager.addPeer
  rw [peers_pinBeacon]
  split
  . next hmem => simp [hmem, peers_pinBeacon]
  . next hnew =>
    simp only [hnew, iff_false]
    intro heq
    apply hnew
    rw [← heq]
    exact Std.ExtTreeMap.mem_insert_self

end Trace

section Reject

variable {node : MeshNode C} {env : Env} {msg senderIp : Bytes}

theorem rejectsBeacon_eq {beacon : Beacon} (hparse : parseBeacon (splitString msg pipe) = some beacon)
    : node.rejectsBeacon env msg senderIp
        =
      (!node.passesBeacon (env 0).now beacon || node.refusesKey beacon) := by
  unfold rejectsBeacon
  rw [hparse]
  dsimp only
  rw [keyMismatch_meetBeacon]
  rfl

theorem rejectsBeacon_noTrace_iff (node : MeshNode C) (env : Env) (dial : Dial) (msg senderIp : Bytes)
    : (node.rejectsBeacon env msg senderIp = true →
        let node' := node.processDiscoveryBeacon env dial msg senderIp
        node'.peerManager.peers = node.peerManager.peers
          ∧ node'.peerManager.tofuTrust = node.peerManager.tofuTrust)
        ↔
      node.leavesTrace (env 0).now msg = false := by
  unfold processDiscoveryBeacon leavesTrace
  cases hparse : parseBeacon (splitString msg pipe) with
  | none => simp
  | some beacon =>
    rw [rejectsBeacon_eq hparse]
    dsimp only
    cases hpasses : node.passesBeacon (env 0).now beacon with
    | false => simp [processBeacon_of_not_passes hpasses]
    | true =>
      cases hrefuses : node.refusesKey beacon with
      | false => simp
      | true =>
        have hmismatch : (meetBeacon node.peerManager (env 1).now beacon senderIp).1.keyMismatch = true := by
          rw [keyMismatch_meetBeacon]
          exact hrefuses
        rw [processBeacon_of_keyMismatch hpasses hmismatch]
        dsimp only
        rw [peers_meetBeacon_eq_iff hmismatch, tofuTrust_meetBeacon, tofuTrust_pinBeacon_eq_iff]
        simp only [Bool.not_true, Bool.false_or, Bool.true_and, forall_const, decide_eq_false_iff_not]
        tauto

end Reject

def announcedNode : MeshNode .plain :=
  (new .plain (bytes "A") (bytes "A") (bytes "A") {}).act (announces (bytes "P") "1")

/--
A beacon in the name of `P` with the key of somebody else is rejected, but its fingerprint stays and locks
`P` out.
-/
theorem rejectsBeacon_poisons
    : let forged := plainBeacon (bytes "P") (plainKey "2") (bytes "g") []
      let genuine := plainBeacon (bytes "P") (plainKey "1") (bytes "f") []
      let node := announcedNode.processDiscoveryBeacon quietEnv silentDial forged (bytes "10.0.0.2")
      announcedNode.rejectsBeacon quietEnv forged (bytes "10.0.0.2") = true
        ∧ announcedNode.peerManager.pin (bytes "P") = []
        ∧ node.peerManager.pin (bytes "P") = bytes "g"
        ∧ announcedNode.rejectsBeacon quietEnv genuine (bytes "10.0.0.1") = false
        ∧ node.rejectsBeacon quietEnv genuine (bytes "10.0.0.1") = true := by
  decide +kernel

section Rotate

variable {node : MeshNode C} {p : Bytes} {beacon : Beacon} {env : Env} {senderIp : Bytes}

def rotatable (node : MeshNode C) (p fingerprint : Bytes) : Bool :=
  match node.peerManager.contact? p with
  | some c => c.paths &&& pathBeacon = 0
  | none => node.peerManager.verifyTlsCert p fingerprint

theorem verifyTlsCert_of_pin_eq_nil {m : PeerManager} (h : m.pin p = []) (fingerprint : Bytes)
    : m.verifyTlsCert p fingerprint = true := by
  unfold PeerManager.pin at h
  rw [Std.ExtTreeMap.getD_eq_getD_getElem?] at h
  unfold PeerManager.verifyTlsCert
  cases hpinned : m.tofuTrust[p]? with
  | none => rfl
  | some pinned =>
    rw [hpinned] at h
    simp [show pinned = [] from h]

theorem acceptsBeacon_unpinPeerKey (now : Time)
    : (node.unpinPeerKey p).acceptsBeacon now beacon = node.acceptsBeacon now beacon := by
  unfold unpinPeerKey
  split <;> rfl

theorem pin_processBeacon (hpasses : node.passesBeacon (env 0).now beacon = true) (dial : Dial) (p : Bytes)
    : (node.processBeacon env dial beacon senderIp).peerManager.pin p
        =
      if beacon.tlsFingerprint.getD [] ≠ [] ∧ beacon.peerId = p then
        beacon.tlsFingerprint.getD []
      else
        node.peerManager.pin p := by
  rw [((lists_processBeacon hpasses dial senderIp).spares false p).pin, pin_meetBeacon, pin_pinBeacon]

theorem getPeerKey_processBeacon (hpasses : node.passesBeacon (env 0).now beacon = true) (dial : Dial)
    : (node.processBeacon env dial beacon senderIp).peerManager.getPeerKey beacon.peerId
        =
      (Contact.meet (node.peerManager.contact? beacon.peerId)
        node.peerManager.preProvisionedKeys[beacon.peerId]? pathBeacon beacon.pem).key := by
  rw [PeerManager.getPeerKey_eq, (meets_processBeacon hpasses dial senderIp).contact]
  rfl

theorem refuses_unpin_iff {c : Contact} {pem : Bytes} (hpem : pem ≠ [])
    : c.unpin.refuses none pathBeacon pem = false ↔ c.paths &&& pathBeacon = 0 := by
  simp [Contact.refuses, Contact.unpin, hpem, Ne.symm hpem]

theorem verifyTlsCert_nil_iff {m : PeerManager} : m.verifyTlsCert p [] = true ↔ m.pin p = [] := by
  constructor
  . intro h
    by_contra hne
    exact hne (pin_eq_of_verifyTlsCert h hne)
  . intro h
    exact verifyTlsCert_of_pin_eq_nil h []

def Adopts (node : MeshNode C) (env : Env) (dial : Dial) (msg senderIp : Bytes) (beacon : Beacon)
    (fingerprint : Bytes) : Prop :=
  node.rejectsBeacon env msg senderIp = false
    ∧ (node.processDiscoveryBeacon env dial msg senderIp).peerManager.getPeerKey beacon.peerId = beacon.pem
    ∧ (node.processDiscoveryBeacon env dial msg senderIp).peerManager.pin beacon.peerId = fingerprint

section Adopts

variable {msg fingerprint : Bytes} (hparse : parseBeacon (splitString msg pipe) = some beacon)
  (haccepts : node.acceptsBeacon (env 0).now beacon = true)
  (hfingerprint : beacon.tlsFingerprint = some fingerprint)
include hparse haccepts hfingerprint

theorem adopts_iff (dial : Dial)
    (hkey : node.peerManager.contact? beacon.peerId = none
      ∨ node.peerManager.getPeerKey beacon.peerId = [])
    : node.Adopts env dial msg senderIp beacon fingerprint
        ↔
      node.peerManager.verifyTlsCert beacon.peerId fingerprint = true ∧ node.refusesKey beacon = false := by
  have hpasses : node.passesBeacon (env 0).now beacon = true
      ↔ fingerprint = [] ∨ node.peerManager.verifyTlsCert beacon.peerId fingerprint = true := by
    unfold passesBeacon
    rw [decide_eq_true_iff, hfingerprint]
    simp [haccepts]
  unfold Adopts processDiscoveryBeacon
  rw [rejectsBeacon_eq hparse, hparse, Bool.or_eq_false_iff, Bool.not_eq_false']
  dsimp only
  constructor
  . rintro ⟨⟨hpass, hrefuses⟩, _, hpin⟩
    refine ⟨?_, hrefuses⟩
    rcases hpasses.mp hpass with rfl | hverify
    . rw [pin_processBeacon hpass, if_neg (by simp [hfingerprint])] at hpin
      exact verifyTlsCert_nil_iff.mpr hpin
    . exact hverify
  . rintro ⟨hverify, hrefuses⟩
    have hpass := hpasses.mpr (.inr hverify)
    have hpem := pem_ne_nil_of_passesBeacon hpass
    refine ⟨⟨hpass, hrefuses⟩, ?_, ?_⟩
    . rw [getPeerKey_processBeacon hpass]
      unfold refusesKey at hrefuses
      cases hc : node.peerManager.contact? beacon.peerId with
      | none => exact Contact.key_confirm_of_ne_nil hpem _ _ _
      | some c =>
        rw [hc] at hrefuses hkey
        rw [PeerManager.getPeerKey_eq, hc] at hkey
        exact Contact.key_confirm_of_nil hrefuses (hkey.resolve_left (by simp)) hpem
    . rw [pin_processBeacon hpass]
      split
      . rw [hfingerprint]
        rfl
      . next hempty =>
        obtain rfl : fingerprint = [] := by
          by_contra hne
          exact hempty ⟨by simpa [hfingerprint] using hne, rfl⟩
        exact verifyTlsCert_nil_iff.mp hverify

theorem adopts_unpinPeerKey_iff (dial : Dial)
    (hprovisioned : beacon.peerId ∉ node.peerManager.preProvisionedKeys)
    : (node.unpinPeerKey beacon.peerId).Adopts env dial msg senderIp beacon fingerprint
        ↔
      node.rotatable beacon.peerId fingerprint = true := by
  have hexpected : (node.unpinPeerKey beacon.peerId).peerManager.preProvisionedKeys[beacon.peerId]? = none := by
    rw [preProvisionedKeys_unpinPeerKey]
    exact Std.ExtTreeMap.getElem?_eq_none hprovisioned
  have hpem := pem_ne_nil_of_acceptsBeacon haccepts
  have hcontact := node.contact?_unpinPeerKey beacon.peerId beacon.peerId
  rw [if_pos rfl] at hcontact
  rw [← acceptsBeacon_unpinPeerKey] at haccepts
  unfold rotatable
  cases hc : node.peerManager.contact? beacon.peerId with
  | none =>
    -- there is no entry to unpin, so the fingerprint stays as well
    have habsent : node.peerManager.hasPeer beacon.peerId = false := by
      rw [PeerManager.hasPeer_eq, hc]
      rfl
    have hsame : node.unpinPeerKey beacon.peerId = node := by
      unfold unpinPeerKey
      rw [habsent]
      rfl
    rw [hc] at hcontact
    rw [adopts_iff hparse haccepts hfingerprint dial (.inl hcontact)]
    unfold refusesKey
    rw [hcontact, hexpected, hsame]
    simp [Contact.refuses, Contact.fresh]
  | some c =>
    have hpresent : node.peerManager.hasPeer beacon.peerId = true := by
      rw [PeerManager.hasPeer_eq, hc]
      rfl
    have hpin : (node.unpinPeerKey beacon.peerId).peerManager.pin beacon.peerId = [] := by
      rw [pin_unpinPeerKey, if_pos ⟨hpresent, rfl⟩]
    have hkey : (node.unpinPeerKey beacon.peerId).peerManager.getPeerKey beacon.peerId = [] := by
      rw [PeerManager.getPeerKey_eq, hcontact, hc]
      rfl
    rw [adopts_iff hparse haccepts hfingerprint dial (.inr hkey), verifyTlsCert_of_pin_eq_nil hpin]
    unfold refusesKey
    rw [hcontact, hexpected, hc]
    simp only [true_and, Option.map_some, Option.getD_some, decide_eq_true_eq]
    exact refuses_unpin_iff hpem

end Adopts

end Rotate

instance (node : MeshNode C) (env : Env) (dial : Dial) (msg senderIp : Bytes) (beacon : Beacon)
    (fingerprint : Bytes) : Decidable (node.Adopts env dial msg senderIp beacon fingerprint) :=
  inferInstanceAs (Decidable (_ ∧ _ ∧ _))

def rotation : Bytes :=
  plainBeacon (bytes "P") (plainKey "2") (bytes "g") []

def rotationBeacon : Beacon :=
  let signedBlob := bytes "P|9000|9001|0|g|"
  {
    peerId := bytes "P"
    tcpPort := 9000
    tlsPort := 9001
    timestamp := 0
    pem := plainKey "2"
    tlsFingerprint := some (bytes "g")
    certPem := []
    signedBlob
    signature := plainKey "2" ++ signedBlob
  }

theorem adopts_unpinPeerKey_announced
    : parseBeacon (splitString rotation pipe) = some rotationBeacon
        ∧ (announcedNode.unpinPeerKey (bytes "P")).Adopts quietEnv silentDial rotation (bytes "10.0.0.1")
          rotationBeacon (bytes "g") := by
  have hparse : parseBeacon (splitString rotation pipe) = some rotationBeacon := by
    decide +kernel
  refine ⟨hparse, (adopts_unpinPeerKey_iff hparse ?_ rfl silentDial ?_).mpr ?_⟩
  . decide +kernel
  . decide +kernel
  . decide +kernel

def beaconedNode : MeshNode .plain :=
  (new .plain (bytes "A") (bytes "A") (bytes "A") {}).act (beacons (bytes "P") "1" "f")

/--
The confirmation of the path outlives the key, so the new key counts as a mismatch.
-/
theorem rejectsBeacon_unpinPeerKey
    : let node := beaconedNode.unpinPeerKey (bytes "P")
      parseBeacon (splitString rotation pipe) = some rotationBeacon
        ∧ node.acceptsBeacon (quietEnv 0).now rotationBeacon = true
        ∧ node.rejectsBeacon quietEnv rotation (bytes "10.0.0.1") = true
        ∧ ¬node.Adopts quietEnv silentDial rotation (bytes "10.0.0.1") rotationBeacon (bytes "g") := by
  decide +kernel

end MeshNode
end NeuroMesh
