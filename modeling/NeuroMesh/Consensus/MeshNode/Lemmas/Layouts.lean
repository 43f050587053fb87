import NeuroMesh.Consensus.MeshNode.Lemmas.Malformed

namespace NeuroMesh
namespace MeshNode

variable {C : IdentityCore}

inductive Layout where
  | old
  | v2
  | v3
  deriving DecidableEq

structure BeaconTexts where
  peerId : Bytes
  tcpPort : Bytes
  tlsPort : Bytes
  timestamp : Bytes
  pubkey : Bytes
  fingerprint : Bytes
  certPem : Bytes
  signature : Bytes

structure BeaconValues where
  tcpPort : Int
  tlsPort : Int
  timestamp : Int
  pem : Bytes
  signature : Bytes

namespace Layout

def tokens (layout : Layout) (texts : BeaconTexts) : List Bytes :=
  match layout with
  | .old => [
      bytes "DISCOVERY", texts.peerId, texts.tcpPort, texts.timestamp, texts.pubkey, texts.signature
    ]
  | .v2 => [
      bytes "DISCOVERY", texts.peerId, texts.tcpPort, texts.tlsPort, texts.timestamp, texts.pubkey,
      texts.fingerprint, texts.signature
    ]
  | .v3 => [
      bytes "DISCOVERY", texts.peerId, texts.tcpPort, texts.tlsPort, texts.timestamp, texts.pubkey,
      texts.fingerprint, texts.certPem, texts.signature
    ]

def blob (layout : Layout) (texts : BeaconTexts) (values : BeaconValues) : Bytes :=
  let ports := [
    texts.peerId, toDecimalInt values.tcpPort, toDecimalInt values.tlsPort, toDecimalInt values.timestamp
  ]
  match layout with
  | .old => joinPipe [texts.peerId, toDecimalInt values.timestamp]
  | .v2 => joinPipe (ports ++ [texts.fingerprint])
  | .v3 => joinPipe (ports ++ [texts.fingerprint, texts.certPem])

end Layout

structure IsBeacon (C : IdentityCore) (layout : Layout) (texts : BeaconTexts) (values : BeaconValues) : Prop where
  pipe_notMem : ∀ token ∈ layout.tokens texts, pipe ∉ token
  tcpPort_eq : tryParseInt texts.tcpPort = some values.tcpPort
  tlsPort_eq : layout ≠ .old → tryParseInt texts.tlsPort = some values.tlsPort
  timestamp_eq : tryParseLong texts.timestamp = some values.timestamp
  pem_eq : base64Decode texts.pubkey = some values.pem
  pem_ne : values.pem ≠ []
  signature_eq : base64Decode texts.signature = some values.signature
  signature_ne : values.signature ≠ []
  signed : C.verifyWith (C.getPubkeyFromPem values.pem) (layout.blob texts values) values.signature = true

def Understands (node : MeshNode C) (env : Env) (dial : Dial) (msg senderIp peerId pem : Bytes) : Prop :=
  (node.processDiscoveryBeacon env dial msg senderIp).peerManager.contact? peerId
    = some ⟨pem, true, pathBeacon⟩

section Layouts

variable {layout : Layout} {texts : BeaconTexts} {values : BeaconValues}

theorem base64Decode_nil : base64Decode [] = some [] := by
  rfl

theorem IsBeacon.splitString_eq (h : IsBeacon C layout texts values)
    : splitString (joinPipe (layout.tokens texts)) pipe = layout.tokens texts := by
  apply Delimited.split_intercalate h.pipe_notMem
  have hlast : (layout.tokens texts).getLastD [] = texts.signature := by
    cases layout <;> rfl
  rw [hlast]
  intro hnil
  have hdecode := h.signature_eq
  rw [hnil, base64Decode_nil, Option.some.injEq] at hdecode
  exact h.signature_ne hdecode.symm

def Layout.beacon (layout : Layout) (texts : BeaconTexts) (values : BeaconValues) : Beacon where
  peerId := texts.peerId
  tcpPort := values.tcpPort
  tlsPort := if layout = .old then 0 else values.tlsPort
  timestamp := values.timestamp
  pem := values.pem
  tlsFingerprint := if layout = .old then none else some texts.fingerprint
  certPem := if layout = .v3 then (base64Decode texts.certPem).getD [] else []
  signedBlob := layout.blob texts values
  signature := if layout = .old then [] else values.signature

theorem IsBeacon.parseBeacon_eq (h : IsBeacon C layout texts values)
    : parseBeacon (layout.tokens texts) = some (layout.beacon texts values) := by
  unfold parseBeacon readFields Layout.beacon Layout.blob Layout.tokens
  cases layout with
  | old => simp [h.tcpPort_eq, h.timestamp_eq, h.pem_eq, base64Decode_nil]
  | v2 => simp [h.tcpPort_eq, h.tlsPort_eq, h.timestamp_eq, h.pem_eq, h.signature_eq, base64Decode_nil]
  | v3 => simp [h.tcpPort_eq, h.tlsPort_eq, h.timestamp_eq, h.pem_eq, h.signature_eq]

theorem IsBeacon.acceptsBeacon_iff (h : IsBeacon C layout texts values) {node : MeshNode C} {now : Int}
    (hother : texts.peerId ≠ node.nodeId) (hfresh : |microseconds now - values.timestamp| < 61000000)
    : node.acceptsBeacon now (layout.beacon texts values) = true ↔ layout ≠ .old := by
  by_cases hold : layout = .old
  . subst hold
    simp [acceptsBeacon, Layout.beacon]
  . have hsigned : node.isSigned (layout.beacon texts values) = true := by
      have hvalid := h.signed
      simp [isSigned, Layout.beacon, hold, hother, h.pem_ne, h.signature_ne, hvalid]
    have hrange : (microseconds now - (layout.beacon texts values).timestamp).bmod (2 ^ 64)
        = microseconds now - (layout.beacon texts values).timestamp := by
      rw [bmod_eq_self_iff]
      rw [abs_lt] at hfresh
      change IsInt64 (microseconds now - values.timestamp)
      unfold IsInt64
      omega
    rw [acceptsBeacon_of_isSigned hsigned hrange]
    simp only [hold, not_false_eq_true, iff_true, ne_eq]
    exact hfresh

theorem meet_none_eq_iff {expected : Option Bytes} {pem : Bytes} (hpem : pem ≠ [])
    : Contact.meet none expected pathBeacon pem = ⟨pem, true, pathBeacon⟩ ↔ ∀ key ∈ expected, key = pem := by
  have hpaths : (0 : UInt8) ≠ pathBeacon := by decide
  cases expected with
  | none =>
    simp [Contact.meet, Contact.confirm, Contact.refuses, Contact.fresh, Contact.fill, hpem]
  | some key =>
    by_cases hkey : key = pem
    . simp [Contact.meet, Contact.confirm, Contact.refuses, Contact.fresh, Contact.fill, hpem, hkey]
    . simp [Contact.meet, Contact.confirm, Contact.refuses, Contact.fresh, hpem, hkey, hpaths]

theorem IsBeacon.passesBeacon_iff (h : IsBeacon C layout texts values) (node : MeshNode C) {now : Int}
    (hother : texts.peerId ≠ node.nodeId) (hfresh : |microseconds now - values.timestamp| < 61000000)
    : node.passesBeacon now (layout.beacon texts values) = true
        ↔
      layout ≠ .old
        ∧ (texts.fingerprint = []
          ∨ node.peerManager.verifyTlsCert texts.peerId texts.fingerprint = true) := by
  unfold passesBeacon
  rw [decide_eq_true_iff, h.acceptsBeacon_iff hother hfresh]
  by_cases hold : layout = .old
  . simp [hold]
  . simp [hold, Layout.beacon]

theorem understands_iff (node : MeshNode C) (env : Env) (dial : Dial) (senderIp : Bytes) (layout : Layout)
    (texts : BeaconTexts) (values : BeaconValues) (h : IsBeacon C layout texts values)
    (hother : texts.peerId ≠ node.nodeId) (hunknown : texts.peerId ∉ node.peerManager.peers)
    (hfresh : |microseconds (env 0).now - values.timestamp| < 61000000)
    : node.Understands env dial (joinPipe (layout.tokens texts)) senderIp texts.peerId values.pem
        ↔
      layout ≠ .old
        ∧ (texts.fingerprint = [] ∨ node.peerManager.verifyTlsCert texts.peerId texts.fingerprint = true)
        ∧ ∀ key, node.peerManager.preProvisionedKeys[texts.peerId]? = some key → key = values.pem := by
  have hnone : node.peerManager.contact? texts.peerId = none := by
    simp [PeerManager.contact?, hunknown]
  have hpasses := h.passesBeacon_iff node hother hfresh
  unfold Understands processDiscoveryBeacon
  rw [h.splitString_eq, h.parseBeacon_eq]
  dsimp only
  cases hcase : node.passesBeacon (env 0).now (layout.beacon texts values) with
  | false =>
    rw [processBeacon_of_not_passes hcase, hnone]
    rw [hcase] at hpasses
    constructor
    . intro hsome
      contradiction
    . intro hcond
      exact absurd (hpasses.mpr ⟨hcond.1, hcond.2.1⟩) (by decide)
  | true =>
    have hmet := contact?_meetBeacon node.peerManager (env 1).now (layout.beacon texts values) senderIp texts.peerId
    have hpeer : (layout.beacon texts values).peerId = texts.peerId := rfl
    rw [if_pos hpeer, hnone] at hmet
    rw [(lists_processBeacon hcase dial senderIp).contact?_eq hmet, Option.some.injEq]
    change Contact.meet none _ pathBeacon values.pem = _ ↔ _
    rw [meet_none_eq_iff h.pem_ne]
    have hcond := hpasses.mp hcase
    exact ⟨fun hkey => ⟨hcond.1, hcond.2, hkey⟩, fun hall => hall.2.2⟩

end Layouts

def sampleValues (signature : Bytes) : BeaconValues where
  tcpPort := 9000
  tlsPort := 9001
  timestamp := 0
  pem := plainKey "1"
  signature

def sampleTexts (signature : Bytes) : BeaconTexts where
  peerId := bytes "P"
  tcpPort := bytes "9000"
  tlsPort := bytes "9001"
  timestamp := bytes "0"
  pubkey := base64Encode (plainKey "1")
  fingerprint := bytes "f"
  certPem := base64Encode (bytes "c")
  signature := base64Encode signature

def sampleSignature (layout : Layout) : Bytes :=
  plainKey "1" ++ layout.blob (sampleTexts []) (sampleValues [])

theorem isBeacon_sample (layout : Layout)
    : IsBeacon .plain layout (sampleTexts (sampleSignature layout)) (sampleValues (sampleSignature layout)) := by
  cases layout
  all_goals
    constructor
    all_goals decide +kernel

theorem understands_sample
    : listeningNode.Understands quietEnv silentDial
        (joinPipe (Layout.v3.tokens (sampleTexts (sampleSignature .v3)))) (bytes "10.0.0.1") (bytes "P")
        (plainKey "1") := by
  refine (understands_iff listeningNode quietEnv silentDial (bytes "10.0.0.1") .v3 _ _ (isBeacon_sample .v3)
    ?_ ?_ ?_).mpr ⟨by decide, .inr ?_, ?_⟩
  . decide
  . decide +kernel
  . decide
  . decide +kernel
  . intro key hkey
    simp [listeningNode, new, peerKeysFromEnv] at hkey

/--
In the old layout the signature is the last one of six tokens, where `process_discovery_beacon` does not look for it.
-/
theorem not_forall_understands
    : ¬ ∀ (node : MeshNode .plain) (env : Env) (dial : Dial) (senderIp : Bytes) (layout : Layout)
        (texts : BeaconTexts) (values : BeaconValues), IsBeacon .plain layout texts values →
        texts.peerId ≠ node.nodeId → texts.peerId ∉ node.peerManager.peers →
        |microseconds (env 0).now - values.timestamp| < 61000000 →
        node.Understands env dial (joinPipe (layout.tokens texts)) senderIp texts.peerId values.pem := by
  intro h
  have hunderstands := h listeningNode quietEnv silentDial (bytes "10.0.0.1") .old _ _ (isBeacon_sample .old)
    (by decide) (by decide +kernel) (by decide)
  revert hunderstands
  unfold Understands
  decide +kernel

end MeshNode
end NeuroMesh
