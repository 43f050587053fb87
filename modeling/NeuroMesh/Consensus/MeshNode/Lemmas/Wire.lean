import NeuroMesh.Common.Base64.Lemmas
import NeuroMesh.Common.Text
import NeuroMesh.Consensus.MeshNode.Impl.Outgoing
import NeuroMesh.Consensus.MeshNode.Lemmas.Contact

namespace NeuroMesh
namespace MeshNode

variable {C : IdentityCore}

def Legible (c : UInt8) : Prop :=
  0x20 ≤ c ∧ c ≤ 0x7f ∨ c = 0x0a ∨ c = 0x0d

instance (c : UInt8) : Decidable (Legible c) :=
  inferInstanceAs (Decidable (_ ∨ _))

structure WireId (id : Bytes) : Prop where
  ne_nil : id ≠ []
  length_le : id.length ≤ 64
  printable : ∀ c ∈ id, 0x20 ≤ c ∧ c ≤ 0x7e
  pipe_notMem : pipe ∉ id

def IsHex (s : Bytes) : Prop :=
  ∀ c ∈ s, isDigit c ∨ (0x61 ≤ c ∧ c ≤ 0x66)

instance (s : Bytes) : Decidable (IsHex s) :=
  inferInstanceAs (Decidable (∀ c ∈ s, _))

section Legible

theorem legible_of_bounds {c low high : UInt8} (hlow : 0x20 ≤ low) (hhigh : high ≤ 0x7f)
    (h : low ≤ c ∧ c ≤ high)
    : Legible c := by
  refine .inl ⟨UInt8.le_trans hlow h.1, UInt8.le_trans h.2 hhigh⟩

theorem legible_of_mem_toDecimalInt {i : Int} {c : UInt8} (h : c ∈ toDecimalInt i) : Legible c := by
  rcases isDigit_or_eq_of_mem_toDecimalInt h with hdigit | rfl
  . simp only [isDigit, Bool.and_eq_true, decide_eq_true_eq] at hdigit
    exact legible_of_bounds (by decide) (by decide) hdigit
  . decide

theorem legible_of_mem_toDecimal {n : Nat} {c : UInt8} (h : c ∈ toDecimal n) : Legible c := by
  exact legible_of_mem_toDecimalInt (i := n) h

theorem legible_of_mem_base64Encode {data : Bytes} {c : UInt8} (h : c ∈ base64Encode data) : Legible c := by
  exact legible_of_bounds (by decide) (by decide) (bounds_of_mem_base64Encode h)

theorem WireId.legible {id : Bytes} (h : WireId id) : ∀ c ∈ id, Legible c := by
  intro c hc
  exact legible_of_bounds (by decide) (by decide) (h.printable c hc)

structure WireText (id : Bytes) : Prop where
  ne_nil : id ≠ []
  length_le : id.length ≤ 64
  legible : ∀ c ∈ id, Legible c
  pipe_notMem : pipe ∉ id

theorem WireId.wireText {id : Bytes} (h : WireId id) : WireText id := by
  exact ⟨h.ne_nil, h.length_le, h.legible, h.pipe_notMem⟩

theorem IsHex.legible {s : Bytes} (h : IsHex s) : ∀ c ∈ s, Legible c := by
  intro c hc
  rcases h c hc with hdigit | hletter
  . simp only [isDigit, Bool.and_eq_true, decide_eq_true_eq] at hdigit
    exact legible_of_bounds (by decide) (by decide) hdigit
  . exact legible_of_bounds (by decide) (by decide) hletter

theorem IsHex.pipe_notMem {s : Bytes} (h : IsHex s) : pipe ∉ s := by
  intro hmem
  have hdigit := h pipe hmem
  revert hdigit
  decide

theorem validateMessage_joinPipe {a b : Bytes} {fields : List Bytes}
    (hsize : (joinPipe (a :: b :: fields)).length ≤ 65536)
    (hlegible : ∀ field ∈ a :: b :: fields, ∀ c ∈ field, Legible c)
    : validateMessage (joinPipe (a :: b :: fields)) = true := by
  have hall : ∀ c ∈ joinPipe (a :: b :: fields), Legible c := by
    intro c hc
    rcases Delimited.eq_or_mem_of_mem_intercalate hc with rfl | ⟨field, hfield, hmem⟩
    . decide
    . exact hlegible field hfield c hmem
  have hne : joinPipe (a :: b :: fields) ≠ [] := by
    unfold joinPipe
    rw [Delimited.intercalate_cons a (List.cons_ne_nil b fields)]
    simp
  unfold validateMessage
  rw [if_neg (by simp [hne, hsize]), if_neg, List.all_eq_true]
  . intro c hc
    have hcases : Legible c := hall c hc
    simp only [Legible, UInt8.le_iff_toNat_le, ← UInt8.toNat_inj, UInt8.toNat_ofNat] at hcases
    simp [UInt8.le_iff_toNat_le, UInt8.lt_iff_toNat_lt, ← UInt8.toNat_inj]
    omega
  . intro hzero
    have hcontra := hall 0 hzero
    revert hcontra
    decide

end Legible

section Vote

structure Sendable (maxEvidenceSize : Nat) (vote : P2PMessage) : Prop where
  stage : vote.stageStr ∈ [Stage.prePrepare, Stage.prepare, Stage.commit]
  sender : WireId vote.senderId
  target : WireId vote.targetId
  evidence : vote.evidenceJson.head? = some 0x7b
  evidence_le : vote.evidenceJson.length ≤ maxEvidenceSize
  view_ge : -(2 ^ 31) ≤ vote.view
  view_lt : vote.view < 2 ^ 31
  prevHash : IsHex vote.prevMessageHash
  signature : vote.signature ≠ []
  size : (encodeVote vote).length ≤ 65536

structure Deliverable (maxEvidenceSize : Nat) (vote : P2PMessage) : Prop where
  stage : vote.stageStr ∈ [Stage.prePrepare, Stage.prepare, Stage.commit]
  sender : WireText vote.senderId
  target : WireText vote.targetId
  evidence : vote.evidenceJson.head? = some 0x7b
  evidence_le : vote.evidenceJson.length ≤ maxEvidenceSize
  view_ge : -(2 ^ 31) ≤ vote.view
  view_lt : vote.view < 2 ^ 31
  prevHash : IsHex vote.prevMessageHash
  signature : vote.signature ≠ []
  size : (encodeVote vote).length ≤ 65536

variable {maxEvidenceSize : Nat} {vote : P2PMessage}

theorem Sendable.deliverable (h : Sendable maxEvidenceSize vote) : Deliverable maxEvidenceSize vote := by
  exact { h with sender := h.sender.wireText, target := h.target.wireText }

def voteFields (vote : P2PMessage) : List Bytes :=
  [
    bytes "VOTE", vote.stageStr, vote.senderId, toDecimal vote.sequenceNumber.toNat,
    toDecimalInt vote.view, vote.targetId, base64Encode vote.evidenceJson, vote.prevMessageHash,
    base64Encode vote.signature
  ]

theorem stage_spec : ∀ stageStr ∈ [Stage.prePrepare, Stage.prepare, Stage.commit],
    stageStr ≠ [] ∧ stageStr ∈ [Stage.prePrepare, Stage.prepare, Stage.commit, Stage.banPeer]
      ∧ pipe ∉ stageStr ∧ ∀ c ∈ stageStr, Legible c := by
  decide +kernel

theorem splitString_encodeVote (hstage : pipe ∉ vote.stageStr) (hsender : pipe ∉ vote.senderId)
    (htarget : pipe ∉ vote.targetId) (hprev : pipe ∉ vote.prevMessageHash) (hsig : vote.signature ≠ [])
    : splitString (encodeVote vote) pipe = voteFields vote := by
  apply Delimited.split_intercalate
  . simp only [List.mem_cons, List.not_mem_nil, or_false, forall_eq_or_imp, forall_eq]
    exact ⟨by decide, hstage, hsender, pipe_notMem_toDecimal _, pipe_notMem_toDecimalInt _, htarget,
      pipe_notMem_base64Encode _, hprev, pipe_notMem_base64Encode _⟩
  . exact base64Encode_ne_nil hsig

theorem Deliverable.splitString_encodeVote (h : Deliverable maxEvidenceSize vote)
    : splitString (encodeVote vote) pipe = voteFields vote := by
  obtain ⟨_, _, hstage, _⟩ := stage_spec vote.stageStr h.stage
  exact MeshNode.splitString_encodeVote hstage h.sender.pipe_notMem h.target.pipe_notMem h.prevHash.pipe_notMem
    h.signature

theorem validateMessage_encodeVote (h : Deliverable maxEvidenceSize vote)
    : validateMessage (encodeVote vote) = true := by
  obtain ⟨_, _, _, hstage⟩ := stage_spec vote.stageStr h.stage
  have hvote : ∀ c ∈ bytes "VOTE", Legible c := by
    decide +kernel
  apply validateMessage_joinPipe h.size
  simp only [List.mem_cons, List.not_mem_nil, or_false, forall_eq_or_imp, forall_eq]
  exact ⟨hvote, hstage, h.sender.legible, fun _ => legible_of_mem_toDecimal,
    fun _ => legible_of_mem_toDecimalInt, h.target.legible, fun _ => legible_of_mem_base64Encode,
    h.prevHash.legible, fun _ => legible_of_mem_base64Encode⟩

theorem length_base64Encode_le {data : Bytes} {limit : Nat} (h : data.length ≤ limit)
    : (base64Encode data).length ≤ limit * 4 / 3 + 4 := by
  rw [length_base64Encode]
  omega

theorem parseVote_voteFields (h : Deliverable maxEvidenceSize vote)
    : parseVote maxEvidenceSize (voteFields vote) = some vote := by
  obtain ⟨hstage, hknown, _, _⟩ := stage_spec vote.stageStr h.stage
  have hevidence : vote.evidenceJson ≠ [] := by
    intro hnil
    have hhead := h.evidence
    simp [hnil] at hhead
  have hsender := h.sender.length_le
  have htarget := h.target.length_le
  have hencoded := length_base64Encode_le h.evidence_le
  unfold parseVote voteFields
  dsimp only
  rw [if_neg (by simp [hstage, h.sender.ne_nil, h.target.ne_nil]), if_neg (by omega), if_neg (by omega),
    base64Decode_base64Encode, base64Decode_base64Encode, Option.getD_some, Option.getD_some,
    if_neg (by simp [hevidence, h.evidence_le]), if_neg (not_not_intro h.evidence),
    if_neg (not_not_intro hknown), stoull_toDecimal, stoi_toDecimalInt h.view_ge h.view_lt]
  dsimp only
  rw [if_neg h.signature]

theorem readMessage_encodeVote {node : MeshNode C} (h : Deliverable node.maxEvidenceSize vote) (env : Env)
    (senderIp : Bytes)
    : node.readMessage env (encodeVote vote) senderIp = node.processVote env vote := by
  have hparse := parseVote_voteFields h
  unfold voteFields at hparse
  unfold readMessage
  rw [h.splitString_encodeVote]
  unfold voteFields
  simp only [hparse]
  rfl

end Vote

section Announce

structure IsPem (pem : Bytes) : Prop where
  header : bytes "-----BEGIN PUBLIC KEY-----" <:+: pem
  legible : ∀ c ∈ pem, Legible c
  pipe_notMem : pipe ∉ pem

structure Presentable (node : MeshNode C) : Prop where
  id : WireId node.nodeId
  pem : IsPem node.publicKeyPem
  sign : ∀ data, C.signPayload node.privateKey data ≠ []

theorem IsPem.ne_nil {pem : Bytes} (h : IsPem pem) : pem ≠ [] := by
  intro hnil
  have hheader := h.header
  rw [hnil, List.infix_nil] at hheader
  revert hheader
  decide

variable {node sender : MeshNode C}

def announceFields (node : MeshNode C) : List Bytes :=
  [
    bytes "ANNOUNCE", node.nodeId, node.publicKeyPem,
    base64Encode (C.signPayload node.privateKey node.announceBlob)
  ]

theorem splitString_announcePayload (h : sender.Presentable)
    : splitString sender.announcePayload pipe = sender.announceFields := by
  apply Delimited.split_intercalate
  . simp only [List.mem_cons, List.not_mem_nil, or_false, forall_eq_or_imp, forall_eq]
    exact ⟨by decide, h.id.pipe_notMem, h.pem.pipe_notMem, pipe_notMem_base64Encode _⟩
  . exact base64Encode_ne_nil (h.sign _)

theorem validateMessage_announcePayload (h : sender.Presentable)
    (hsize : sender.announcePayload.length ≤ 65536)
    : validateMessage sender.announcePayload = true := by
  have hannounce : ∀ c ∈ bytes "ANNOUNCE", Legible c := by
    decide +kernel
  apply validateMessage_joinPipe hsize
  simp only [List.mem_cons, List.not_mem_nil, or_false, forall_eq_or_imp, forall_eq]
  exact ⟨hannounce, h.id.legible, h.pem.legible, fun _ => legible_of_mem_base64Encode⟩

theorem parseAnnounce_announceFields (h : sender.Presentable) (hother : sender.nodeId ≠ node.nodeId)
    : node.parseAnnounce sender.announceFields
        =
      if C.verifyWith (C.getPubkeyFromPem sender.publicKeyPem) sender.announceBlob
          (C.signPayload sender.privateKey sender.announceBlob) then
        some (sender.nodeId, sender.publicKeyPem)
      else
        none := by
  have hlength := h.id.length_le
  unfold parseAnnounce announceFields
  dsimp only
  rw [if_neg (by simp [h.id.ne_nil, hlength]), if_neg (by simp [h.pem.ne_nil, h.pem.header]),
    if_neg hother, base64Decode_base64Encode, Option.getD_some, if_neg (h.sign _)]
  rfl

theorem readMessage_announcePayload (h : sender.Presentable) (env : Env) (senderIp : Bytes)
    : node.readMessage env sender.announcePayload senderIp
        =
      node.processAnnounce env sender.announceFields senderIp := by
  unfold readMessage
  rw [splitString_announcePayload h]
  rfl

end Announce

section Beacon

structure Endpoint.IsWire (endpoint : Endpoint) (us : Int) : Prop where
  tcpPort_ge : -(2 ^ 31) ≤ endpoint.tcpPort
  tcpPort_lt : endpoint.tcpPort < 2 ^ 31
  tlsPort_ge : -(2 ^ 31) ≤ endpoint.tlsPort
  tlsPort_lt : endpoint.tlsPort < 2 ^ 31
  us_ge : -(2 ^ 63) ≤ us
  us_lt : us < 2 ^ 63
  fingerprint : IsHex endpoint.tlsCertFingerprint

def ownBeacon (node : MeshNode C) (endpoint : Endpoint) (us : Int) : Beacon where
  peerId := node.nodeId
  tcpPort := endpoint.tcpPort
  tlsPort := endpoint.tlsPort
  timestamp := us
  pem := node.publicKeyPem
  tlsFingerprint := some endpoint.tlsCertFingerprint
  certPem := endpoint.tlsCertPem
  signedBlob := node.beaconBlob endpoint us
  signature := C.signPayload node.privateKey (node.beaconBlob endpoint us)

variable {node sender : MeshNode C} {endpoint : Endpoint} {us : Int}

def beaconFields (node : MeshNode C) (endpoint : Endpoint) (us : Int) : List Bytes :=
  [
    bytes "DISCOVERY", node.nodeId, toDecimalInt endpoint.tcpPort, toDecimalInt endpoint.tlsPort,
    toDecimalInt us, base64Encode node.publicKeyPem, endpoint.tlsCertFingerprint,
    base64Encode endpoint.tlsCertPem,
    base64Encode (C.signPayload node.privateKey (node.beaconBlob endpoint us))
  ]

theorem tryParseInt_toDecimalInt {i : Int} (hge : -(2 ^ 31) ≤ i) (hlt : i < 2 ^ 31)
    : tryParseInt (toDecimalInt i) = some i := by
  unfold tryParseInt
  rw [stoi_toDecimalInt hge hlt]
  simp

theorem tryParseLong_toDecimalInt {i : Int} (hge : -(2 ^ 63) ≤ i) (hlt : i < 2 ^ 63)
    : tryParseLong (toDecimalInt i) = some i := by
  unfold tryParseLong
  rw [stoll_toDecimalInt hge hlt]
  simp

theorem splitString_beaconPayload (h : sender.Presentable) (hwire : endpoint.IsWire us)
    : splitString (sender.beaconPayload endpoint us) pipe = sender.beaconFields endpoint us := by
  apply Delimited.split_intercalate
  . simp only [List.mem_cons, List.not_mem_nil, or_false, forall_eq_or_imp, forall_eq]
    exact ⟨by decide, h.id.pipe_notMem, pipe_notMem_toDecimalInt _, pipe_notMem_toDecimalInt _,
      pipe_notMem_toDecimalInt _, pipe_notMem_base64Encode _, hwire.fingerprint.pipe_notMem,
      pipe_notMem_base64Encode _, pipe_notMem_base64Encode _⟩
  . exact base64Encode_ne_nil (h.sign _)

theorem parseBeacon_beaconFields (hwire : endpoint.IsWire us)
    : parseBeacon (sender.beaconFields endpoint us) = some (sender.ownBeacon endpoint us) := by
  have htcp := tryParseInt_toDecimalInt hwire.tcpPort_ge hwire.tcpPort_lt
  have htls := tryParseInt_toDecimalInt hwire.tlsPort_ge hwire.tlsPort_lt
  have hus := tryParseLong_toDecimalInt hwire.us_ge hwire.us_lt
  simp [parseBeacon, readFields, beaconFields, ownBeacon, beaconBlob, htcp, htls, hus,
    base64Decode_base64Encode, List.getD]

theorem acceptsBeacon_ownBeacon (h : sender.Presentable) (hother : sender.nodeId ≠ node.nodeId)
    (now : Time)
    : node.acceptsBeacon now (sender.ownBeacon endpoint us)
        =
      (C.verifyWith (C.getPubkeyFromPem sender.publicKeyPem) (sender.beaconBlob endpoint us)
          (C.signPayload sender.privateKey (sender.beaconBlob endpoint us))
        && !(60 < ((microseconds now - us).bmod (2 ^ 64)).tdiv 1000000
          || ((microseconds now - us).bmod (2 ^ 64)).tdiv 1000000 < -60)) := by
  simp [acceptsBeacon, ownBeacon, hother, h.pem.ne_nil, h.sign]
  rfl

theorem not_telemetry_beaconPayload (sender : MeshNode C) (endpoint : Endpoint) (us : Int)
    : ¬bytes "TELEMETRY|" <+: sender.beaconPayload endpoint us := by
  rintro ⟨rest, h⟩
  have hhead : some (0x54 : UInt8) = some 0x44 := congrArg List.head? h
  revert hhead
  decide

end Beacon

theorem wire_round_trip (sender receiver : MeshNode C) (env : Env) (dial : Dial) (senderIp : Bytes)
    (hsender : sender.Presentable) (hother : sender.nodeId ≠ receiver.nodeId)
    (hlimit : (receiver.peerManager.checkRateLimit (env 0) senderIp).1 = true)
    : let limited := receiver.afterLimit env senderIp
      (∀ stageStr targetId evidenceJson,
        let vote := sender.ownMessage stageStr targetId evidenceJson
        Sendable receiver.maxEvidenceSize vote →
          vote.signature = sender.pbft.signMessage vote
            ∧ vote.senderId ≠ limited.nodeId
            ∧ receiver.processMessage env (encodeVote vote) senderIp = limited.processVote env.right vote)
        ∧
      (sender.announcePayload.length ≤ 65536 →
        receiver.processMessage env sender.announcePayload senderIp
          = limited.processAnnounce env.right sender.announceFields senderIp
        ∧
        limited.parseAnnounce sender.announceFields
          =
        if C.verifyWith (C.getPubkeyFromPem sender.publicKeyPem) sender.announceBlob
            (C.signPayload sender.privateKey sender.announceBlob) then
          some (sender.nodeId, sender.publicKeyPem)
        else
          none)
        ∧
      (∀ endpoint us, endpoint.IsWire us →
        receiver.processDiscovery env dial (sender.beaconPayload endpoint us) senderIp
          = limited.processBeacon env.right dial (sender.ownBeacon endpoint us) senderIp
        ∧
        ∀ now, limited.acceptsBeacon now (sender.ownBeacon endpoint us)
          =
        (C.verifyWith (C.getPubkeyFromPem sender.publicKeyPem) (sender.beaconBlob endpoint us)
            (C.signPayload sender.privateKey (sender.beaconBlob endpoint us))
          && !(60 < ((microseconds now - us).bmod (2 ^ 64)).tdiv 1000000
            || ((microseconds now - us).bmod (2 ^ 64)).tdiv 1000000 < -60))) := by
  intro limited
  refine ⟨?_, ?_, ?_⟩
  . intro stageStr targetId evidenceJson vote hvote
    have hlimited : Deliverable limited.maxEvidenceSize vote := hvote.deliverable
    refine ⟨rfl, hother, ?_⟩
    rw [processMessage_eq, hlimit, validateMessage_encodeVote hlimited]
    exact readMessage_encodeVote hlimited env.right senderIp
  . intro hsize
    refine ⟨?_, parseAnnounce_announceFields hsender hother⟩
    rw [processMessage_eq, hlimit, validateMessage_announcePayload hsender hsize]
    exact readMessage_announcePayload hsender env.right senderIp
  . intro endpoint us hwire
    refine ⟨?_, acceptsBeacon_ownBeacon hsender hother⟩
    rw [processDiscovery_eq, if_pos hlimit, if_neg (not_telemetry_beaconPayload sender endpoint us)]
    unfold processDiscoveryBeacon
    rw [splitString_beaconPayload hsender hwire, parseBeacon_beaconFields hwire]

def framed : MeshNode .plain :=
  let key := bytes "-----BEGIN PUBLIC KEY-----\nB\n-----END PUBLIC KEY-----\n"
  new .plain (bytes "B") key key {}

theorem wireId_sample : ∀ id ∈ [bytes "B", bytes "T"], WireId id := by
  intro id hmem
  constructor
  all_goals
    revert id
    decide +kernel

theorem presentable_framed : framed.Presentable := by
  have hpem : IsPem framed.publicKeyPem := by
    refine ⟨?_, ?_, ?_⟩
    . decide +kernel
    . decide +kernel
    . decide +kernel
  refine ⟨wireId_sample _ (by decide), hpem, ?_⟩
  intro data
  show framed.publicKeyPem ++ data ≠ []
  apply List.append_ne_nil_of_left_ne_nil hpem.ne_nil

theorem isWire_sample : Endpoint.IsWire ⟨9999, 10000, bytes "ab", []⟩ 0 := by
  constructor
  all_goals decide +kernel

theorem wire_round_trip_of_new
    : let key := bytes "-----BEGIN PUBLIC KEY-----\nB\n-----END PUBLIC KEY-----\n"
      let sender := new .plain (bytes "B") key key {}
      let receiver := new .plain (bytes "A") (bytes "A") (bytes "A") {}
      let vote := sender.ownMessage Stage.prePrepare (bytes "T") (bytes "\x7b\x7d")
      sender.announcePayload.length ≤ 65536 ∧ Endpoint.IsWire ⟨9999, 10000, bytes "ab", []⟩ 0
        ∧ receiver.processMessage quietEnv (encodeVote vote) (bytes "10.0.0.2")
          = (receiver.afterLimit quietEnv (bytes "10.0.0.2")).processVote quietEnv.right vote := by
  intro key sender receiver vote
  have hvote : Sendable receiver.maxEvidenceSize vote := by
    constructor
    . decide
    . exact wireId_sample _ (by decide)
    . exact wireId_sample _ (by decide)
    all_goals decide +kernel
  have hwire := wire_round_trip sender receiver quietEnv silentDial (bytes "10.0.0.2") presentable_framed
    (by decide) (by decide +kernel)
  exact ⟨by decide +kernel, isWire_sample, (hwire.1 _ _ _ hvote).2.2⟩

end MeshNode
end NeuroMesh
