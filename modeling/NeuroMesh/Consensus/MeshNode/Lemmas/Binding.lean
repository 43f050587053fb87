import NeuroMesh.Consensus.MeshNode.Impl.Enforcement
import NeuroMesh.Consensus.MeshNode.Lemmas.Contact
import NeuroMesh.Enforcer.Lemmas.Calls

namespace NeuroMesh

variable {C : IdentityCore}

namespace MeshNode

def Step.datagram (step : Step) : Option (Bytes × Bytes) :=
  match step.action with
  | .message msg senderIp => some (msg, senderIp)
  | .discovery msg senderIp => some (msg, senderIp)
  | _ => none

theorem mem_announceRegistrations {node : MeshNode C} {env : Env} {tokens : List Bytes}
    {senderIp peerId ip : Bytes} (h : .registerPeerIp peerId ip ∈ node.announceRegistrations env tokens senderIp)
    : ip = senderIp ∧ ∃ pem, node.parseAnnounce tokens = some (peerId, pem) := by
  unfold announceRegistrations at h
  split at h
  . contradiction
  . next peerId' pem hparse =>
    dsimp only at h
    split at h
    . contradiction
    . rw [List.mem_singleton] at h
      cases h
      exact ⟨rfl, pem, hparse⟩

theorem mem_beaconRegistrations {node : MeshNode C} {env : Env} {beacon : Beacon} {senderIp peerId ip : Bytes}
    (h : .registerPeerIp peerId ip ∈ node.beaconRegistrations env beacon senderIp)
    : let fingerprint := beacon.tlsFingerprint.getD []
      ip = senderIp ∧ peerId = beacon.peerId ∧ node.acceptsBeacon (env 0).now beacon
        ∧ (fingerprint = [] ∨ node.peerManager.verifyTlsCert beacon.peerId fingerprint) := by
  intro fingerprint
  have hports : .registerPeerIp peerId ip ∉ if 0 < beacon.tcpPort then
      [PolicyEnforcer.Call.registerPeerPort beacon.peerId (UInt16.ofInt beacon.tcpPort)] else [] := by
    split <;> simp
  unfold beaconRegistrations at h
  dsimp only at h
  split at h
  . contradiction
  . next hpasses =>
    split at h
    . rcases List.mem_cons.mp h with heq | hmem
      . cases heq
        rw [Bool.or_eq_true, not_or, Bool.not_eq_true', Bool.not_eq_false] at hpasses
        exact ⟨rfl, rfl, decide_eq_true_iff.mp hpasses.1⟩
      . exact absurd hmem hports
    . contradiction

theorem introduction_of_mem_registrations {node : MeshNode C} {step : Step} {peerId ip : Bytes}
    (h : .registerPeerIp peerId ip ∈ node.registrations step)
    : (∃ msg, step.datagram = some (msg, ip)) ∧ ∃ pem path, node.introduction step = some ⟨peerId, pem, path⟩ := by
  obtain ⟨env, dial, action⟩ := step
  unfold registrations at h
  unfold introduction Step.datagram
  cases action with
  | message msg senderIp =>
    dsimp only at h ⊢
    generalize node.peerManager.checkRateLimit (env 0) senderIp = limited at h ⊢
    obtain ⟨passes, peerManager⟩ := limited
    cases passes with
    | false => contradiction
    | true =>
      dsimp only at h
      split at h
      . contradiction
      . next hread =>
        rw [not_or, not_or] at hread
        obtain ⟨hvalid, -, hhead⟩ := hread
        obtain ⟨rfl, pem, hparse⟩ := mem_announceRegistrations h
        have hvalid : validateMessage msg = true := by simpa using hvalid
        have hparse : node.parseAnnounce (splitString msg pipe) = some (peerId, pem) := hparse
        refine ⟨⟨msg, rfl⟩, pem, pathAnnounce, ?_⟩
        rw [if_pos (by simp [hvalid])]
        unfold introducedByAnnounce
        dsimp only
        rw [if_pos (not_not.mp hhead), hparse]
        rfl
  | discovery msg senderIp =>
    obtain ⟨rateLimits, hlimited⟩ := node.peerManager.snd_checkRateLimit (env 0) senderIp
    dsimp only at h ⊢
    generalize node.peerManager.checkRateLimit (env 0) senderIp = limited at h hlimited ⊢
    obtain ⟨passes, peerManager⟩ := limited
    dsimp only at hlimited
    subst hlimited
    cases passes with
    | false => contradiction
    | true =>
      dsimp only at h
      split at h
      . contradiction
      . next htelemetry =>
        split at h
        . contradiction
        . next beacon hbeacon =>
          obtain ⟨rfl, rfl, hpass⟩ := mem_beaconRegistrations h
          refine ⟨⟨msg, rfl⟩, beacon.pem, pathBeacon, ?_⟩
          simp only [if_true]
          unfold introducedByBeacon
          rw [if_neg htelemetry, hbeacon]
          exact if_pos hpass
  | _ => contradiction

end MeshNode

namespace Agent

open MeshNode (plainAnnounce plainKey stepAt)

def Input.datagram (input : Input) : Option (Bytes × Bytes) :=
  match input with
  | .node _ step => step.datagram
  | _ => none

theorem peerIpMap_act (agent : Agent C) (input : Input) (peerId : Bytes)
    : (agent.act input).enforcer.peerIpMap[peerId]? = agent.enforcer.peerIpMap[peerId]?
        ∨
      ∃ p step msg ip pem path, input = .node p step ∧ step.datagram = some (msg, ip)
        ∧ agent.node.introduction step = some ⟨peerId, pem, path⟩
        ∧ (agent.act input).enforcer.peerIpMap[peerId]? = some ip := by
  rcases PolicyEnforcer.peerIpMap_foldl_step agent.enforcer (agent.calls input) peerId
    with hsame | ⟨ip, hmem, -, hip⟩
  . exact .inl hsame
  . cases input with
    | node p step =>
      have hmem : .registerPeerIp peerId ip ∈ agent.node.registrations step := by
        rcases List.mem_append.mp hmem with hmem | hmem
        . exact hmem
        . obtain ⟨response, -, heq⟩ := List.mem_map.mp hmem
          contradiction
      obtain ⟨⟨msg, hmsg⟩, pem, path, hintro⟩ := MeshNode.introduction_of_mem_registrations hmem
      exact .inr ⟨p, step, msg, ip, pem, path, rfl, hmsg, hintro, hip⟩
    | _ =>
      rw [calls, List.mem_singleton] at hmem
      contradiction

structure Datagram where
  origin : Bytes
  ip : Bytes
  msg : Bytes

inductive Traffic where
  | elsewhere (datagram : Datagram)
  | input (origin : Bytes) (input : Input)

structure Observed (C : IdentityCore) where
  agent : Agent C
  sent : List Datagram := []

namespace Observed

def act (s : Observed C) (traffic : Traffic) : Observed C :=
  match traffic with
  | .elsewhere datagram => { s with sent := datagram :: s.sent }
  | .input origin input => {
      agent := s.agent.act input
      sent := (input.datagram.map fun (msg, ip) => ⟨origin, ip, msg⟩).toList ++ s.sent
    }

def addressOf (s : Observed C) (peerId : Bytes) : Option Bytes :=
  s.agent.enforcer.peerIpMap[peerId]?

def sentFrom (s : Observed C) : List (Bytes × Bytes) :=
  s.sent.map fun datagram => (datagram.origin, datagram.ip)

/--
Somebody else hands over what the peer has sent before.
-/
def Replays (s : Observed C) (traffic : Traffic) (peerId : Bytes) : Prop :=
  match traffic with
  | .elsewhere _ => False
  | .input origin input =>
    origin ≠ peerId ∧ ∃ msg ip ip', input.datagram = some (msg, ip) ∧ ⟨peerId, ip', msg⟩ ∈ s.sent

structure BoundByPeer (s : Observed C) (traffic : Traffic) : Prop where
  moved : ∀ peerId ip ip', s.addressOf peerId = some ip → (s.act traffic).addressOf peerId = some ip' → ip ≠ ip' →
    (peerId, ip') ∈ (s.act traffic).sentFrom
  replayed : ∀ peerId, s.Replays traffic peerId → (s.act traffic).addressOf peerId = s.addressOf peerId

/--
What the node takes for an introduction of a peer has been sent by this peer.
-/
def Firsthand (s : Observed C) (traffic : Traffic) : Prop :=
  match traffic with
  | .input origin (.node _ step) => ∀ intro ∈ s.agent.node.introduction step, origin = intro.peerId
  | _ => True

theorem addressOf_act_of_firsthand {s : Observed C} {traffic : Traffic} (h : s.Firsthand traffic) (peerId : Bytes)
    : (s.act traffic).addressOf peerId = s.addressOf peerId
        ∨
      ∃ p step msg ip, traffic = .input peerId (.node p step) ∧ step.datagram = some (msg, ip)
        ∧ (s.act traffic).addressOf peerId = some ip := by
  cases traffic with
  | elsewhere datagram => exact .inl rfl
  | input origin input =>
    rcases peerIpMap_act s.agent input peerId with hsame | ⟨p, step, msg, ip, pem, path, rfl, hmsg, hintro, hip⟩
    . exact .inl hsame
    . have horigin : origin = peerId := h _ hintro
      subst horigin
      exact .inr ⟨p, step, msg, ip, rfl, hmsg, hip⟩

theorem boundByPeer_of_firsthand {s : Observed C} {traffic : Traffic} (h : s.Firsthand traffic)
    : s.BoundByPeer traffic := by
  constructor
  . intro peerId ip ip' hold hnew hne
    rcases addressOf_act_of_firsthand h peerId with hsame | ⟨p, step, msg, sender, rfl, hmsg, hsender⟩
    . exact absurd (Option.some.inj (hold.symm.trans (hsame.symm.trans hnew))) hne
    . rw [← Option.some.inj (hsender.symm.trans hnew)]
      simp [sentFrom, act, Input.datagram, hmsg]
  . intro peerId hreplays
    rcases addressOf_act_of_firsthand h peerId with hsame | ⟨p, step, msg, sender, rfl, -⟩
    . exact hsame
    . exact absurd rfl hreplays.1

theorem along_boundByPeer_of_firsthand (s : Observed C) (traffic : List Traffic)
    (h : Run.Along act Firsthand s traffic)
    : Run.Along act BoundByPeer s traffic := by
  apply Run.along_mono _ h
  intro s traffic hfirsthand
  exact boundByPeer_of_firsthand hfirsthand

def start (nftables iptables : Bool) : Observed .plain where
  agent := {
    node := .new .plain (bytes "A") (bytes "A") (bytes "A") {}
    enforcer := { nftables, iptables }
  }

def announced (origin ip : String) : Traffic :=
  .input (bytes origin)
    (.node (samplePlatform 0) (stepAt 0 (.message (plainAnnounce (bytes "B") (plainKey "B")) (bytes ip))))

instance (s : Observed C) (traffic : Traffic) : Decidable (s.Firsthand traffic) :=
  match traffic with
  | .input origin (.node _ step) =>
    inferInstanceAs (Decidable (∀ intro ∈ s.agent.node.introduction step, origin = intro.peerId))
  | .elsewhere _ | .input _ (.addSafeNode _) | .input _ (.isolateTarget _ _) | .input _ (.blockIpAddress _ _)
  | .input _ (.releaseTarget _ _) => .isTrue trivial

/--
`B` announces itself and moves. In between `E` sends what `B` has told another node, which is no introduction.
-/
def moving : List Traffic :=
  [
    announced "B" "10.0.0.1",
    .elsewhere ⟨bytes "B", bytes "10.0.0.1", bytes "VOTE"⟩,
    .input (bytes "E")
      (.node (samplePlatform 0) (stepAt 0 (.message (bytes "VOTE") (bytes "10.0.0.3")))),
    announced "B" "10.0.0.2"
  ]

theorem along_boundByPeer_moving
    : Run.Along act BoundByPeer (start true true) moving
        ∧ ((moving.take 2).foldl act (start true true)).Replays moving[2] (bytes "B")
        ∧ (moving.foldl act (start true true)).addressOf (bytes "B") = some (bytes "10.0.0.2") := by
  refine ⟨?_, ?_, by decide +kernel⟩
  . exact along_boundByPeer_of_firsthand (start true true) moving (by decide +kernel)
  . exact ⟨by decide, bytes "VOTE", bytes "10.0.0.3", bytes "10.0.0.1", rfl, List.mem_cons_self⟩

theorem not_along_boundByPeer_replaying
    : ¬ ∀ traffic, Run.Along act BoundByPeer (start true true) traffic := by
  intro h
  have hrun := h [announced "B" "10.0.0.1", announced "E" "10.0.0.2"]
  have hsent := hrun.2.1.moved (bytes "B") (bytes "10.0.0.1") (bytes "10.0.0.2") (by decide +kernel)
    (by decide +kernel) (by decide)
  revert hsent
  decide +kernel

end Observed
end Agent
end NeuroMesh
