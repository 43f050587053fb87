import NeuroMesh.Consensus.MeshNode.Lemmas.Contact

namespace NeuroMesh

namespace PeerManager

inductive Call where
  | addPeer (now : Time) (peerId ip : Bytes) (tcpPort tlsPort : Int) (pem : Bytes)
  | updatePeerHeartbeat (now : Time) (peerId ip : Bytes) (tcpPort tlsPort : Int) (pem : Bytes)
  | confirmPath (peerId : Bytes) (pathFlag : UInt8) (pem : Bytes)
  | removePeer (peerId : Bytes)
  | unpinPeerKey (nodeId : Bytes)

def call (m : PeerManager) (c : Call) : PeerManager :=
  match c with
  | .addPeer now peerId ip tcpPort tlsPort pem => (m.addPeer now peerId ip tcpPort tlsPort pem).2
  | .updatePeerHeartbeat now peerId ip tcpPort tlsPort pem =>
    m.updatePeerHeartbeat now peerId ip tcpPort tlsPort pem
  | .confirmPath peerId pathFlag pem => (m.confirmPath peerId pathFlag pem).2
  | .removePeer peerId => m.removePeer peerId
  | .unpinPeerKey nodeId => m.unpinPeerKey nodeId

theorem preProvisionedKeys_call (m : PeerManager) (c : Call)
    : (m.call c).preProvisionedKeys = m.preProvisionedKeys := by
  unfold call
  cases c with
  | addPeer => apply preProvisionedKeys_addPeer
  | updatePeerHeartbeat => apply preProvisionedKeys_updatePeerHeartbeat
  | confirmPath => apply preProvisionedKeys_confirmPath
  | removePeer => rfl
  | unpinPeerKey => apply preProvisionedKeys_unpinPeerKey

end PeerManager

namespace MeshNode

variable {C : IdentityCore}

inductive Activity where
  | call (c : PeerManager.Call)
  | act (step : Step)

def perform (node : MeshNode C) (activity : Activity) : MeshNode C :=
  match activity with
  | .call c => { node with peerManager := node.peerManager.call c }
  | .act step => node.act step

def revokes (node : MeshNode C) (p : Bytes) (activity : Activity) : Bool :=
  match activity with
  | .call (.removePeer peerId) => peerId = p
  | .call (.unpinPeerKey nodeId) => nodeId = p
  | .call _ => false
  | .act step =>
    match step.action with
    | .unpinPeerKey nodeId => nodeId = p
    | _ => node.prunes step p

structure KeepsPins (p : Bytes) (m m' : PeerManager) : Prop where
  key : m.getPeerKey p ≠ [] → m'.getPeerKey p = m.getPeerKey p
  pin : m.pin p ≠ [] → m'.pin p = m.pin p

section Step

variable {p : Bytes} {m m' : PeerManager}

theorem keepsPins_of_contact? (hkey : ∀ c, m.contact? p = some c → c.key ≠ [] →
      ∃ c', m'.contact? p = some c' ∧ c'.key = c.key)
    (hpin : m.pin p ≠ [] → m'.pin p = m.pin p)
    : KeepsPins p m m' := by
  constructor
  . rw [PeerManager.getPeerKey_eq, PeerManager.getPeerKey_eq]
    cases hc : m.contact? p with
    | none => simp
    | some c =>
      intro hne
      obtain ⟨c', hc', hsame⟩ := hkey c hc hne
      rw [hc']
      exact hsame
  . exact hpin

theorem keepsPins_of_spares (h : m.Spares false p m') : KeepsPins p m m' := by
  apply keepsPins_of_contact?
  . intro c hc _
    have hmoves := h.contact
    rw [hc] at hmoves
    generalize m'.contact? p = c' at hmoves
    cases hmoves with
    | keep => exact ⟨c, rfl, rfl⟩
    | listed hnone => contradiction
    | pruned hpruned => contradiction
  . intro _
    exact h.pin

theorem keepsPins_of_meets {intro : Introduction} (h : Meets m intro m') (hid : intro.peerId = p)
    : KeepsPins p m m' := by
  subst hid
  apply keepsPins_of_contact?
  . intro c hc hne
    refine ⟨_, h.contact, ?_⟩
    rw [hc]
    exact Contact.key_confirm_of_ne_nil hne _ _ _
  . exact h.pin

theorem keepsPins_call (m : PeerManager) (c : PeerManager.Call) (h : c ≠ .removePeer p)
    (hunpin : c ≠ .unpinPeerKey p)
    : KeepsPins p m (m.call c) := by
  apply keepsPins_of_contact?
  . intro contact hcontact hne
    unfold PeerManager.call
    cases c with
    | addPeer now peerId ip tcpPort tlsPort pem =>
      refine ⟨contact, ?_, rfl⟩
      dsimp only
      rw [PeerManager.contact?_addPeer, hcontact]
      split <;> rfl
    | updatePeerHeartbeat now peerId ip tcpPort tlsPort pem =>
      refine ⟨contact, ?_, rfl⟩
      dsimp only
      rw [PeerManager.contact?_updatePeerHeartbeat, hcontact, Option.map_some,
        Contact.fill_of_ne_nil hne, ite_self]
    | confirmPath peerId pathFlag pem =>
      by_cases hid : peerId = p
      . subst hid
        exact ⟨_, PeerManager.contact?_confirmPath_self hcontact, Contact.key_confirm_of_ne_nil hne _ _ _⟩
      . refine ⟨contact, ?_, rfl⟩
        dsimp only
        rw [PeerManager.contact?_confirmPath_of_ne _ _ _ _ hid, hcontact]
    | removePeer peerId =>
      have hid : peerId ≠ p := by
        rintro rfl
        exact h rfl
      refine ⟨contact, ?_, rfl⟩
      dsimp only
      rw [PeerManager.contact?_removePeer, if_neg hid, hcontact]
    | unpinPeerKey nodeId =>
      have hid : nodeId ≠ p := by
        rintro rfl
        exact hunpin rfl
      refine ⟨contact, ?_, rfl⟩
      dsimp only
      rw [PeerManager.contact?_unpinPeerKey, if_neg hid, hcontact]
  . intro _
    unfold PeerManager.call PeerManager.pin
    cases c with
    | addPeer => simp
    | updatePeerHeartbeat => simp
    | confirmPath => simp
    | removePeer => rfl
    | unpinPeerKey nodeId =>
      have hid : nodeId ≠ p := by
        rintro rfl
        exact hunpin rfl
      refine (m.pin_unpinPeerKey p nodeId).trans ?_
      rw [if_neg hid]
      rfl

theorem keepsPins_perform {node : MeshNode C} {activity : Activity}
    (h : node.revokes p activity = false)
    : KeepsPins p node.peerManager (node.perform activity).peerManager := by
  cases activity with
  | call c =>
    apply keepsPins_call
    . rintro rfl
      simp [revokes] at h
    . rintro rfl
      simp [revokes] at h
  | act step =>
    have hunpin : step.action ≠ .unpinPeerKey p := by
      intro haction
      simp [revokes, haction] at h
    by_cases hintro : ∃ intro, node.introduction step = some intro ∧ intro.peerId = p
    . obtain ⟨intro, hsome, hid⟩ := hintro
      exact keepsPins_of_meets (meets_act hsome) hid
    . have hspares : node.peerManager.Spares (node.prunes step p) p (node.act step).peerManager := by
        apply spares_act _ hunpin
        intro intro hsome hid
        exact hintro ⟨intro, hsome, hid⟩
      have hprunes : node.prunes step p = false := by
        unfold prunes
        cases haction : step.action with
        | pruneStalePeers => simpa [revokes, prunes, haction] using h
        | _ => rfl
      rw [hprunes] at hspares
      exact keepsPins_of_spares hspares

end Step

theorem pins_immutable (node : MeshNode C) (p : Bytes) (activities : List Activity)
    (h : Run.Along perform (fun node activity => node.revokes p activity = false) node activities)
    : (∀ key, key ≠ [] → node.peerManager.getPeerKey p = key →
        Run.Always perform (fun node => node.peerManager.getPeerKey p = key) node activities)
        ∧
      (∀ fingerprint, fingerprint ≠ [] → node.peerManager.pin p = fingerprint →
        Run.Always perform (fun node => node.peerManager.pin p = fingerprint) node activities) := by
  constructor
  . intro key hne hkey
    apply Run.always_of_invariant (I := fun node => node.peerManager.getPeerKey p = key) _ (fun _ h => h) hkey h
    intro node activity hkey hrevokes
    rw [(keepsPins_perform hrevokes).key (hkey ▸ hne), hkey]
  . intro fingerprint hne hpin
    apply Run.always_of_invariant (I := fun node => node.peerManager.pin p = fingerprint) _ (fun _ h => h) hpin h
    intro node activity hpin hrevokes
    rw [(keepsPins_perform hrevokes).pin (hpin ▸ hne), hpin]

def pinnedNode : MeshNode .plain :=
  [announces (bytes "P") "1", beacons (bytes "P") "1" "f"].foldl act
    (new .plain (bytes "A") (bytes "A") (bytes "A") {})

def impersonation : List Activity :=
  [
    .act (announces (bytes "P") "2"), .act (beacons (bytes "P") "2" "g"),
    .call (.addPeer 0 (bytes "P") [] 0 0 (plainKey "2")),
    .call (.updatePeerHeartbeat 0 (bytes "P") [] 0 0 (plainKey "2")),
    .call (.confirmPath (bytes "P") pathAnnounce (plainKey "2"))
  ]

theorem pins_immutable_impersonation
    : Run.Along perform (fun node activity => node.revokes (bytes "P") activity = false) pinnedNode
        impersonation
      ∧ Run.Always perform (fun node => node.peerManager.getPeerKey (bytes "P") = plainKey "1") pinnedNode
        impersonation
      ∧ Run.Always perform (fun node => node.peerManager.pin (bytes "P") = bytes "f") pinnedNode
        impersonation := by
  have halong : Run.Along perform (fun node activity => node.revokes (bytes "P") activity = false)
      pinnedNode impersonation := by
    decide +kernel
  have hpins := pins_immutable pinnedNode (bytes "P") impersonation halong
  refine ⟨halong, hpins.1 (plainKey "1") ?_ ?_, hpins.2 (bytes "f") ?_ ?_⟩
  . decide
  . decide +kernel
  . decide
  . decide +kernel

structure Faithful (expected : Bytes) (c : Contact) : Prop where
  key : c.key = [] ∨ c.key = expected
  verified : c.verified = true → c.key = expected

section Provisioned

variable {expected pem : Bytes} {c : Contact}

theorem faithful_empty (expected : Bytes) (paths : UInt8) : Faithful expected { paths } := by
  constructor
  . exact .inl rfl
  . intro h
    contradiction

theorem faithful_fresh (h : pem = [] ∨ pem = expected) : Faithful expected (.fresh pem) := by
  rcases h with rfl | rfl
  . apply faithful_empty
  . exact ⟨.inr rfl, fun _ => rfl⟩

theorem faithful_fill (hc : Faithful expected c) (h : c.key = [] → pem = [] ∨ pem = expected)
    : Faithful expected (c.fill pem) := by
  unfold Contact.fill
  split
  . next hfill =>
    rcases h hfill.2 with hempty | heq
    . exact absurd hempty hfill.1
    . exact ⟨.inr heq, fun _ => heq⟩
  . exact hc

theorem faithful_confirm (hc : Faithful expected c) (path : UInt8) (pem : Bytes)
    : Faithful expected (c.confirm (some expected) path pem) := by
  unfold Contact.confirm
  split
  . exact hc
  . next hno =>
    have hpaths : Faithful expected { c with paths := c.paths ||| path } := ⟨hc.key, hc.verified⟩
    apply faithful_fill hpaths
    intro _
    by_contra! hother
    apply hno
    simp [Contact.refuses, hother.1, Ne.symm hother.2]

end Provisioned

def genuine (node : MeshNode C) (p expected : Bytes) (activity : Activity) : Bool :=
  match activity with
  | .call (.addPeer _ peerId _ _ _ pem) =>
    peerId = p → p ∉ node.peerManager.peers → pem = [] ∨ pem = expected
  | .call (.updatePeerHeartbeat _ peerId _ _ _ pem) =>
    peerId = p → p ∈ node.peerManager.peers → node.peerManager.getPeerKey p = [] → pem = [] ∨ pem = expected
  | .call _ => true
  | .act step =>
    match node.introduction step with
    | some intro => intro.peerId = p → p ∉ node.peerManager.peers → intro.pem = expected
    | none => true

structure Authoritative (p expected : Bytes) (m : PeerManager) : Prop where
  provisioned : m.preProvisionedKeys[p]? = some expected
  faithful : ∀ c, m.contact? p = some c → Faithful expected c

section Authoritative

variable {p expected : Bytes} {m m' : PeerManager}

theorem authoritative_of_spares (h : Authoritative p expected m) {pruned : Bool}
    (hspares : m.Spares pruned p m')
    : Authoritative p expected m' := by
  constructor
  . rw [hspares.preProvisionedKeys, h.provisioned]
  . have hmoves := hspares.contact
    generalize m'.contact? p = c' at hmoves
    intro c hc
    cases hmoves with
    | keep => exact h.faithful c hc
    | listed _ =>
      cases hc
      apply faithful_empty
    | pruned _ => contradiction

theorem authoritative_of_meets (h : Authoritative p expected m) {intro : Introduction}
    (hmeets : Meets m intro m') (hkeys : m'.preProvisionedKeys = m.preProvisionedKeys)
    (hid : intro.peerId = p) (hnew : p ∉ m.peers → intro.pem = expected)
    : Authoritative p expected m' := by
  subst hid
  constructor
  . rw [hkeys, h.provisioned]
  . intro c hc
    rw [hmeets.contact, h.provisioned] at hc
    cases hc
    apply faithful_confirm
    cases hcontact : m.contact? intro.peerId with
    | some c => exact h.faithful c hcontact
    | none =>
      rw [PeerManager.contact?_eq_none_iff] at hcontact
      exact faithful_fresh (.inr (hnew hcontact))

theorem authoritative_call {node : MeshNode C} (h : Authoritative p expected node.peerManager)
    {c : PeerManager.Call} (hgenuine : node.genuine p expected (.call c) = true)
    : Authoritative p expected (node.peerManager.call c) := by
  constructor
  . rw [PeerManager.preProvisionedKeys_call, h.provisioned]
  . unfold genuine at hgenuine
    unfold PeerManager.call
    intro contact hcontact
    cases c with
    | addPeer now peerId ip tcpPort tlsPort pem =>
      simp only [decide_eq_true_eq] at hgenuine
      dsimp only at hcontact
      rw [PeerManager.contact?_addPeer] at hcontact
      split at hcontact
      . next hid =>
        cases hcontact
        cases hc : node.peerManager.contact? p with
        | some c => exact h.faithful c hc
        | none =>
          rw [PeerManager.contact?_eq_none_iff] at hc
          exact faithful_fresh (hgenuine hid hc)
      . exact h.faithful contact hcontact
    | updatePeerHeartbeat now peerId ip tcpPort tlsPort pem =>
      simp only [decide_eq_true_eq] at hgenuine
      dsimp only at hcontact
      rw [PeerManager.contact?_updatePeerHeartbeat] at hcontact
      split at hcontact
      . next hid =>
        rw [Option.map_eq_some_iff] at hcontact
        obtain ⟨c, hc, rfl⟩ := hcontact
        apply faithful_fill (h.faithful c hc)
        intro hempty
        apply hgenuine hid
        . by_contra habsent
          rw [← PeerManager.contact?_eq_none_iff, hc] at habsent
          contradiction
        . rw [PeerManager.getPeerKey_eq, hc]
          exact hempty
      . exact h.faithful contact hcontact
    | confirmPath peerId pathFlag pem =>
      by_cases hid : peerId = p
      . subst hid
        dsimp only at hcontact
        cases hc : node.peerManager.contact? peerId with
        | none =>
          rw [PeerManager.confirmPath_of_none _ _ _ _ hc, hc] at hcontact
          contradiction
        | some c =>
          rw [PeerManager.contact?_confirmPath_self hc, h.provisioned] at hcontact
          cases hcontact
          exact faithful_confirm (h.faithful c hc) pathFlag pem
      . dsimp only at hcontact
        rw [PeerManager.contact?_confirmPath_of_ne _ _ _ _ hid] at hcontact
        exact h.faithful contact hcontact
    | removePeer peerId =>
      dsimp only at hcontact
      rw [PeerManager.contact?_removePeer] at hcontact
      split at hcontact
      . contradiction
      . exact h.faithful contact hcontact
    | unpinPeerKey nodeId =>
      dsimp only at hcontact
      rw [PeerManager.contact?_unpinPeerKey] at hcontact
      split at hcontact
      . rw [Option.map_eq_some_iff] at hcontact
        obtain ⟨c, _, rfl⟩ := hcontact
        apply faithful_empty
      . exact h.faithful contact hcontact

theorem authoritative_perform {node : MeshNode C} {activity : Activity}
    (h : Authoritative p expected node.peerManager) (hgenuine : node.genuine p expected activity = true)
    : Authoritative p expected (node.perform activity).peerManager := by
  cases activity with
  | call c => exact authoritative_call h hgenuine
  | act step =>
    have hkeys := node.preProvisionedKeys_act step
    by_cases hintro : ∃ intro, node.introduction step = some intro ∧ intro.peerId = p
    . obtain ⟨intro, hsome, hid⟩ := hintro
      apply authoritative_of_meets h (meets_act hsome) hkeys hid
      intro hnew
      unfold genuine at hgenuine
      dsimp only at hgenuine
      rw [hsome] at hgenuine
      exact of_decide_eq_true hgenuine hid hnew
    . by_cases hunpin : step.action = .unpinPeerKey p
      . constructor
        . exact hkeys ▸ h.provisioned
        . intro c hc
          have hact : node.perform (.act step) = node.unpinPeerKey p := act_of_unpinPeerKey hunpin
          rw [hact, contact?_unpinPeerKey, if_pos rfl, Option.map_eq_some_iff] at hc
          obtain ⟨c, _, rfl⟩ := hc
          apply faithful_empty
      . apply authoritative_of_spares h (spares_act _ hunpin)
        intro intro hsome hid
        exact hintro ⟨intro, hsome, hid⟩

end Authoritative

theorem provisioned_key_of_genuine (nodeId : Bytes) (key pbftKey : C.PrivKey) (settings : Settings)
    (p expected : Bytes)
    (hprovisioned : (new C nodeId key pbftKey settings).peerManager.preProvisionedKeys[p]? = some expected)
    (activities : List Activity)
    (h : Run.Along perform (fun node activity => node.genuine p expected activity = true)
      (new C nodeId key pbftKey settings) activities)
    : Run.Always perform
        (fun node =>
          (node.peerManager.getPeerKey p = [] ∨ node.peerManager.getPeerKey p = expected)
            ∧ (node.peerManager.isPeerVerified p = true → node.peerManager.getPeerKey p = expected))
        (new C nodeId key pbftKey settings) activities := by
  apply Run.always_of_invariant (I := fun node : MeshNode C => Authoritative p expected node.peerManager)
    _ _ _ h
  . intro node activity hinv hgenuine
    exact authoritative_perform hinv hgenuine
  . intro node hinv
    rw [PeerManager.getPeerKey_eq, PeerManager.isPeerVerified_eq]
    cases hc : node.peerManager.contact? p with
    | none => simp
    | some c => exact ⟨(hinv.faithful c hc).key, (hinv.faithful c hc).verified⟩
  . constructor
    . exact hprovisioned
    . intro c hc
      rw [contact?_new] at hc
      contradiction

def provisionedNode : MeshNode .plain :=
  new .plain (bytes "A") (bytes "A") (bytes "A") { peerKeys := some (bytes "P:" ++ plainKey "1") }

theorem provisioned_key_of_genuine_announce
    : let activities := Activity.act (announces (bytes "P") "1") :: impersonation
      provisionedNode.peerManager.preProvisionedKeys[bytes "P"]? = some (plainKey "1")
        ∧ Run.Along perform (fun node activity => node.genuine (bytes "P") (plainKey "1") activity = true)
          provisionedNode activities
        ∧ Run.Always perform
          (fun node =>
            (node.peerManager.getPeerKey (bytes "P") = []
                ∨ node.peerManager.getPeerKey (bytes "P") = plainKey "1")
              ∧ (node.peerManager.isPeerVerified (bytes "P") = true →
                node.peerManager.getPeerKey (bytes "P") = plainKey "1"))
          provisionedNode activities := by
  intro activities
  have hprovisioned : provisionedNode.peerManager.preProvisionedKeys[bytes "P"]? = some (plainKey "1") := by
    decide +kernel
  have halong : Run.Along perform
      (fun node activity => node.genuine (bytes "P") (plainKey "1") activity = true) provisionedNode
      activities := by
    decide +kernel
  exact ⟨hprovisioned, halong, provisioned_key_of_genuine _ _ _ _ _ _ hprovisioned _ halong⟩

/--
An `ANNOUNCE` with another key is stored before it is compared with the provisioned one.
-/
theorem provisioned_key_overridden
    : let node := provisionedNode.perform (.act (announces (bytes "P") "2"))
      provisionedNode.peerManager.preProvisionedKeys[bytes "P"]? = some (plainKey "1")
        ∧ node.peerManager.getPeerKey (bytes "P") = plainKey "2"
        ∧ node.peerManager.isPeerVerified (bytes "P") = true
        ∧ plainKey "2" ≠ []
        ∧ plainKey "2" ≠ plainKey "1" := by
  decide +kernel

end MeshNode
end NeuroMesh
