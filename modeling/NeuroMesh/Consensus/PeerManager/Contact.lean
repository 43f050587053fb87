import NeuroMesh.Consensus.PeerManager

namespace NeuroMesh

structure Contact where
  key : Bytes := []
  verified : Bool := false
  paths : UInt8 := 0
deriving DecidableEq

namespace Contact

def fresh (pem : Bytes) : Contact :=
  { key := pem, verified := pem ≠ [] }

def fill (c : Contact) (pem : Bytes) : Contact :=
  if pem ≠ [] ∧ c.key = [] then { c with key := pem, verified := true } else c

def refuses (c : Contact) (expected : Option Bytes) (path : UInt8) (pem : Bytes) : Bool :=
  match expected with
  | some expected => pem ≠ [] ∧ expected ≠ pem
  | none => pem ≠ [] ∧ c.key ≠ pem ∧ (c.paths &&& path ≠ 0 ∨ c.paths ≠ 0 ∧ c.key ≠ [])

def confirm (c : Contact) (expected : Option Bytes) (path : UInt8) (pem : Bytes) : Contact :=
  if c.refuses expected path pem ∨ expected = none ∧ c.paths &&& path ≠ 0 then
    c
  else
    { c with paths := c.paths ||| path }.fill pem

def meet (c : Option Contact) (expected : Option Bytes) (path : UInt8) (pem : Bytes) : Contact :=
  (c.getD (fresh pem)).confirm expected path pem

def unpin (c : Contact) : Contact :=
  { c with key := [], verified := false }

section Confirm

variable {c : Contact} {expected : Option Bytes} {path : UInt8} {pem : Bytes}

theorem refuses_of_key_eq (hkey : c.key = pem) (hexpected : ∀ key ∈ expected, key = pem)
    : c.refuses expected path pem = false := by
  unfold refuses
  cases expected with
  | none => simp [hkey]
  | some key => simp [hexpected key rfl]

theorem confirm_of_refuses (h : c.refuses expected path pem = true) : c.confirm expected path pem = c := by
  unfold confirm
  rw [if_pos (.inl h)]

theorem confirm_of_confirmed (h : expected = none ∧ c.paths &&& path ≠ 0)
    : c.confirm expected path pem = c := by
  unfold confirm
  rw [if_pos (.inr h)]

theorem confirm_of_not_refuses (hrefuses : ¬c.refuses expected path pem = true)
    (hconfirmed : ¬(expected = none ∧ c.paths &&& path ≠ 0))
    : c.confirm expected path pem = { c with paths := c.paths ||| path }.fill pem := by
  unfold confirm
  rw [if_neg]
  rintro (h | h)
  . exact hrefuses h
  . exact hconfirmed h

end Confirm

section Key

variable {c : Contact} {pem : Bytes}

@[simp]
theorem paths_fill (c : Contact) (pem : Bytes) : (c.fill pem).paths = c.paths := by
  unfold fill
  split <;> rfl

theorem fill_of_ne_nil (h : c.key ≠ []) (pem : Bytes) : c.fill pem = c := by
  unfold fill
  rw [if_neg]
  rintro ⟨_, hempty⟩
  exact h hempty

theorem key_fill_of_nil (h : c.key = []) (pem : Bytes) : (c.fill pem).key = pem := by
  unfold fill
  split
  . rfl
  . next hno =>
    have hpem : pem = [] := by
      by_contra hne
      exact hno ⟨hne, h⟩
    rw [h, hpem]

theorem key_confirm_of_ne_nil (h : c.key ≠ []) (expected : Option Bytes) (path : UInt8) (pem : Bytes)
    : (c.confirm expected path pem).key = c.key := by
  unfold confirm
  split
  . rfl
  . rw [fill_of_ne_nil]
    exact h

theorem key_confirm_of_nil {expected : Option Bytes} {path : UInt8}
    (h : c.refuses expected path pem = false) (hkey : c.key = []) (hpem : pem ≠ [])
    : (c.confirm expected path pem).key = pem := by
  rw [confirm_of_not_refuses (by simp [h])]
  . rw [key_fill_of_nil (show Contact.key { c with paths := c.paths ||| path } = [] from hkey)]
  . rintro ⟨rfl, hconfirmed⟩
    simp [refuses, hpem, hkey, Ne.symm hpem, hconfirmed] at h

theorem key_confirm_ne_nil {expected : Option Bytes} {path : UInt8}
    (h : c.refuses expected path pem = false) (hpem : pem ≠ [])
    : (c.confirm expected path pem).key ≠ [] := by
  by_cases hkey : c.key = []
  . rwa [key_confirm_of_nil h hkey hpem]
  . rwa [key_confirm_of_ne_nil hkey]

end Key

end Contact

def PeerEntry.contact (entry : PeerEntry) : Contact :=
  { key := entry.publicKeyPem, verified := entry.verified, paths := entry.confirmedPaths }

namespace PeerManager

variable (m : PeerManager)

def contact? (peerId : Bytes) : Option Contact :=
  m.peers[peerId]?.map PeerEntry.contact

def pin (peerId : Bytes) : Bytes :=
  m.tofuTrust.getD peerId []

theorem contact?_insert (p peerId : Bytes) (entry : PeerEntry)
    : { m with peers := m.peers.insert peerId entry }.contact? p
        =
      if peerId = p then some entry.contact else m.contact? p := by
  unfold contact?
  rw [Std.ExtTreeMap.getElem?_insert]
  simp only [Std.LawfulEqCmp.compare_eq_iff_eq, apply_ite (Option.map PeerEntry.contact), Option.map_some]

theorem contact?_eq_none_iff (peerId : Bytes) : m.contact? peerId = none ↔ peerId ∉ m.peers := by
  simp [contact?]

theorem hasPeer_eq (peerId : Bytes) : m.hasPeer peerId = (m.contact? peerId).isSome := by
  unfold hasPeer contact?
  rw [Option.isSome_map, Std.ExtTreeMap.isSome_getElem?_eq_contains, Bool.eq_iff_iff, decide_eq_true_iff,
    Std.ExtTreeMap.contains_iff_mem]

theorem getPeerKey_eq (peerId : Bytes)
    : m.getPeerKey peerId = ((m.contact? peerId).map Contact.key).getD [] := by
  unfold getPeerKey contact?
  cases m.peers[peerId]? with
  | none => rfl
  | some entry => rfl

theorem isPeerVerified_eq (peerId : Bytes)
    : m.isPeerVerified peerId = ((m.contact? peerId).map Contact.verified).getD false := by
  unfold isPeerVerified contact?
  cases m.peers[peerId]? with
  | none => rfl
  | some entry => rfl

theorem confirmedPaths_fillKey (entry : PeerEntry) (publicKeyPem : Bytes)
    : (fillKey entry publicKeyPem).confirmedPaths = entry.confirmedPaths := by
  unfold fillKey
  split <;> rfl

theorem contact_fillKey (entry : PeerEntry) (pem : Bytes)
    : (fillKey entry pem).contact = entry.contact.fill pem := by
  unfold fillKey Contact.fill PeerEntry.contact
  split
  . rfl
  . rfl

theorem contact?_addPeer (p : Bytes) (now : Time) (peerId ip : Bytes) (tcpPort tlsPort : Int) (pem : Bytes)
    : (m.addPeer now peerId ip tcpPort tlsPort pem).2.contact? p
        =
      if peerId = p then some ((m.contact? p).getD (.fresh pem)) else m.contact? p := by
  unfold addPeer
  split
  . next hmem =>
    split
    . next heq =>
      subst heq
      obtain ⟨c, hc⟩ : ∃ c, m.contact? peerId = some c := by
        rw [← Option.ne_none_iff_exists', Ne, contact?_eq_none_iff]
        simpa using hmem
      rw [hc]
      rfl
    . rfl
  . next hnew =>
    rw [contact?_insert]
    split
    . next heq =>
      subst heq
      rw [(m.contact?_eq_none_iff peerId).mpr hnew]
      rfl
    . rfl

theorem contact?_updatePeerHeartbeat (p : Bytes) (now : Time) (peerId ip : Bytes) (tcpPort tlsPort : Int)
    (pem : Bytes)
    : (m.updatePeerHeartbeat now peerId ip tcpPort tlsPort pem).contact? p
        =
      if peerId = p then (m.contact? p).map (·.fill pem) else m.contact? p := by
  unfold updatePeerHeartbeat
  cases hentry : m.peers[peerId]? with
  | none =>
    have hnone : m.contact? peerId = none := by simp [contact?, hentry]
    dsimp only
    split
    . next heq =>
      subst heq
      rw [hnone]
      rfl
    . rfl
  | some entry =>
    have hsome : m.contact? peerId = some entry.contact := by simp [contact?, hentry]
    dsimp only
    rw [contact?_insert, contact_fillKey]
    split
    . next heq =>
      subst heq
      rw [hsome]
      rfl
    . rfl

theorem contact?_removePeer (p peerId : Bytes)
    : (m.removePeer peerId).contact? p = if peerId = p then none else m.contact? p := by
  unfold removePeer contact?
  rw [Std.ExtTreeMap.getElem?_erase]
  simp only [Std.LawfulEqCmp.compare_eq_iff_eq, apply_ite (Option.map PeerEntry.contact), Option.map_none]

theorem contact?_unpinPeerKey (p nodeId : Bytes)
    : (m.unpinPeerKey nodeId).contact? p
        =
      if nodeId = p then (m.contact? p).map .unpin else m.contact? p := by
  unfold unpinPeerKey
  cases hentry : m.peers[nodeId]? with
  | none =>
    have hnone : m.contact? nodeId = none := by simp [contact?, hentry]
    dsimp only
    split
    . next heq =>
      subst heq
      rw [hnone]
      exact hnone
    . rfl
  | some entry =>
    have hsome : m.contact? nodeId = some entry.contact := by simp [contact?, hentry]
    refine (m.contact?_insert p nodeId _).trans ?_
    split
    . next heq =>
      subst heq
      rw [hsome]
      rfl
    . rfl

theorem pin_insert (p peerId fingerprint : Bytes)
    : (m.pinTlsFingerprint peerId fingerprint).pin p = if peerId = p then fingerprint else m.pin p := by
  unfold pinTlsFingerprint pin
  rw [Std.ExtTreeMap.getD_insert]
  simp only [Std.LawfulEqCmp.compare_eq_iff_eq]

theorem pin_unpinPeerKey (p nodeId : Bytes)
    : (m.unpinPeerKey nodeId).pin p = if nodeId = p then [] else m.pin p := by
  have htofu : (m.unpinPeerKey nodeId).tofuTrust = m.tofuTrust.erase nodeId := by
    unfold unpinPeerKey
    cases m.peers[nodeId]? with
    | none => rfl
    | some entry => rfl
  unfold pin
  rw [htofu, Std.ExtTreeMap.getD_erase]
  simp only [Std.LawfulEqCmp.compare_eq_iff_eq]

section ConfirmPath

variable (peerId : Bytes) (path : UInt8) (pem : Bytes)

theorem confirmPath_eq {entry : PeerEntry} (h : m.peers[peerId]? = some entry)
    : m.confirmPath peerId path pem
        =
      if entry.contact.refuses m.preProvisionedKeys[peerId]? path pem then
        (⟨false, true⟩, m)
      else if m.preProvisionedKeys[peerId]? = none ∧ entry.confirmedPaths &&& path ≠ 0 then
        (⟨dualConfirmed entry.confirmedPaths, false⟩, m)
      else
        m.confirmEntry peerId entry path pem := by
  unfold confirmPath
  rw [h]
  cases m.preProvisionedKeys[peerId]? with
  | some expected => simp [Contact.refuses]
  | none =>
    have hrefuses : entry.contact.refuses none path pem = true
        ↔ pem ≠ [] ∧ entry.publicKeyPem ≠ pem
          ∧ (entry.confirmedPaths &&& path ≠ 0 ∨ entry.confirmedPaths ≠ 0 ∧ entry.publicKeyPem ≠ []) := by
      unfold Contact.refuses PeerEntry.contact
      rw [decide_eq_true_iff]
    dsimp only
    rw [if_congr hrefuses rfl rfl]
    split
    . next hflag => simp [hflag]
    . next hflag =>
      have hno : ¬entry.confirmedPaths &&& path ≠ 0 := by simpa using hflag
      simp only [hno, false_or, and_false, if_false]
      apply if_congr _ rfl rfl
      tauto

theorem confirmPath_of_none (h : m.contact? peerId = none)
    : m.confirmPath peerId path pem = (⟨false, false⟩, m) := by
  rw [contact?_eq_none_iff] at h
  unfold confirmPath
  rw [Std.ExtTreeMap.getElem?_eq_none h]

section Some

variable {m peerId path pem} {c : Contact} (h : m.contact? peerId = some c)
include h

theorem keyMismatch_confirmPath
    : (m.confirmPath peerId path pem).1.keyMismatch
        =
      c.refuses m.preProvisionedKeys[peerId]? path pem := by
  obtain ⟨entry, hentry, rfl⟩ := Option.map_eq_some_iff.mp h
  rw [m.confirmPath_eq peerId path pem hentry]
  split
  . next hrefuses => rw [hrefuses]
  . next hrefuses =>
    rw [Bool.not_eq_true] at hrefuses
    rw [hrefuses]
    split <;> rfl

theorem dualConfirmed_confirmPath
    : (m.confirmPath peerId path pem).1.dualConfirmed
        =
      (!c.refuses m.preProvisionedKeys[peerId]? path pem
        && dualConfirmed (c.confirm m.preProvisionedKeys[peerId]? path pem).paths) := by
  obtain ⟨entry, hentry, rfl⟩ := Option.map_eq_some_iff.mp h
  rw [m.confirmPath_eq peerId path pem hentry]
  split
  . next hrefuses =>
    rw [hrefuses]
    rfl
  . next hrefuses =>
    have hnot := hrefuses
    rw [Bool.not_eq_true] at hnot
    rw [hnot]
    split
    . next hconfirmed =>
      rw [Contact.confirm_of_confirmed hconfirmed]
      rfl
    . next hconfirmed =>
      rw [Contact.confirm_of_not_refuses hrefuses hconfirmed, Bool.not_false, Bool.true_and]
      exact congrArg (dualConfirmed ∘ Contact.paths) (contact_fillKey _ pem)

theorem contact?_confirmPath_self
    : (m.confirmPath peerId path pem).2.contact? peerId
        =
      some (c.confirm m.preProvisionedKeys[peerId]? path pem) := by
  obtain ⟨entry, hentry, rfl⟩ := Option.map_eq_some_iff.mp h
  rw [m.confirmPath_eq peerId path pem hentry]
  split
  . next hrefuses =>
    rw [Contact.confirm_of_refuses hrefuses]
    exact h
  . next hrefuses =>
    split
    . next hconfirmed =>
      rw [Contact.confirm_of_confirmed hconfirmed]
      exact h
    . next hconfirmed =>
      rw [Contact.confirm_of_not_refuses hrefuses hconfirmed, confirmEntry, contact?_insert, if_pos rfl,
        contact_fillKey]
      rfl

end Some

theorem snd_confirmPath_of_keyMismatch (h : (m.confirmPath peerId path pem).1.keyMismatch = true)
    : (m.confirmPath peerId path pem).2 = m := by
  cases hentry : m.peers[peerId]? with
  | none => rw [confirmPath_of_none _ _ _ _ (by simp [contact?, hentry])]
  | some entry =>
    rw [m.confirmPath_eq peerId path pem hentry] at h ⊢
    split at h
    . next hrefuses => rw [if_pos hrefuses]
    . split at h
      . contradiction
      . contradiction

theorem contact?_confirmPath_of_ne {p : Bytes} (h : peerId ≠ p)
    : (m.confirmPath peerId path pem).2.contact? p = m.contact? p := by
  cases hentry : m.peers[peerId]? with
  | none => rw [confirmPath_of_none _ _ _ _ (by simp [contact?, hentry])]
  | some entry =>
    rw [m.confirmPath_eq peerId path pem hentry]
    split
    . rfl
    . split
      . rfl
      . rw [confirmEntry, contact?_insert, if_neg h]

end ConfirmPath

section Frame

variable (now : Time) (peerId ip : Bytes) (tcpPort tlsPort : Int) (pem : Bytes)

@[simp]
theorem tofuTrust_addPeer : (m.addPeer now peerId ip tcpPort tlsPort pem).2.tofuTrust = m.tofuTrust := by
  unfold addPeer
  split <;> rfl

@[simp]
theorem preProvisionedKeys_addPeer
    : (m.addPeer now peerId ip tcpPort tlsPort pem).2.preProvisionedKeys = m.preProvisionedKeys := by
  unfold addPeer
  split <;> rfl

@[simp]
theorem tofuTrust_updatePeerHeartbeat
    : (m.updatePeerHeartbeat now peerId ip tcpPort tlsPort pem).tofuTrust = m.tofuTrust := by
  unfold updatePeerHeartbeat
  split <;> rfl

@[simp]
theorem preProvisionedKeys_updatePeerHeartbeat
    : (m.updatePeerHeartbeat now peerId ip tcpPort tlsPort pem).preProvisionedKeys
        =
      m.preProvisionedKeys := by
  unfold updatePeerHeartbeat
  split <;> rfl

theorem snd_confirmPath (path : UInt8)
    : ∃ peers, (m.confirmPath peerId path pem).2 = { m with peers } := by
  cases hentry : m.peers[peerId]? with
  | none =>
    rw [confirmPath_of_none _ _ _ _ (by simp [contact?, hentry])]
    exact ⟨m.peers, rfl⟩
  | some entry =>
    rw [m.confirmPath_eq peerId path pem hentry]
    split
    . exact ⟨m.peers, rfl⟩
    . split
      . exact ⟨m.peers, rfl⟩
      . exact ⟨_, rfl⟩

@[simp]
theorem tofuTrust_confirmPath (path : UInt8)
    : (m.confirmPath peerId path pem).2.tofuTrust = m.tofuTrust := by
  obtain ⟨peers, heq⟩ := m.snd_confirmPath peerId pem path
  rw [heq]

@[simp]
theorem preProvisionedKeys_confirmPath (path : UInt8)
    : (m.confirmPath peerId path pem).2.preProvisionedKeys = m.preProvisionedKeys := by
  obtain ⟨peers, heq⟩ := m.snd_confirmPath peerId pem path
  rw [heq]

@[simp]
theorem preProvisionedKeys_unpinPeerKey
    : (m.unpinPeerKey peerId).preProvisionedKeys = m.preProvisionedKeys := by
  unfold unpinPeerKey
  cases m.peers[peerId]? with
  | none => rfl
  | some entry => rfl

end Frame

section Introduce

variable (now : Time) (peerId ip : Bytes) (tcpPort tlsPort : Int) (path : UInt8) (pem : Bytes)

theorem contact?_confirmPath_addPeer (p : Bytes)
    : ((m.addPeer now peerId ip tcpPort tlsPort pem).2.confirmPath peerId path pem).2.contact? p
        =
      if peerId = p then
        some (.meet (m.contact? p) m.preProvisionedKeys[p]? path pem)
      else
        m.contact? p := by
  have hadd := m.contact?_addPeer p now peerId ip tcpPort tlsPort pem
  split
  . next heq =>
    subst heq
    rw [if_pos rfl] at hadd
    rw [contact?_confirmPath_self hadd, preProvisionedKeys_addPeer]
    rfl
  . next hne =>
    rw [if_neg hne] at hadd
    rw [contact?_confirmPath_of_ne _ _ _ _ hne, hadd]

theorem keyMismatch_confirmPath_addPeer
    : ((m.addPeer now peerId ip tcpPort tlsPort pem).2.confirmPath peerId path pem).1.keyMismatch
        =
      ((m.contact? peerId).getD (.fresh pem)).refuses m.preProvisionedKeys[peerId]? path pem := by
  have hadd := m.contact?_addPeer peerId now peerId ip tcpPort tlsPort pem
  rw [if_pos rfl] at hadd
  rw [keyMismatch_confirmPath hadd, preProvisionedKeys_addPeer]

end Introduce

end PeerManager
end NeuroMesh
