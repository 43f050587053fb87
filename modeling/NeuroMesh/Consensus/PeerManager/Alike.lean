import NeuroMesh.Consensus.PeerManager.Contact

/-!
This module contains the relation between two `PeerManager` objects that only differ in when they have
heard of their peers. The discovery paths do not tell them apart.
-/

namespace NeuroMesh

namespace PeerEntry

def ageless (entry : PeerEntry) : PeerEntry :=
  { entry with lastHeartbeat := 0 }

def confirm (entry : PeerEntry) (expected : Option Bytes) (path : UInt8) (pem : Bytes) : PeerEntry :=
  if entry.contact.refuses expected path pem ∨ expected = none ∧ entry.confirmedPaths &&& path ≠ 0 then
    entry
  else
    PeerManager.fillKey { entry with confirmedPaths := entry.confirmedPaths ||| path } pem

theorem ageless_fillKey (entry : PeerEntry) (pem : Bytes)
    : (PeerManager.fillKey entry pem).ageless = PeerManager.fillKey entry.ageless pem := by
  unfold PeerManager.fillKey ageless
  dsimp only
  split <;> rfl

theorem ageless_confirm (entry : PeerEntry) (expected : Option Bytes) (path : UInt8) (pem : Bytes)
    : (entry.confirm expected path pem).ageless = entry.ageless.confirm expected path pem := by
  have hcontact : entry.ageless.contact = entry.contact := rfl
  have hpaths : entry.ageless.confirmedPaths = entry.confirmedPaths := rfl
  unfold confirm
  rw [hcontact, hpaths]
  split
  . rfl
  . rw [ageless_fillKey]
    rfl

theorem confirm_of_key_eq {entry : PeerEntry} {expected : Option Bytes} {path : UInt8} {pem : Bytes}
    (hkey : entry.publicKeyPem = pem) (hexpected : ∀ key ∈ expected, key = pem) (hpem : pem ≠ [])
    (hset : entry.confirmedPaths &&& path = 0)
    : entry.confirm expected path pem
        =
      { entry with confirmedPaths := entry.confirmedPaths ||| path } := by
  have hagrees : entry.contact.refuses expected path pem = false := Contact.refuses_of_key_eq hkey hexpected
  unfold confirm PeerManager.fillKey
  simp [hagrees, hkey, hpem, hset]

end PeerEntry

namespace PeerManager

def view (m : PeerManager) (p : Bytes) : Option PeerEntry :=
  m.peers[p]?.map PeerEntry.ageless

section View

variable (m : PeerManager) (p : Bytes)

theorem view_insert (peerId : Bytes) (entry : PeerEntry)
    : { m with peers := m.peers.insert peerId entry }.view p
        =
      if peerId = p then some entry.ageless else m.view p := by
  unfold view
  rw [Std.ExtTreeMap.getElem?_insert]
  simp only [Std.LawfulEqCmp.compare_eq_iff_eq, apply_ite (Option.map PeerEntry.ageless), Option.map_some]

theorem contact?_eq_view : m.contact? p = (m.view p).map PeerEntry.contact := by
  unfold contact? view
  rw [Option.map_map]
  rfl

theorem hasPeer_eq_view : m.hasPeer p = (m.view p).isSome := by
  rw [hasPeer_eq, contact?_eq_view, Option.isSome_map]

theorem ageless_getPeer : (m.getPeer p).ageless = (m.view p).getD {} := by
  unfold getPeer view
  rw [Std.ExtTreeMap.getD_eq_getD_getElem?]
  cases m.peers[p]? with
  | none => rfl
  | some entry => rfl

theorem view_addPeer (now : Time) (peerId ip : Bytes) (tcpPort tlsPort : Int) (pem : Bytes)
    : (m.addPeer now peerId ip tcpPort tlsPort pem).2.view p
        =
      if peerId = p then
        some ((m.view p).getD {
          nodeId := peerId, ip, tcpPort, tlsPort, publicKeyPem := pem, verified := pem ≠ []
        })
      else
        m.view p := by
  have hpeer := m.hasPeer_eq_view peerId
  unfold hasPeer at hpeer
  unfold addPeer
  split
  . next hmem =>
    split
    . next heq =>
      subst heq
      rw [decide_eq_true hmem] at hpeer
      obtain ⟨entry, hentry⟩ := Option.isSome_iff_exists.mp hpeer.symm
      rw [hentry]
      rfl
    . rfl
  . next hnew =>
    rw [view_insert]
    split
    . next heq =>
      subst heq
      rw [decide_eq_false hnew] at hpeer
      rw [Option.isSome_eq_false_iff.mp hpeer.symm |> Option.isNone_iff_eq_none.mp]
      rfl
    . rfl

theorem view_updatePeerHeartbeat (now : Time) (peerId ip : Bytes) (tcpPort tlsPort : Int) (pem : Bytes)
    : (m.updatePeerHeartbeat now peerId ip tcpPort tlsPort pem).view p
        =
      if peerId = p then
        (m.view p).map fun entry => fillKey { entry with ip, tcpPort, tlsPort } pem
      else
        m.view p := by
  unfold updatePeerHeartbeat
  cases hentry : m.peers[peerId]? with
  | none =>
    have hnone : m.view peerId = none := by simp [view, hentry]
    dsimp only
    split
    . next heq =>
      subst heq
      rw [hnone]
      rfl
    . rfl
  | some entry =>
    have hsome : m.view peerId = some entry.ageless := by simp [view, hentry]
    dsimp only
    rw [view_insert, PeerEntry.ageless_fillKey]
    split
    . next heq =>
      subst heq
      rw [hsome]
      rfl
    . rfl

theorem view_confirmPath (peerId : Bytes) (path : UInt8) (pem : Bytes)
    : (m.confirmPath peerId path pem).2.view p
        =
      if peerId = p then
        (m.view p).map (·.confirm m.preProvisionedKeys[p]? path pem)
      else
        m.view p := by
  cases hentry : m.peers[peerId]? with
  | none =>
    have hnone : m.contact? peerId = none := by simp [contact?, hentry]
    rw [confirmPath_of_none _ _ _ _ hnone]
    split
    . next heq =>
      subst heq
      simp [view, hentry]
    . rfl
  | some entry =>
    have hsome : m.view peerId = some entry.ageless := by simp [view, hentry]
    rw [m.confirmPath_eq peerId path pem hentry]
    by_cases heq : peerId = p
    . subst heq
      rw [if_pos rfl, hsome, Option.map_some, ← PeerEntry.ageless_confirm]
      unfold PeerEntry.confirm
      split
      . next hrefuses =>
        rw [if_pos (.inl hrefuses)]
        exact hsome
      . next hrefuses =>
        split
        . next hset =>
          rw [if_pos (.inr hset)]
          exact hsome
        . next hset =>
          rw [if_neg (not_or.mpr ⟨hrefuses, hset⟩), confirmEntry, view_insert, if_pos rfl]
    . rw [if_neg heq]
      split
      . rfl
      . split
        . rfl
        . rw [confirmEntry, view_insert, if_neg heq]

end View

structure Alike (m m' : PeerManager) : Prop where
  view : ∀ p, m'.view p = m.view p
  tofuTrust : m'.tofuTrust = m.tofuTrust
  preProvisionedKeys : m'.preProvisionedKeys = m.preProvisionedKeys

namespace Alike

variable {m m' : PeerManager}

theorem contact? (h : Alike m m') (p : Bytes) : m'.contact? p = m.contact? p := by
  rw [contact?_eq_view, contact?_eq_view, h.view]

theorem hasPeer (h : Alike m m') (p : Bytes) : m'.hasPeer p = m.hasPeer p := by
  rw [hasPeer_eq_view, hasPeer_eq_view, h.view]

theorem ip_getPeer (h : Alike m m') (p : Bytes) : (m'.getPeer p).ip = (m.getPeer p).ip := by
  have hsame := congrArg PeerEntry.ip (m'.ageless_getPeer p)
  rw [h.view, ← ageless_getPeer] at hsame
  exact hsame

theorem publicKeyPem_getPeer (h : Alike m m') (p : Bytes)
    : (m'.getPeer p).publicKeyPem = (m.getPeer p).publicKeyPem := by
  have hsame := congrArg PeerEntry.publicKeyPem (m'.ageless_getPeer p)
  rw [h.view, ← ageless_getPeer] at hsame
  exact hsame

theorem pinTlsFingerprint (h : Alike m m') (peerId fingerprint : Bytes)
    : Alike (m.pinTlsFingerprint peerId fingerprint) (m'.pinTlsFingerprint peerId fingerprint) := by
  refine ⟨h.view, ?_, h.preProvisionedKeys⟩
  unfold PeerManager.pinTlsFingerprint
  rw [h.tofuTrust]

theorem addPeer (h : Alike m m') (now : Time) (peerId ip : Bytes) (tcpPort tlsPort : Int) (pem : Bytes)
    : Alike (m.addPeer now peerId ip tcpPort tlsPort pem).2
        (m'.addPeer now peerId ip tcpPort tlsPort pem).2 := by
  constructor
  . intro p
    rw [view_addPeer, view_addPeer, h.view]
  . rw [tofuTrust_addPeer, tofuTrust_addPeer, h.tofuTrust]
  . rw [preProvisionedKeys_addPeer, preProvisionedKeys_addPeer, h.preProvisionedKeys]

theorem updatePeerHeartbeat (h : Alike m m') (now : Time) (peerId ip : Bytes) (tcpPort tlsPort : Int)
    (pem : Bytes)
    : Alike (m.updatePeerHeartbeat now peerId ip tcpPort tlsPort pem)
        (m'.updatePeerHeartbeat now peerId ip tcpPort tlsPort pem) := by
  constructor
  . intro p
    rw [view_updatePeerHeartbeat, view_updatePeerHeartbeat, h.view]
  . rw [tofuTrust_updatePeerHeartbeat, tofuTrust_updatePeerHeartbeat, h.tofuTrust]
  . rw [preProvisionedKeys_updatePeerHeartbeat, preProvisionedKeys_updatePeerHeartbeat,
      h.preProvisionedKeys]

theorem confirmPath (h : Alike m m') (peerId : Bytes) (path : UInt8) (pem : Bytes)
    : Alike (m.confirmPath peerId path pem).2 (m'.confirmPath peerId path pem).2 := by
  constructor
  . intro p
    rw [view_confirmPath, view_confirmPath, h.view, h.preProvisionedKeys]
  . rw [tofuTrust_confirmPath, tofuTrust_confirmPath, h.tofuTrust]
  . rw [preProvisionedKeys_confirmPath, preProvisionedKeys_confirmPath, h.preProvisionedKeys]

theorem fst_confirmPath (h : Alike m m') (peerId : Bytes) (path : UInt8) (pem : Bytes)
    : (m'.confirmPath peerId path pem).1 = (m.confirmPath peerId path pem).1 := by
  have hcontact := h.contact? peerId
  cases hc : m.contact? peerId with
  | none =>
    rw [hc] at hcontact
    rw [confirmPath_of_none _ _ _ _ hc, confirmPath_of_none _ _ _ _ hcontact]
  | some c =>
    rw [hc] at hcontact
    apply PathConfirmResult.ext
    . rw [dualConfirmed_confirmPath hc, dualConfirmed_confirmPath hcontact, h.preProvisionedKeys]
    . rw [keyMismatch_confirmPath hc, keyMismatch_confirmPath hcontact, h.preProvisionedKeys]

end Alike

end PeerManager
end NeuroMesh
