import NeuroMesh.Consensus.MeshNode.Impl.Tls
import NeuroMesh.Data.Ownership

/-!
This module contains the owners of the TLS connections, that is the peers and the threads that a connection can be closed
by, and what the calls of a thread do to them.
-/

namespace NeuroMesh

namespace TlsFrame

def peer? (frame : TlsFrame) : Option Bytes :=
  match frame with
  | .getOldFd _ peerId => some peerId
  | .closeOld _ peerId _ => some peerId
  | .connect peerId => some peerId
  | .record _ peerId => some peerId
  | .forget peerId => some peerId
  | .closePeer peerId _ => some peerId
  | .closeStale peerId _ => some peerId
  | .remove peerId => some peerId
  | _ => none

def held (frame : TlsFrame) : Option Int :=
  match frame with
  | .getConnectionInfo fd => some fd
  | .getOldFd fd _ => some fd
  | .closeOld fd _ _ => some fd
  | .closeUnmatched fd => some fd
  | .record fd _ => some fd
  | _ => none

def hollow (frame : TlsFrame) : Option Bytes :=
  match frame with
  | .record _ peerId => some peerId
  | .forget peerId => some peerId
  | .remove peerId => some peerId
  | _ => none

theorem peer?_of_hollow {frame : TlsFrame} {peerId : Bytes} (h : frame.hollow = some peerId)
    : frame.peer? = some peerId := by
  cases frame <;> first | contradiction | exact h

end TlsFrame

namespace TlsNode

variable {n : Nat} {node node' : TlsNode n} {thread : Fin n} {peerId : Bytes}

section Registry

variable (node : TlsNode n) (p q : Bytes)

theorem hasPeer_removePeer : (node.removePeer p).peerManager.hasPeer q ↔ p ≠ q ∧ node.peerManager.hasPeer q := by
  unfold removePeer PeerManager.removePeer PeerManager.hasPeer
  simp [Std.ExtTreeMap.mem_erase]

theorem getPeerTlsFd_removePeer
    : (node.removePeer p).getPeerTlsFd q = if p = q then none else node.getPeerTlsFd q := by
  unfold getPeerTlsFd removePeer PeerManager.removePeer PeerManager.hasPeer
  by_cases h : p = q
  . simp [h]
  . simp [h, Std.ExtTreeMap.mem_erase, Std.ExtTreeMap.getD_erase]

theorem hasPeer_setPeerTlsFd (fd : Int)
    : (node.setPeerTlsFd p fd).peerManager.hasPeer q = node.peerManager.hasPeer q := by
  unfold setPeerTlsFd
  split <;> rfl

theorem getPeerTlsFd_setPeerTlsFd_of_ne (h : p ≠ q) (fd : Int)
    : (node.setPeerTlsFd p fd).getPeerTlsFd q = node.getPeerTlsFd q := by
  unfold setPeerTlsFd
  split
  . unfold getPeerTlsFd
    simp [h, Std.ExtTreeMap.getD_insert]
  . rfl

theorem getPeerTlsFd_setPeerTlsFd_self (h : node.peerManager.hasPeer p) (fd : Int)
    : (node.setPeerTlsFd p fd).getPeerTlsFd p = if fd < 0 then none else some fd := by
  unfold setPeerTlsFd
  rw [if_pos h]
  unfold getPeerTlsFd
  simp [h]

theorem getPeerTlsFd_setPeerTlsFd_neg : (node.setPeerTlsFd p (-1)).getPeerTlsFd p = none := by
  by_cases h : node.peerManager.hasPeer p
  . rw [getPeerTlsFd_setPeerTlsFd_self _ _ h, if_pos (by decide)]
  . unfold setPeerTlsFd
    rw [if_neg h]
    unfold getPeerTlsFd
    rw [if_neg h]

theorem frames_setPeerTlsFd (fd : Int) : (node.setPeerTlsFd p fd).frames = node.frames := by
  unfold setPeerTlsFd
  split <;> rfl

theorem transport_setPeerTlsFd (fd : Int) : (node.setPeerTlsFd p fd).transport = node.transport := by
  unfold setPeerTlsFd
  split <;> rfl

theorem getPeerTlsFd_addPeer (now : Time) (ip : Bytes) (tcpPort tlsPort : Int) (publicKeyPem : Bytes)
    : (node.addPeer now p ip tcpPort tlsPort publicKeyPem).getPeerTlsFd q = node.getPeerTlsFd q := by
  unfold addPeer
  split
  . rfl
  . next hnew =>
    unfold PeerManager.hasPeer at hnew
    unfold getPeerTlsFd PeerManager.addPeer PeerManager.hasPeer
    by_cases h : p = q
    . subst h
      simp_all
    . simp_all [Std.ExtTreeMap.mem_insert, Std.ExtTreeMap.getD_erase]

theorem hasPeer_addPeer (now : Time) (ip : Bytes) (tcpPort tlsPort : Int) (publicKeyPem : Bytes)
    (h : node.peerManager.hasPeer q)
    : (node.addPeer now p ip tcpPort tlsPort publicKeyPem).peerManager.hasPeer q := by
  unfold addPeer PeerManager.addPeer PeerManager.hasPeer
  unfold PeerManager.hasPeer at h
  split
  . exact h
  . split <;> simp_all [Std.ExtTreeMap.mem_insert]

theorem hasPeer_updatePeerHeartbeat (m : PeerManager) (now : Time) (ip : Bytes) (tcpPort tlsPort : Int)
    (publicKeyPem : Bytes)
    : (m.updatePeerHeartbeat now p ip tcpPort tlsPort publicKeyPem).hasPeer q = m.hasPeer q := by
  unfold PeerManager.updatePeerHeartbeat PeerManager.hasPeer
  cases hentry : m.peers[p]? with
  | none => rfl
  | some entry =>
    by_cases h : p = q
    . subst h
      have hmem : p ∈ m.peers := by
        rw [Std.ExtTreeMap.mem_iff_isSome_getElem?, hentry]
        rfl
      simp [hmem]
    . simp [h, Std.ExtTreeMap.mem_insert]

end Registry

section Owner

variable (node : TlsNode n)

def peerAt (thread : Fin n) : Option Bytes :=
  (node.frames thread).bind TlsFrame.peer?

def heldAt (thread : Fin n) : Option Int :=
  (node.frames thread).bind TlsFrame.held

def hollowAt (thread : Fin n) : Option Bytes :=
  (node.frames thread).bind TlsFrame.hollow

def isHollow (peerId : Bytes) : Bool :=
  decide (∃ thread, node.hollowAt thread = some peerId)

def own (owner : Bytes ⊕ Fin n) : Option Int :=
  match owner with
  | .inl peerId => if node.isHollow peerId then none else node.getPeerTlsFd peerId
  | .inr thread => node.heldAt thread

def isOpen (fd : Int) : Prop :=
  fd ∈ node.transport.activeSsl

instance (fd : Int) : Decidable (node.isOpen fd) :=
  inferInstanceAs (Decidable (fd ∈ node.transport.activeSsl))

def FrameOk (frame : TlsFrame) : Prop :=
  match frame with
  | .getOldFd _ peerId => node.peerManager.hasPeer peerId
  | .closeOld _ peerId oldFd => node.peerManager.hasPeer peerId ∧ node.getPeerTlsFd peerId = some oldFd
  | .connect peerId => node.peerManager.hasPeer peerId ∧ node.getPeerTlsFd peerId = none
  | .record _ peerId => node.peerManager.hasPeer peerId
  | .closePeer peerId fd => node.getPeerTlsFd peerId = some fd
  | .closeStale peerId fd => node.getPeerTlsFd peerId = some fd
  | _ => True

def Named : Prop :=
  ∀ (peerId : Bytes) (entry : PeerEntry), node.peerManager.peers[peerId]? = some entry → entry.nodeId = peerId

structure Accounted : Prop where
  nonneg : ∀ fd, node.isOpen fd → 0 ≤ fd
  exclusive : Ownership.Exclusive node.own node.isOpen

structure Inv : Prop where
  named : node.Named
  alone : ∀ thread thread' peerId, node.peerAt thread = some peerId → node.peerAt thread' = some peerId →
    thread = thread'
  frameOk : ∀ thread frame, node.frames thread = some frame → node.FrameOk frame
  accounted : node.Accounted

end Owner

section Local

theorem peerAt_of_hollowAt (h : node.hollowAt thread = some peerId) : node.peerAt thread = some peerId := by
  unfold hollowAt at h
  obtain ⟨frame, hframe, hhollow⟩ := Option.bind_eq_some_iff.mp h
  unfold peerAt
  rw [hframe]
  exact TlsFrame.peer?_of_hollow hhollow

structure Local (node node' : TlsNode n) (thread : Fin n) (touched : Option Bytes) : Prop where
  frames : ∀ other ≠ thread, node'.frames other = node.frames other
  others : ∀ other ≠ thread, ∀ p ∈ touched, node.peerAt other ≠ some p
  before : ∀ p, node.peerAt thread = some p → touched = some p
  after : ∀ p, node'.peerAt thread = some p → touched = some p
  hasPeer : ∀ p, touched ≠ some p → node.peerManager.hasPeer p → node'.peerManager.hasPeer p
  tlsFd : ∀ p, touched ≠ some p → node'.getPeerTlsFd p = node.getPeerTlsFd p

namespace Local

variable {touched : Option Bytes} (h : Local node node' thread touched)

include h

theorem peerAt_of_ne {other : Fin n} (hne : other ≠ thread) : node'.peerAt other = node.peerAt other := by
  unfold peerAt
  rw [h.frames other hne]

theorem hollowAt_of_ne {other : Fin n} (hne : other ≠ thread) : node'.hollowAt other = node.hollowAt other := by
  unfold hollowAt
  rw [h.frames other hne]

theorem isHollow_of_ne (hp : touched ≠ some peerId) : node'.isHollow peerId = node.isHollow peerId := by
  unfold isHollow
  rw [decide_eq_decide]
  apply exists_congr
  intro other
  by_cases hne : other = thread
  . subst hne
    constructor
    . intro hhollow
      exact absurd (h.after _ (peerAt_of_hollowAt hhollow)) hp
    . intro hhollow
      exact absurd (h.before _ (peerAt_of_hollowAt hhollow)) hp
  . rw [h.hollowAt_of_ne hne]

theorem isHollow_iff (hp : touched = some peerId)
    : (node.isHollow peerId ↔ node.hollowAt thread = some peerId)
        ∧ (node'.isHollow peerId ↔ node'.hollowAt thread = some peerId) := by
  have hothers {other : Fin n} (hne : other ≠ thread) : node.peerAt other ≠ some peerId := h.others other hne peerId hp
  unfold isHollow
  simp only [decide_eq_true_eq]
  constructor
  . constructor
    . rintro ⟨other, hhollow⟩
      by_cases hne : other = thread
      . rwa [← hne]
      . exact absurd (peerAt_of_hollowAt hhollow) (hothers hne)
    . intro hhollow
      exact ⟨thread, hhollow⟩
  . constructor
    . rintro ⟨other, hhollow⟩
      by_cases hne : other = thread
      . rwa [← hne]
      . rw [h.hollowAt_of_ne hne] at hhollow
        exact absurd (peerAt_of_hollowAt hhollow) (hothers hne)
    . intro hhollow
      exact ⟨thread, hhollow⟩

theorem own_inl_of_ne (hp : touched ≠ some peerId) : node'.own (.inl peerId) = node.own (.inl peerId) := by
  unfold own
  dsimp only
  rw [h.isHollow_of_ne hp, h.tlsFd peerId hp]

theorem own_inr_of_ne {other : Fin n} (hne : other ≠ thread) : node'.own (.inr other) = node.own (.inr other) := by
  unfold own heldAt
  dsimp only
  rw [h.frames other hne]

end Local

theorem Local.own_inl (h : Local node node' thread (some peerId))
    : node.own (.inl peerId) = (if node.hollowAt thread = some peerId then none else node.getPeerTlsFd peerId)
        ∧ node'.own (.inl peerId)
          = if node'.hollowAt thread = some peerId then none else node'.getPeerTlsFd peerId := by
  have hhollow := h.isHollow_iff rfl
  unfold own
  dsimp only
  simp only [hhollow.1, hhollow.2, and_self]

theorem Local.own_eq {touched : Option Bytes} (h : Local node node' thread touched)
    (hpeer : ∀ p ∈ touched, node'.own (.inl p) = node.own (.inl p))
    : node'.own = Function.update node.own (.inr thread) (node'.heldAt thread) := by
  funext owner
  cases owner with
  | inl p =>
    rw [Function.update_of_ne (by simp)]
    by_cases hp : touched = some p
    . exact hpeer p hp
    . exact h.own_inl_of_ne hp
  | inr other =>
    by_cases hne : other = thread
    . rw [hne, Function.update_self]
      rfl
    . rw [Function.update_of_ne (by simp [hne]), h.own_inr_of_ne hne]

theorem Local.own_eq_of_peer (h : Local node node' thread (some peerId))
    : node'.own
        =
      Function.update (Function.update node.own (.inr thread) (node'.heldAt thread)) (.inl peerId)
        (node'.own (.inl peerId)) := by
  funext owner
  cases owner with
  | inl p =>
    by_cases hp : p = peerId
    . rw [hp, Function.update_self]
    . rw [Function.update_of_ne (by simp [hp]), Function.update_of_ne (by simp), h.own_inl_of_ne]
      simp only [ne_eq, Option.some.injEq]
      exact fun heq => hp heq.symm
  | inr other =>
    rw [Function.update_of_ne (by simp)]
    by_cases hne : other = thread
    . rw [hne, Function.update_self]
      rfl
    . rw [Function.update_of_ne (by simp [hne]), h.own_inr_of_ne hne]

theorem frameOk_congr {frame : TlsFrame} (h : node.FrameOk frame)
    (hpeer : ∀ p, frame.peer? = some p →
      (node.peerManager.hasPeer p → node'.peerManager.hasPeer p) ∧ node'.getPeerTlsFd p = node.getPeerTlsFd p)
    : node'.FrameOk frame := by
  cases frame with
  | getOldFd fd p => exact (hpeer p rfl).1 h
  | closeOld fd p oldFd => exact ⟨(hpeer p rfl).1 h.1, (hpeer p rfl).2.trans h.2⟩
  | connect p => exact ⟨(hpeer p rfl).1 h.1, (hpeer p rfl).2.trans h.2⟩
  | record fd p => exact (hpeer p rfl).1 h
  | closePeer p fd => exact (hpeer p rfl).2.trans h
  | closeStale p fd => exact (hpeer p rfl).2.trans h
  | _ => trivial

theorem Inv.of_local {touched : Option Bytes} (h : Inv node) (hlocal : Local node node' thread touched)
    (hnamed : node'.Named) (hframe : ∀ frame, node'.frames thread = some frame → node'.FrameOk frame)
    (haccounted : node'.Accounted)
    : Inv node' := by
  refine ⟨hnamed, ?_, ?_, haccounted⟩
  . intro t t' p hp hp'
    by_cases ht : t = thread
    . by_cases ht' : t' = thread
      . rw [ht, ht']
      . rw [hlocal.peerAt_of_ne ht'] at hp'
        rw [ht] at hp
        exact absurd hp' (hlocal.others t' ht' p (hlocal.after p hp))
    . rw [hlocal.peerAt_of_ne ht] at hp
      by_cases ht' : t' = thread
      . rw [ht'] at hp'
        exact absurd hp (hlocal.others t ht p (hlocal.after p hp'))
      . rw [hlocal.peerAt_of_ne ht'] at hp'
        exact h.alone t t' p hp hp'
  . intro t frame ht
    by_cases hne : t = thread
    . rw [hne] at ht
      exact hframe frame ht
    . rw [hlocal.frames t hne] at ht
      apply frameOk_congr (h.frameOk t frame ht)
      intro p hp
      have htouched : touched ≠ some p := by
        intro heq
        apply hlocal.others t hne p heq
        unfold peerAt
        rw [ht]
        exact hp
      exact ⟨hlocal.hasPeer p htouched, hlocal.tlsFd p htouched⟩

end Local

section Moves

/-!
The ways in which the owners of the connections can change.
-/

variable {touched : Option Bytes} {fd : Int}

theorem Accounted.keep (h : node.Accounted) (hlocal : Local node node' thread touched)
    (hopen : node'.transport.activeSsl = node.transport.activeSsl)
    (hpeer : ∀ p ∈ touched, node'.own (.inl p) = node.own (.inl p))
    (hheld : node'.heldAt thread = node.heldAt thread)
    : node'.Accounted := by
  have hsame : node'.own = node.own := by
    rw [hlocal.own_eq hpeer, hheld]
    exact Function.update_eq_self _ _
  have hopen' : node'.isOpen = node.isOpen := by
    unfold isOpen
    rw [hopen]
  constructor
  . rw [hopen']
    exact h.nonneg
  . rw [hsame, hopen']
    exact h.exclusive

theorem Accounted.acquire {fd : Nat} (h : node.Accounted) (hlocal : Local node node' thread touched)
    (hpeer : ∀ p ∈ touched, node'.own (.inl p) = node.own (.inl p)) (hfree : node.heldAt thread = none)
    (hheld : node'.heldAt thread = some (fd : Int)) (hnew : ¬node.isOpen fd)
    (hopen : ∀ x, node'.isOpen x ↔ x = fd ∨ node.isOpen x)
    : node'.Accounted := by
  constructor
  . intro x hx
    rcases (hopen x).mp hx with rfl | hx
    . omega
    . exact h.nonneg x hx
  . rw [hlocal.own_eq hpeer, hheld]
    exact h.exclusive.acquire hfree hnew hopen

theorem Accounted.release (h : node.Accounted) (hlocal : Local node node' thread touched)
    (hpeer : ∀ p ∈ touched, node'.own (.inl p) = node.own (.inl p)) (hheld : node.heldAt thread = some fd)
    (hfree : node'.heldAt thread = none) (hopen : ∀ x, node'.isOpen x ↔ x ≠ fd ∧ node.isOpen x)
    : node'.Accounted := by
  constructor
  . intro x hx
    exact h.nonneg x ((hopen x).mp hx).2
  . rw [hlocal.own_eq hpeer, hfree]
    exact h.exclusive.release hheld hopen

theorem Accounted.drop (h : node.Accounted) (hlocal : Local node node' thread (some peerId))
    (hheld : node'.heldAt thread = node.heldAt thread) (howns : node.own (.inl peerId) = some fd)
    (hfree : node'.own (.inl peerId) = none) (hopen : ∀ x, node'.isOpen x ↔ x ≠ fd ∧ node.isOpen x)
    : node'.Accounted := by
  constructor
  . intro x hx
    exact h.nonneg x ((hopen x).mp hx).2
  . have hthread : Function.update node.own (.inr thread) (node.heldAt thread) = node.own :=
      Function.update_eq_self _ _
    rw [hlocal.own_eq_of_peer, hheld, hthread, hfree]
    exact h.exclusive.release howns hopen

theorem Accounted.transfer (h : node.Accounted) (hlocal : Local node node' thread (some peerId))
    (hopen : node'.transport.activeSsl = node.transport.activeSsl) (hheld : node.heldAt thread = some fd)
    (hfree : node'.heldAt thread = none) (hnone : node.own (.inl peerId) = none)
    (howns : node'.own (.inl peerId) = some fd)
    : node'.Accounted := by
  have hopen' : node'.isOpen = node.isOpen := by
    unfold isOpen
    rw [hopen]
  constructor
  . rw [hopen']
    exact h.nonneg
  . rw [hlocal.own_eq_of_peer, hfree, howns, hopen']
    exact h.exclusive.transfer hheld hnone

end Moves

section Goto

variable {base : TlsNode n} {frame : Option TlsFrame} {old : TlsFrame}

theorem frames_goto : (base.goto thread frame).frames thread = frame := by
  exact Function.update_self ..

theorem heldAt_goto : (base.goto thread frame).heldAt thread = frame.bind TlsFrame.held := by
  unfold heldAt
  rw [frames_goto]

theorem hollowAt_goto : (base.goto thread frame).hollowAt thread = frame.bind TlsFrame.hollow := by
  unfold hollowAt
  rw [frames_goto]

theorem local_goto {touched : Option Bytes} (hframes : base.frames = node.frames)
    (hothers : ∀ other ≠ thread, ∀ p ∈ touched, node.peerAt other ≠ some p)
    (hbefore : ∀ p, node.peerAt thread = some p → touched = some p)
    (hafter : ∀ p, frame.bind TlsFrame.peer? = some p → touched = some p)
    (hregistry : ∀ p, touched ≠ some p →
      (node.peerManager.hasPeer p → base.peerManager.hasPeer p) ∧ base.getPeerTlsFd p = node.getPeerTlsFd p)
    : Local node (base.goto thread frame) thread touched := by
  refine ⟨?_, hothers, hbefore, ?_, ?_, ?_⟩
  . intro other hne
    rw [← hframes]
    exact Function.update_of_ne hne ..
  . intro p hp
    unfold peerAt at hp
    rw [frames_goto] at hp
    exact hafter p hp
  . intro p hp
    exact (hregistry p hp).1
  . intro p hp
    exact (hregistry p hp).2

theorem Inv.local_of_peer (h : Inv node) (hold : node.frames thread = some old) (hpeer : old.peer? = some peerId)
    (hframes : base.frames = node.frames)
    (hafter : ∀ p, frame.bind TlsFrame.peer? = some p → p = peerId)
    (hregistry : ∀ p ≠ peerId,
      (node.peerManager.hasPeer p → base.peerManager.hasPeer p) ∧ base.getPeerTlsFd p = node.getPeerTlsFd p)
    : Local node (base.goto thread frame) thread (some peerId) := by
  have hat : node.peerAt thread = some peerId := by
    unfold peerAt
    rw [hold]
    exact hpeer
  apply local_goto hframes
  . intro other hne p hp hother
    cases hp
    exact hne (h.alone other thread _ hother hat)
  . intro p hp
    rw [← hp, hat]
  . intro p hp
    rw [hafter p hp]
  . intro p hp
    apply hregistry
    rintro rfl
    exact hp rfl

def Free (node : TlsNode n) (peerId : Bytes) : Prop :=
  ∀ thread, node.peerAt thread ≠ some peerId

instance (node : TlsNode n) (peerId : Bytes) : Decidable (node.Free peerId) :=
  inferInstanceAs (Decidable (∀ thread, node.peerAt thread ≠ some peerId))

theorem local_of_free (hnone : node.peerAt thread = none) (hfree : node.Free peerId)
    (hafter : ∀ p, frame.bind TlsFrame.peer? = some p → p = peerId)
    : Local node (node.goto thread frame) thread (some peerId) := by
  apply local_goto rfl
  . intro other _ p hp
    cases hp
    exact hfree other
  . intro p hp
    rw [hnone] at hp
    contradiction
  . intro p hp
    rw [hafter p hp]
  . exact fun p _ => ⟨id, rfl⟩

theorem local_of_none {transport : TransportConnections} (hnone : node.peerAt thread = none)
    (hafter : frame.bind TlsFrame.peer? = none)
    : Local node ({ node with transport }.goto thread frame) thread none := by
  apply local_goto
  . rfl
  . intro other _ p hp
    contradiction
  . intro p hp
    rw [hnone] at hp
    contradiction
  . intro p hp
    rw [hafter] at hp
    contradiction
  . exact fun p _ => ⟨id, rfl⟩

end Goto

end TlsNode
end NeuroMesh
