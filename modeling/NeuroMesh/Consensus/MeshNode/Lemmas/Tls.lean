import NeuroMesh.Consensus.MeshNode.Lemmas.TlsOwner
import NeuroMesh.Data.Run

namespace NeuroMesh
namespace TlsNode

variable {n : Nat} {node node' : TlsNode n} {thread : Fin n} {peerId : Bytes}

section Advance

variable {answer : TlsAnswer} {fd oldFd : Int}

theorem named_of_peers_eq (h : node.Named) (hpeers : node'.peerManager.peers = node.peerManager.peers)
    : node'.Named := by
  unfold Named
  rw [hpeers]
  exact h

theorem named_setPeerTlsFd (h : node.Named) (peerId : Bytes) (fd : Int) : (node.setPeerTlsFd peerId fd).Named := by
  apply named_of_peers_eq h
  unfold setPeerTlsFd
  split <;> rfl

theorem named_removePeer (h : node.Named) (peerId : Bytes) : (node.removePeer peerId).Named := by
  intro p entry hentry
  unfold removePeer PeerManager.removePeer at hentry
  rw [Std.ExtTreeMap.getElem?_erase] at hentry
  split at hentry
  . contradiction
  . exact h p entry hentry

theorem peerAt_eq {frame : TlsFrame} (h : node.frames thread = some frame) : node.peerAt thread = frame.peer? := by
  unfold peerAt
  rw [h]
  rfl

theorem heldAt_eq {frame : TlsFrame} (h : node.frames thread = some frame) : node.heldAt thread = frame.held := by
  unfold heldAt
  rw [h]
  rfl

theorem hollowAt_eq {frame : TlsFrame} (h : node.frames thread = some frame)
    : node.hollowAt thread = frame.hollow := by
  unfold hollowAt
  rw [h]
  rfl

theorem forall_frameOk {base : TlsNode n} {frame : Option TlsFrame} (h : ∀ next ∈ frame, base.FrameOk next)
    : ∀ next, (base.goto thread frame).frames thread = some next → (base.goto thread frame).FrameOk next := by
  intro next hnext
  rw [frames_goto] at hnext
  exact frameOk_congr (h next hnext) fun p _ => ⟨id, rfl⟩

theorem Inv.keep {transport : TransportConnections} {frame : Option TlsFrame} (h : Inv node)
    (hnone : node.peerAt thread = none) (hafter : frame.bind TlsFrame.peer? = none)
    (hopen : transport.activeSsl = node.transport.activeSsl)
    (hheld : frame.bind TlsFrame.held = node.heldAt thread) (hok : ∀ next ∈ frame, node.FrameOk next)
    : Inv ({ node with transport }.goto thread frame) := by
  have hlocal : Local node ({ node with transport }.goto thread frame) thread none := local_of_none hnone hafter
  apply h.of_local hlocal h.named
  . apply forall_frameOk
    intro next hnext
    exact frameOk_congr (hok next hnext) fun p _ => ⟨id, rfl⟩
  . apply h.accounted.keep hlocal hopen nofun
    rw [heldAt_goto, hheld]

theorem Inv.keep_peer {base : TlsNode n} {frame : Option TlsFrame} (h : Inv node)
    (hlocal : Local node (base.goto thread frame) thread (some peerId)) (hnamed : base.Named)
    (hopen : base.transport.activeSsl = node.transport.activeSsl)
    (hheld : frame.bind TlsFrame.held = node.heldAt thread) (hok : ∀ next ∈ frame, base.FrameOk next)
    (hsame : (if frame.bind TlsFrame.hollow = some peerId then none else base.getPeerTlsFd peerId)
      = if node.hollowAt thread = some peerId then none else node.getPeerTlsFd peerId)
    : Inv (base.goto thread frame) := by
  apply h.of_local hlocal hnamed (forall_frameOk hok)
  apply h.accounted.keep hlocal hopen
  . intro p hp
    cases hp
    rw [hlocal.own_inl.1, hlocal.own_inl.2, hollowAt_goto]
    exact hsame
  . rw [heldAt_goto, hheld]

theorem Inv.drop {next : TlsFrame} (h : Inv node) {old : TlsFrame} (hold : node.frames thread = some old)
    (hpeer : old.peer? = some peerId) (hhollow : old.hollow = none) (hfd : node.getPeerTlsFd peerId = some fd)
    (hnext : next.hollow = some peerId) (hheld : next.held = old.held) (hok : node.FrameOk next)
    : Inv ({ node with transport := node.transport.close fd }.goto thread (some next)) := by
  have hlocal : Local node ({ node with transport := node.transport.close fd }.goto thread (some next)) thread
      (some peerId) := by
    refine h.local_of_peer hold hpeer rfl ?_ fun p _ => ⟨id, rfl⟩
    intro p hp
    have hsame : some p = some peerId := hp.symm.trans (TlsFrame.peer?_of_hollow hnext)
    exact Option.some.inj hsame
  apply h.of_local hlocal h.named
  . apply forall_frameOk
    intro frame hframe
    cases hframe
    exact frameOk_congr hok fun p _ => ⟨id, rfl⟩
  . apply h.accounted.drop hlocal
    . rw [heldAt_goto, heldAt_eq hold]
      exact hheld
    . rw [hlocal.own_inl.1, hollowAt_eq hold, hhollow]
      exact hfd
    . rw [hlocal.own_inl.2, hollowAt_goto]
      exact if_pos hnext
    . intro x
      exact node.transport.mem_close fd x

theorem Inv.handshake (h : Inv node) (hframe : node.frames thread = some .handshake)
    (hkernel : ∀ fd info, answer.incoming = .connection fd info → ¬node.isOpen fd)
    : Inv (node.advance thread .handshake answer) := by
  unfold advance
  dsimp only
  cases hincoming : answer.incoming with
  | nothing => exact h.keep (peerAt_eq hframe) rfl rfl (heldAt_eq hframe).symm nofun
  | failed => exact h.keep (peerAt_eq hframe) rfl rfl (heldAt_eq hframe).symm nofun
  | connection fd info =>
    have hlocal : Local node ({ node with transport := node.transport.finishAccept (.connection fd info) }.goto thread
        (some (.getConnectionInfo fd))) thread none := by
      exact local_of_none (peerAt_eq hframe) rfl
    apply h.of_local hlocal h.named
    . apply forall_frameOk
      intro next hnext
      cases hnext
      trivial
    . apply h.accounted.acquire hlocal nofun (heldAt_eq hframe) heldAt_goto (hkernel fd info hincoming)
      intro x
      exact node.transport.mem_insert_activeSsl fd x info

theorem hasPeer_of_matching {a : Ambient} (h : node.Named) (hmatching : node.matching a fd = some peerId)
    : node.peerManager.hasPeer peerId := by
  unfold matching at hmatching
  split at hmatching
  . contradiction
  . split at hmatching
    . obtain ⟨entry, hentry, rfl⟩ := Option.map_eq_some_iff.mp hmatching
      have hmem := List.mem_of_find?_eq_some hentry
      unfold PeerManager.getAllPeers at hmem
      obtain ⟨key, hkey, rfl⟩ := List.mem_map.mp hmem
      have hkey : key ∈ node.peerManager.peers := by
        have := (a.bucketOrder_perm _).mem_iff.mp hkey
        rwa [Std.ExtTreeMap.mem_keys] at this
      obtain ⟨entry, hentry⟩ := Option.isSome_iff_exists.mp (Std.ExtTreeMap.mem_iff_isSome_getElem?.mp hkey)
      have hget : node.peerManager.getPeer key = entry := by
        unfold PeerManager.getPeer
        rw [Std.ExtTreeMap.getD_eq_getD_getElem?, hentry]
        rfl
      rw [hget, h key entry hentry]
      unfold PeerManager.hasPeer
      simpa using hkey
    . contradiction

theorem Inv.getConnectionInfo (h : Inv node) (hframe : node.frames thread = some (.getConnectionInfo fd))
    (hfree : ∀ p ∈ node.matching answer.ambient fd, node.Free p)
    : Inv (node.advance thread (.getConnectionInfo fd) answer) := by
  unfold advance
  dsimp only
  cases hmatching : node.matching answer.ambient fd with
  | none =>
    refine h.keep (peerAt_eq hframe) ?_ ?_ ?_ ?_
    . rfl
    . rfl
    . exact (heldAt_eq hframe).symm
    . intro next hnext
      cases hnext
      trivial
  | some p =>
    have hlocal : Local node (node.goto thread (some (.getOldFd fd p))) thread (some p) := by
      apply local_of_free (peerAt_eq hframe) (hfree p hmatching)
      intro q hq
      cases hq
      rfl
    apply h.keep_peer hlocal h.named rfl (heldAt_eq hframe).symm
    . intro next hnext
      cases hnext
      exact hasPeer_of_matching h.named hmatching
    . rw [hollowAt_eq hframe]
      rfl

theorem Inv.getOldFd (h : Inv node) (hframe : node.frames thread = some (.getOldFd fd peerId))
    : Inv (node.advance thread (.getOldFd fd peerId) answer) := by
  have hpeer : node.peerManager.hasPeer peerId := h.frameOk thread _ hframe
  have hlocal {next : TlsFrame} (hnext : next.peer? = some peerId)
      : Local node (node.goto thread (some next)) thread (some peerId) := by
    refine h.local_of_peer hframe rfl rfl ?_ fun p _ => ⟨id, rfl⟩
    intro p hp
    exact Option.some.inj (hp.symm.trans hnext)
  unfold advance
  dsimp only
  cases hfd : node.getPeerTlsFd peerId with
  | some oldFd =>
    refine h.keep_peer (hlocal ?_) h.named rfl ?_ ?_ ?_
    . rfl
    . exact (heldAt_eq hframe).symm
    . intro next hnext
      cases hnext
      exact ⟨hpeer, hfd⟩
    . rw [hollowAt_eq hframe]
      rfl
  | none =>
    refine h.keep_peer (hlocal ?_) h.named rfl ?_ ?_ ?_
    . rfl
    . exact (heldAt_eq hframe).symm
    . intro next hnext
      cases hnext
      exact hpeer
    . rw [hollowAt_eq hframe, hfd]
      simp

theorem Inv.closeUnmatched (h : Inv node) (hframe : node.frames thread = some (.closeUnmatched fd))
    : Inv (node.advance thread (.closeUnmatched fd) answer) := by
  unfold advance
  dsimp only
  have hlocal : Local node ({ node with transport := node.transport.close fd }.goto thread none) thread none := by
    exact local_of_none (peerAt_eq hframe) rfl
  apply h.of_local hlocal h.named (forall_frameOk nofun)
  apply h.accounted.release hlocal nofun (heldAt_eq hframe) heldAt_goto
  intro x
  exact node.transport.mem_close fd x

theorem Inv.connect (h : Inv node) (hframe : node.frames thread = some (.connect peerId))
    (hkernel : ∀ fd info, answer.incoming = .connection fd info → ¬node.isOpen fd)
    : Inv (node.advance thread (.connect peerId) answer) := by
  obtain ⟨hpeer, hfd⟩ := h.frameOk thread _ hframe
  have hlocal {transport : TransportConnections} {frame : Option TlsFrame}
      (hafter : ∀ p, frame.bind TlsFrame.peer? = some p → p = peerId)
      : Local node ({ node with transport }.goto thread frame) thread (some peerId) := by
    exact h.local_of_peer hframe rfl rfl hafter fun p _ => ⟨id, rfl⟩
  have hfailed : Inv (node.goto thread none) := by
    refine h.keep_peer (hlocal ?_) h.named rfl ?_ nofun ?_
    . exact nofun
    . exact (heldAt_eq hframe).symm
    . rw [hollowAt_eq hframe]
      rfl
  unfold advance
  dsimp only
  cases hincoming : answer.incoming with
  | nothing => exact hfailed
  | failed => exact hfailed
  | connection fd info =>
    have hlocal' : Local node ({ node with transport := node.transport.connect (.connection fd info) }.goto thread
        (some (.record fd peerId))) thread (some peerId) := by
      apply hlocal
      intro p hp
      cases hp
      rfl
    apply h.of_local hlocal' h.named
    . apply forall_frameOk
      intro next hnext
      cases hnext
      exact hpeer
    . apply h.accounted.acquire hlocal' _ (heldAt_eq hframe) heldAt_goto (hkernel fd info hincoming)
      . intro x
        exact node.transport.mem_insert_activeSsl fd x info
      . intro p hp
        cases hp
        rw [hlocal'.own_inl.1, hlocal'.own_inl.2, hollowAt_goto, hollowAt_eq hframe, hfd]
        simp [TlsFrame.hollow]

theorem Inv.local_setPeerTlsFd (h : Inv node) {old : TlsFrame} (hold : node.frames thread = some old)
    (hpeer : old.peer? = some peerId) (fd : Int)
    : Local node ((node.setPeerTlsFd peerId fd).goto thread none) thread (some peerId) := by
  refine h.local_of_peer hold hpeer (frames_setPeerTlsFd node peerId fd) ?_ ?_
  . exact nofun
  . intro p hp
    rw [hasPeer_setPeerTlsFd, getPeerTlsFd_setPeerTlsFd_of_ne _ _ _ hp.symm]
    exact ⟨id, rfl⟩

theorem Inv.record (h : Inv node) (hframe : node.frames thread = some (.record fd peerId))
    : Inv (node.advance thread (.record fd peerId) answer) := by
  unfold advance
  dsimp only
  have hpeer : node.peerManager.hasPeer peerId := h.frameOk thread _ hframe
  have hheld : node.heldAt thread = some fd := heldAt_eq hframe
  have hnonneg : ¬fd < 0 := by
    have hopen := (h.accounted.exclusive.alive_iff fd).mpr ⟨.inr thread, hheld⟩
    have := h.accounted.nonneg fd hopen
    omega
  have hlocal : Local node ((node.setPeerTlsFd peerId fd).goto thread none) thread (some peerId) := by
    exact h.local_setPeerTlsFd hframe rfl fd
  apply h.of_local hlocal (named_setPeerTlsFd h.named peerId fd) (forall_frameOk nofun)
  apply h.accounted.transfer hlocal _ hheld heldAt_goto
  . rw [hlocal.own_inl.1, hollowAt_eq hframe]
    exact if_pos rfl
  . rw [hlocal.own_inl.2, hollowAt_goto]
    show (node.setPeerTlsFd peerId fd).getPeerTlsFd peerId = some fd
    rw [getPeerTlsFd_setPeerTlsFd_self _ _ hpeer, if_neg hnonneg]
  . show (node.setPeerTlsFd peerId fd).transport.activeSsl = node.transport.activeSsl
    rw [transport_setPeerTlsFd]

theorem Inv.forget (h : Inv node) (hframe : node.frames thread = some (.forget peerId))
    : Inv (node.advance thread (.forget peerId) answer) := by
  unfold advance
  dsimp only
  apply h.keep_peer (h.local_setPeerTlsFd hframe rfl (-1)) (named_setPeerTlsFd h.named peerId (-1)) _ _ nofun
  . rw [hollowAt_eq hframe, getPeerTlsFd_setPeerTlsFd_neg]
    simp [TlsFrame.hollow]
  . rw [transport_setPeerTlsFd]
  . exact (heldAt_eq hframe).symm

theorem Inv.remove (h : Inv node) (hframe : node.frames thread = some (.remove peerId))
    : Inv (node.advance thread (.remove peerId) answer) := by
  unfold advance
  dsimp only
  have hlocal : Local node ((node.removePeer peerId).goto thread none) thread (some peerId) := by
    refine h.local_of_peer hframe rfl rfl nofun ?_
    intro p hp
    rw [hasPeer_removePeer, getPeerTlsFd_removePeer, if_neg hp.symm]
    exact ⟨fun hhas => ⟨hp.symm, hhas⟩, rfl⟩
  refine h.keep_peer hlocal (named_removePeer h.named peerId) rfl ?_ nofun ?_
  . exact (heldAt_eq hframe).symm
  . rw [hollowAt_eq hframe, getPeerTlsFd_removePeer]
    simp [TlsFrame.hollow]

def carefulResume (node : TlsNode n) (frame : TlsFrame) (answer : TlsAnswer) : Bool :=
  match frame with
  | .getConnectionInfo fd => (node.matching answer.ambient fd).all fun peerId => node.Free peerId
  | .send _ _ => answer.complete
  | _ => true

theorem Inv.advance (h : Inv node) {frame : TlsFrame} (hframe : node.frames thread = some frame)
    (hkernel : ∀ fd info, answer.incoming = .connection fd info → ¬node.isOpen fd)
    (hcareful : carefulResume node frame answer)
    : Inv (node.advance thread frame answer) := by
  cases frame with
  | handshake => exact h.handshake hframe hkernel
  | getConnectionInfo fd =>
    apply h.getConnectionInfo hframe
    intro p hp
    unfold carefulResume at hcareful
    rw [Option.all_eq_true] at hcareful
    exact of_decide_eq_true (hcareful p hp)
  | getOldFd fd peerId => exact h.getOldFd hframe
  | closeOld fd peerId oldFd =>
    obtain ⟨hpeer, hfd⟩ := h.frameOk thread _ hframe
    exact h.drop hframe rfl rfl hfd rfl rfl hpeer
  | closeUnmatched fd => exact h.closeUnmatched hframe
  | connect peerId => exact h.connect hframe hkernel
  | record fd peerId => exact h.record hframe
  | send peerId fd =>
    unfold TlsNode.advance
    rw [show answer.complete = true from hcareful]
    exact h.keep (peerAt_eq hframe) rfl rfl (heldAt_eq hframe).symm nofun
  | forget peerId => exact h.forget hframe
  | closePeer peerId fd => exact h.drop hframe rfl rfl (h.frameOk thread _ hframe) rfl rfl trivial
  | closeStale peerId fd => exact h.drop hframe rfl rfl (h.frameOk thread _ hframe) rfl rfl trivial
  | remove peerId => exact h.remove hframe

end Advance

section Run

def carefulStart (node : TlsNode n) (call : TlsCall) : Bool :=
  match call with
  | .connectTlsToPeer peerId => node.peerManager.hasPeer peerId ∧ node.Free peerId
  | .disconnectTlsPeer peerId => node.Free peerId
  | .prune peerId => node.Free peerId
  | _ => true

theorem Inv.start (h : Inv node) (hidle : node.frames thread = none) {call : TlsCall}
    (hcareful : carefulStart node call)
    : Inv (node.start thread call) := by
  have hnone : node.peerAt thread = none := by simp [peerAt, hidle]
  have hheld : node.heldAt thread = none := by simp [heldAt, hidle]
  have hhollow : node.hollowAt thread = none := by simp [hollowAt, hidle]
  -- The thread turns to a peer, whose connection remains where it is.
  have hturn {peerId : Bytes} {next : TlsFrame} (hfree : node.Free peerId) (hpeer : next.peer? = some peerId)
      (hnext : next.held = none) (hok : node.FrameOk next)
      (hsame : next.hollow = some peerId → node.getPeerTlsFd peerId = none)
      : Inv (node.goto thread (some next)) := by
    have hlocal : Local node (node.goto thread (some next)) thread (some peerId) := by
      apply local_of_free hnone hfree
      intro p hp
      exact Option.some.inj (hp.symm.trans hpeer)
    refine h.keep_peer hlocal h.named rfl ?_ ?_ ?_
    . rw [hheld]
      exact hnext
    . intro frame hframe
      cases hframe
      exact hok
    . rw [hhollow, Option.bind_some]
      by_cases hh : next.hollow = some peerId
      . simp [hh, hsame hh]
      . simp [hh]
  cases call with
  | accept now =>
    refine h.keep hnone ?_ (node.transport.activeSsl_beginAccept now) ?_ ?_
    . split <;> rfl
    . rw [hheld]
      split <;> rfl
    . intro next hnext
      split at hnext
      . cases hnext
        trivial
      . contradiction
  | connectTlsToPeer peerId =>
    unfold TlsNode.start
    dsimp only
    cases hfd : node.getPeerTlsFd peerId with
    | some fd => exact h
    | none =>
      obtain ⟨hpeer, hfree⟩ := of_decide_eq_true hcareful
      exact hturn hfree rfl rfl ⟨hpeer, hfd⟩ nofun
  | send peerId =>
    unfold TlsNode.start
    dsimp only
    cases hfd : node.getPeerTlsFd peerId with
    | none => exact h
    | some fd =>
      refine h.keep hnone ?_ ?_ ?_ ?_
      . rfl
      . rfl
      . exact hheld.symm
      . intro next hnext
        cases hnext
        trivial
  | disconnectTlsPeer peerId =>
    unfold TlsNode.start
    dsimp only
    cases hfd : node.getPeerTlsFd peerId with
    | none => exact h
    | some fd => exact hturn (of_decide_eq_true hcareful) rfl rfl hfd nofun
  | prune peerId =>
    unfold TlsNode.start
    dsimp only
    cases hfd : node.getPeerTlsFd peerId with
    | some fd => exact hturn (of_decide_eq_true hcareful) rfl rfl hfd nofun
    | none => exact hturn (of_decide_eq_true hcareful) rfl rfl trivial fun _ => hfd

theorem Inv.of_registry (h : Inv node) (hnamed : node'.Named) (hframes : node'.frames = node.frames)
    (htransport : node'.transport = node.transport)
    (hpeer : ∀ p, node.peerManager.hasPeer p → node'.peerManager.hasPeer p)
    (hfd : ∀ p, node'.getPeerTlsFd p = node.getPeerTlsFd p)
    : Inv node' := by
  have hown : node'.own = node.own := by
    funext owner
    unfold own isHollow hollowAt heldAt
    simp only [hframes, hfd]
  refine ⟨hnamed, ?_, ?_, ?_, ?_⟩
  . unfold peerAt
    rw [hframes]
    exact h.alone
  . intro thread frame hframe
    rw [hframes] at hframe
    exact frameOk_congr (h.frameOk thread frame hframe) fun p _ => ⟨hpeer p, hfd p⟩
  . unfold isOpen
    rw [htransport]
    exact h.accounted.nonneg
  . rw [hown]
    unfold isOpen
    rw [htransport]
    exact h.accounted.exclusive

theorem Named.addPeer (h : node.Named) (now : Time) (peerId ip : Bytes) (tcpPort tlsPort : Int)
    (publicKeyPem : Bytes)
    : (node.addPeer now peerId ip tcpPort tlsPort publicKeyPem).Named := by
  unfold TlsNode.addPeer
  split
  . exact h
  . intro p entry hentry
    unfold PeerManager.addPeer at hentry
    split at hentry
    . exact h p entry hentry
    . rw [Std.ExtTreeMap.getElem?_insert] at hentry
      split at hentry
      . next heq =>
        cases hentry
        exact Std.LawfulEqCmp.compare_eq_iff_eq.mp heq
      . exact h p entry hentry

theorem nodeId_fillKey (entry : PeerEntry) (publicKeyPem : Bytes)
    : (PeerManager.fillKey entry publicKeyPem).nodeId = entry.nodeId := by
  unfold PeerManager.fillKey
  split <;> rfl

theorem Named.updatePeerHeartbeat (h : node.Named) (now : Time) (peerId ip : Bytes) (tcpPort tlsPort : Int)
    (publicKeyPem : Bytes)
    : Named { node with
        peerManager := node.peerManager.updatePeerHeartbeat now peerId ip tcpPort tlsPort publicKeyPem } := by
  intro p entry hentry
  unfold PeerManager.updatePeerHeartbeat at hentry
  cases hold : node.peerManager.peers[peerId]? with
  | none =>
    simp only [hold] at hentry
    exact h p entry hentry
  | some old =>
    simp only [hold] at hentry
    rw [Std.ExtTreeMap.getElem?_insert] at hentry
    split at hentry
    . next heq =>
      cases hentry
      rw [nodeId_fillKey, ← Std.LawfulEqCmp.compare_eq_iff_eq.mp heq]
      exact h peerId old hold
    . exact h p entry hentry

def kernelRule (node : TlsNode n) (action : TlsAction n) : Bool :=
  match action with
  | .resume _ answer =>
    match answer.incoming with
    | .connection fd _ => ¬node.isOpen fd
    | _ => true
  | _ => true

/--
No two functions work on the same peer at the same time, every send is complete, and the worker only connects to peers
that are listed.
-/
def careful (node : TlsNode n) (action : TlsAction n) : Bool :=
  match action with
  | .start _ call => carefulStart node call
  | .resume thread answer => (node.frames thread).all fun frame => carefulResume node frame answer
  | _ => true

theorem Inv.step (h : Inv node) {action : TlsAction n} (hkernel : kernelRule node action)
    (hcareful : careful node action)
    : Inv (node.step action) := by
  cases action with
  | addPeer now peerId ip tcpPort tlsPort publicKeyPem =>
    apply h.of_registry (h.named.addPeer now peerId ip tcpPort tlsPort publicKeyPem)
    . unfold TlsNode.addPeer
      split <;> rfl
    . unfold TlsNode.addPeer
      split <;> rfl
    . intro p hp
      exact hasPeer_addPeer node peerId p now ip tcpPort tlsPort publicKeyPem hp
    . intro p
      exact getPeerTlsFd_addPeer node peerId p now ip tcpPort tlsPort publicKeyPem
  | updatePeerHeartbeat now peerId ip tcpPort tlsPort publicKeyPem =>
    have hpeer (p : Bytes) := hasPeer_updatePeerHeartbeat peerId p node.peerManager now ip tcpPort tlsPort publicKeyPem
    unfold TlsNode.step
    dsimp only
    refine h.of_registry (h.named.updatePeerHeartbeat now peerId ip tcpPort tlsPort publicKeyPem) ?_ ?_ ?_ ?_
    . rfl
    . rfl
    . intro p hp
      rwa [hpeer p]
    . intro p
      unfold getPeerTlsFd
      rw [hpeer p]
  | start thread call =>
    unfold TlsNode.step
    dsimp only
    cases hframe : node.frames thread with
    | some frame => exact h
    | none => exact h.start hframe hcareful
  | resume thread answer =>
    unfold TlsNode.step
    dsimp only
    cases hframe : node.frames thread with
    | none => exact h
    | some frame =>
      unfold careful at hcareful
      dsimp only at hcareful
      rw [hframe] at hcareful
      apply h.advance hframe _ hcareful
      intro fd info hincoming
      unfold kernelRule at hkernel
      simp only [hincoming] at hkernel
      exact of_decide_eq_true hkernel

def Idle (node : TlsNode n) : Prop :=
  ∀ thread, node.frames thread = none

structure Owned (node : TlsNode n) : Prop where
  recorded : ∀ fd, node.isOpen fd → ∃! peerId, node.getPeerTlsFd peerId = some fd
  isOpen : ∀ peerId fd, node.getPeerTlsFd peerId = some fd → node.isOpen fd

theorem Inv.owned (h : Inv node) (hidle : node.Idle) : node.Owned := by
  have hpeer (p : Bytes) : node.own (.inl p) = node.getPeerTlsFd p := by
    unfold own isHollow hollowAt
    simp [hidle _]
  have hthread (t : Fin n) : node.own (.inr t) = none := by
    unfold own heldAt
    simp [hidle t]
  constructor
  . intro fd hopen
    obtain ⟨owner, howns⟩ := (h.accounted.exclusive.alive_iff fd).mp hopen
    cases owner with
    | inr t =>
      rw [hthread] at howns
      contradiction
    | inl p =>
      refine ⟨p, (hpeer p).symm.trans howns, ?_⟩
      intro q hq
      have hsame := h.accounted.exclusive.eq_of_eq (.inl q) (.inl p) fd ((hpeer q).trans hq) howns
      exact Sum.inl.inj hsame
  . intro p fd hfd
    exact (h.accounted.exclusive.alive_iff fd).mpr ⟨.inl p, (hpeer p).trans hfd⟩

def new (n : Nat) (serverFd : Int) : TlsNode n :=
  { transport := { serverFd } }

theorem inv_new (serverFd : Int) : Inv (new n serverFd) := by
  have hfd (p : Bytes) : (new n serverFd).getPeerTlsFd p = none := by
    unfold getPeerTlsFd new PeerManager.hasPeer
    simp
  have hown (owner : Bytes ⊕ Fin n) : (new n serverFd).own owner = none := by
    cases owner with
    | inl p => simp [own, hfd]
    | inr t => rfl
  refine ⟨?_, nofun, nofun, ?_, ?_, ?_⟩
  . intro p entry hentry
    simp [new] at hentry
  . intro fd hfd
    simp [isOpen, new] at hfd
  . intro fd
    simp only [hown]
    simp [isOpen, new]
  . intro owner owner' fd howner
    rw [hown] at howner
    contradiction

theorem owned_of_careful (serverFd : Int) (actions : List (TlsAction n))
    (hrun : Run.Along step (fun node action => kernelRule node action ∧ careful node action) (new n serverFd) actions)
    : Run.Always step (fun node => node.Idle → node.Owned) (new n serverFd) actions := by
  apply Run.always_of_invariant (I := Inv) _ _ (inv_new serverFd) hrun
  . intro node action h hstep
    exact h.step hstep.1 hstep.2
  . intro node h
    exact h.owned

def sampleAnswer : TlsAnswer :=
  { ambient := { now := 0, bucketOrder := id, bucketOrder_perm := fun _ => .refl _ } }

def sampleConnect : List (TlsAction 2) :=
  [
    .addPeer 0 (bytes "P") (bytes "10.0.0.2") 9000 9443 [],
    .start 1 (.connectTlsToPeer (bytes "P")),
    .resume 1 { sampleAnswer with incoming := .connection 5 none },
    .resume 1 sampleAnswer
  ]

def sampleActions : List (TlsAction 2) :=
  sampleConnect ++ [
    .start 0 (.accept 0),
    .resume 0 { sampleAnswer with incoming := .connection 6 (some ⟨true, bytes "10.0.0.2", 9443⟩) },
    .resume 0 sampleAnswer,
    .start 1 (.send (bytes "P")),
    .resume 0 sampleAnswer,
    .resume 1 sampleAnswer,
    .resume 0 sampleAnswer,
    .resume 0 sampleAnswer,
    .start 1 (.prune (bytes "P")),
    .resume 1 sampleAnswer,
    .resume 1 sampleAnswer
  ]

theorem owned_sampleActions
    : Run.Always step (fun node => node.Idle → node.Owned) (new 2 3) sampleActions := by
  apply owned_of_careful
  decide +kernel

theorem mem_keys_of_getPeerTlsFd {fd : Int} (h : node.getPeerTlsFd peerId = some fd)
    : peerId ∈ node.peerManager.peers.keys := by
  unfold getPeerTlsFd PeerManager.hasPeer at h
  split at h
  . next hmem => simpa using hmem
  . contradiction

def sampleFailedSend : List (TlsAction 2) :=
  sampleConnect ++ [
    .start 0 (.send (bytes "P")),
    .resume 0 { sampleAnswer with complete := false },
    .resume 0 sampleAnswer
  ]

theorem not_forall_owned
    : ¬ ∀ (n : Nat) (serverFd : Int) (actions : List (TlsAction n)),
        Run.Along step (fun node action => kernelRule node action) (new n serverFd) actions →
          Run.Always step (fun node => node.Idle → node.Owned) (new n serverFd) actions := by
  intro h
  have howned := Run.foldl_of_always (h 2 3 sampleFailedSend (by decide +kernel))
  have hidle : (sampleFailedSend.foldl step (new 2 3)).Idle := by
    unfold Idle
    decide +kernel
  obtain ⟨peerId, hpeer, -⟩ := (howned hidle).recorded 5 (by decide +kernel)
  have hnone : ∀ p ∈ (sampleFailedSend.foldl step (new 2 3)).peerManager.peers.keys,
      (sampleFailedSend.foldl step (new 2 3)).getPeerTlsFd p ≠ some 5 := by
    decide +kernel
  exact hnone peerId (mem_keys_of_getPeerTlsFd hpeer) hpeer

end Run

end TlsNode
end NeuroMesh
