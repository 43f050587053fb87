import NeuroMesh.Consensus.PBFT.Impl.Advance

/-!
This module contains the calls that change a `PBFTConsensus` object, so that a run of the object is a
list of calls. All of them hold the mutex of the object, every interleaving of threads is a sequence
of them.
-/

namespace NeuroMesh

-- For the calls that read nothing from outside.
instance : Inhabited Ambient := ⟨0, id, List.Perm.refl⟩

namespace PBFTConsensus

inductive Op (C : IdentityCore) where
  | verifyMessage (msg : P2PMessage)
  | advanceState (msg : P2PMessage)
  | registerPeerKey (nodeId pemKey : Bytes)
  | setPeerCount (n : Int)
  | incrementPeers
  | decrementPeers
  | tryIncrementPeers (nodeId : Bytes)
  | prunePeer (nodeId : Bytes)
  | banPeerLocal (nodeId reason : Bytes)
  | proposeBan (targetId reason : Bytes)
  | drainRecentBans
  | setRoundCommitSig (key sig : Bytes)
  | advanceView
  | setMyIdentity (nodeId : Bytes)
  | setPrivateKey (key : C.PrivKey)

structure Call (C : IdentityCore) where
  ambient : Ambient
  op : Op C

variable {C : IdentityCore}

def step (s : PBFTConsensus C) (call : Call C) : PBFTConsensus C :=
  match call.op with
  | .verifyMessage msg => (s.verifyMessage call.ambient.now msg).2
  | .advanceState msg => (s.advanceState call.ambient msg).2
  | .registerPeerKey nodeId pemKey => s.registerPeerKey nodeId pemKey
  | .setPeerCount n => s.setPeerCount n
  | .incrementPeers => s.incrementPeers
  | .decrementPeers => s.decrementPeers
  | .tryIncrementPeers nodeId => (s.tryIncrementPeers nodeId).2
  | .prunePeer nodeId => s.prunePeer nodeId
  | .banPeerLocal nodeId reason => s.banPeerLocal nodeId reason
  | .proposeBan targetId reason => (s.proposeBan targetId reason).2
  | .drainRecentBans => (s.drainRecentBans call.ambient).2
  | .setRoundCommitSig key sig => s.setRoundCommitSig key sig
  | .advanceView => s.advanceView
  | .setMyIdentity nodeId => s.setMyIdentity nodeId
  | .setPrivateKey key => s.setPrivateKey key

end PBFTConsensus
end NeuroMesh
