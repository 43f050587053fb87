import NeuroMesh.Consensus.MeshNode.Impl.Consensus
import NeuroMesh.Consensus.PBFT.Impl.Call

/-!
This module contains `broadcast_pbft_stage` in small steps. The listener, the heartbeat, the IPC server
and the beacon loop of a node can all be inside of it at the same time, and only the increment of the
sequence number and the calls to the `PBFTConsensus` object, which hold its mutex, are atomic.
-/

namespace NeuroMesh

inductive ProgramPoint where
  | fetchAdd
  | currentView
  | getLastSentHash
  | signMessage
  | setRoundCommitSig
  | send
  | verifyMessage
  | advanceState
  | banPeerLocal
  deriving DecidableEq

structure ThreadFrame where
  next : ProgramPoint
  msg : P2PMessage

/--
The threads of a node. `sent` are the messages that were broadcast, the latest one first, and `verdicts`
are the results of `verify_message`.
-/
structure Threads (C : IdentityCore) where
  nodeId : Bytes
  pbft : PBFTConsensus C
  sequenceNumber : UInt64
  frames : Nat → Option ThreadFrame := fun _ => none
  sent : List P2PMessage := []
  verdicts : List (P2PMessage × Bool) := []

inductive ThreadAction (C : IdentityCore) where
  | propose (thread : Nat) (targetId evidenceJson : Bytes)
  | receive (thread : Nat) (msg : P2PMessage)
  | resume (thread : Nat) (ambient : Ambient)
  | maintain (call : PBFTConsensus.Call C)

namespace Threads

variable {C : IdentityCore}

def new (node : MeshNode C) : Threads C :=
  {
    nodeId := node.nodeId
    pbft := node.pbft
    sequenceNumber := node.sequenceNumber
  }

def goto (st : Threads C) (thread : Nat) (frame : Option ThreadFrame) : Threads C :=
  { st with frames := Function.update st.frames thread frame }

def broadcast (st : Threads C) (stageStr targetId evidenceJson : Bytes) : ThreadFrame :=
  {
    next := .fetchAdd
    msg := {
      stageStr
      senderId := st.nodeId
      targetId, evidenceJson
      signature := []
      prevMessageHash := []
      sequenceNumber := 0
      view := 0
    }
  }

def dispatch (st : Threads C) (stage : PBFTStage) (msg : P2PMessage) : Option ThreadFrame :=
  match stage with
  | .prepare => some (st.broadcast Stage.prepare msg.targetId msg.evidenceJson)
  | .commit => some (st.broadcast Stage.commit msg.targetId msg.evidenceJson)
  | .executed =>
    if MeshNode.isBanRound msg.evidenceJson ∨ msg.stageStr = Stage.banPeer then
      some { next := .banPeerLocal, msg }
    else
      none
  | _ => none

def resume (st : Threads C) (thread : Nat) (a : Ambient) : Threads C :=
  match st.frames thread with
  | none => st
  | some { next, msg } =>
    match next with
    | .fetchAdd =>
      let sequenceNumber := st.sequenceNumber + 1
      { st with sequenceNumber }.goto thread
        (some { next := .currentView, msg := { msg with sequenceNumber } })
    | .currentView =>
      st.goto thread
        (some { next := .getLastSentHash, msg := { msg with view := st.pbft.currentView } })
    | .getLastSentHash =>
      let prevMessageHash := st.pbft.getLastSentHash st.nodeId
      st.goto thread (some { next := .signMessage, msg := { msg with prevMessageHash } })
    | .signMessage =>
      let signature := st.pbft.signMessage msg
      st.goto thread (some { next := .setRoundCommitSig, msg := { msg with signature } })
    | .setRoundCommitSig =>
      let pbft :=
        if msg.stageStr = Stage.commit then
          let key := C.sha256Hex (joinPipe [msg.evidenceJson, msg.targetId])
          st.pbft.setRoundCommitSig key msg.signature
        else
          st.pbft
      { st with pbft }.goto thread (some { next := .send, msg })
    | .send =>
      { st with sent := msg :: st.sent }.goto thread (some { next := .verifyMessage, msg })
    | .verifyMessage =>
      let (valid, pbft) := st.pbft.verifyMessage a.now msg
      { st with pbft, verdicts := (msg, valid) :: st.verdicts }.goto thread
        (if valid then some { next := .advanceState, msg } else none)
    | .advanceState =>
      let (stage, pbft) := st.pbft.advanceState a msg
      { st with pbft }.goto thread (st.dispatch stage msg)
    | .banPeerLocal =>
      let reason :=
        if msg.stageStr = Stage.banPeer then
          bytes "cross_node_bft: " ++ msg.evidenceJson
        else
          msg.evidenceJson
      { st with pbft := st.pbft.banPeerLocal msg.targetId reason }.goto thread none

def isMaintenance (op : PBFTConsensus.Op C) : Bool :=
  match op with
  | .verifyMessage _ => false
  | .advanceState _ => false
  | .setMyIdentity _ => false
  | .setPrivateKey _ => false
  | _ => true

def step (st : Threads C) (action : ThreadAction C) : Threads C :=
  match action with
  | .propose thread targetId evidenceJson =>
    if (st.frames thread).isSome then
      st
    else
      st.goto thread (some (st.broadcast Stage.prePrepare targetId evidenceJson))
  | .receive thread msg =>
    if (st.frames thread).isSome ∨ msg.senderId = st.nodeId then
      st
    else
      st.goto thread (some { next := .verifyMessage, msg })
  | .resume thread a => st.resume thread a
  | .maintain call => if isMaintenance call.op then { st with pbft := st.pbft.step call } else st

end Threads
end NeuroMesh
