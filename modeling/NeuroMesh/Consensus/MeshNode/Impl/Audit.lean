import NeuroMesh.Consensus.MeshNode.Impl.Threads

/-!
This module contains the threads of a node together with the entries that they append to the proof chain. A
thread that finds a round executed reads the signature for the entry in a critical section of its own.
-/

namespace NeuroMesh

structure ConsensusLink where
  targetId : Bytes
  evidenceJson : Bytes
  commitSig : Bytes
  deriving DecidableEq

structure Audit (C : IdentityCore) where
  threads : Threads C
  pending : Nat → Option P2PMessage := fun _ => none
  signed : List P2PMessage := []
  links : List ConsensusLink := []

inductive AuditAction (C : IdentityCore) where
  | run (action : ThreadAction C)
  | append (thread : Nat) (records : Bool)

variable {C : IdentityCore}

def ThreadAction.thread (action : ThreadAction C) : Option Nat :=
  match action with
  | .propose thread _ _ => some thread
  | .receive thread _ => some thread
  | .resume thread _ => some thread
  | .maintain _ => none

namespace Threads

def signs (st : Threads C) (action : ThreadAction C) : Option P2PMessage :=
  match action with
  | .resume thread _ =>
    match st.frames thread with
    | some { next := .signMessage, msg } => some { msg with signature := st.pbft.signMessage msg }
    | _ => none
  | _ => none

def executes (st : Threads C) (action : ThreadAction C) : Option (Nat × P2PMessage) :=
  match action with
  | .resume thread a =>
    match st.frames thread with
    | some { next := .advanceState, msg } =>
      let banRound := MeshNode.isBanRound msg.evidenceJson ∨ msg.stageStr = Stage.banPeer
      if (st.pbft.advanceState a msg).1 = .executed ∧ ¬banRound then some (thread, msg) else none
    | _ => none
  | _ => none

end Threads

def commitKey (C : IdentityCore) (msg : P2PMessage) : Bytes :=
  C.sha256Hex (joinPipe [msg.evidenceJson, msg.targetId])

namespace Audit

def new (node : MeshNode C) : Audit C where
  threads := .new node

def possible (s : Audit C) (action : ThreadAction C) : Bool :=
  match action with
  | .maintain { op := .setRoundCommitSig _ _, .. } => false
  | _ => action.thread.all fun thread => (s.pending thread).isNone

def run (s : Audit C) (action : ThreadAction C) : Audit C :=
  {
    s with
    threads := s.threads.step action
    signed := (s.threads.signs action).toList ++ s.signed
    pending :=
      match s.threads.executes action with
      | none => s.pending
      | some (thread, msg) => Function.update s.pending thread (some msg)
  }

def linkOf (s : Audit C) (msg : P2PMessage) : ConsensusLink where
  targetId := msg.targetId
  evidenceJson := msg.evidenceJson
  commitSig :=
    if msg.senderId = s.threads.nodeId then
      msg.signature
    else
      s.threads.pbft.getRoundCommitSig (commitKey C msg)

def step (s : Audit C) (action : AuditAction C) : Audit C :=
  match action with
  | .run action => if s.possible action then s.run action else s
  | .append thread records =>
    match s.pending thread with
    | none => s
    | some msg => {
        s with
        pending := Function.update s.pending thread none
        links := if records then s.linkOf msg :: s.links else s.links
      }

end Audit
end NeuroMesh
