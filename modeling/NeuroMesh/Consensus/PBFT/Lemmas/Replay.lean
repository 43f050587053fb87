import NeuroMesh.Consensus.PBFT.Lemmas.Traced

namespace NeuroMesh
namespace PBFTConsensus

variable {C : IdentityCore}

def committers (C : IdentityCore) (recorded : List P2PMessage) (key : Bytes) : Finset Bytes :=
  let commits := recorded.filter fun msg => msg.stageStr = Stage.commit ∧ keyOf C msg = key
  (commits.map P2PMessage.senderId).toFinset

theorem mem_committers {recorded : List P2PMessage} {key voter : Bytes}
    : voter ∈ committers C recorded key
        ↔
      ∃ msg ∈ recorded, (msg.stageStr = Stage.commit ∧ keyOf C msg = key) ∧ msg.senderId = voter := by
  simp [committers, and_assoc]

namespace Traced

def ExecutesFresh (recorded : List P2PMessage) (t : Traced C) (call : Call C) : Prop :=
  ∀ msg, call.op = .advanceState msg →
    (t.pbft.advanceState call.ambient msg).1 = .executed →
      ∃ stage ∈ countedStages, ∃ voter ∈ (t.step call).pbft.voters (keyOf C msg) stage,
        (t.step call).voteOf (keyOf C msg) stage voter ∉ recorded

def FewRecorded (recorded : List P2PMessage) (t : Traced C) (call : Call C) : Prop :=
  ∀ msg ∈ recorded, call.op = .advanceState msg → msg.stageStr = Stage.commit →
    (committers C recorded (keyOf C msg)).card < t.pbft.quorumSize

variable {t : Traced C} {call : Call C} {recorded : List P2PMessage}

theorem executesFresh_of_fewRecorded (h : (t.step call).Faithful) (hfew : t.FewRecorded recorded call)
    : t.ExecutesFresh recorded call := by
  obtain ⟨a, op⟩ := call
  rintro msg rfl hexecuted
  change (t.pbft.advanceState a msg).1 = .executed at hexecuted
  have hstage : msg.stageStr = Stage.commit := by
    have htriggers := t.pbft.triggers_advanceState a msg
    rwa [hexecuted] at htriggers
  have hproceeds : (t.pbft.advanceState a msg).1 ≠ .idle := by
    rw [hexecuted]
    decide
  refine ⟨Stage.commit, by decide, ?_⟩
  by_contra! hall
  have hmem : msg ∈ recorded := by
    have hvoter := senderId_mem_voters_of_advanceState hproceeds
    have hvote := voteOf_of_advanceState hproceeds
    rw [hstage] at hvoter hvote
    rw [← hvote]
    exact hall msg.senderId hvoter
  have hsubset : (t.pbft.advanceState a msg).2.voters (keyOf C msg) Stage.commit
      ⊆ committers C recorded (keyOf C msg) := by
    intro voter hvoter
    have hstands := h (keyOf C msg) Stage.commit voter hvoter
    rw [mem_committers]
    exact ⟨_, hall voter hvoter, ⟨hstands.stage_eq, hstands.key_eq⟩, hstands.voter_eq⟩
  have hquorum := (quorum_of_advanceState_executed hexecuted).1
  have hcard := Finset.card_le_card hsubset
  have hlt := hfew msg hmem rfl hstage
  omega

theorem along_executesFresh_of_fewRecorded (totalNodes : Int) (windowEnv maxEnv : Option Bytes)
    (voteOf : (key stage voter : Bytes) → P2PMessage) (recorded : List P2PMessage)
    (calls : List (Call C))
    (h : Run.Along step (FewRecorded recorded) ⟨new C totalNodes windowEnv maxEnv, voteOf⟩ calls)
    : Run.Along step (ExecutesFresh recorded) ⟨new C totalNodes windowEnv maxEnv, voteOf⟩ calls := by
  apply Run.along_of_invariant (I := Faithful) _ (faithful_new _ _ _ _) h
  intro t call hfaithful hfew
  have hnext := faithful_step hfaithful call
  exact ⟨executesFresh_of_fewRecorded hnext hfew, hnext⟩

def castInOrder (sender : String) (stages : List Bytes) : List P2PMessage :=
  go stages 1 (IdentityCore.plain.sha256Hex (bytes "GENESIS"))
where
  go (stages : List Bytes) (seq : UInt64) (prevMessageHash : Bytes) : List P2PMessage :=
    match stages with
    | [] => []
    | stage :: stages =>
      let msg := { sampleVote stage sender seq with prevMessageHash }
      let msg := { msg with signature := IdentityCore.plain.signPayload msg.senderId msg.blob }
      msg :: go stages (seq + 1) (computeMessageHash .plain msg)

def handing (votes : List P2PMessage) : List (Call .plain) :=
  let keys := ["A", "B", "C"].map fun peer => Op.registerPeerKey (bytes peer) (bytes peer)
  (keys ++ votes.flatMap fun msg => [Op.verifyMessage msg, Op.advanceState msg]).map atZero

def decision : List P2PMessage :=
  let a := castInOrder "A" [Stage.prePrepare, Stage.prepare, Stage.commit]
  let b := castInOrder "B" [Stage.prepare, Stage.commit]
  let c := castInOrder "C" [Stage.prepare, Stage.commit]
  a.take 2 ++ b.take 1 ++ c.take 1 ++ a.drop 2 ++ b.drop 1 ++ c.drop 1

def restarted : Traced .plain :=
  ⟨new .plain 4 none none, fun _ _ _ => sampleVote [] "" 0⟩

theorem along_executesFresh_decision
    : let recorded := decision.take 6
      Run.Along step (FewRecorded recorded) restarted (handing decision)
        ∧
      Run.Along step (ExecutesFresh recorded) restarted (handing decision) := by
  intro recorded
  have h : Run.Along step (FewRecorded recorded) restarted (handing decision) := by
    have hcard : Run.Along step
        (fun t _ => ∀ msg ∈ recorded,
          (committers .plain recorded (keyOf .plain msg)).card < t.pbft.quorumSize)
        restarted (handing decision) := by
      decide +kernel
    apply Run.along_mono _ hcard
    intro t call hlt msg hmem _ _
    exact hlt msg hmem
  exact ⟨h, along_executesFresh_of_fewRecorded _ _ _ _ _ _ h⟩

def handsVerified (t : Traced C) (call : Call C) : Bool :=
  match call.op with
  | .advanceState msg => (t.pbft.verifyMessage call.ambient.now msg).1
  | _ => true

def received (calls : List (Call C)) : List P2PMessage :=
  calls.filterMap fun call =>
    match call.op with
    | .advanceState msg => some msg
    | _ => none

theorem not_forall_along_executesFresh
    : ¬ ∀ before after : List (Call .plain),
        Run.Along step (fun t call => t.handsVerified call) restarted after →
          Run.Along step (ExecutesFresh (received before)) restarted after := by
  intro h
  have hfresh := h (handing decision) (handing decision) (by decide +kernel)
  have hlast := (Run.along_iff_forall _ _ _).mp hfresh ((handing decision).take 16)
    (atZero (.advanceState (castInOrder "C" [Stage.prepare, Stage.commit])[1])) [] rfl
  have hcounted := hlast _ rfl (by decide +kernel)
  revert hcounted
  decide +kernel

end Traced

end PBFTConsensus
end NeuroMesh
