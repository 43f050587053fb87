import NeuroMesh.Consensus.PBFT.Lemmas.Seats

/-!
This module contains the bookkeeping of which message every vote in the registry stands for. The object
only remembers who has voted, so the messages are recorded next to it.
-/

namespace NeuroMesh
namespace PBFTConsensus

variable {C : IdentityCore}

def foundVoters (s : PBFTConsensus C) (call : Call C) (key stage : Bytes) : Finset Bytes :=
  if s.removes call key then ∅ else s.voters key stage

def records (s : PBFTConsensus C) (call : Call C) (msg : P2PMessage) : Bool :=
  (s.mayVote call.ambient msg).1 && msg.senderId ∉ s.foundVoters call (keyOf C msg) msg.stageStr

section Voters

variable {s : PBFTConsensus C} {a : Ambient} {msg : P2PMessage} {key stage voter : Bytes}

theorem mem_foundVoters_of_mayVote (h : voter ∈ (s.mayVote a msg).2.voters key stage)
    : voter ∈ s.foundVoters ⟨a, .advanceState msg⟩ key stage := by
  unfold foundVoters
  by_cases henters : s.Enters msg
  . have hclean := mem_voters_cleanupStaleRounds_of_mayVote henters h
    rw [removes_of_enters henters]
    rwa [voters_cleanupStaleRounds] at hclean
  . rw [removes_of_not_enters henters]
    rwa [snd_mayVote_of_not_enters henters] at h

theorem mem_foundVoters_of_advanceState (h : voter ∈ (s.advanceState a msg).2.voters key stage)
    : voter ∈ s.foundVoters ⟨a, .advanceState msg⟩ key stage
        ∨
      s.records ⟨a, .advanceState msg⟩ msg
        ∧ voter = msg.senderId ∧ key = keyOf C msg ∧ stage = msg.stageStr := by
  by_cases hadmits : s.Admits a msg
  . rw [advanceState_of_admits hadmits] at h
    rcases mem_voters_of_castVote h with hold | ⟨rfl, rfl, rfl⟩
    . exact .inl (mem_foundVoters_of_mayVote hold)
    . by_cases hfound : msg.senderId ∈ s.foundVoters ⟨a, .advanceState msg⟩ (keyOf C msg) msg.stageStr
      . exact .inl hfound
      . right
        refine ⟨?_, rfl, rfl, rfl⟩
        simp [records, hfound, (s.mayVote_eq_true_iff a msg).mpr hadmits]
  . rw [advanceState_of_not_admits hadmits] at h
    exact .inl (mem_foundVoters_of_mayVote h)

theorem mem_voters_of_foundVoters {call : Call C} (h : voter ∈ s.foundVoters call key stage)
    : voter ∈ s.voters key stage := by
  unfold foundVoters at h
  split at h
  . simp at h
  . exact h

theorem voters_mayVote_eq_foundVoters (hadmits : s.Admits a msg)
    : (s.mayVote a msg).2.voters key stage = s.foundVoters ⟨a, .advanceState msg⟩ key stage := by
  unfold foundVoters
  rw [voters_mayVote hadmits, removes_of_enters hadmits.enters]

theorem records_iff (hadmits : s.Admits a msg)
    : s.records ⟨a, .advanceState msg⟩ msg = true
        ↔
      msg.senderId ∉ (s.mayVote a msg).2.voters (keyOf C msg) msg.stageStr := by
  rw [voters_mayVote_eq_foundVoters hadmits]
  simp [records, (s.mayVote_eq_true_iff a msg).mpr hadmits]

theorem records_of_advanceState (h : (s.advanceState a msg).1 ≠ .idle)
    : s.records ⟨a, .advanceState msg⟩ msg = true := by
  obtain ⟨hadmits, hcases⟩ := outcome_of_advanceState rfl h
  rw [records_iff hadmits]
  generalize s.advanceState a msg = res at *
  cases hcases with
  | prepared hnew => exact hnew
  | committed hnew => exact hnew
  | executed hcommit =>
    rw [hcommit.stage_eq]
    exact hcommit.sender_notMem
  | _ => contradiction

end Voters

structure Traced (C : IdentityCore) where
  pbft : PBFTConsensus C
  voteOf : (key stage voter : Bytes) → P2PMessage

namespace Traced

def step (t : Traced C) (call : Call C) : Traced C :=
  {
    pbft := t.pbft.step call
    voteOf := fun key stage voter =>
      match call.op with
      | .advanceState msg =>
        if t.pbft.records call msg ∧ key = keyOf C msg ∧ stage = msg.stageStr ∧ voter = msg.senderId then
          msg
        else
          t.voteOf key stage voter
      | _ => t.voteOf key stage voter
  }

variable {t : Traced C} {call : Call C} {key stage voter : Bytes}

structure Records (t : Traced C) (call : Call C) (key stage voter : Bytes) (msg : P2PMessage) : Prop where
  op_eq : call.op = .advanceState msg
  records : t.pbft.records call msg = true
  key_eq : key = keyOf C msg
  stage_eq : stage = msg.stageStr
  voter_eq : voter = msg.senderId
  vote_eq : (t.step call).voteOf key stage voter = msg

theorem vote_cases (h : voter ∈ (t.step call).pbft.voters key stage)
    : voter ∈ t.pbft.foundVoters call key stage
        ∧ (t.step call).voteOf key stage voter = t.voteOf key stage voter
        ∨
      ∃ msg, t.Records call key stage voter msg := by
  obtain ⟨a, op⟩ := call
  by_cases hop : ∃ msg, op = .advanceState msg
  . obtain ⟨msg, rfl⟩ := hop
    rcases mem_foundVoters_of_advanceState h with hold | ⟨hrecords, rfl, rfl, rfl⟩
    . refine .inl ⟨hold, if_neg ?_⟩
      rintro ⟨hrecords, rfl, rfl, rfl⟩
      simp [PBFTConsensus.records, hold] at hrecords
    . exact .inr ⟨msg, rfl, hrecords, rfl, rfl, rfl, if_pos ⟨hrecords, rfl, rfl, rfl⟩⟩
  . left
    have hvoter : voter ∈ t.pbft.voters key stage := by
      rcases mem_voters_of_step h with hold | ⟨msg, heq, _⟩
      . exact hold
      . exact absurd ⟨msg, heq⟩ hop
    cases op with
    | advanceState msg => exact absurd ⟨msg, rfl⟩ hop
    | _ => exact ⟨hvoter, rfl⟩

theorem voteOf_of_advanceState {a : Ambient} {msg : P2PMessage} (h : (t.pbft.advanceState a msg).1 ≠ .idle)
    : (t.step ⟨a, .advanceState msg⟩).voteOf (keyOf C msg) msg.stageStr msg.senderId = msg := by
  exact if_pos ⟨records_of_advanceState h, rfl, rfl, rfl⟩

structure StandsFor (C : IdentityCore) (msg : P2PMessage) (key stage voter : Bytes) : Prop where
  key_eq : keyOf C msg = key
  stage_eq : msg.stageStr = stage
  voter_eq : msg.senderId = voter

def Faithful (t : Traced C) : Prop :=
  ∀ key stage, ∀ voter ∈ t.pbft.voters key stage, StandsFor C (t.voteOf key stage voter) key stage voter

theorem faithful_new (totalNodes : Int) (windowEnv maxEnv : Option Bytes)
    (voteOf : (key stage voter : Bytes) → P2PMessage)
    : Faithful ⟨new C totalNodes windowEnv maxEnv, voteOf⟩ := by
  intro key stage voter hvoter
  simp [voters, new] at hvoter

theorem faithful_step (h : t.Faithful) (call : Call C) : (t.step call).Faithful := by
  intro key stage voter hvoter
  rcases vote_cases hvoter with ⟨hold, hkept⟩ | ⟨msg, hrecords⟩
  . rw [hkept]
    exact h key stage voter (mem_voters_of_foundVoters hold)
  . rw [hrecords.vote_eq]
    exact ⟨hrecords.key_eq.symm, hrecords.stage_eq.symm, hrecords.voter_eq.symm⟩

end Traced

end PBFTConsensus
end NeuroMesh
