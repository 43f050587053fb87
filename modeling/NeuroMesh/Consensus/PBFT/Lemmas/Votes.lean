import NeuroMesh.Consensus.PBFT.Lemmas.Frame

namespace NeuroMesh

def PBFTStage.next (stage : PBFTStage) : Option PBFTStage :=
  match stage with
  | .idle => some .prepare
  | .prepare => some .commit
  | .commit => some .executed
  | _ => none

structure ConsensusRound.Moves (before after : ConsensusRound) (result : PBFTStage) : Prop where
  state : result = .idle ∧ after.state = before.state
    ∨ before.state.next = some result ∧ after.state = result
  view : before.state ≠ .idle → after.view = before.view
  commitSignature : after.commitSignature = before.commitSignature

namespace PBFTConsensus

variable {C : IdentityCore} {s : PBFTConsensus C} {a : Ambient} {msg : P2PMessage}

structure Enters (s : PBFTConsensus C) (msg : P2PMessage) : Prop where
  notBanned : msg.senderId ∉ s.bannedPeers
  known : msg.senderId ∈ s.peerPublicKeys

theorem Admits.enters (h : s.Admits a msg) : s.Enters msg := by
  exact ⟨h.notBanned, h.known⟩

theorem advanceState_of_not_enters (h : ¬s.Enters msg) (a : Ambient)
    : s.advanceState a msg = (.idle, s) := by
  unfold advanceState mayVote
  by_cases hban : msg.senderId ∈ s.bannedPeers
  . rw [if_pos hban]
  . by_cases hkey : msg.senderId ∈ s.peerPublicKeys
    . exact absurd ⟨hban, hkey⟩ h
    . rw [if_neg hban, if_pos hkey]

theorem snd_mayVote_of_not_enters (h : ¬s.Enters msg) : (s.mayVote a msg).2 = s := by
  have hadvance := advanceState_of_not_enters h a
  rw [advanceState_of_not_admits (fun hadmits => h hadmits.enters)] at hadvance
  exact congrArg Prod.snd hadvance

section MayVote

variable {key : Bytes}

theorem mayVote_rule {P : PBFTConsensus C → Prop} (henters : s.Enters msg) (a : Ambient)
    (h : ∀ t : PBFTConsensus C, t.registry = (s.cleanupStaleRounds a.now).registry →
      P t ∧ P (t.recordFailure a.now msg.senderId))
    : P (s.mayVote a msg).2 := by
  have hlimit := h _ (registry_checkRateLimit (s.cleanupStaleRounds a.now) a.now msg.senderId)
  by_cases hadmits : s.Admits a msg
  . exact (h _ (registry_mayVote hadmits)).1
  . have hfalse := (s.mayVote_eq_true_iff a msg).not.mpr hadmits
    have hcases := s.mayVote_cases a msg
    generalize s.mayVote a msg = res at *
    cases hcases with
    | banned hban => exact absurd hban henters.notBanned
    | unknown _ hkey => exact absurd henters.known hkey
    | limited => exact hlimit.2
    | seen => exact hlimit.1
    | admitted => simp at hfalse

theorem rounds_mayVote (h : s.Enters msg) (a : Ambient)
    : (s.mayVote a msg).2.rounds = (s.cleanupStaleRounds a.now).rounds := by
  apply mayVote_rule (P := (·.rounds = (s.cleanupStaleRounds a.now).rounds)) h
  intro t ht
  have hrounds : t.rounds = _ := congrArg Registry.rounds ht
  exact ⟨hrounds, (t.rounds_recordFailure _ _).trans hrounds⟩

theorem mem_voters_of_cleanupStaleRounds {now : Time} {stage voter : Bytes}
    (h : voter ∈ (s.cleanupStaleRounds now).voters key stage)
    : voter ∈ s.voters key stage := by
  rw [voters_cleanupStaleRounds] at h
  split at h
  . simp at h
  . exact h

theorem mem_voters_of_recordFailure {now : Time} {nodeId stage voter : Bytes}
    (h : voter ∈ (s.recordFailure now nodeId).voters key stage)
    : voter ∈ s.voters key stage := by
  unfold recordFailure at h
  dsimp at h
  split at h
  . rw [voters_prunePeerLocked] at h
    exact Finset.mem_of_mem_erase h
  . exact h

theorem mem_voters_of_verifyMessage {now : Time} {stage voter : Bytes}
    : voter ∈ (s.verifyMessage now msg).2.voters key stage → voter ∈ s.voters key stage := by
  exact verifyMessage_rule (P := fun t => voter ∈ t.voters key stage → voter ∈ s.voters key stage) id
    mem_voters_of_recordFailure id

theorem mem_voters_cleanupStaleRounds_of_mayVote {stage voter : Bytes} (henters : s.Enters msg)
    : voter ∈ (s.mayVote a msg).2.voters key stage → voter ∈ (s.cleanupStaleRounds a.now).voters key stage := by
  apply mayVote_rule henters
    (P := fun t => voter ∈ t.voters key stage → voter ∈ (s.cleanupStaleRounds a.now).voters key stage)
  intro t ht
  rw [← voters_congr ht]
  exact ⟨id, mem_voters_of_recordFailure⟩

theorem mem_voters_of_mayVote {stage voter : Bytes}
    (h : voter ∈ (s.mayVote a msg).2.voters key stage)
    : voter ∈ s.voters key stage := by
  by_cases henters : s.Enters msg
  . apply mem_voters_of_cleanupStaleRounds
    exact mem_voters_cleanupStaleRounds_of_mayVote henters h
  . rwa [snd_mayVote_of_not_enters henters] at h

end MayVote

section CastVote

variable {now : Time} {key msgHash : Bytes}

theorem voters_withVote (s : PBFTConsensus C) (msg : P2PMessage) (key key' stage : Bytes)
    : (s.withVote msg key).voters key' stage
        =
      if key = key' ∧ msg.stageStr = stage then
        insert msg.senderId (s.voters key msg.stageStr)
      else
        s.voters key' stage := by
  exact s.voters_setVoters key msg.stageStr _ key' stage

theorem mem_voters_of_castVote {key' stage voter : Bytes}
    (h : voter ∈ (s.castVote now msg key msgHash).2.voters key' stage)
    : voter ∈ s.voters key' stage
        ∨
      voter = msg.senderId ∧ key' = key ∧ stage = msg.stageStr := by
  have hvote : voter ∈ (s.withVote msg key).voters key' stage →
      voter ∈ s.voters key' stage ∨ voter = msg.senderId ∧ key' = key ∧ stage = msg.stageStr := by
    rw [voters_withVote]
    split
    . next heq =>
      obtain ⟨rfl, rfl⟩ := heq
      rw [Finset.mem_insert]
      rintro (rfl | hold)
      . exact .inr ⟨rfl, rfl, rfl⟩
      . exact .inl hold
    . exact .inl
  have hcases := s.castVote_cases now msg key msgHash
  generalize s.castVote now msg key msgHash = res at *
  cases hcases with
  | repeated => exact .inl h
  | rolledBack hcommit =>
    rw [voters_setVoters] at h
    split at h
    . next heq =>
      obtain ⟨rfl, rfl⟩ := heq
      exact .inl h
    . exact hvote h
  | _ => exact hvote h

theorem voters_castVote_of_ne {key' stage : Bytes} (h : ¬(key = key' ∧ msg.stageStr = stage))
    : (s.castVote now msg key msgHash).2.voters key' stage = s.voters key' stage := by
  have hvote : (s.withVote msg key).voters key' stage = s.voters key' stage := by
    rw [voters_withVote, if_neg h]
  have hcases := s.castVote_cases now msg key msgHash
  generalize s.castVote now msg key msgHash = res at *
  cases hcases with
  | repeated => rfl
  | rolledBack hcommit =>
    rw [hcommit.stage_eq] at h
    rw [voters_setVoters, if_neg h]
    exact hvote
  | _ => exact hvote

theorem commitSignature_openRound (s : PBFTConsensus C) (now : Time) (msg : P2PMessage)
    (key msgHash : Bytes)
    : (s.openRound now msg key msgHash).commitSignature = (s.roundOf key).commitSignature := by
  unfold openRound
  dsimp
  split <;> rfl

theorem moves_castVote (s : PBFTConsensus C) (now : Time) (msg : P2PMessage) (key msgHash : Bytes)
    : (s.roundOf key).Moves ((s.castVote now msg key msgHash).2.roundOf key)
        (s.castVote now msg key msgHash).1 := by
  have hopen := s.commitSignature_openRound now msg key msgHash
  have hcases := s.castVote_cases now msg key msgHash
  generalize s.castVote now msg key msgHash = res at *
  cases hcases with
  | repeated => exact ⟨.inl ⟨rfl, rfl⟩, fun _ => rfl, rfl⟩
  | otherView =>
    rw [roundOf_setRound, if_pos rfl]
    exact ⟨.inl ⟨rfl, rfl⟩, fun _ => rfl, rfl⟩
  | prepared _ _ hstate =>
    rw [roundOf_setRound, if_pos rfl]
    refine ⟨.inr ⟨?_, rfl⟩, ?_, hopen⟩
    . rw [hstate]
      rfl
    . intro hne
      contradiction
  | committed _ _ _ hstate =>
    rw [roundOf_setRound, if_pos rfl]
    refine ⟨.inr ⟨?_, rfl⟩, fun _ => rfl, rfl⟩
    rw [hstate]
    rfl
  | rolledBack =>
    rw [roundOf_setVoters, roundOf_setRound, if_pos rfl]
    exact ⟨.inl ⟨rfl, rfl⟩, fun _ => rfl, rfl⟩
  | executed hcommit =>
    rw [roundOf_setRound, if_pos rfl]
    refine ⟨.inr ⟨?_, rfl⟩, fun _ => rfl, rfl⟩
    rw [hcommit.state_eq]
    rfl
  | counted =>
    rw [roundOf_setRound, if_pos rfl]
    refine ⟨.inl ⟨rfl, ?_⟩, ?_, hopen⟩
    . exact s.state_openRound now msg key msgHash
    . intro hne
      rw [openRound_of_ne_idle s now msg key msgHash hne]

theorem rounds_castVote_of_ne {key' : Bytes} (h : key' ≠ key)
    : (s.castVote now msg key msgHash).2.rounds[key']? = s.rounds[key']? := by
  have hcases := s.castVote_cases now msg key msgHash
  generalize s.castVote now msg key msgHash = res at *
  cases hcases with
  | repeated => rfl
  | _ => simp [setRound, withVote, setVoters, Std.ExtTreeMap.getElem?_insert, h.symm]

end CastVote

theorem mem_voters_of_advanceState {key stage voter : Bytes}
    (h : voter ∈ (s.advanceState a msg).2.voters key stage)
    : voter ∈ s.voters key stage
        ∨
      s.Admits a msg ∧ voter = msg.senderId ∧ key = keyOf C msg ∧ stage = msg.stageStr := by
  by_cases hadmits : s.Admits a msg
  . rw [advanceState_of_admits hadmits] at h
    rcases mem_voters_of_castVote h with hold | hnew
    . exact .inl (mem_voters_of_mayVote hold)
    . exact .inr ⟨hadmits, hnew⟩
  . rw [advanceState_of_not_admits hadmits] at h
    exact .inl (mem_voters_of_mayVote h)

theorem senderId_mem_voters_of_advanceState (h : (s.advanceState a msg).1 ≠ .idle)
    : msg.senderId ∈ (s.advanceState a msg).2.voters (keyOf C msg) msg.stageStr := by
  have hvote : msg.senderId ∈ ((s.mayVote a msg).2.withVote msg (keyOf C msg)).voters (keyOf C msg)
      msg.stageStr := by
    rw [voters_withVote, if_pos ⟨rfl, rfl⟩]
    exact Finset.mem_insert_self _ _
  have hcases := (outcome_of_advanceState rfl h).2
  generalize s.advanceState a msg = res at *
  cases hcases with
  | prepared => exact hvote
  | committed => exact hvote
  | executed => exact hvote
  | _ => contradiction

theorem view_advanceState_of_prepare (h : (s.advanceState a msg).1 = .prepare)
    : ((s.advanceState a msg).2.roundOf (keyOf C msg)).view = msg.view := by
  have hcases := (outcome_of_advanceState h (by decide)).2
  generalize s.advanceState a msg = res at *
  cases hcases with
  | prepared _ _ hstate =>
    rw [roundOf_setRound, if_pos rfl]
    apply view_openRound_of_idle
    exact hstate
  | _ => contradiction

theorem quorum_of_advanceState_commit (h : (s.advanceState a msg).1 = .commit)
    : s.quorumSize ≤ ((s.advanceState a msg).2.voters (keyOf C msg) Stage.prepare).card := by
  obtain ⟨hadmits, hcases⟩ := outcome_of_advanceState h (by decide)
  have hquorum := quorumSize_mayVote hadmits
  generalize s.advanceState a msg = res at *
  cases hcases with
  | committed _ _ hstage _ hle =>
    rw [voters_setRound, voters_withVote, if_pos ⟨rfl, hstage⟩, hstage, ← hquorum]
    exact hle
  | _ => contradiction

theorem quorum_of_receive_commit {now : Time} (h : (s.receive now a msg).1 = some .commit)
    : s.quorumSize ≤ ((s.receive now a msg).2.voters (keyOf C msg) Stage.prepare).card := by
  by_cases hvalid : s.Verifies msg
  . rw [receive_of_verifies hvalid] at h ⊢
    exact quorum_of_advanceState_commit (s := s.recordSuccess msg.senderId) (Option.some.inj h)
  . rw [receive_of_not_verifies hvalid] at h
    contradiction

theorem quorum_of_advanceState_executed (h : (s.advanceState a msg).1 = .executed)
    : s.quorumSize ≤ ((s.advanceState a msg).2.voters (keyOf C msg) Stage.commit).card
        ∧
      ((s.advanceState a msg).2.roundOf (keyOf C msg)).state = .executed
        ∧
      ((s.advanceState a msg).2.roundOf (keyOf C msg)).view = msg.view := by
  obtain ⟨hadmits, hcases⟩ := outcome_of_advanceState h (by decide)
  have hquorum := quorumSize_mayVote hadmits
  generalize s.advanceState a msg = res at *
  cases hcases with
  | executed hcommit =>
    rw [voters_setRound, voters_withVote, if_pos ⟨rfl, hcommit.stage_eq⟩, hcommit.stage_eq, ← hquorum]
    rw [roundOf_setRound, if_pos rfl]
    exact ⟨hcommit.quorum_le, rfl, hcommit.view_eq⟩
  | _ => contradiction

end PBFTConsensus
end NeuroMesh
