import NeuroMesh.Consensus.PBFT.Lemmas.Rounds

namespace NeuroMesh
namespace PBFTConsensus

variable {C : IdentityCore}

theorem mem_voteRegistry_cleanupStaleRounds (s : PBFTConsensus C) (now : Time) (key : Bytes)
    : key ∈ (s.cleanupStaleRounds now).voteRegistry
        ↔
      key ∈ s.voteRegistry ∧ s.rounds[key]?.any (·.expired now) = false := by
  unfold cleanupStaleRounds
  rw [Std.ExtTreeMap.mem_iff_isSome_getElem?, Std.ExtTreeMap.getElem?_filter',
    Std.ExtTreeMap.mem_iff_isSome_getElem?]
  cases s.voteRegistry[key]? with
  | none => simp
  | some stageMap => cases s.rounds[key]?.any (·.expired now) <;> simp [Option.filter]

theorem mem_voteRegistry_of_setVoters {s : PBFTConsensus C} {key stage key' : Bytes} {set : Finset Bytes}
    (h : key' ∈ (s.setVoters key stage set).voteRegistry)
    : key' = key ∨ key' ∈ s.voteRegistry := by
  rcases Std.ExtTreeMap.mem_insert.mp h with heq | hold
  . exact .inl (Std.compare_eq_iff_eq.mp heq).symm
  . exact .inr hold

theorem mem_voteRegistry_of_castVote {s : PBFTConsensus C} {now : Time} {msg : P2PMessage}
    {key msgHash key' : Bytes} (h : key' ∈ (s.castVote now msg key msgHash).2.voteRegistry)
    : key' = key ∨ key' ∈ s.voteRegistry := by
  have hcases := s.castVote_cases now msg key msgHash
  generalize s.castVote now msg key msgHash = res at *
  cases hcases with
  | repeated => exact .inr h
  | rolledBack =>
    rcases mem_voteRegistry_of_setVoters h with heq | hold
    . exact .inl heq
    . exact mem_voteRegistry_of_setVoters hold
  | _ => exact mem_voteRegistry_of_setVoters h

theorem mem_voteRegistry_prunePeerLocked (s : PBFTConsensus C) (nodeId key : Bytes)
    : key ∈ (s.prunePeerLocked nodeId).voteRegistry ↔ key ∈ s.voteRegistry := by
  unfold prunePeerLocked
  simp

theorem mem_voteRegistry_of_recordFailure {s : PBFTConsensus C} {now : Time} {nodeId key : Bytes}
    (h : key ∈ (s.recordFailure now nodeId).voteRegistry)
    : key ∈ s.voteRegistry := by
  unfold recordFailure at h
  dsimp only at h
  split at h
  . exact (mem_voteRegistry_prunePeerLocked _ nodeId key).mp h
  . exact h

theorem mem_voteRegistry_of_mayVote {s : PBFTConsensus C} {a : Ambient} {msg : P2PMessage} {key : Bytes}
    (henters : s.Enters msg)
    : key ∈ (s.mayVote a msg).2.voteRegistry → key ∈ (s.cleanupStaleRounds a.now).voteRegistry := by
  apply mayVote_rule (P := fun t => key ∈ t.voteRegistry → key ∈ (s.cleanupStaleRounds a.now).voteRegistry) henters
  intro t ht
  have hvotes : t.voteRegistry = (s.cleanupStaleRounds a.now).voteRegistry := congrArg Registry.voteRegistry ht
  rw [← hvotes]
  exact ⟨id, mem_voteRegistry_of_recordFailure⟩

structure Tracked (Active : Bytes → Time → Prop) (s : PBFTConsensus C) : Prop where
  voted : ∀ key ∈ s.voteRegistry, ∃ round, s.rounds[key]? = some round ∧ Active key round.lastActivity
  started : ∀ key round, s.rounds[key]? = some round → round.state ≠ .idle →
    Active key round.lastActivity

section Tracked

variable {Active : Bytes → Time → Prop} {s : PBFTConsensus C} (h : s.Tracked Active)
include h

theorem tracked_of_eq {t : PBFTConsensus C} (hrounds : t.rounds = s.rounds)
    (hvotes : ∀ key, key ∈ t.voteRegistry → key ∈ s.voteRegistry)
    : t.Tracked Active := by
  constructor
  . intro key hkey
    rw [hrounds]
    exact h.voted key (hvotes key hkey)
  . rw [hrounds]
    exact h.started

theorem tracked_prunePeerLocked (nodeId : Bytes) : (s.prunePeerLocked nodeId).Tracked Active := by
  apply tracked_of_eq h
  . rfl
  . intro key hkey
    exact (s.mem_voteRegistry_prunePeerLocked nodeId key).mp hkey

theorem tracked_recordFailure (now : Time) (nodeId : Bytes)
    : (s.recordFailure now nodeId).Tracked Active := by
  apply tracked_of_eq h
  . exact s.rounds_recordFailure now nodeId
  . intro key hkey
    exact mem_voteRegistry_of_recordFailure hkey

theorem tracked_verifyMessage (now : Time) (msg : P2PMessage)
    : (s.verifyMessage now msg).2.Tracked Active := by
  exact verifyMessage_rule (P := Tracked Active) h (tracked_recordFailure h now msg.senderId) ⟨h.voted, h.started⟩

theorem tracked_cleanupStaleRounds (now : Time) : (s.cleanupStaleRounds now).Tracked Active := by
  constructor
  . intro key hkey
    rw [mem_voteRegistry_cleanupStaleRounds] at hkey
    rw [getElem?_rounds_cleanupStaleRounds, hkey.2]
    exact h.voted key hkey.1
  . intro key round hround
    rw [getElem?_rounds_cleanupStaleRounds] at hround
    split at hround
    . contradiction
    . exact h.started key round hround

theorem tracked_mayVote (a : Ambient) (msg : P2PMessage) : (s.mayVote a msg).2.Tracked Active := by
  by_cases henters : s.Enters msg
  . apply tracked_of_eq (tracked_cleanupStaleRounds h a.now)
    . exact rounds_mayVote henters a
    . intro key
      exact mem_voteRegistry_of_mayVote henters
  . rw [snd_mayVote_of_not_enters henters]
    exact h

theorem active_of_tracked {key : Bytes} (hkey : key ∈ s.voteRegistry ∨ (s.roundOf key).state ≠ .idle)
    : Active key (s.roundOf key).lastActivity := by
  unfold roundOf at hkey ⊢
  rw [Std.ExtTreeMap.getD_eq_getD_getElem?] at hkey ⊢
  cases hround : s.rounds[key]? with
  | none =>
    rcases hkey with hkey | hstate
    . obtain ⟨_, hsome, _⟩ := h.voted key hkey
      rw [hround] at hsome
      contradiction
    . simp [hround] at hstate
  | some round =>
    rcases hkey with hkey | hstate
    . obtain ⟨_, hsome, hactive⟩ := h.voted key hkey
      rw [hround] at hsome
      cases hsome
      exact hactive
    . rw [hround] at hstate
      exact h.started key round hround hstate

theorem tracked_insert {t : PBFTConsensus C} {key : Bytes} {round : ConsensusRound}
    (hrounds : t.rounds = s.rounds.insert key round)
    (hvotes : ∀ key', key' ∈ t.voteRegistry → key' = key ∨ key' ∈ s.voteRegistry)
    (hround : key ∈ t.voteRegistry ∨ round.state ≠ .idle → Active key round.lastActivity)
    : t.Tracked Active := by
  have hget : ∀ key', t.rounds[key']? = if key = key' then some round else s.rounds[key']? := by
    intro key'
    simp only [hrounds, Std.ExtTreeMap.getElem?_insert, Std.compare_eq_iff_eq]
  constructor
  . intro key' hkey'
    rw [hget]
    split
    . next heq =>
      subst heq
      exact ⟨round, rfl, hround (.inl hkey')⟩
    . next hne => exact h.voted key' ((hvotes key' hkey').resolve_left (Ne.symm hne))
  . intro key' round' hround' hstate
    rw [hget] at hround'
    split at hround'
    . next heq =>
      subst heq
      cases hround'
      exact hround (.inr hstate)
    . exact h.started key' round' hround' hstate

theorem tracked_castVote {now : Time} {msg : P2PMessage} {key : Bytes} (hnow : Active key now)
    (msgHash : Bytes)
    : (s.castVote now msg key msgHash).2.Tracked Active := by
  have hvotes : ∀ key', key' ∈ (s.castVote now msg key msgHash).2.voteRegistry →
      key' = key ∨ key' ∈ s.voteRegistry := fun _ => mem_voteRegistry_of_castVote
  have hcases := s.castVote_cases now msg key msgHash
  generalize s.castVote now msg key msgHash = res at *
  cases hcases with
  | repeated => exact h
  | otherView _ _ hstate => exact tracked_insert h rfl hvotes fun _ => active_of_tracked h (.inr hstate)
  | _ => exact tracked_insert h rfl hvotes fun _ => hnow

theorem tracked_advanceState {a : Ambient} {msg : P2PMessage} (hnow : Active (keyOf C msg) a.now)
    : (s.advanceState a msg).2.Tracked Active := by
  have hmay := tracked_mayVote h a msg
  by_cases hadmits : s.Admits a msg
  . rw [advanceState_of_admits hadmits]
    exact tracked_castVote hmay hnow _
  . rw [advanceState_of_not_admits hadmits]
    exact hmay

theorem tracked_setRoundCommitSig (key sig : Bytes) : (s.setRoundCommitSig key sig).Tracked Active := by
  exact tracked_insert h rfl (fun _ => .inr) fun hkey => active_of_tracked h hkey

theorem tracked_step {call : Call C}
    (hnow : ∀ msg, call.op = .advanceState msg → Active (keyOf C msg) call.ambient.now)
    : (s.step call).Tracked Active := by
  obtain ⟨a, op⟩ := call
  cases op with
  | verifyMessage msg => exact tracked_verifyMessage h a.now msg
  | advanceState msg => exact tracked_advanceState h (hnow msg rfl)
  | setRoundCommitSig key sig => exact tracked_setRoundCommitSig h key sig
  | prunePeer nodeId => exact tracked_prunePeerLocked h nodeId
  | proposeBan targetId reason =>
    change (s.proposeBan targetId reason).2.Tracked Active
    rcases s.snd_proposeBan_cases targetId reason with heq | heq
    . rw [heq]
      exact h
    . rw [heq]
      exact ⟨h.voted, h.started⟩
  | tryIncrementPeers nodeId =>
    unfold step tryIncrementPeers
    dsimp only
    split
    . exact h
    . exact ⟨h.voted, h.started⟩
  | _ => exact ⟨h.voted, h.started⟩

end Tracked

def ActiveIn (calls : List (Call C)) (key : Bytes) (time : Time) : Prop :=
  ∃ call ∈ calls, ∃ msg, call.op = .advanceState msg ∧ keyOf C msg = key ∧ call.ambient.now = time

theorem tracked_foldl (totalNodes : Int) (windowEnv maxEnv : Option Bytes) (calls : List (Call C))
    : (calls.foldl step (new C totalNodes windowEnv maxEnv)).Tracked (ActiveIn calls) := by
  apply Run.foldl_of_invariant (Q := fun _ call => call ∈ calls)
  . intro s call h hcall
    apply tracked_step h
    intro msg hop
    exact ⟨call, hcall, msg, hop, rfl, rfl⟩
  . constructor
    . simp [new]
    . simp [new]
  . rw [Run.along_iff_forall]
    intro before call after heq
    rw [heq]
    simp

structure Reclaims (s : PBFTConsensus C) (a : Ambient) (msg : P2PMessage) (key : Bytes) : Prop where
  cleaned : key ∉ (s.cleanupStaleRounds a.now).rounds
    ∧ key ∉ (s.cleanupStaleRounds a.now).voteRegistry
  gone : keyOf C msg ≠ key → key ∉ (s.advanceState a msg).2.rounds
    ∧ key ∉ (s.advanceState a msg).2.voteRegistry
  fresh : keyOf C msg = key → ∀ stage, (s.advanceState a msg).2.voters key stage ⊆ {msg.senderId}

theorem reclaims_of_expired {s : PBFTConsensus C} {a : Ambient} {msg : P2PMessage} {key : Bytes}
    (henters : s.Enters msg) (hexpired : s.rounds[key]?.any (·.expired a.now) = true)
    : s.Reclaims a msg key := by
  have hvotes : key ∉ (s.cleanupStaleRounds a.now).voteRegistry := by
    rw [mem_voteRegistry_cleanupStaleRounds, hexpired]
    simp
  constructor
  . refine ⟨?_, hvotes⟩
    rw [Std.ExtTreeMap.mem_iff_isSome_getElem?, getElem?_rounds_cleanupStaleRounds, if_pos hexpired]
    simp
  . intro hne
    constructor
    . rw [Std.ExtTreeMap.mem_iff_isSome_getElem?, getElem?_rounds_advanceState_of_ne a hne.symm,
        removes_of_enters henters, if_pos hexpired]
      simp
    . intro hkey
      apply hvotes
      apply mem_voteRegistry_of_mayVote henters
      by_cases hadmits : s.Admits a msg
      . rw [advanceState_of_admits hadmits] at hkey
        exact (mem_voteRegistry_of_castVote hkey).resolve_left hne.symm
      . rwa [advanceState_of_not_admits hadmits] at hkey
  . intro _ stage voter hvoter
    have hnone : voter ∉ (s.mayVote a msg).2.voters key stage := by
      intro hmem
      have hclean := mem_voters_cleanupStaleRounds_of_mayVote henters hmem
      rw [voters_cleanupStaleRounds, if_pos hexpired] at hclean
      simp at hclean
    by_cases hadmits : s.Admits a msg
    . rw [advanceState_of_admits hadmits] at hvoter
      rcases mem_voters_of_castVote hvoter with hold | ⟨heq, _⟩
      . exact absurd hold hnone
      . exact Finset.mem_singleton.mpr heq
    . rw [advanceState_of_not_admits hadmits] at hvoter
      exact absurd hvoter hnone

theorem votes_reclaimed (totalNodes : Int) (windowEnv maxEnv : Option Bytes) (calls : List (Call C))
    (key : Bytes)
    : let s := calls.foldl step (new C totalNodes windowEnv maxEnv)
      (key ∈ s.voteRegistry →
        ∃ round, s.rounds[key]? = some round ∧ ActiveIn calls key round.lastActivity)
        ∧
      ∀ a msg, s.Enters msg → s.rounds[key]?.any (·.expired a.now) = true → s.Reclaims a msg key := by
  intro s
  refine ⟨(tracked_foldl totalNodes windowEnv maxEnv calls).voted key, ?_⟩
  intro a msg henters hexpired
  exact reclaims_of_expired henters hexpired

theorem votes_reclaimed_late
    : let late : Ambient := { (default : Ambient) with now := 121000000000 }
      let calls : List (Call .plain) := [
        atZero (.registerPeerKey (bytes "A") (bytes "A")),
        atZero (.advanceState (sampleVote Stage.prePrepare "A" 1))
      ]
      let s := calls.foldl step (new .plain 1 none none)
      let key := roundKey .plain (bytes "\x7b\x7d") (bytes "T")
      let other := { sampleVote Stage.prePrepare "A" 2 with targetId := bytes "U" }
      key ∈ s.voteRegistry ∧ key ∉ (s.advanceState late other).2.voteRegistry := by
  refine ⟨by decide +kernel, ?_⟩
  refine (((votes_reclaimed _ _ _ _ _).2 _ _ ?_ ?_).gone ?_).2
  . exact ⟨by decide +kernel, by decide +kernel⟩
  . decide +kernel
  . decide +kernel

end PBFTConsensus
end NeuroMesh
