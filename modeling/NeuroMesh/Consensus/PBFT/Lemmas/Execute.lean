import NeuroMesh.Consensus.PBFT.Lemmas.Retain
import NeuroMesh.Consensus.PBFT.Lemmas.Rounds

namespace NeuroMesh
namespace PBFTConsensus

variable {C : IdentityCore}

theorem any_expired_of_ne_idle (s : PBFTConsensus C) (now : Time) (key : Bytes)
    (h : (s.roundOf key).state ≠ .idle)
    : s.rounds[key]?.any (·.expired now) = (s.roundOf key).expired now := by
  unfold roundOf at *
  rw [Std.ExtTreeMap.getD_eq_getD_getElem?] at *
  cases hround : s.rounds[key]? with
  | none => simp [hround] at h
  | some round => simp

section Executed

variable {s : PBFTConsensus C} {a : Ambient} {msg : P2PMessage} {key : Bytes}

structure ReachesIntersection (s : PBFTConsensus C) (a : Ambient) (msg : P2PMessage) (key : Bytes) :
    Prop where
  admits : s.Admits a msg
  live : (s.roundOf key).expired a.now = false
  completes : s.CompletesCommit msg key

theorem reachesIntersection_iff (hadmits : s.Admits a msg)
    : s.ReachesIntersection a msg key ↔ (s.mayVote a msg).2.CompletesCommit msg key := by
  have hround := roundOf_mayVote hadmits key
  have hvoters := voters_mayVote hadmits key
  have hquorum := quorumSize_mayVote hadmits
  constructor
  . intro h
    have hlive := any_expired_of_ne_idle s a.now key (by simp [h.completes.state_eq])
    simp only [hlive, h.live, Bool.false_eq_true, if_false] at hround hvoters
    constructor
    . exact h.completes.stage_eq
    . rw [hvoters]
      exact h.completes.sender_notMem
    . rw [hround]
      exact h.completes.view_eq
    . rw [hround]
      exact h.completes.state_eq
    . rw [hvoters, hquorum]
      exact h.completes.quorum_le
  . intro h
    have hstate := h.state_eq
    have hlive : s.rounds[key]?.any (·.expired a.now) = false := by
      by_contra hany
      rw [Bool.not_eq_false] at hany
      rw [hround, if_pos hany] at hstate
      simp at hstate
    simp only [hlive, Bool.false_eq_true, if_false] at hround hvoters
    rw [hround] at hstate
    have hexpired := any_expired_of_ne_idle s a.now key (by simp [hstate])
    refine ⟨hadmits, hexpired ▸ hlive, ?_⟩
    constructor
    . exact h.stage_eq
    . rw [← hvoters]
      exact h.sender_notMem
    . rw [← hround]
      exact h.view_eq
    . exact hstate
    . rw [← hvoters, ← hquorum]
      exact h.quorum_le

theorem intersects_mayVote_iff (h : s.ReachesIntersection a msg key)
    : (s.mayVote a msg).2.Intersects msg key ↔ s.Intersects msg key := by
  have hvoters := voters_mayVote h.admits key
  have hlive := any_expired_of_ne_idle s a.now key (by simp [h.completes.state_eq])
  simp only [hlive, h.live, Bool.false_eq_true, if_false] at hvoters
  unfold Intersects
  rw [hvoters, hvoters, quorumSize_mayVote h.admits]

theorem executed_of_advanceState (hbefore : (s.roundOf key).state = .commit)
    (hafter : ((s.advanceState a msg).2.roundOf key).state = .executed)
    : key = keyOf C msg ∧ s.ReachesIntersection a msg key ∧ s.Intersects msg key := by
  have hfound : (s.found ⟨a, .advanceState msg⟩ key).state ≠ .executed := by
    unfold found
    split
    . decide
    . simp [hbefore]
  by_cases hkey : key = keyOf C msg
  . subst hkey
    have hexecuted : (s.advanceState a msg).1 = .executed := by
      rcases (s.moves_advanceState a msg).state with ⟨_, hsame⟩ | ⟨_, hstate⟩
      . exact absurd (hsame.symm.trans hafter) hfound
      . exact hstate.symm.trans hafter
    obtain ⟨hadmits, hcases⟩ := outcome_of_advanceState hexecuted (by decide)
    generalize s.advanceState a msg = res at *
    cases hcases with
    | executed hcommit hinter =>
      have hreach := (reachesIntersection_iff hadmits).mpr hcommit
      exact ⟨rfl, hreach, (intersects_mayVote_iff hreach).mp hinter⟩
    | _ => contradiction
  . rw [roundOf_advanceState_of_ne a hkey] at hafter
    contradiction

theorem advanceState_of_reachesIntersection (h : s.ReachesIntersection a msg (keyOf C msg))
    (hinter : s.Intersects msg (keyOf C msg))
    : ((s.advanceState a msg).2.roundOf (keyOf C msg)).state = .executed
        ∧
      (s.advanceState a msg).2.quorumSize = s.quorumSize
        ∧
      (s.advanceState a msg).2.voters (keyOf C msg) Stage.prepare
        = s.voters (keyOf C msg) Stage.prepare
        ∧
      (s.advanceState a msg).2.voters (keyOf C msg) Stage.commit
        = insert msg.senderId (s.voters (keyOf C msg) Stage.commit) := by
  have hne : Stage.commit ≠ Stage.prepare := by decide
  have hvoters := voters_mayVote h.admits (keyOf C msg)
  have hlive := any_expired_of_ne_idle s a.now (keyOf C msg) (by simp [h.completes.state_eq])
  simp only [hlive, h.live, Bool.false_eq_true, if_false] at hvoters
  have hquorum := quorumSize_mayVote h.admits
  have hcompletes := (reachesIntersection_iff h.admits).mp h
  have hstage := hcompletes.stage_eq
  rw [← intersects_mayVote_iff h] at hinter
  rw [advanceState_of_admits h.admits]
  have hcases := castVote_cases (s.mayVote a msg).2 a.now msg (keyOf C msg) (computeMessageHash C msg)
  generalize (s.mayVote a msg).2.castVote a.now msg (keyOf C msg) (computeMessageHash C msg) = res
    at *
  cases hcases with
  | executed => simp [withVote, hstage, hne, hvoters, hquorum]
  | repeated hvoted => exact absurd (hstage ▸ hvoted) hcompletes.sender_notMem
  | otherView _ hview => exact absurd hcompletes.view_eq hview
  | prepared _ _ hstate => simp [hcompletes.state_eq] at hstate
  | committed _ _ _ hstate => simp [hcompletes.state_eq] at hstate
  | rolledBack _ hno => exact absurd hinter hno
  | counted _ _ _ _ hno => exact absurd hcompletes hno

end Executed

def ExecutesWithQuorum (s : PBFTConsensus C) (call : Call C) : Prop :=
  ∀ key, (s.roundOf key).state = .commit → ((s.step call).roundOf key).state = .executed →
    (s.step call).quorumSize
      ≤ ((s.step call).voters key Stage.prepare ∩ (s.step call).voters key Stage.commit).card

def PrepareQuorumIntact (s : PBFTConsensus C) : Prop :=
  ∀ key, (s.roundOf key).state = .commit → s.quorumSize ≤ (s.voters key Stage.prepare).card

/--
The quorum does not grow, and none of the `PREPARE` voters of the round is pruned, neither by `prune_peer` nor by the
automatic ban that follows the last tolerated failure.
-/
def Spares (s : PBFTConsensus C) (call : Call C) (key : Bytes) : Prop :=
  match call.op with
  | .setPeerCount n => (s.setPeerCount n).quorumSize ≤ s.quorumSize
  | .incrementPeers => s.incrementPeers.quorumSize ≤ s.quorumSize
  | .tryIncrementPeers nodeId => nodeId ∉ s.registeredPeers → s.incrementPeers.quorumSize ≤ s.quorumSize
  | .prunePeer nodeId => nodeId ∉ s.voters key Stage.prepare
  | .verifyMessage msg | .advanceState msg =>
    msg.senderId ∈ s.voters key Stage.prepare → s.BelowThreshold msg.senderId
  | _ => True

def Steady (s : PBFTConsensus C) (call : Call C) : Prop :=
  ∀ key, (s.roundOf key).state = .commit → s.Spares call key

section Steady

variable {s : PBFTConsensus C} {a : Ambient} {msg : P2PMessage} {key : Bytes}

theorem executesWithQuorum_of_intact (h : s.PrepareQuorumIntact) (call : Call C) : s.ExecutesWithQuorum call := by
  intro key hbefore hafter
  by_cases hop : ∃ msg, call.op = .advanceState msg
  . obtain ⟨msg, hmsg⟩ := hop
    have hstep : s.step call = (s.advanceState call.ambient msg).2 := by
      unfold step
      rw [hmsg]
    rw [hstep] at hafter ⊢
    obtain ⟨rfl, hreach, hinter⟩ := executed_of_advanceState hbefore hafter
    obtain ⟨_, hquorum, hprepare, hcommit⟩ := advanceState_of_reachesIntersection hreach hinter
    rw [hquorum, hprepare, hcommit]
    exact hinter.resolve_left (h _ hbefore).not_gt
  . push Not at hop
    rw [(roundOf_step_of_ne_advanceState key hop).1, hbefore] at hafter
    contradiction

theorem prepareVoters_subset_verifyMessage (now : Time)
    (h : msg.senderId ∈ s.voters key Stage.prepare → s.BelowThreshold msg.senderId)
    : s.voters key Stage.prepare ⊆ (s.verifyMessage now msg).2.voters key Stage.prepare := by
  intro voter hvoter
  have hretains : Retains voter ∅ s (s.verifyMessage now msg).2 := by
    apply retains_verifyMessage
    exact or_iff_not_imp_left.mpr fun heq => h (not_not.mp heq ▸ hvoter)
  refine (hretains.votes key _ hvoter).resolve_right ?_
  rintro ⟨now, hnow, -⟩
  exact hnow

theorem prepareVoters_subset_advanceState (hlive : s.removes ⟨a, .advanceState msg⟩ key = false)
    (hstate : (s.roundOf key).state ≠ .idle)
    (h : msg.senderId ∈ s.voters key Stage.prepare → s.BelowThreshold msg.senderId)
    : s.voters key Stage.prepare ⊆ (s.advanceState a msg).2.voters key Stage.prepare := by
  intro voter hvoter
  by_cases henters : s.Enters msg
  . rw [removes_of_enters henters, any_expired_of_ne_idle s a.now key hstate] at hlive
    have hretains : Retains voter {a.now} s (s.advanceState a msg).2 := by
      apply retains_advanceState _ _ (Set.mem_singleton _)
      exact or_iff_not_imp_left.mpr fun heq => h (not_not.mp heq ▸ hvoter)
    refine (hretains.votes key _ hvoter).resolve_right ?_
    -- the clock is read once, so only the last activity of the round can be long ago
    rintro ⟨now, rfl, since, rfl | rfl, hlong⟩
    . simp [ConsensusRound.expired, hlong] at hlive
    . simp [seconds, roundTtlSec] at hlong
  . rw [advanceState_of_not_enters henters]
    exact hvoter

theorem prepareQuorumIntact_advanceState (h : s.PrepareQuorumIntact) (hsteady : s.Steady ⟨a, .advanceState msg⟩)
    : (s.advanceState a msg).2.PrepareQuorumIntact := by
  intro key hstate
  have hle : (s.advanceState a msg).2.quorumSize ≤ s.quorumSize :=
    s.quorumSize_le_of_roster ((s.roster_advanceState a msg).imp_right (·.2.roster_eq))
  rcases committed_of_advanceState hstate with ⟨hcommit, hlive⟩ | ⟨rfl, hcommit⟩
  . have hsubset := prepareVoters_subset_advanceState hlive (by simp [hcommit]) (hsteady key hcommit)
    exact (hle.trans (h key hcommit)).trans (Finset.card_le_card hsubset)
  . exact hle.trans (quorum_of_advanceState_commit hcommit)

theorem prepareQuorumIntact_step (h : s.PrepareQuorumIntact) {call : Call C} (hsteady : s.Steady call)
    : (s.step call).PrepareQuorumIntact := by
  obtain ⟨a, op⟩ := call
  by_cases hop : ∃ msg, op = .advanceState msg
  . obtain ⟨msg, rfl⟩ := hop
    exact prepareQuorumIntact_advanceState h hsteady
  . push Not at hop
    intro key hafter
    have hstate : (s.roundOf key).state = .commit :=
      (roundOf_step_of_ne_advanceState key hop).1.symm.trans hafter
    have hquorum := h key hstate
    have hsteady := hsteady key hstate
    cases op with
    | advanceState msg => exact absurd rfl (hop msg)
    | verifyMessage msg =>
      have hle := s.quorumSize_le_of_roster ((s.roster_verifyMessage a.now msg).imp_right (·.2.roster_eq))
      exact (hle.trans hquorum).trans (Finset.card_le_card (prepareVoters_subset_verifyMessage a.now hsteady))
    | setPeerCount n => exact hsteady.trans hquorum
    | incrementPeers => exact hsteady.trans hquorum
    | decrementPeers => exact s.quorumSize_decrementPeers_le.trans hquorum
    | tryIncrementPeers nodeId =>
      change (s.tryIncrementPeers nodeId).2.quorumSize ≤ ((s.tryIncrementPeers nodeId).2.voters key _).card
      rcases s.snd_tryIncrementPeers_cases nodeId with heq | ⟨hnew, heq⟩
      . rw [heq]
        exact hquorum
      . rw [heq]
        exact (hsteady hnew).trans hquorum
    | prunePeer nodeId =>
      change (s.prunePeerLocked nodeId).quorumSize ≤ ((s.prunePeerLocked nodeId).voters key _).card
      rw [voters_prunePeerLocked, Finset.erase_eq_of_notMem hsteady]
      exact s.quorumSize_decrementPeers_le.trans hquorum
    | proposeBan targetId reason =>
      change (s.proposeBan targetId reason).2.quorumSize ≤ ((s.proposeBan targetId reason).2.voters key _).card
      rcases s.snd_proposeBan_cases targetId reason with heq | heq
      . rw [heq]
        exact hquorum
      . rw [heq]
        exact hquorum
    | _ => exact hquorum

end Steady

theorem along_executesWithQuorum_of_steady (totalNodes : Int) (windowEnv maxEnv : Option Bytes)
    (calls : List (Call C)) (h : Run.Along step Steady (new C totalNodes windowEnv maxEnv) calls)
    : Run.Along step ExecutesWithQuorum (new C totalNodes windowEnv maxEnv) calls := by
  apply Run.along_of_invariant (I := PrepareQuorumIntact) _ _ h
  . intro s call hs hsteady
    exact ⟨executesWithQuorum_of_intact hs call, prepareQuorumIntact_step hs hsteady⟩
  . intro key hstate
    simp [roundOf, new] at hstate

section Sample

instance (s : PBFTConsensus C) (nodeId : Bytes) : Decidable (s.BelowThreshold nodeId) :=
  inferInstanceAs (Decidable (_ < _))

instance (s : PBFTConsensus C) (call : Call C) (key : Bytes) : Decidable (s.Spares call key) := by
  unfold Spares
  split <;> infer_instance

theorem steady_iff (s : PBFTConsensus C) (call : Call C)
    : s.Steady call ↔ ∀ key ∈ s.rounds.keys, (s.roundOf key).state = .commit → s.Spares call key := by
  constructor
  . intro h key _
    exact h key
  . intro h key hstate
    apply h key _ hstate
    rw [Std.ExtTreeMap.mem_keys]
    by_contra hnone
    simp [roundOf, Std.ExtTreeMap.getD_eq_fallback hnone] at hstate

instance (s : PBFTConsensus C) (call : Call C) : Decidable (s.Steady call) :=
  decidable_of_iff _ (s.steady_iff call).symm

/-
While the round is in `COMMIT`, a fifth node joins, and one that has not voted for it is pruned.
-/
def joiningRun : List (Op .plain) :=
  ["A", "B", "C", "D"].map (fun nodeId => .registerPeerKey (bytes nodeId) (bytes nodeId))
    ++ .advanceState (sampleVote Stage.prePrepare "A" 1)
    :: ["A", "B", "C"].map (fun nodeId => .advanceState (sampleVote Stage.prepare nodeId 2))
    ++ [.tryIncrementPeers (bytes "E"), .prunePeer (bytes "D")]
    ++ ["A", "B", "C"].map (fun nodeId => .advanceState (sampleVote Stage.commit nodeId 3))

theorem along_executesWithQuorum_joiningRun
    : let s := new .plain 4 none none
      (((joiningRun.map atZero).foldl step s).roundOf (roundKey .plain (bytes "\x7b\x7d") (bytes "T"))).state = .executed
        ∧ Run.Along step ExecutesWithQuorum s (joiningRun.map atZero) := by
  refine ⟨by decide +kernel, ?_⟩
  exact along_executesWithQuorum_of_steady _ _ _ _ (by decide +kernel)

end Sample

def outgrownRun : List (Op .plain) :=
  [
    .registerPeerKey (bytes "A") (bytes "A"),
    .advanceState (sampleVote Stage.prePrepare "A" 1),
    .advanceState (sampleVote Stage.prepare "A" 2),
    .registerPeerKey (bytes "B") (bytes "B"),
    .incrementPeers,
    .registerPeerKey (bytes "C") (bytes "C"),
    .incrementPeers,
    .registerPeerKey (bytes "D") (bytes "D"),
    .incrementPeers,
    .advanceState (sampleVote Stage.commit "A" 3),
    .advanceState (sampleVote Stage.commit "B" 1)
  ]

theorem not_forall_along_executesWithQuorum
    : ¬ ∀ calls : List (Call .plain),
        Run.Along step ExecutesWithQuorum (new .plain 1 none none) calls := by
  intro h
  have hlast := (Run.along_iff_forall _ _ _).mp
    (h ((outgrownRun ++ [Op.advanceState (sampleVote Stage.commit "C" 1)]).map atZero))
    (outgrownRun.map atZero) (atZero (.advanceState (sampleVote Stage.commit "C" 1))) [] (by simp)
  have hinter := hlast (roundKey .plain (bytes "\x7b\x7d") (bytes "T"))
    (by decide +kernel) (by decide +kernel)
  revert hinter
  decide +kernel

end PBFTConsensus
end NeuroMesh
