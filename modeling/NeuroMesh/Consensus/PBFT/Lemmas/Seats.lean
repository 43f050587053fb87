import NeuroMesh.Consensus.PBFT.Lemmas.Execute

namespace NeuroMesh
namespace PBFTConsensus

variable {C : IdentityCore}

def Call.Bans (call : Call C) (nodeId : Bytes) : Prop :=
  match call.op with
  | .banPeerLocal nodeId' _ | .proposeBan nodeId' _ => nodeId' = nodeId
  | _ => False

section Step

variable {s : PBFTConsensus C} {call : Call C} {key stage voter : Bytes}

theorem mem_voters_of_step (h : voter ∈ (s.step call).voters key stage)
    : voter ∈ s.voters key stage
        ∨
      ∃ msg, call.op = .advanceState msg ∧ s.Admits call.ambient msg ∧ voter = msg.senderId := by
  obtain ⟨a, op⟩ := call
  cases op with
  | advanceState msg =>
    rcases mem_voters_of_advanceState h with hold | ⟨hadmits, hsender, _⟩
    . exact .inl hold
    . exact .inr ⟨msg, rfl, hadmits, hsender⟩
  | verifyMessage msg => exact .inl (mem_voters_of_verifyMessage h)
  | prunePeer nodeId =>
    change voter ∈ (s.prunePeerLocked nodeId).voters key stage at h
    rw [voters_prunePeerLocked] at h
    exact .inl (Finset.mem_of_mem_erase h)
  | proposeBan targetId reason =>
    change voter ∈ (s.proposeBan targetId reason).2.voters key stage at h
    rcases s.snd_proposeBan_cases targetId reason with heq | heq
    . rw [heq] at h
      exact .inl h
    . rw [heq] at h
      exact .inl h
  | tryIncrementPeers nodeId =>
    change voter ∈ (s.tryIncrementPeers nodeId).2.voters key stage at h
    rcases s.snd_tryIncrementPeers_cases nodeId with heq | ⟨-, heq⟩
    . rw [heq] at h
      exact .inl h
    . rw [heq] at h
      exact .inl h
  | _ => exact .inl h

theorem seated_of_roster {t : PBFTConsensus C} {nodeId : Bytes}
    (h : t.roster = s.roster ∨ s.Expelled t nodeId) (hvoter : voter ∈ t.voters key stage)
    : (voter ∈ s.peerPublicKeys → voter ∈ t.peerPublicKeys)
        ∧
      (voter ∈ t.bannedPeers → voter ∈ s.bannedPeers) := by
  rcases h with hsame | hexpelled
  . have hkeys : t.peerPublicKeys = s.peerPublicKeys := congrArg Roster.peerPublicKeys hsame
    have hbanned : t.bannedPeers = s.bannedPeers := congrArg Roster.bannedPeers hsame
    rw [hkeys, hbanned]
    exact ⟨id, id⟩
  . have hne : voter ≠ nodeId := by
      rintro rfl
      exact hexpelled.notMem_voters key stage hvoter
    have hkeys : t.peerPublicKeys = s.peerPublicKeys.erase nodeId :=
      congrArg Roster.peerPublicKeys hexpelled.roster_eq
    have hbanned : t.bannedPeers = insert nodeId s.bannedPeers :=
      congrArg Roster.bannedPeers hexpelled.roster_eq
    rw [hkeys, hbanned]
    constructor
    . intro hknown
      rw [Std.ExtTreeMap.mem_erase]
      refine ⟨?_, hknown⟩
      intro heq
      exact hne (Std.compare_eq_iff_eq.mp heq).symm
    . rw [Finset.mem_insert]
      exact (·.resolve_left hne)

structure Seated (s : PBFTConsensus C) (call : Call C) (voter : Bytes) : Prop where
  known : voter ∈ s.peerPublicKeys → voter ∈ (s.step call).peerPublicKeys
  banned : voter ∈ (s.step call).bannedPeers → voter ∈ s.bannedPeers ∨ call.Bans voter

theorem seated_of_eq (hkeys : (s.step call).peerPublicKeys = s.peerPublicKeys)
    (hbanned : (s.step call).bannedPeers = s.bannedPeers)
    : s.Seated call voter := by
  constructor
  . rw [hkeys]
    exact id
  . rw [hbanned]
    exact .inl

theorem seated_of_mem_voters (hvoter : voter ∈ (s.step call).voters key stage) : s.Seated call voter := by
  obtain ⟨a, op⟩ := call
  cases op with
  | verifyMessage msg =>
    have hroster := (s.roster_verifyMessage a.now msg).imp_right And.right
    have h := seated_of_roster hroster hvoter
    exact ⟨h.1, .inl ∘ h.2⟩
  | advanceState msg =>
    have hroster := (s.roster_advanceState a msg).imp_right And.right
    have h := seated_of_roster hroster hvoter
    exact ⟨h.1, .inl ∘ h.2⟩
  | registerPeerKey nodeId pemKey =>
    refine ⟨?_, .inl⟩
    intro hknown
    exact Std.ExtTreeMap.mem_insert.mpr (.inr hknown)
  | prunePeer nodeId =>
    change voter ∈ (s.prunePeerLocked nodeId).voters key stage at hvoter
    rw [voters_prunePeerLocked, Finset.mem_erase] at hvoter
    refine ⟨?_, .inl⟩
    intro hknown
    refine Std.ExtTreeMap.mem_erase.mpr ⟨?_, hknown⟩
    intro heq
    exact hvoter.1 (Std.compare_eq_iff_eq.mp heq).symm
  | banPeerLocal nodeId reason =>
    refine ⟨id, ?_⟩
    intro hmem
    exact (Finset.mem_insert.mp hmem).symm.imp_right Eq.symm
  | proposeBan targetId reason =>
    have hstep : s.step ⟨a, .proposeBan targetId reason⟩ = (s.proposeBan targetId reason).2 := rfl
    rcases s.snd_proposeBan_cases targetId reason with heq | heq
    . rw [heq] at hstep
      exact seated_of_eq (by rw [hstep]) (by rw [hstep])
    . rw [heq] at hstep
      constructor
      . rw [hstep]
        exact id
      . rw [hstep]
        intro hmem
        exact (Finset.mem_insert.mp hmem).symm.imp_right Eq.symm
  | tryIncrementPeers nodeId =>
    have hstep : s.step ⟨a, .tryIncrementPeers nodeId⟩ = (s.tryIncrementPeers nodeId).2 := rfl
    rcases s.snd_tryIncrementPeers_cases nodeId with heq | ⟨-, heq⟩
    . rw [heq] at hstep
      exact seated_of_eq (by rw [hstep]) (by rw [hstep])
    . rw [heq] at hstep
      exact seated_of_eq (by rw [hstep]) (by rw [hstep])
  | _ => exact ⟨id, .inl⟩

end Step

def NoGhosts (s : PBFTConsensus C) : Prop :=
  ∀ key stage, ∀ voter ∈ s.voters key stage, voter ∈ s.peerPublicKeys

theorem noGhosts_step {s : PBFTConsensus C} (h : s.NoGhosts) (call : Call C) : (s.step call).NoGhosts := by
  intro key stage voter hvoter
  apply (seated_of_mem_voters hvoter).known
  rcases mem_voters_of_step hvoter with hold | ⟨msg, _, hadmits, rfl⟩
  . exact h key stage voter hold
  . exact hadmits.known

theorem always_noGhosts (totalNodes : Int) (windowEnv maxEnv : Option Bytes) (calls : List (Call C))
    : Run.Always step NoGhosts (new C totalNodes windowEnv maxEnv) calls := by
  apply Run.always_of_step
  . intro s call h
    exact noGhosts_step h call
  . intro key stage voter hvoter
    simp [voters, new] at hvoter

def countedStages : List Bytes :=
  [Stage.prepare, Stage.commit]

def CountsNoBanned (s : PBFTConsensus C) (call : Call C) : Prop :=
  ∀ msg, call.op = .advanceState msg →
    let result := (s.advanceState call.ambient msg).1
    result = .commit ∨ result = .executed →
      ∀ stage ∈ [msg.stageStr, Stage.prepare], ∀ voter ∈ (s.step call).voters (keyOf C msg) stage,
        voter ∉ (s.step call).bannedPeers

def BansNonVoters (s : PBFTConsensus C) (call : Call C) : Prop :=
  ∀ nodeId, call.Bans nodeId → ∀ key, ∀ stage ∈ countedStages, nodeId ∉ s.voters key stage

def NoBannedVotes (s : PBFTConsensus C) : Prop :=
  ∀ key, ∀ stage ∈ countedStages, ∀ voter ∈ s.voters key stage, voter ∉ s.bannedPeers

theorem noBannedVotes_step {s : PBFTConsensus C} {call : Call C} (h : s.NoBannedVotes)
    (hban : s.BansNonVoters call)
    : (s.step call).NoBannedVotes := by
  intro key stage hstage voter hvoter hbanned
  rcases (seated_of_mem_voters hvoter).banned hbanned with hbefore | hbans
  all_goals
    rcases mem_voters_of_step hvoter with hold | ⟨msg, hop, hadmits, rfl⟩
  . exact h key stage hstage voter hold hbefore
  . exact hadmits.notBanned hbefore
  . exact hban voter hbans key stage hstage hold
  . unfold Call.Bans at hbans
    rw [hop] at hbans
    exact hbans

theorem countsNoBanned_of_noBannedVotes {s : PBFTConsensus C} {call : Call C}
    (h : (s.step call).NoBannedVotes)
    : s.CountsNoBanned call := by
  intro msg hop result hresult stage hstage voter hvoter
  have htriggers : Triggers msg.stageStr result := s.triggers_advanceState call.ambient msg
  apply h (keyOf C msg) stage _ voter hvoter
  rw [List.mem_pair] at hstage
  rcases hstage with rfl | rfl
  . rcases hresult with hresult | hresult
    all_goals
      rw [hresult] at htriggers
      rw [show msg.stageStr = _ from htriggers]
      decide
  . decide

theorem along_countsNoBanned_of_bansNonVoters (totalNodes : Int) (windowEnv maxEnv : Option Bytes)
    (calls : List (Call C))
    (h : Run.Along step BansNonVoters (new C totalNodes windowEnv maxEnv) calls)
    : Run.Along step CountsNoBanned (new C totalNodes windowEnv maxEnv) calls := by
  apply Run.along_of_invariant (I := NoBannedVotes) _ _ h
  . intro s call hs hban
    have hnext := noBannedVotes_step hs hban
    exact ⟨countsNoBanned_of_noBannedVotes hnext, hnext⟩
  . intro key stage _ voter hvoter
    simp [voters, new] at hvoter

def sampleBan : Op C :=
  .banPeerLocal (bytes "B") []

theorem along_countsNoBanned_early
    : let s := new .plain 1 none none
      let calls := [
        .registerPeerKey (bytes "A") (bytes "A"), sampleBan, .advanceState (sampleVote Stage.prePrepare "A" 1),
        .advanceState (sampleVote Stage.prepare "B" 1), .advanceState (sampleVote Stage.prepare "A" 2)
      ].map atZero
      Run.Along step BansNonVoters s calls ∧ Run.Along step CountsNoBanned s calls := by
  intro s calls
  have h : Run.Along step BansNonVoters s calls := by
    refine ⟨nofun, ?_, nofun, nofun, nofun, trivial⟩
    intro nodeId _ key stage _
    exact Finset.notMem_empty _
  exact ⟨h, along_countsNoBanned_of_bansNonVoters _ _ _ _ h⟩

theorem not_forall_along_countsNoBanned
    : ¬ ∀ calls : List (Call .plain),
        Run.Along step CountsNoBanned (new .plain 4 none none) calls := by
  intro h
  let before : List (Op .plain) := [
    .registerPeerKey (bytes "A") (bytes "A"),
    .registerPeerKey (bytes "B") (bytes "B"),
    .registerPeerKey (bytes "C") (bytes "C"),
    .advanceState (sampleVote Stage.prePrepare "A" 1),
    .advanceState (sampleVote Stage.prepare "B" 1),
    sampleBan,
    .advanceState (sampleVote Stage.prepare "A" 2)
  ]
  let last : Op .plain := .advanceState (sampleVote Stage.prepare "C" 1)
  have hlast := (Run.along_iff_forall _ _ _).mp (h ((before ++ [last]).map atZero))
    (before.map atZero) (atZero last) [] (by simp)
  apply hlast _ rfl (by decide +kernel) Stage.prepare (by decide) (bytes "B")
  . decide +kernel
  . decide +kernel

end PBFTConsensus
end NeuroMesh
