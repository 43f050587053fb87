import NeuroMesh.Consensus.PBFT.Lemmas.Execute

namespace NeuroMesh
namespace PBFTConsensus

variable {C : IdentityCore}

def Ignored (s : PBFTConsensus C) (nodeId : Bytes) : Prop :=
  nodeId ∈ s.bannedPeers ∨ nodeId ∉ s.peerPublicKeys

def Silent (s : PBFTConsensus C) (call : Call C) : Prop :=
  match call.op with
  | .verifyMessage msg | .advanceState msg => s.Ignored msg.senderId
  | _ => False

theorem verifyMessage_of_ignored {s : PBFTConsensus C} {msg : P2PMessage} (h : s.Ignored msg.senderId)
    (now : Time)
    : s.verifyMessage now msg = (false, s) := by
  have hcases := s.verifyMessage_cases now msg
  generalize s.verifyMessage now msg = res at *
  cases hcases with
  | banned => rfl
  | unknown => rfl
  | rejected hban hkey => exact absurd h (by simp [Ignored, hban, hkey])
  | verified hvalid => exact absurd h (by simp [Ignored, hvalid.notBanned, hvalid.known])

theorem advanceState_of_ignored {s : PBFTConsensus C} {msg : P2PMessage} (h : s.Ignored msg.senderId)
    (a : Ambient)
    : s.advanceState a msg = (.idle, s) := by
  apply advanceState_of_not_enters
  intro henters
  rcases h with hban | hkey
  . exact henters.notBanned hban
  . exact hkey henters.known

theorem step_of_silent {s : PBFTConsensus C} {call : Call C} (h : s.Silent call) : s.step call = s := by
  obtain ⟨a, op⟩ := call
  cases op with
  | verifyMessage msg => exact congrArg Prod.snd (verifyMessage_of_ignored h a.now)
  | advanceState msg => exact congrArg Prod.snd (advanceState_of_ignored h a)
  | _ => exact h.elim

theorem bannedPeers_subset_of_roster {s t : PBFTConsensus C} (nodeId : Bytes)
    (h : t.roster = s.roster ∨ t.roster = s.roster.expel nodeId)
    : s.bannedPeers ⊆ t.bannedPeers := by
  rcases h with hsame | hexpelled
  . have : t.bannedPeers = s.bannedPeers := congrArg Roster.bannedPeers hsame
    rw [this]
  . have : t.bannedPeers = insert nodeId s.bannedPeers := congrArg Roster.bannedPeers hexpelled
    rw [this]
    apply Finset.subset_insert

theorem bannedPeers_subset_step (s : PBFTConsensus C) (call : Call C)
    : s.bannedPeers ⊆ (s.step call).bannedPeers := by
  obtain ⟨a, op⟩ := call
  cases op with
  | verifyMessage msg =>
    apply bannedPeers_subset_of_roster msg.senderId
    apply (s.roster_verifyMessage a.now msg).imp_right
    intro h
    exact h.2.roster_eq
  | advanceState msg =>
    apply bannedPeers_subset_of_roster msg.senderId
    apply (s.roster_advanceState a msg).imp_right
    intro h
    exact h.2.roster_eq
  | banPeerLocal nodeId reason => apply Finset.subset_insert
  | proposeBan targetId reason =>
    change s.bannedPeers ⊆ (s.proposeBan targetId reason).2.bannedPeers
    rcases s.snd_proposeBan_cases targetId reason with heq | heq
    . rw [heq]
    . rw [heq]
      apply Finset.subset_insert
  | tryIncrementPeers nodeId =>
    change s.bannedPeers ⊆ (s.tryIncrementPeers nodeId).2.bannedPeers
    rcases s.snd_tryIncrementPeers_cases nodeId with heq | ⟨-, heq⟩
    . rw [heq]
    . rw [heq]
  | _ => exact Finset.Subset.refl _

structure Mixed (C : IdentityCore) where
  inserted : Bool
  call : Call C

def Mixed.step (s : PBFTConsensus C) (mixed : Mixed C) : PBFTConsensus C :=
  s.step mixed.call

theorem silent_calls_unnoticed (s : PBFTConsensus C) (calls : List (Mixed C))
    (h : Run.Along Mixed.step (fun s mixed => mixed.inserted = true → s.Silent mixed.call) s calls)
    : calls.foldl Mixed.step s = (calls.filter (!·.inserted)).foldl Mixed.step s
        ∧
      (∀ (ο : Type) (out : PBFTConsensus C → Call C → ο),
        let out' := fun s mixed => if mixed.inserted then none else some (out s mixed.call)
        Run.observe Mixed.step out' s calls
          = Run.observe Mixed.step out' s (calls.filter (!·.inserted)))
        ∧
      ∀ nodeId ∈ s.bannedPeers, Run.Always Mixed.step (nodeId ∈ ·.bannedPeers) s calls := by
  have hstutter : Run.Along Mixed.step (fun s mixed => (!mixed.inserted) = false → mixed.step s = s)
      s calls := by
    apply Run.along_mono _ h
    intro s mixed hsilent hinserted
    exact step_of_silent (hsilent (by simpa using hinserted))
  refine ⟨?_, ?_, ?_⟩
  . rw [Run.foldl_filter hstutter]
  . intro ο out
    dsimp only
    rw [Run.observe_filter hstutter]
    intro s mixed hinserted
    simp only [Bool.not_eq_false'] at hinserted
    simp [hinserted]
  . intro nodeId hmem
    apply Run.always_of_step (I := fun s : PBFTConsensus C => nodeId ∈ s.bannedPeers) _ hmem
    intro s mixed hs
    exact s.bannedPeers_subset_step mixed.call hs

theorem silent_calls_unnoticed_stranger
    : let s := (new .plain 1 none none).registerPeerKey (bytes "A") (bytes "A")
      let proposal := fun sender => atZero (.advanceState (sampleVote Stage.prePrepare sender 1))
      let calls := [⟨true, proposal "X"⟩, ⟨false, proposal "A"⟩]
      s.Silent (proposal "X")
        ∧
      calls.foldl Mixed.step s = [Mixed.mk false (proposal "A")].foldl Mixed.step s := by
  intro s proposal calls
  have hsilent : s.Silent (proposal "X") := .inr (by decide +kernel)
  refine ⟨hsilent, ?_⟩
  exact (silent_calls_unnoticed s calls ⟨fun _ => hsilent, by simp, trivial⟩).1

end PBFTConsensus
end NeuroMesh
