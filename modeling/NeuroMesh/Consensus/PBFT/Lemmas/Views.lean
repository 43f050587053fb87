import NeuroMesh.Consensus.PBFT.Lemmas.Traced

namespace NeuroMesh
namespace PBFTConsensus

variable {C : IdentityCore}

namespace Traced

structure Isolates (t : Traced C) (call : Call C) : Prop where
  rejected : ∀ msg, call.op = .advanceState msg → t.pbft.records call msg →
    let round := t.pbft.found call (keyOf C msg)
    round.state ≠ .idle → round.view ≠ msg.view →
      ∀ stage ∈ countedStages,
        (t.step call).pbft.voters (keyOf C msg) stage = t.pbft.voters (keyOf C msg) stage
  counted : ∀ msg, call.op = .advanceState msg →
    let result := (t.pbft.advanceState call.ambient msg).1
    result = .commit ∨ result = .executed →
      ∀ voter ∈ (t.step call).pbft.voters (keyOf C msg) msg.stageStr,
        ((t.step call).voteOf (keyOf C msg) msg.stageStr voter).view
          = ((t.step call).pbft.roundOf (keyOf C msg)).view

structure OneView (t : Traced C) (call : Call C) : Prop where
  vote : ∀ msg, call.op = .advanceState msg → t.pbft.records call msg → msg.stageStr ∈ countedStages →
    let round := t.pbft.found call (keyOf C msg)
    round.state ≠ .idle → round.view = msg.view
  proposal : ∀ msg, call.op = .advanceState msg → t.pbft.records call msg →
    Triggers msg.stageStr .prepare →
    (t.pbft.found call (keyOf C msg)).state = .idle →
      ∀ stage ∈ countedStages, ∀ voter ∈ t.pbft.foundVoters call (keyOf C msg) stage,
        (t.voteOf (keyOf C msg) stage voter).view = msg.view

def Uniform (t : Traced C) : Prop :=
  ∀ key, (t.pbft.roundOf key).state ≠ .idle → ∀ stage ∈ countedStages,
    ∀ voter ∈ t.pbft.voters key stage, (t.voteOf key stage voter).view = (t.pbft.roundOf key).view

variable {t : Traced C} {call : Call C}

theorem uniform_advanceState {a : Ambient} {msg : P2PMessage} (h : t.Uniform)
    (hview : t.OneView ⟨a, .advanceState msg⟩)
    : (t.step ⟨a, .advanceState msg⟩).Uniform := by
  intro key hstate stage hstage voter hvoter
  change ((t.pbft.advanceState a msg).2.roundOf key).state ≠ .idle at hstate
  change _ = ((t.pbft.advanceState a msg).2.roundOf key).view
  rcases vote_cases hvoter with ⟨hold, hkept⟩ | ⟨vote, hrecords⟩
  . rw [hkept]
    rcases view_advanceState_cases hstate with ⟨hfound, hsame⟩ | ⟨rfl, hprepare, hidle, hopen⟩
    . obtain ⟨hremoves, heq⟩ := found_of_ne_idle hfound
      rw [hsame, heq]
      rw [heq] at hfound
      apply h key hfound stage hstage
      simpa [foundVoters, hremoves] using hold
    . rw [hopen]
      have htriggers := t.pbft.triggers_advanceState a msg
      rw [hprepare] at htriggers
      exact hview.proposal msg rfl (records_of_advanceState (by simp [hprepare])) htriggers hidle stage
        hstage voter hold
  . obtain rfl : msg = vote := by simpa using hrecords.op_eq
    rw [hrecords.vote_eq]
    obtain rfl := hrecords.key_eq
    obtain rfl := hrecords.stage_eq
    rcases view_advanceState_cases hstate with ⟨hfound, hsame⟩ | ⟨_, _, _, hopen⟩
    . rw [hsame]
      exact (hview.vote msg rfl hrecords.records hstage hfound).symm
    . exact hopen.symm

theorem uniform_step (h : t.Uniform) (hview : t.OneView call) : (t.step call).Uniform := by
  by_cases hop : ∃ msg, call.op = .advanceState msg
  . obtain ⟨a, op⟩ := call
    obtain ⟨msg, rfl⟩ := hop
    exact uniform_advanceState h hview
  . rw [not_exists] at hop
    intro key hstate stage hstage voter hvoter
    have hround := roundOf_step_of_ne_advanceState (s := t.pbft) key hop
    change ((t.pbft.step call).roundOf key).state ≠ .idle at hstate
    change _ = ((t.pbft.step call).roundOf key).view
    rw [hround.1] at hstate
    rw [hround.2]
    rcases vote_cases hvoter with ⟨hold, hkept⟩ | ⟨vote, hrecords⟩
    . rw [hkept]
      exact h key hstate stage hstage voter (mem_voters_of_foundVoters hold)
    . exact absurd hrecords.op_eq (hop vote)

theorem oneView_of_ne_advanceState (h : ∀ msg, call.op ≠ .advanceState msg) : t.OneView call :=
  ⟨fun msg hop => absurd hop (h msg), fun msg hop => absurd hop (h msg)⟩

theorem isolates_of_oneView (h : t.Uniform) (hview : t.OneView call) : t.Isolates call := by
  obtain ⟨a, op⟩ := call
  constructor
  . rintro msg rfl hrecords round hstate hother stage hstage
    have hne : ¬(keyOf C msg = keyOf C msg ∧ msg.stageStr = stage) := by
      rintro ⟨_, rfl⟩
      exact hother (hview.vote msg rfl hrecords hstage hstate)
    have hremoves := (found_of_ne_idle hstate).1
    change (t.pbft.advanceState a msg).2.voters (keyOf C msg) stage = _
    have hadmits : t.pbft.Admits a msg := by
      rw [← mayVote_eq_true_iff]
      simp only [records, Bool.and_eq_true] at hrecords
      exact hrecords.1
    rw [advanceState_of_admits hadmits, voters_castVote_of_ne hne,
      voters_mayVote_eq_foundVoters hadmits]
    unfold foundVoters
    rw [hremoves]
    rfl
  . rintro msg rfl result hresult voter hvoter
    have huniform := uniform_step h hview
    have htriggers := t.pbft.triggers_advanceState a msg
    apply huniform (keyOf C msg) _ msg.stageStr _ voter hvoter
    . change ((t.pbft.advanceState a msg).2.roundOf (keyOf C msg)).state ≠ .idle
      have hne : (t.pbft.advanceState a msg).1 ≠ .idle := by
        rcases hresult with hresult | hresult
        all_goals
          rw [show (t.pbft.advanceState a msg).1 = _ from hresult]
          decide
      rcases (t.pbft.moves_advanceState a msg).state with ⟨hidle, _⟩ | ⟨_, hstate⟩
      . exact absurd hidle hne
      . rwa [hstate]
    . simp only [countedStages, List.mem_cons, List.not_mem_nil, or_false]
      rcases hresult with hresult | hresult
      . left
        rwa [show (t.pbft.advanceState a msg).1 = .commit from hresult] at htriggers
      . right
        rwa [show (t.pbft.advanceState a msg).1 = .executed from hresult] at htriggers

theorem along_isolates_of_oneView (totalNodes : Int) (windowEnv maxEnv : Option Bytes)
    (voteOf : (key stage voter : Bytes) → P2PMessage) (calls : List (Call C))
    (h : Run.Along step OneView ⟨new C totalNodes windowEnv maxEnv, voteOf⟩ calls)
    : Run.Along step Isolates ⟨new C totalNodes windowEnv maxEnv, voteOf⟩ calls := by
  apply Run.along_of_invariant (I := Uniform) _ _ h
  . intro t call huniform hview
    exact ⟨isolates_of_oneView huniform hview, uniform_step huniform hview⟩
  . intro key hstate
    have hidle : ((new C totalNodes windowEnv maxEnv).roundOf key).state = .idle := by
      simp [new, roundOf]
    contradiction

def viewRun (view : Int) : List (Op .plain) :=
  [
    .registerPeerKey (bytes "A") (bytes "A"),
    .registerPeerKey (bytes "B") (bytes "B"),
    .registerPeerKey (bytes "C") (bytes "C"),
    .advanceState (sampleVote Stage.prePrepare "A" 1),
    .advanceState { sampleVote Stage.prepare "B" 1 with view },
    .advanceState (sampleVote Stage.prepare "A" 2),
    .advanceState (sampleVote Stage.prepare "C" 1)
  ]

theorem along_isolates_oneView
    : let init : Traced .plain := ⟨new .plain 4 none none, fun _ _ _ => sampleVote [] "" 0⟩
      let calls := (viewRun 0).map atZero
      Run.Along step OneView init calls ∧ Run.Along step Isolates init calls := by
  intro init calls
  have h : Run.Along step OneView init calls := by
    refine ⟨oneView_of_ne_advanceState nofun, oneView_of_ne_advanceState nofun,
      oneView_of_ne_advanceState nofun, ?_, ?_, ?_, ?_, trivial⟩
    all_goals
      constructor
      all_goals
        rintro _ ⟨⟩ _ _
        decide +kernel
  exact ⟨h, along_isolates_of_oneView _ _ _ _ _ h⟩

/--
The vote of `B` in the view 1 is rejected, but it stays in the registry and completes the quorum.
-/
theorem not_forall_along_isolates
    : ¬ ∀ calls : List (Call .plain),
        Run.Along step Isolates ⟨new .plain 4 none none, fun _ _ _ => sampleVote [] "" 0⟩ calls := by
  intro h
  have hall := (Run.along_iff_forall _ _ _).mp (h ((viewRun 1).map atZero))
  have hlast := hall (((viewRun 1).take 6).map atZero)
    (atZero (.advanceState (sampleVote Stage.prepare "C" 1))) [] (by simp [viewRun])
  have hcount := hlast.counted _ rfl (by decide +kernel) (bytes "B") (by decide +kernel)
  revert hcount
  decide +kernel

end Traced

end PBFTConsensus
end NeuroMesh
