import NeuroMesh.Consensus.PBFT.Basic

/-!
This module contains the abstract model of a consensus round at a node: who voted for what, how far the
round got, and the votes that the node answers with. There is no time, no signature and no message, and
the voters are of an arbitrary type.
-/

namespace NeuroMesh

inductive Ballot where
  | prePrepare
  | prepare
  | commit
  deriving DecidableEq

structure Tally (α : Type) where
  state : PBFTStage := .idle
  voters : Ballot → Finset α := fun _ => ∅

namespace Tally

variable {α : Type} [DecidableEq α]

def record (t : Tally α) (ballot : Ballot) (voter : α) : Tally α :=
  { t with voters := Function.update t.voters ballot (insert voter (t.voters ballot)) }

def Intersects (q : Nat) (t : Tally α) : Prop :=
  (t.voters .prepare).card < q ∨ q ≤ (t.voters .prepare ∩ t.voters .commit).card

instance (q : Nat) (t : Tally α) : Decidable (t.Intersects q) :=
  inferInstanceAs (Decidable (_ ∨ _))

def cast (q : Nat) (t : Tally α) (ballot : Ballot) (voter : α) : PBFTStage × Tally α :=
  if voter ∈ t.voters ballot then
    (.idle, t)
  else
    let t' := t.record ballot voter
    match ballot, t.state with
    | .prePrepare, .idle => (.prepare, { t' with state := .prepare })
    | .prepare, .prepare =>
      if q ≤ (t'.voters .prepare).card then
        (.commit, { t' with state := .commit })
      else
        (.idle, t')
    | .commit, .commit =>
      if q ≤ (t'.voters .commit).card then
        if t'.Intersects q then (.executed, { t' with state := .executed }) else (.idle, t)
      else
        (.idle, t')
    | _, _ => (.idle, t')

def answer (q : Nat) (own : α) (t : Tally α) (next : PBFTStage) : Tally α :=
  match next with
  | .prepare =>
    let (next, t) := t.cast q .prepare own
    match next with
    | .commit => (t.cast q .commit own).2
    | _ => t
  | .commit => (t.cast q .commit own).2
  | _ => t

def hand (q : Nat) (own : α) (t : Tally α) (vote : Ballot × α) : Tally α :=
  let (next, t) := t.cast q vote.1 vote.2
  t.answer q own next

def run (q : Nat) (own : α) (votes : List (Ballot × α)) : Tally α :=
  votes.foldl (hand q own) {}

@[simp]
theorem state_record (t : Tally α) (ballot : Ballot) (voter : α)
    : (t.record ballot voter).state = t.state := by
  rfl

theorem voters_record (t : Tally α) (ballot : Ballot) (voter : α) (ballot' : Ballot)
    : (t.record ballot voter).voters ballot'
        =
      if ballot' = ballot then insert voter (t.voters ballot) else t.voters ballot' := by
  unfold record
  simp only [Function.update_apply]

def tryExecute (q : Nat) (t : Tally α) (voter : α) : Tally α :=
  let t' := t.record .commit voter
  if q ≤ (t'.voters .commit).card then
    if t'.Intersects q then { t' with state := .executed } else { t with state := .commit }
  else
    { t' with state := .commit }

section Cast

variable {q : Nat} {t : Tally α} {voter : α}

theorem cast_prePrepare_idle (hstate : t.state = .idle) (hnew : voter ∉ t.voters .prePrepare)
    : t.cast q .prePrepare voter
        =
      (.prepare, { t.record .prePrepare voter with state := .prepare }) := by
  unfold cast
  simp only [hnew, hstate, if_false]

theorem cast_prepare_of_le (hstate : t.state = .prepare) (hnew : voter ∉ t.voters .prepare)
    (hquorum : q ≤ (insert voter (t.voters .prepare)).card)
    : t.cast q .prepare voter = (.commit, { t.record .prepare voter with state := .commit }) := by
  unfold cast
  simp only [hnew, hstate, voters_record, hquorum, if_true, if_false]

theorem cast_prepare_of_lt (hstate : t.state = .prepare) (hnew : voter ∉ t.voters .prepare)
    (hquorum : (insert voter (t.voters .prepare)).card < q)
    : t.cast q .prepare voter = (.idle, t.record .prepare voter) := by
  unfold cast
  simp only [hnew, hstate, voters_record, Nat.not_le.mpr hquorum, if_true, if_false]

theorem snd_cast_commit (hstate : t.state = .commit) (hnew : voter ∉ t.voters .commit)
    : (t.cast q .commit voter).2 = t.tryExecute q voter := by
  unfold cast tryExecute
  simp only [hnew, hstate, if_false]
  split
  . split
    . rfl
    . rw [← hstate]
  . rw [← hstate]
    rfl

theorem cast_of_no_transition {ballot : Ballot} (hnew : voter ∉ t.voters ballot)
    (hprepare : ballot = .prePrepare → t.state ≠ .idle)
    (hcommit : ballot = .prepare → t.state ≠ .prepare)
    (hexecute : ballot = .commit → t.state ≠ .commit)
    : t.cast q ballot voter = (.idle, t.record ballot voter) := by
  unfold cast
  rw [if_neg hnew]
  dsimp
  split
  . next hstate => exact absurd hstate (hprepare rfl)
  . next hstate => exact absurd hstate (hcommit rfl)
  . next hstate => exact absurd hstate (hexecute rfl)
  . rfl

theorem cast_cases (ballot : Ballot)
    : (t.cast q ballot voter).1 = .idle ∧ (t.cast q ballot voter).2.state = t.state
        ∨
      ballot = .prePrepare ∧ t.state = .idle ∧ (t.cast q ballot voter).1 = .prepare
        ∧ (t.cast q ballot voter).2.state = .prepare
        ∨
      ballot = .prepare ∧ t.state = .prepare ∧ (t.cast q ballot voter).1 = .commit
        ∧ (t.cast q ballot voter).2.state = .commit
        ∨
      ballot = .commit ∧ t.state = .commit ∧ (t.cast q ballot voter).1 = .executed
        ∧ (t.cast q ballot voter).2.state = .executed := by
  unfold cast
  split
  . simp
  . dsimp
    split
    . next hstate _ => simp [hstate]
    . next hstate _ => split <;> simp [hstate]
    . next hstate _ =>
      split
      . split <;> simp [hstate]
      . simp [hstate]
    . simp

theorem answer_fst_cast_commit (own : α)
    : (t.cast q .commit voter).2.answer q own (t.cast q .commit voter).1
        =
      (t.cast q .commit voter).2 := by
  unfold cast
  split
  . rfl
  . dsimp
    split <;> try contradiction
    . split
      . split <;> rfl
      . rfl
    . rfl

end Cast

inductive Handed (q : Nat) (own : α) (t : Tally α) : Ballot × α → Tally α → Prop where
  | repeated {vote : Ballot × α} (hvoted : vote.2 ∈ t.voters vote.1) : Handed q own t vote t
  | counted {vote : Ballot × α} (hnew : vote.2 ∉ t.voters vote.1)
      (hprepare : vote.1 = .prePrepare → t.state ≠ .idle)
      (hquorum : vote.1 = .prepare → t.state = .prepare →
        (insert vote.2 (t.voters .prepare)).card < q)
      (hcommit : vote.1 = .commit → t.state ≠ .commit) :
    Handed q own t vote (t.record vote.1 vote.2)
  | prepared {voter : α} (hnew : voter ∉ t.voters .prePrepare) (hstate : t.state = .idle)
      (hquorum : (insert own (t.voters .prepare)).card < q) :
    Handed q own t (.prePrepare, voter)
      { (t.record .prePrepare voter).record .prepare own with state := .prepare }
  | preparedAll {voter : α} (hnew : voter ∉ t.voters .prePrepare) (hstate : t.state = .idle)
      (hquorum : q ≤ (insert own (t.voters .prepare)).card) :
    Handed q own t (.prePrepare, voter)
      (((t.record .prePrepare voter).record .prepare own).tryExecute q own)
  | committed {voter : α} (hnew : voter ∉ t.voters .prepare) (hstate : t.state = .prepare)
      (hquorum : q ≤ (insert voter (t.voters .prepare)).card) :
    Handed q own t (.prepare, voter) ((t.record .prepare voter).tryExecute q own)
  | tried {voter : α} (hnew : voter ∉ t.voters .commit) (hstate : t.state = .commit) :
    Handed q own t (.commit, voter) (t.tryExecute q voter)

theorem hand_cases {q : Nat} {own : α} {t : Tally α} (vote : Ballot × α)
    (hprepare : t.state = .idle → own ∉ t.voters .prepare)
    (hcommit : t.state = .idle ∨ t.state = .prepare → own ∉ t.voters .commit)
    : Handed q own t vote (t.hand q own vote) := by
  obtain ⟨ballot, voter⟩ := vote
  unfold hand
  dsimp
  by_cases hnew : voter ∈ t.voters ballot
  . simp only [cast, hnew, if_true, answer]
    apply Handed.repeated hnew
  . by_cases hidle : ballot = .prePrepare ∧ t.state = .idle
    . obtain ⟨rfl, hstate⟩ := hidle
      have hown : own ∉ t.voters .prepare := hprepare hstate
      have hown' : own ∉ t.voters .commit := hcommit (.inl hstate)
      rw [cast_prePrepare_idle hstate hnew]
      unfold answer
      dsimp
      by_cases hquorum : q ≤ (insert own (t.voters .prepare)).card
      . rw [cast_prepare_of_le (t := { t.record .prePrepare voter with state := .prepare }) rfl hown
          hquorum]
        dsimp
        convert Handed.preparedAll hnew hstate hquorum using 1
        apply snd_cast_commit
        . rfl
        . exact hown'
      . rw [Nat.not_le] at hquorum
        rw [cast_prepare_of_lt (t := { t.record .prePrepare voter with state := .prepare }) rfl hown
          hquorum]
        apply Handed.prepared hnew hstate hquorum
    . by_cases hprepared : ballot = .prepare ∧ t.state = .prepare
      . obtain ⟨rfl, hstate⟩ := hprepared
        have hown : own ∉ t.voters .commit := hcommit (.inr hstate)
        by_cases hquorum : q ≤ (insert voter (t.voters .prepare)).card
        . rw [cast_prepare_of_le hstate hnew hquorum]
          unfold answer
          dsimp
          convert Handed.committed hnew hstate hquorum using 1
          apply snd_cast_commit
          . rfl
          . exact hown
        . rw [Nat.not_le] at hquorum
          rw [cast_prepare_of_lt hstate hnew hquorum]
          apply Handed.counted hnew
          . simp
          . intro _ _
            exact hquorum
          . simp
      . by_cases hcommitted : ballot = .commit ∧ t.state = .commit
        . obtain ⟨rfl, hstate⟩ := hcommitted
          rw [answer_fst_cast_commit, snd_cast_commit hstate hnew]
          apply Handed.tried hnew hstate
        . rw [not_and] at hidle hprepared hcommitted
          rw [cast_of_no_transition hnew hidle hprepared hcommitted]
          apply Handed.counted hnew hidle
          . intro hballot hstate
            exact absurd hstate (hprepared hballot)
          . exact hcommitted

end Tally
end NeuroMesh
