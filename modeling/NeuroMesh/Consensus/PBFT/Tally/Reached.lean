import NeuroMesh.Consensus.PBFT.Tally.Basic

namespace NeuroMesh
namespace Tally

variable {α : Type} [DecidableEq α]

def senders (ballot : Ballot) (votes : List (Ballot × α)) : Finset α :=
  ((votes.filter (·.1 = ballot)).map (·.2)).toFinset

theorem mem_senders {ballot : Ballot} {votes : List (Ballot × α)} {voter : α}
    : voter ∈ senders ballot votes ↔ (ballot, voter) ∈ votes := by
  unfold senders
  simp

@[simp]
theorem senders_concat (ballot : Ballot) (votes : List (Ballot × α)) (vote : Ballot × α)
    : senders ballot (votes ++ [vote])
        =
      if ballot = vote.1 then insert vote.2 (senders ballot votes) else senders ballot votes := by
  ext voter
  obtain ⟨b, x⟩ := vote
  split
  . next h => simp [mem_senders, h, or_comm]
  . next h => simp [mem_senders, h]

theorem senders_mono {votes votes' : List (Ballot × α)} (h : votes ⊆ votes') (ballot : Ballot)
    : senders ballot votes ⊆ senders ballot votes' := by
  intro voter hmem
  rw [mem_senders] at *
  exact h hmem

theorem senders_perm {votes votes' : List (Ballot × α)} (h : votes.Perm votes') (ballot : Ballot)
    : senders ballot votes = senders ballot votes' := by
  ext voter
  rw [mem_senders, mem_senders, h.mem_iff]

structure Reached (q : Nat) (own : α) (done : List (Ballot × α)) (t : Tally α) : Prop where
  proposers_eq : t.voters .prePrepare = senders .prePrepare done
  prepares_eq : t.voters .prepare
    = if t.state = .idle then senders .prepare done else insert own (senders .prepare done)
  commits_subset : t.voters .commit ⊆ insert own (senders .commit done)
  commits_eq : t.state = .idle ∨ t.state = .prepare → t.voters .commit = senders .commit done
  kept : t.state = .commit → (insert own (senders .commit done)).card < q →
    t.voters .commit = insert own (senders .commit done)
  idle_iff : t.state = .idle ↔ senders .prePrepare done = ∅
  prepared_lt : t.state = .prepare → (t.voters .prepare).card < q
  le_prepared : t.state = .commit ∨ t.state = .executed → q ≤ (t.voters .prepare).card
  executed_le : t.state = .executed → q ≤ (t.voters .prepare ∩ t.voters .commit).card
  state_cases : t.state = .idle ∨ t.state = .prepare ∨ t.state = .commit ∨ t.state = .executed

def Foreign (own : α) (vote : Ballot × α) : Prop :=
  vote.1 ≠ .prePrepare → vote.2 ≠ own

theorem reached_nil (q : Nat) (own : α) : Reached q own [] {} := by
  constructor <;> simp [senders]

theorem reached_tryExecute {q : Nat} {own : α} {done : List (Ballot × α)} {t : Tally α} {voter : α}
    (hproposers : t.voters .prePrepare = senders .prePrepare done)
    (hproposed : senders .prePrepare done ≠ ∅)
    (hprepares : t.voters .prepare = insert own (senders .prepare done))
    (hquorum : q ≤ (t.voters .prepare).card)
    (hcommits : insert voter (t.voters .commit) ⊆ insert own (senders .commit done))
    (hkept : (insert own (senders .commit done)).card < q →
      insert voter (t.voters .commit) = insert own (senders .commit done))
    : Reached q own done (t.tryExecute q voter) := by
  have hsub : t.voters .commit ⊆ insert own (senders .commit done) :=
    (Finset.subset_insert _ _).trans hcommits
  unfold tryExecute
  simp only [voters_record, if_true]
  split
  . next hle =>
    split
    . next hinter =>
      have hinter' := hinter.resolve_left (by simpa [voters_record] using hquorum)
      constructor <;> simp_all [voters_record]
    . have hmany : ¬(insert own (senders .commit done)).card < q := by
        intro hlt
        rw [hkept hlt] at hle
        omega
      constructor <;> simp_all
  . constructor <;> simp_all [voters_record]

theorem reached_record {q : Nat} {own : α} {done : List (Ballot × α)} {t : Tally α}
    {vote : Ballot × α} (h : Reached q own done t)
    (hprepare : vote.1 = .prePrepare → t.state ≠ .idle)
    (hquorum : vote.1 = .prepare → t.state = .prepare → (insert vote.2 (t.voters .prepare)).card < q)
    (hcommit : vote.1 = .commit → t.state ≠ .commit)
    : Reached q own (done ++ [vote]) (t.record vote.1 vote.2) := by
  obtain ⟨ballot, voter⟩ := vote
  cases ballot with
  | prePrepare =>
    have hstate := hprepare rfl
    have hproposed := h.idle_iff
    constructor
    case proposers_eq => simp [voters_record, h.proposers_eq]
    case idle_iff => simp [hstate]
    all_goals simp only [voters_record, state_record, senders_concat, reduceCtorEq, if_false]
    . exact h.prepares_eq
    . exact h.commits_subset
    . exact h.commits_eq
    . exact h.kept
    . exact h.prepared_lt
    . exact h.le_prepared
    . exact h.executed_le
    . exact h.state_cases
  | prepare =>
    have hsub := Finset.subset_insert voter (t.voters .prepare)
    constructor
    case prepares_eq =>
      simp only [voters_record, state_record, senders_concat, if_true]
      rw [h.prepares_eq]
      split
      . rfl
      . rw [Finset.insert_comm]
    case prepared_lt => simpa [voters_record] using hquorum rfl
    case le_prepared =>
      intro hstate
      simp only [voters_record, if_true]
      apply Nat.le_trans (h.le_prepared hstate)
      apply Finset.card_le_card hsub
    case executed_le =>
      intro hstate
      simp only [voters_record, if_true, reduceCtorEq, if_false]
      apply Nat.le_trans (h.executed_le hstate)
      apply Finset.card_le_card
      apply Finset.inter_subset_inter_right hsub
    all_goals simp only [voters_record, state_record, senders_concat, reduceCtorEq, if_false]
    . exact h.proposers_eq
    . exact h.commits_subset
    . exact h.commits_eq
    . exact h.kept
    . exact h.idle_iff
    . exact h.state_cases
  | commit =>
    have hstate := hcommit rfl
    have hsub := Finset.subset_insert voter (t.voters .commit)
    constructor
    case commits_subset =>
      simp only [voters_record, senders_concat, if_true]
      rw [Finset.insert_comm]
      apply Finset.insert_subset_insert
      exact h.commits_subset
    case commits_eq =>
      intro hstate
      simp [voters_record, h.commits_eq hstate]
    case kept =>
      intro hcommit
      exact absurd hcommit hstate
    case executed_le =>
      intro hstate
      simp only [voters_record, if_true, reduceCtorEq, if_false]
      apply Nat.le_trans (h.executed_le hstate)
      apply Finset.card_le_card
      apply Finset.inter_subset_inter_left hsub
    all_goals simp only [voters_record, state_record, senders_concat, reduceCtorEq, if_false]
    . exact h.proposers_eq
    . exact h.prepares_eq
    . exact h.idle_iff
    . exact h.prepared_lt
    . exact h.le_prepared
    . exact h.state_cases

namespace Reached

variable {q : Nat} {own : α} {done : List (Ballot × α)} {t : Tally α} {vote : Ballot × α}

theorem voter_notMem (h : Reached q own done t) (hnew : vote ∉ done) (hforeign : Foreign own vote)
    : vote.2 ∉ t.voters vote.1 := by
  obtain ⟨ballot, voter⟩ := vote
  cases ballot with
  | prePrepare =>
    rw [h.proposers_eq, mem_senders]
    exact hnew
  | prepare =>
    have hne : voter ≠ own := hforeign (by simp)
    rw [h.prepares_eq]
    split
    . rw [mem_senders]
      exact hnew
    . rw [Finset.mem_insert, mem_senders]
      exact not_or_intro hne hnew
  | commit =>
    have hne : voter ≠ own := hforeign (by simp)
    intro hmem
    have := h.commits_subset hmem
    rw [Finset.mem_insert, mem_senders] at this
    exact not_or_intro hne hnew this

theorem handed (h : Reached q own done t) (hown : ∀ v ∈ done, Foreign own v) (vote : Ballot × α)
    : Handed q own t vote (t.hand q own vote) := by
  apply hand_cases
  . intro hstate
    rw [h.prepares_eq, if_pos hstate, mem_senders]
    intro hmem
    exact hown _ hmem (by simp) rfl
  . intro hstate
    rw [h.commits_eq hstate, mem_senders]
    intro hmem
    exact hown _ hmem (by simp) rfl

end Reached

theorem reached_hand {q : Nat} {own : α} {done : List (Ballot × α)} {t : Tally α}
    {vote : Ballot × α} (h : Reached q own done t) (hnew : vote ∉ done)
    (hown : ∀ v ∈ done, Foreign own v) (hforeign : Foreign own vote)
    : Reached q own (done ++ [vote]) (t.hand q own vote) := by
  have hfresh := h.voter_notMem hnew hforeign
  have hcases := h.handed hown vote
  generalize t.hand q own vote = t' at *
  cases hcases with
  | repeated hvoted => contradiction
  | counted _ hprepare hquorum hcommit => exact reached_record h hprepare hquorum hcommit
  | prepared _ hstate hquorum =>
    have hprepares := h.prepares_eq
    rw [if_pos hstate] at hprepares
    have hcommits := h.commits_eq (.inl hstate)
    constructor <;> simp_all [voters_record, h.proposers_eq]
  | preparedAll _ hstate hquorum =>
    have hprepares := h.prepares_eq
    rw [if_pos hstate] at hprepares
    have hcommits := h.commits_eq (.inl hstate)
    apply reached_tryExecute <;> simp_all [voters_record, h.proposers_eq]
  | committed _ hstate hquorum =>
    have hproposed := h.idle_iff
    have hprepares := h.prepares_eq
    have hcommits := h.commits_eq (.inr hstate)
    apply reached_tryExecute <;> simp_all [voters_record, h.proposers_eq, Finset.insert_comm]
  | tried _ hstate =>
    have hproposed := h.idle_iff
    have hprepares := h.prepares_eq
    have hquorum := h.le_prepared (.inl hstate)
    apply reached_tryExecute
    . simp [h.proposers_eq]
    . simp_all
    . simp_all
    . exact hquorum
    . simpa [Finset.insert_comm] using Finset.insert_subset_insert _ h.commits_subset
    . intro hlt
      have hle : (insert own (senders .commit done)).card < q := by
        apply Nat.lt_of_le_of_lt _ hlt
        apply Finset.card_le_card
        simp
      simp [h.kept hstate hle, Finset.insert_comm]

theorem run_concat (q : Nat) (own : α) (votes : List (Ballot × α)) (vote : Ballot × α)
    : run q own (votes ++ [vote]) = (run q own votes).hand q own vote := by
  unfold run
  rw [List.foldl_append]
  rfl

theorem run_append (q : Nat) (own : α) (votes votes' : List (Ballot × α))
    : run q own (votes ++ votes') = votes'.foldl (hand q own) (run q own votes) := by
  unfold run
  rw [List.foldl_append]

structure Admissible (own : α) (votes : List (Ballot × α)) : Prop where
  nodup : votes.Nodup
  foreign : ∀ vote ∈ votes, Foreign own vote

omit [DecidableEq α] in
theorem Admissible.initial {own : α} {votes votes' : List (Ballot × α)} (h : Admissible own votes)
    (hinitial : votes' <+: votes)
    : Admissible own votes' := by
  constructor
  . exact h.nodup.sublist hinitial.sublist
  . intro vote hvote
    apply h.foreign
    exact hinitial.mem hvote

theorem reached_run {own : α} {votes : List (Ballot × α)} (h : Admissible own votes) (q : Nat)
    : Reached q own votes (run q own votes) := by
  induction votes using List.reverseRecOn with
  | nil => exact reached_nil q own
  | append_singleton votes vote ih =>
    have hnodup := List.nodup_append'.mp h.nodup
    rw [run_concat]
    apply reached_hand
    . apply ih
      apply h.initial
      apply List.prefix_append
    . intro hmem
      exact hnodup.2.2 hmem (by simp)
    . intro vote hvote
      apply h.foreign
      simp [hvote]
    . apply h.foreign
      simp

theorem state_tryExecute (q : Nat) (t : Tally α) (voter : α)
    : (t.tryExecute q voter).state
        =
      if q ≤ (insert voter (t.voters .commit)).card ∧ (t.record .commit voter).Intersects q then
        .executed
      else
        .commit := by
  unfold tryExecute
  simp only [voters_record, if_true]
  split
  . next hle =>
    split
    . next hinter => simp [hle, hinter]
    . next hinter => simp [hinter]
  . next hlt => simp [hlt]

def Compatible (q : Nat) (own : α) (votes : List (Ballot × α)) : Prop :=
  q ≤ (insert own (senders .prepare votes)).card →
  q ≤ (insert own (senders .commit votes)).card →
    q ≤ (insert own (senders .prepare votes) ∩ insert own (senders .commit votes)).card

theorem card_lt_of_tryExecute {q : Nat} {own voter : α} {votes : List (Ballot × α)} {t : Tally α}
    (hcompat : Compatible q own votes)
    (hprepares : t.voters .prepare = insert own (senders .prepare votes))
    (hquorum : q ≤ (t.voters .prepare).card)
    (hcommits : insert voter (t.voters .commit) = insert own (senders .commit votes))
    (hstate : (t.tryExecute q voter).state = .commit)
    : (insert own (senders .commit votes)).card < q := by
  by_contra! hle
  rw [hprepares] at hquorum
  have hinter : (t.record .commit voter).Intersects q := by
    right
    simp only [voters_record, reduceCtorEq, if_true, if_false]
    rw [hprepares, hcommits]
    exact hcompat hquorum hle
  rw [state_tryExecute, hcommits, if_pos ⟨hle, hinter⟩] at hstate
  contradiction

theorem card_lt_of_hand {q : Nat} {own : α} {done : List (Ballot × α)} {t : Tally α}
    {vote : Ballot × α} (h : Reached q own done t) (hnew : vote ∉ done)
    (hown : ∀ v ∈ done, Foreign own v) (hforeign : Foreign own vote)
    (hlt : t.state = .commit → (insert own (senders .commit done)).card < q)
    (hcompat : Compatible q own (done ++ [vote])) (hstate : (t.hand q own vote).state = .commit)
    : (insert own (senders .commit (done ++ [vote]))).card < q := by
  have hfresh := h.voter_notMem hnew hforeign
  have hcases := h.handed hown vote
  generalize t.hand q own vote = t' at *
  cases hcases with
  | repeated hvoted => contradiction
  | counted _ _ _ hcommit =>
    have hballot : ¬Ballot.commit = vote.1 := by
      intro heq
      exact hcommit heq.symm hstate
    rw [senders_concat, if_neg hballot]
    exact hlt hstate
  | prepared => contradiction
  | preparedAll _ hidle hquorum =>
    apply card_lt_of_tryExecute hcompat _ _ _ hstate
    . simp [voters_record, h.prepares_eq, hidle]
    . simpa [voters_record] using hquorum
    . simp [voters_record, h.commits_eq (.inl hidle)]
  | committed _ hprepared hquorum =>
    apply card_lt_of_tryExecute hcompat _ _ _ hstate
    . simp [voters_record, h.prepares_eq, hprepared, Finset.insert_comm]
    . simpa [voters_record] using hquorum
    . simp [voters_record, h.commits_eq (.inr hprepared)]
  | tried _ hcommitted =>
    apply card_lt_of_tryExecute hcompat _ _ _ hstate
    . simp [h.prepares_eq, hcommitted]
    . exact h.le_prepared (.inl hcommitted)
    . simp [h.kept hcommitted (hlt hcommitted), Finset.insert_comm]

theorem card_lt_of_commit {q : Nat} {own : α} {votes : List (Ballot × α)} (h : Admissible own votes)
    (hcompat : ∀ votes', votes' <+: votes → Compatible q own votes')
    (hstate : (run q own votes).state = .commit)
    : (insert own (senders .commit votes)).card < q := by
  induction votes using List.reverseRecOn with
  | nil => simp [run] at hstate
  | append_singleton votes vote ih =>
    have hinitial : votes <+: votes ++ [vote] := List.prefix_append votes [vote]
    have hnodup := List.nodup_append'.mp h.nodup
    have hdone := h.initial hinitial
    rw [run_concat] at hstate
    apply card_lt_of_hand (reached_run hdone q) _ hdone.foreign _ _ _ hstate
    . intro hmem
      exact hnodup.2.2 hmem (by simp)
    . apply h.foreign
      simp
    . apply ih hdone
      intro votes' hvotes'
      apply hcompat
      exact hvotes'.trans hinitial
    . apply hcompat
      exact List.prefix_refl _

theorem state_run_eq_executed {q : Nat} {own : α} {votes : List (Ballot × α)}
    (h : Admissible own votes) (hproposed : senders .prePrepare votes ≠ ∅)
    (hcompat : ∀ votes', votes' <+: votes → Compatible q own votes')
    (hprepares : q ≤ (insert own (senders .prepare votes)).card)
    (hcommits : q ≤ (insert own (senders .commit votes)).card)
    : (run q own votes).state = .executed := by
  have hreached := reached_run h q
  have hidle : (run q own votes).state ≠ .idle := by
    rw [ne_eq, hreached.idle_iff]
    exact hproposed
  rcases hreached.state_cases with hstate | hstate | hstate | hstate
  . contradiction
  . have hlt := hreached.prepared_lt hstate
    rw [hreached.prepares_eq, if_neg hidle] at hlt
    omega
  . have hlt := card_lt_of_commit h hcompat hstate
    omega
  . exact hstate

theorem state_hand_of_executed {q : Nat} {own : α} {t : Tally α} (h : t.state = .executed)
    (vote : Ballot × α)
    : (t.hand q own vote).state = .executed := by
  have hcases : Handed q own t vote (t.hand q own vote) :=
    hand_cases vote (by simp [h]) (by simp [h])
  generalize t.hand q own vote = t' at *
  cases hcases with
  | repeated => exact h
  | counted => exact h
  | prepared _ hstate => simp [h] at hstate
  | preparedAll _ hstate => simp [h] at hstate
  | committed _ hstate => simp [h] at hstate
  | tried _ hstate => simp [h] at hstate

theorem state_foldl_hand_of_executed {q : Nat} {own : α} {t : Tally α} (h : t.state = .executed)
    (votes : List (Ballot × α))
    : (votes.foldl (hand q own) t).state = .executed := by
  induction votes generalizing t with
  | nil => exact h
  | cons vote votes ih =>
    rw [List.foldl_cons]
    apply ih
    apply state_hand_of_executed h

theorem state_run_of_lt {q : Nat} {own : α} {votes : List (Ballot × α)}
    (h : Admissible own votes) (hproposed : senders .prePrepare votes ≠ ∅)
    (hlt : (senders .prepare votes ∩ senders .commit votes).card + 1 < q)
    : (run q own votes).state
        =
      if (insert own (senders .prepare votes)).card < q then .prepare else .commit := by
  have hreached := reached_run h q
  have hidle : (run q own votes).state ≠ .idle := by
    rw [ne_eq, hreached.idle_iff]
    exact hproposed
  have hprepares := hreached.prepares_eq
  rw [if_neg hidle] at hprepares
  rcases hreached.state_cases with hstate | hstate | hstate | hstate
  . contradiction
  . have := hreached.prepared_lt hstate
    rw [hprepares] at this
    rw [if_pos this]
    exact hstate
  . have := hreached.le_prepared (.inl hstate)
    rw [hprepares] at this
    rw [if_neg (by omega)]
    exact hstate
  . have hle := hreached.executed_le hstate
    have hsub : (run q own votes).voters .prepare ∩ (run q own votes).voters .commit
        ⊆ insert own (senders .prepare votes ∩ senders .commit votes) := by
      rw [hprepares, Finset.insert_inter_distrib]
      exact Finset.inter_subset_inter_left hreached.commits_subset
    have := (Finset.card_le_card hsub).trans (Finset.card_insert_le _ _)
    omega

end Tally
end NeuroMesh
