import NeuroMesh.Consensus.PBFT.Tally.Reached
import NeuroMesh.Data.Bucket

namespace NeuroMesh
namespace Tally

variable {α : Type} [DecidableEq α] {q : Nat} {own : α} {votes : List (Ballot × α)}

omit [DecidableEq α] in
theorem Admissible.perm (h : Admissible own votes) {order : List (Ballot × α)}
    (hperm : order.Perm votes)
    : Admissible own order := by
  constructor
  . exact hperm.nodup_iff.mpr h.nodup
  . intro vote hvote
    exact h.foreign vote (hperm.mem_iff.mp hvote)

omit [DecidableEq α] in
theorem Admissible.sort (h : Admissible own votes) (bucket : Ballot × α → Nat) (n : Nat)
    : Admissible own (Bucket.sort bucket n votes) := by
  constructor
  . rw [(Bucket.sort_perm_filter bucket n votes).nodup_iff]
    exact h.nodup.filter _
  . intro vote hvote
    rw [Bucket.mem_sort] at hvote
    exact h.foreign vote hvote.1

theorem own_notMem_prepares (h : Admissible own votes) : own ∉ senders .prepare votes := by
  rw [mem_senders]
  intro hmem
  exact h.foreign _ hmem (by simp) rfl

theorem own_notMem_commits (h : Admissible own votes) : own ∉ senders .commit votes := by
  rw [mem_senders]
  intro hmem
  exact h.foreign _ hmem (by simp) rfl

section Executing

def executingBucket (votes : List (Ballot × α)) (vote : Ballot × α) : Nat :=
  match vote.1 with
  | .prepare => 0
  | .prePrepare => 1
  | .commit => if vote.2 ∈ senders .prepare votes then 2 else 3

theorem executingBucket_lt (votes : List (Ballot × α)) (vote : Ballot × α)
    : executingBucket votes vote < 4 := by
  unfold executingBucket
  split
  . omega
  . omega
  . split <;> omega

def executingOrder (votes : List (Ballot × α)) : List (Ballot × α) :=
  Bucket.sort (executingBucket votes) 4 votes

theorem executingOrder_perm (votes : List (Ballot × α)) : (executingOrder votes).Perm votes := by
  apply Bucket.sort_perm
  intro vote _
  apply executingBucket_lt

theorem compatible_executingOrder (hq : 2 ≤ q) {order : List (Ballot × α)}
    (hinitial : order <+: Bucket.sort (executingBucket votes) 3 votes)
    : Compatible q own order := by
  intro _ hcommits
  have htwo : Bucket.sort (executingBucket votes) 2 votes
      <+: Bucket.sort (executingBucket votes) 3 votes := by
    rw [Bucket.sort_succ _ 2]
    apply List.prefix_append
  cases List.prefix_or_prefix_of_prefix hinitial htwo with
  | inl hbefore =>
    -- nobody has voted to commit yet
    have hnone : senders .commit order = ∅ := by
      rw [Finset.eq_empty_iff_forall_notMem]
      intro voter hvoter
      have hmem := senders_mono hbefore.subset .commit hvoter
      rw [mem_senders, Bucket.mem_sort] at hmem
      unfold executingBucket at hmem
      grind
    simp [hnone] at hcommits
    omega
  | inr hafter =>
    have hsub : senders .commit order ⊆ senders .prepare order := by
      intro voter hvoter
      have hmem := senders_mono hinitial.subset .commit hvoter
      apply senders_mono hafter.subset .prepare
      rw [mem_senders, Bucket.mem_sort] at hmem ⊢
      unfold executingBucket at *
      grind [mem_senders]
    rwa [Finset.inter_eq_right.mpr (Finset.insert_subset_insert own hsub)]

theorem state_run_executingOrder (h : Admissible own votes) (hq : 2 ≤ q)
    (hproposed : senders .prePrepare votes ≠ ∅)
    (hle : q ≤ (senders .prepare votes ∩ senders .commit votes).card + 1)
    : (run q own (executingOrder votes)).state = .executed := by
  have hadmissible := h.perm (executingOrder_perm votes)
  have hprepares := own_notMem_prepares h
  unfold executingOrder at *
  rw [Bucket.sort_succ] at *
  rw [run_append]
  apply state_foldl_hand_of_executed
  apply state_run_eq_executed
  . apply hadmissible.initial
    apply List.prefix_append
  . have heq : senders .prePrepare (Bucket.sort (executingBucket votes) 3 votes)
        = senders .prePrepare votes := by
      ext voter
      simp [mem_senders, Bucket.mem_sort, executingBucket]
    rwa [heq]
  . intro order hinitial
    exact compatible_executingOrder hq hinitial
  . have heq : senders .prepare (Bucket.sort (executingBucket votes) 3 votes)
        = senders .prepare votes := by
      ext voter
      simp [mem_senders, Bucket.mem_sort, executingBucket]
    rw [heq, Finset.card_insert_of_notMem hprepares]
    have hsub : senders .prepare votes ∩ senders .commit votes ⊆ senders .prepare votes :=
      Finset.inter_subset_left
    have := Finset.card_le_card hsub
    omega
  . have heq : senders .commit (Bucket.sort (executingBucket votes) 3 votes)
        = senders .prepare votes ∩ senders .commit votes := by
      ext voter
      rw [mem_senders, Bucket.mem_sort, Finset.mem_inter, ← mem_senders]
      unfold executingBucket
      grind
    rw [heq, Finset.card_insert_of_notMem (by simp [hprepares])]
    exact hle

end Executing

section Stuck

variable {prepares commits : Finset α}

def stuckBucket (prepares commits : Finset α) (vote : Ballot × α) : Nat :=
  match vote.1 with
  | .commit => if vote.2 ∈ commits then 0 else 3
  | .prePrepare => 1
  | .prepare => if vote.2 ∈ prepares then 2 else 4

def stuckOrder (prepares commits : Finset α) (votes : List (Ballot × α)) : List (Ballot × α) :=
  Bucket.sort (stuckBucket prepares commits) 5 votes

theorem stuckOrder_perm (prepares commits : Finset α) (votes : List (Ballot × α))
    : (stuckOrder prepares commits votes).Perm votes := by
  apply Bucket.sort_perm
  intro vote _
  unfold stuckBucket
  grind

structure Losing (prepares commits : Finset α) (own : α) (t : Tally α) : Prop where
  commits_eq : t.voters .commit = commits
  prepares_subset : t.voters .prepare ⊆ insert own prepares
  state_cases : t.state = .prepare ∨ t.state = .commit

theorem losing_hand (hown : own ∉ commits) (hcommits : q ≤ (insert own commits).card)
    (hlt : (prepares ∩ commits).card + 1 < q) {t : Tally α} {voter : α} (hvoter : voter ∈ prepares)
    (h : Losing prepares commits own t)
    : Losing prepares commits own (t.hand q own (.prepare, voter)) := by
  have hsub : insert voter (t.voters .prepare) ⊆ insert own prepares := by
    apply Finset.insert_subset _ h.prepares_subset
    simp [hvoter]
  have hcases : Handed q own t (.prepare, voter) (t.hand q own (.prepare, voter)) := by
    apply hand_cases
    . intro hidle
      rcases h.state_cases with hstate | hstate
      all_goals simp [hstate] at hidle
    . intro _
      rwa [h.commits_eq]
  generalize t.hand q own (.prepare, voter) = t' at *
  cases hcases with
  | repeated => exact h
  | counted =>
    constructor
    . simpa [voters_record] using h.commits_eq
    . simpa [voters_record] using hsub
    . exact h.state_cases
  | committed _ _ hquorum =>
    have hlost : ¬((t.record .prepare voter).record .commit own).Intersects q := by
      unfold Intersects
      simp only [voters_record, reduceCtorEq, if_true, if_false, h.commits_eq]
      have hinter : insert voter (t.voters .prepare) ∩ insert own commits
          ⊆ insert own (prepares ∩ commits) := by
        rw [Finset.insert_inter_distrib]
        exact Finset.inter_subset_inter_right hsub
      have := (Finset.card_le_card hinter).trans (Finset.card_insert_le _ _)
      omega
    have hquorum' : q ≤ (((t.record .prepare voter).record .commit own).voters .commit).card := by
      simpa [voters_record, h.commits_eq] using hcommits
    unfold tryExecute
    simp only [hquorum', hlost, if_true, if_false]
    constructor
    . simpa [voters_record] using h.commits_eq
    . simpa [voters_record] using hsub
    . simp

structure Lost (q : Nat) (own : α) (t : Tally α) : Prop where
  own_notMem : own ∉ t.voters .commit
  card_eq : (t.voters .prepare).card = q
  own_mem : own ∈ t.voters .prepare
  state_eq : t.state = .commit

theorem lost_hand {t : Tally α} {voter : α} (hvoter : voter ≠ own) (h : Lost q own t)
    : Lost q own (t.hand q own (.commit, voter)) := by
  have hstate := h.state_eq
  have hcases : Handed q own t (.commit, voter) (t.hand q own (.commit, voter)) := by
    apply hand_cases
    . simp [hstate]
    . simp [hstate]
  generalize t.hand q own (.commit, voter) = t' at *
  cases hcases with
  | repeated => exact h
  | counted _ _ _ hcommit => exact absurd hstate (hcommit rfl)
  | tried =>
    have hown : own ∉ insert voter (t.voters .commit) := by
      simp [h.own_notMem, hvoter.symm]
    have hlost : ¬(t.record .commit voter).Intersects q := by
      unfold Intersects
      simp only [voters_record, reduceCtorEq, if_true, if_false, h.card_eq, Nat.lt_irrefl, false_or,
        Nat.not_le]
      rw [← h.card_eq]
      apply Finset.card_lt_card
      rw [Finset.ssubset_iff_of_subset Finset.inter_subset_left]
      refine ⟨own, h.own_mem, ?_⟩
      rw [Finset.mem_inter, not_and]
      intro _
      exact hown
    unfold tryExecute
    simp only [hlost, if_false]
    split
    . exact ⟨h.own_notMem, h.card_eq, h.own_mem, rfl⟩
    . constructor
      . simpa [voters_record] using hown
      . simpa [voters_record] using h.card_eq
      . simpa [voters_record] using h.own_mem
      . rfl

theorem state_hand_prepare_of_commit {t : Tally α} (h : t.state = .commit) (voter : α)
    : (t.hand q own (.prepare, voter)).state = .commit := by
  have hcases : Handed q own t (.prepare, voter) (t.hand q own (.prepare, voter)) := by
    apply hand_cases
    . simp [h]
    . simp [h]
  generalize t.hand q own (.prepare, voter) = t' at *
  cases hcases with
  | repeated => exact h
  | counted => exact h
  | committed _ hstate => simp [h] at hstate

theorem senders_sort_proposers (prepares commits : Finset α) (votes : List (Ballot × α)) {n : Nat}
    (hn : 2 ≤ n)
    : senders .prePrepare (Bucket.sort (stuckBucket prepares commits) n votes)
        =
      senders .prePrepare votes := by
  ext voter
  rw [mem_senders, mem_senders, Bucket.mem_sort]
  unfold stuckBucket
  grind

variable (h : Admissible own votes) (hproposed : senders .prePrepare votes ≠ ∅)
  (hcommits : commits ⊆ senders .commit votes) (hcard : prepares.card + 1 = q)
  (hlt : (prepares ∩ commits).card + 1 < q)
include h hproposed hcommits hcard hlt

theorem losing_run_stuckOrder
    : Losing prepares commits own
        (run q own (Bucket.sort (stuckBucket prepares commits) 2 votes)) := by
  have hreached := reached_run (h.sort (stuckBucket prepares commits) 2) q
  have hidle : (run q own (Bucket.sort (stuckBucket prepares commits) 2 votes)).state ≠ .idle := by
    rw [ne_eq, hreached.idle_iff, senders_sort_proposers _ _ _ (by omega)]
    exact hproposed
  have hnone : senders .prepare (Bucket.sort (stuckBucket prepares commits) 2 votes) = ∅ := by
    rw [Finset.eq_empty_iff_forall_notMem]
    intro voter hvoter
    rw [mem_senders, Bucket.mem_sort] at hvoter
    unfold stuckBucket at hvoter
    grind
  have hsome : senders .commit (Bucket.sort (stuckBucket prepares commits) 2 votes) = commits := by
    ext voter
    have := @hcommits voter
    rw [mem_senders] at this ⊢
    rw [Bucket.mem_sort]
    unfold stuckBucket
    grind
  have hone := hreached.prepares_eq
  rw [if_neg hidle, hnone] at hone
  have hstate : (run q own (Bucket.sort (stuckBucket prepares commits) 2 votes)).state = .prepare := by
    have hle := hreached.le_prepared
    rw [hone] at hle
    simp only [insert_empty_eq, Finset.card_singleton] at hle
    rcases hreached.state_cases with hstate | hstate | hstate | hstate
    . contradiction
    . exact hstate
    . have := hle (.inl hstate)
      omega
    . have := hle (.inr hstate)
      omega
  constructor
  . rw [hreached.commits_eq (.inr hstate), hsome]
  . rw [hone]
    simp
  . exact .inl hstate

variable (hprepares : prepares ⊆ senders .prepare votes) (hearly : q ≤ commits.card + 1)
include hprepares hearly

theorem lost_run_stuckOrder
    : Lost q own (run q own (Bucket.sort (stuckBucket prepares commits) 3 votes)) := by
  have hown : own ∉ prepares := fun hmem => own_notMem_prepares h (hprepares hmem)
  have hown' : own ∉ commits := fun hmem => own_notMem_commits h (hcommits hmem)
  have hlosing : Losing prepares commits own
      (run q own (Bucket.sort (stuckBucket prepares commits) 3 votes)) := by
    rw [Bucket.sort_succ, run_append]
    apply List.foldlRecOn
    . exact losing_run_stuckOrder h hproposed hcommits hcard hlt
    . intro t ht vote hvote
      obtain ⟨ballot, voter⟩ := vote
      have hvote' : ballot = .prepare ∧ voter ∈ prepares := by
        rw [List.mem_filter] at hvote
        unfold stuckBucket at hvote
        grind
      rw [hvote'.1]
      apply losing_hand hown' _ hlt hvote'.2 ht
      rw [Finset.card_insert_of_notMem hown']
      exact hearly
  have hreached := reached_run (h.sort (stuckBucket prepares commits) 3) q
  have hidle : (run q own (Bucket.sort (stuckBucket prepares commits) 3 votes)).state ≠ .idle := by
    rw [ne_eq, hreached.idle_iff, senders_sort_proposers _ _ _ (by omega)]
    exact hproposed
  have hall : senders .prepare (Bucket.sort (stuckBucket prepares commits) 3 votes) = prepares := by
    ext voter
    have := @hprepares voter
    rw [mem_senders] at this ⊢
    rw [Bucket.mem_sort]
    unfold stuckBucket
    grind
  have hprepared := hreached.prepares_eq
  rw [if_neg hidle, hall] at hprepared
  have hquorum : (insert own prepares).card = q := by
    rw [Finset.card_insert_of_notMem hown]
    exact hcard
  constructor
  . rw [hlosing.commits_eq]
    exact hown'
  . rw [hprepared]
    exact hquorum
  . rw [hprepared]
    simp
  . apply hlosing.state_cases.resolve_left
    intro hstate
    have := hreached.prepared_lt hstate
    rw [hprepared] at this
    omega

theorem state_run_stuckOrder
    : (run q own (stuckOrder prepares commits votes)).state = .commit := by
  have hlost := lost_run_stuckOrder h hproposed hcommits hcard hlt hprepares hearly
  unfold stuckOrder
  rw [Bucket.sort_succ, Bucket.sort_succ, run_append, run_append]
  apply List.foldlRecOn (motive := fun t : Tally α => t.state = .commit)
  . apply Lost.state_eq
    apply List.foldlRecOn _ _ hlost
    intro t ht vote hvote
    obtain ⟨ballot, voter⟩ := vote
    rw [List.mem_filter] at hvote
    have hballot : ballot = .commit := by
      unfold stuckBucket at hvote
      grind
    subst hballot
    apply lost_hand _ ht
    exact h.foreign _ hvote.1 (by simp)
  . intro t ht vote hvote
    obtain ⟨ballot, voter⟩ := vote
    have hballot : ballot = .prepare := by
      rw [List.mem_filter] at hvote
      unfold stuckBucket at hvote
      grind
    rw [hballot]
    exact state_hand_prepare_of_commit ht voter

end Stuck

theorem exists_stuck {prepares commits : Finset α} (hq : 2 ≤ q)
    (hle : q ≤ (prepares ∩ commits).card + 1) (hne : ¬(prepares = commits ∧ prepares.card + 1 = q))
    : ∃ X ⊆ prepares, ∃ T ⊆ commits,
        X.card + 1 = q ∧ q ≤ T.card + 1 ∧ (X ∩ T).card + 1 < q := by
  have hprepares := Finset.card_le_card (Finset.inter_subset_left : prepares ∩ commits ⊆ prepares)
  have hcommits := Finset.card_le_card (Finset.inter_subset_right : prepares ∩ commits ⊆ commits)
  have hpick : ∀ d ∈ prepares, ∃ X ⊆ prepares, d ∈ X ∧ X.card + 1 = q := by
    intro d hd
    obtain ⟨X, hdX, hX, hcard⟩ := Finset.exists_subsuperset_card_eq (n := q - 1)
      (Finset.singleton_subset_iff.mpr hd) (by simp; omega) (by omega)
    exact ⟨X, hX, Finset.singleton_subset_iff.mp hdX, by omega⟩
  have hmiss : ∀ (X T : Finset α) (d : α), d ∈ X → d ∉ T → X.card + 1 = q → (X ∩ T).card + 1 < q := by
    intro X T d hdX hdT hcard
    have hlt : (X ∩ T).card < X.card := by
      apply Finset.card_lt_card
      rw [Finset.ssubset_iff_of_subset Finset.inter_subset_left]
      exact ⟨d, hdX, by simp [hdT]⟩
    omega
  by_cases hsub : prepares ⊆ commits
  . -- one of those that prepare the round is late
    have hcard : q ≤ commits.card := by
      rw [Finset.inter_eq_left.mpr hsub] at hle
      by_contra! hlt
      apply hne
      have hsame := Finset.card_le_card hsub
      refine ⟨Finset.eq_of_subset_of_card_le hsub ?_, ?_⟩
      all_goals omega
    have hpos : 0 < prepares.card := by omega
    obtain ⟨d, hd⟩ := Finset.card_pos.mp hpos
    obtain ⟨X, hX, hdX, hcardX⟩ := hpick d hd
    refine ⟨X, hX, commits.erase d, Finset.erase_subset _ _, hcardX, ?_, ?_⟩
    . rw [Finset.card_erase_of_mem (hsub hd)]
      omega
    . exact hmiss X _ d hdX (by simp) hcardX
  . -- one of those that prepare the round never votes to commit it
    obtain ⟨d, hd, hdc⟩ := Finset.not_subset.mp hsub
    obtain ⟨X, hX, hdX, hcardX⟩ := hpick d hd
    exact ⟨X, hX, commits, subset_rfl, hcardX, by omega, hmiss X _ d hdX hdc hcardX⟩

def OrderFree (q : Nat) (prepares commits : Finset α) : Prop :=
  q = 1 ∨ (prepares ∩ commits).card + 1 < q ∨ (prepares = commits ∧ prepares.card + 1 = q)

theorem state_run_of_one (h : Admissible own votes) (hproposed : senders .prePrepare votes ≠ ∅)
    : (run 1 own votes).state = .executed := by
  have hpos : ∀ s : Finset α, 1 ≤ (insert own s).card := by
    intro s
    rw [Nat.one_le_iff_ne_zero, Finset.card_ne_zero]
    apply Finset.insert_nonempty
  apply state_run_eq_executed h hproposed
  . intro order _ _ _
    rw [← Finset.insert_inter_distrib]
    apply hpos
  . apply hpos
  . apply hpos

theorem state_run_of_eq (h : Admissible own votes) (hproposed : senders .prePrepare votes ≠ ∅)
    (heq : senders .prepare votes = senders .commit votes)
    (hcard : (senders .prepare votes).card + 1 = q)
    : (run q own votes).state = .executed := by
  have hall : (insert own (senders .prepare votes)).card = q := by
    rw [Finset.card_insert_of_notMem (own_notMem_prepares h)]
    exact hcard
  apply state_run_eq_executed h hproposed
  . intro order hinitial hprepares hcommits
    -- a quorum takes all of the voters
    have hprepares' : insert own (senders .prepare order) = insert own (senders .prepare votes) := by
      apply Finset.eq_of_subset_of_card_le
      . apply Finset.insert_subset_insert
        exact senders_mono hinitial.subset .prepare
      . omega
    have hcommits' : insert own (senders .commit order) = insert own (senders .prepare votes) := by
      rw [heq] at *
      apply Finset.eq_of_subset_of_card_le
      . apply Finset.insert_subset_insert
        exact senders_mono hinitial.subset .commit
      . omega
    rw [hprepares', hcommits', Finset.inter_self]
    omega
  . omega
  . rw [← heq]
    omega

theorem sameOutcome_iff (h : Admissible own votes) (hproposed : senders .prePrepare votes ≠ ∅)
    (hq : 1 ≤ q)
    : (∀ order₁ order₂, order₁.Perm votes → order₂.Perm votes →
        (run q own order₁).state = (run q own order₂).state)
        ↔
      OrderFree q (senders .prepare votes) (senders .commit votes) := by
  constructor
  . intro hsame
    by_contra hfree
    unfold OrderFree at hfree
    push Not at hfree
    obtain ⟨hone, hle, hne⟩ := hfree
    obtain ⟨X, hX, T, hT, hcard, hearly, hlt⟩ :=
      exists_stuck (by omega) hle (fun heq => hne heq.1 heq.2)
    have hstuck := state_run_stuckOrder h hproposed hT hcard hlt hX hearly
    have hexecuted := state_run_executingOrder h (by omega) hproposed hle
    have := hsame _ _ (stuckOrder_perm X T votes) (executingOrder_perm votes)
    rw [hstuck, hexecuted] at this
    contradiction
  . intro hfree order₁ order₂ hperm₁ hperm₂
    have hproposed₁ := hproposed
    have hproposed₂ := hproposed
    rw [← senders_perm hperm₁] at hproposed₁
    rw [← senders_perm hperm₂] at hproposed₂
    rcases hfree with hone | hlt | ⟨heq, hcard⟩
    . rw [hone]
      rw [state_run_of_one (h.perm hperm₁) hproposed₁]
      rw [state_run_of_one (h.perm hperm₂) hproposed₂]
    . rw [state_run_of_lt (h.perm hperm₁) hproposed₁ (by simpa only [senders_perm hperm₁] using hlt)]
      rw [state_run_of_lt (h.perm hperm₂) hproposed₂ (by simpa only [senders_perm hperm₂] using hlt)]
      rw [senders_perm hperm₁, senders_perm hperm₂]
    . rw [state_run_of_eq (h.perm hperm₁) hproposed₁ (by simpa only [senders_perm hperm₁] using heq)
        (by simpa only [senders_perm hperm₁] using hcard)]
      rw [state_run_of_eq (h.perm hperm₂) hproposed₂ (by simpa only [senders_perm hperm₂] using heq)
        (by simpa only [senders_perm hperm₂] using hcard)]

end Tally
end NeuroMesh
