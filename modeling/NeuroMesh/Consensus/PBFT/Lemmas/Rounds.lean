import NeuroMesh.Consensus.PBFT.Lemmas.Roster
import NeuroMesh.Consensus.PBFT.Lemmas.Votes
import NeuroMesh.Data.Run

namespace NeuroMesh
namespace PBFTConsensus

variable {C : IdentityCore}

def removes (s : PBFTConsensus C) (call : Call C) (key : Bytes) : Bool :=
  match call.op with
  | .advanceState msg =>
    msg.senderId ∉ s.bannedPeers
      && msg.senderId ∈ s.peerPublicKeys
      && s.rounds[key]?.any (·.expired call.ambient.now)
  | _ => false

def found (s : PBFTConsensus C) (call : Call C) (key : Bytes) : ConsensusRound :=
  if s.removes call key then {} else s.roundOf key

def Call.round (call : Call C) : Option Bytes :=
  match call.op with
  | .advanceState msg => some (keyOf C msg)
  | .setRoundCommitSig key _ => some key
  | _ => none

def stageFor (key : Bytes) (s : PBFTConsensus C) (call : Call C) : Option PBFTStage :=
  match call.op with
  | .advanceState msg =>
    let stage := (s.advanceState call.ambient msg).1
    if keyOf C msg = key ∧ stage ≠ .idle then some stage else none
  | _ => none

section Step

variable {s : PBFTConsensus C} {a : Ambient} {msg : P2PMessage} {key : Bytes}

theorem removes_of_enters (h : s.Enters msg)
    : s.removes ⟨a, .advanceState msg⟩ key = s.rounds[key]?.any (·.expired a.now) := by
  simp [removes, h.notBanned, h.known]

theorem removes_of_not_enters (h : ¬s.Enters msg) : s.removes ⟨a, .advanceState msg⟩ key = false := by
  by_contra hremoves
  simp only [removes, Bool.not_eq_false, Bool.and_eq_true, decide_eq_true_eq] at hremoves
  exact h ⟨hremoves.1.1, hremoves.1.2⟩

theorem getElem?_rounds_cleanupStaleRounds (s : PBFTConsensus C) (now : Time) (key : Bytes)
    : (s.cleanupStaleRounds now).rounds[key]?
        =
      if s.rounds[key]?.any (·.expired now) then none else s.rounds[key]? := by
  unfold cleanupStaleRounds
  rw [Std.ExtTreeMap.getElem?_filter']
  cases s.rounds[key]? with
  | none => rfl
  | some round => cases h : round.expired now <;> simp [h, Option.filter]

theorem getElem?_rounds_mayVote (s : PBFTConsensus C) (a : Ambient) (msg : P2PMessage) (key : Bytes)
    : (s.mayVote a msg).2.rounds[key]?
        =
      if s.removes ⟨a, .advanceState msg⟩ key then none else s.rounds[key]? := by
  by_cases henters : s.Enters msg
  . rw [rounds_mayVote henters, removes_of_enters henters, getElem?_rounds_cleanupStaleRounds]
  . rw [snd_mayVote_of_not_enters henters, removes_of_not_enters henters]
    rfl

theorem roundOf_mayVote_eq_found (s : PBFTConsensus C) (a : Ambient) (msg : P2PMessage) (key : Bytes)
    : (s.mayVote a msg).2.roundOf key = s.found ⟨a, .advanceState msg⟩ key := by
  unfold found roundOf
  rw [Std.ExtTreeMap.getD_eq_getD_getElem?, Std.ExtTreeMap.getD_eq_getD_getElem?,
    getElem?_rounds_mayVote]
  split <;> rfl

theorem moves_advanceState (s : PBFTConsensus C) (a : Ambient) (msg : P2PMessage)
    : (s.found ⟨a, .advanceState msg⟩ (keyOf C msg)).Moves
        ((s.advanceState a msg).2.roundOf (keyOf C msg)) (s.advanceState a msg).1 := by
  rw [← roundOf_mayVote_eq_found]
  by_cases hadmits : s.Admits a msg
  . rw [advanceState_of_admits hadmits]
    apply moves_castVote
  . rw [advanceState_of_not_admits hadmits]
    exact ⟨.inl ⟨rfl, rfl⟩, fun _ => rfl, rfl⟩

theorem getElem?_rounds_advanceState_of_ne (a : Ambient) (h : key ≠ keyOf C msg)
    : (s.advanceState a msg).2.rounds[key]?
        =
      if s.removes ⟨a, .advanceState msg⟩ key then none else s.rounds[key]? := by
  rw [← getElem?_rounds_mayVote]
  by_cases hadmits : s.Admits a msg
  . rw [advanceState_of_admits hadmits]
    exact rounds_castVote_of_ne h
  . rw [advanceState_of_not_admits hadmits]

theorem getElem?_rounds_step_of_ne (s : PBFTConsensus C) (call : Call C) (h : call.round ≠ some key)
    : (s.step call).rounds[key]? = if s.removes call key then none else s.rounds[key]? := by
  obtain ⟨a, op⟩ := call
  cases op with
  | advanceState msg =>
    apply getElem?_rounds_advanceState_of_ne
    intro heq
    exact h (congrArg some heq.symm)
  | verifyMessage msg => exact congrArg (·[key]?) (s.rounds_verifyMessage a.now msg)
  | setRoundCommitSig key' sig =>
    have hne : key' ≠ key := fun heq => h (congrArg some heq)
    change (s.setRound key' _).rounds[key]? = s.rounds[key]?
    simp [setRound, Std.ExtTreeMap.getElem?_insert, hne]
  | tryIncrementPeers nodeId =>
    unfold step tryIncrementPeers
    dsimp only
    split <;> rfl
  | proposeBan targetId reason =>
    change (s.proposeBan targetId reason).2.rounds[key]? = s.rounds[key]?
    rcases s.snd_proposeBan_cases targetId reason with heq | heq
    . rw [heq]
    . rw [heq]
      rfl
  | _ => rfl

theorem roundOf_step_of_ne {call : Call C} (h : call.round ≠ some key)
    : (s.step call).roundOf key = s.found call key := by
  unfold found roundOf
  rw [Std.ExtTreeMap.getD_eq_getD_getElem?, Std.ExtTreeMap.getD_eq_getD_getElem?,
    s.getElem?_rounds_step_of_ne call h]
  split <;> rfl

theorem roundOf_advanceState_of_ne (a : Ambient) (h : key ≠ keyOf C msg)
    : (s.advanceState a msg).2.roundOf key = s.found ⟨a, .advanceState msg⟩ key := by
  have hround : Call.round (C := C) ⟨a, .advanceState msg⟩ ≠ some key := by
    intro heq
    exact h (Option.some.inj heq).symm
  exact roundOf_step_of_ne hround

theorem view_advanceState_cases (h : ((s.advanceState a msg).2.roundOf key).state ≠ .idle)
    : (s.found ⟨a, .advanceState msg⟩ key).state ≠ .idle
        ∧ ((s.advanceState a msg).2.roundOf key).view = (s.found ⟨a, .advanceState msg⟩ key).view
        ∨
      key = keyOf C msg
        ∧ (s.advanceState a msg).1 = .prepare
        ∧ (s.found ⟨a, .advanceState msg⟩ key).state = .idle
        ∧ ((s.advanceState a msg).2.roundOf key).view = msg.view := by
  by_cases hkey : key = keyOf C msg
  . subst hkey
    have hmoves := s.moves_advanceState a msg
    by_cases hidle : (s.found ⟨a, .advanceState msg⟩ (keyOf C msg)).state = .idle
    . right
      have hprepare : (s.advanceState a msg).1 = .prepare := by
        rcases hmoves.state with ⟨_, hsame⟩ | ⟨hnext, _⟩
        . rw [hsame, hidle] at h
          contradiction
        . rw [hidle] at hnext
          exact (Option.some.inj hnext).symm
      refine ⟨rfl, hprepare, hidle, ?_⟩
      exact view_advanceState_of_prepare hprepare
    . exact .inl ⟨hidle, hmoves.view hidle⟩
  . left
    rw [roundOf_advanceState_of_ne a hkey] at h ⊢
    exact ⟨h, rfl⟩

theorem found_of_ne_idle {call : Call C} (h : (s.found call key).state ≠ .idle)
    : s.removes call key = false ∧ s.found call key = s.roundOf key := by
  unfold found at h ⊢
  split
  . next hremoves =>
    rw [if_pos hremoves] at h
    contradiction
  . next hremoves => exact ⟨by simpa using hremoves, rfl⟩

theorem committed_of_found {call : Call C} (h : (s.found call key).state = .commit)
    : (s.roundOf key).state = .commit ∧ s.removes call key = false := by
  obtain ⟨hkept, hround⟩ := found_of_ne_idle (show _ ≠ PBFTStage.idle by rw [h]; nofun)
  rw [hround] at h
  exact ⟨h, hkept⟩

theorem committed_of_advanceState (h : ((s.advanceState a msg).2.roundOf key).state = .commit)
    : (s.roundOf key).state = .commit ∧ s.removes ⟨a, .advanceState msg⟩ key = false
        ∨
      key = keyOf C msg ∧ (s.advanceState a msg).1 = .commit := by
  by_cases hkey : key = keyOf C msg
  . subst hkey
    rcases (s.moves_advanceState a msg).state with ⟨_, hsame⟩ | ⟨_, hnext⟩
    . exact .inl (committed_of_found (hsame.symm.trans h))
    . exact .inr ⟨rfl, hnext.symm.trans h⟩
  . rw [roundOf_advanceState_of_ne a hkey] at h
    exact .inl (committed_of_found h)

theorem committed_of_executed (h : (s.advanceState a msg).1 = .executed)
    : (s.roundOf (keyOf C msg)).state = .commit ∧ s.removes ⟨a, .advanceState msg⟩ (keyOf C msg) = false := by
  apply committed_of_found
  have hmoves := (s.moves_advanceState a msg).state
  rw [h] at hmoves
  rcases hmoves with ⟨hidle, _⟩ | ⟨hnext, _⟩
  . contradiction
  . cases hstate : (s.found ⟨a, .advanceState msg⟩ (keyOf C msg)).state with
    | commit => rfl
    | _ =>
      rw [hstate] at hnext
      contradiction

theorem opened_of_advanceState (h : ((s.advanceState a msg).2.roundOf key).state ≠ .idle)
    : (s.roundOf key).state ≠ .idle
        ∧ ((s.advanceState a msg).2.roundOf key).view = (s.roundOf key).view
        ∨
      key = keyOf C msg ∧ (s.advanceState a msg).1 = .prepare
        ∧ ((s.advanceState a msg).2.roundOf key).view = msg.view := by
  rcases view_advanceState_cases h with ⟨hfound, hview⟩ | ⟨hkey, hprepare, _, hview⟩
  . have heq := (found_of_ne_idle hfound).2
    rw [heq] at hfound hview
    exact .inl ⟨hfound, hview⟩
  . exact .inr ⟨hkey, hprepare, hview⟩

end Step

structure RoundStep (s : PBFTConsensus C) (call : Call C) (key : Bytes) : Prop where
  advanced : ∀ msg, call.op = .advanceState msg → keyOf C msg = key →
    (s.found call key).Moves ((s.step call).roundOf key) (s.advanceState call.ambient msg).1
  signed : ∀ sig, call.op = .setRoundCommitSig key sig →
    ((s.step call).roundOf key).state = (s.roundOf key).state
      ∧ ((s.step call).roundOf key).view = (s.roundOf key).view
  other : call.round ≠ some key →
    (s.step call).rounds[key]? = if s.removes call key then none else s.rounds[key]?

theorem roundStep (s : PBFTConsensus C) (call : Call C) (key : Bytes) : s.RoundStep call key := by
  constructor
  . intro msg hop hkey
    obtain ⟨a, op⟩ := call
    subst hop hkey
    apply moves_advanceState
  . intro sig hop
    obtain ⟨a, op⟩ := call
    subst hop
    change ((s.setRound key _).roundOf key).state = _ ∧ ((s.setRound key _).roundOf key).view = _
    rw [roundOf_setRound, if_pos rfl]
    exact ⟨rfl, rfl⟩
  . exact s.getElem?_rounds_step_of_ne call

section Step

variable {s : PBFTConsensus C} {key : Bytes}

theorem roundOf_step_of_ne_advanceState {call : Call C} (key : Bytes) (hop : ∀ msg, call.op ≠ .advanceState msg)
    : ((s.step call).roundOf key).state = (s.roundOf key).state
        ∧
      ((s.step call).roundOf key).view = (s.roundOf key).view := by
  have hstep := s.roundStep call key
  have hremoves : s.removes call key = false := by
    obtain ⟨a, op⟩ := call
    cases op with
    | advanceState msg => exact absurd rfl (hop msg)
    | _ => rfl
  by_cases hround : call.round = some key
  . obtain ⟨a, op⟩ := call
    cases op with
    | advanceState msg => exact absurd rfl (hop msg)
    | setRoundCommitSig key' sig =>
      cases hround
      exact hstep.signed sig rfl
    | _ => contradiction
  . have hfound : s.found call key = s.roundOf key := by
      unfold found
      rw [hremoves]
      rfl
    rw [roundOf_step_of_ne hround, hfound]
    exact ⟨rfl, rfl⟩

end Step

def Path (first : PBFTStage) (stages : List PBFTStage) (last : PBFTStage) : Prop :=
  match stages with
  | [] => first = last
  | stage :: stages => first.next = some stage ∧ Path stage stages last

theorem path_append {first middle last : PBFTStage} {stages stages' : List PBFTStage}
    (h₁ : Path first stages middle) (h₂ : Path middle stages' last)
    : Path first (stages ++ stages') last := by
  induction stages generalizing first with
  | nil =>
    cases h₁
    exact h₂
  | cons stage stages ih => exact ⟨h₁.1, ih h₁.2⟩

theorem path_step (s : PBFTConsensus C) (call : Call C) (key : Bytes)
    : Path (s.found call key).state (stageFor key s call).toList ((s.step call).roundOf key).state := by
  have hstep := s.roundStep call key
  obtain ⟨a, op⟩ := call
  by_cases hround : Call.round ⟨a, op⟩ = some key
  . cases op with
    | advanceState msg =>
      have hkey : keyOf C msg = key := Option.some.inj hround
      have hmoves := hstep.advanced msg rfl hkey
      unfold stageFor
      dsimp only at hmoves ⊢
      rcases hmoves.state with ⟨hidle, hsame⟩ | ⟨hnext, hstate⟩
      . rw [if_neg (by simp [hidle])]
        exact hsame.symm
      . have hne : (s.advanceState a msg).1 ≠ .idle := by
          intro hidle
          rw [hidle] at hnext
          revert hnext
          cases (s.found ⟨a, .advanceState msg⟩ key).state <;> simp [PBFTStage.next]
        rw [if_pos ⟨hkey, hne⟩]
        exact ⟨hnext, hstate.symm⟩
    | setRoundCommitSig key' sig =>
      cases hround
      exact (hstep.signed sig rfl).1.symm
    | _ => contradiction
  . have hnone : stageFor key s ⟨a, op⟩ = none := by
      cases op with
      | advanceState msg =>
        apply if_neg
        intro h
        exact hround (congrArg some h.1)
      | _ => rfl
    rw [hnone, roundOf_step_of_ne hround]
    rfl

theorem path_of_not_removes (s : PBFTConsensus C) (calls : List (Call C)) (key : Bytes)
    (h : Run.Along step (fun s call => s.removes call key = false) s calls)
    : Path (s.roundOf key).state (Run.observe step (stageFor key) s calls)
        ((calls.foldl step s).roundOf key).state := by
  induction calls generalizing s with
  | nil => rfl
  | cons call calls ih =>
    have hfound : s.found call key = s.roundOf key := by
      unfold found
      rw [h.1]
      rfl
    rw [← hfound]
    exact path_append (s.path_step call key) (ih _ h.2)

theorem count_executed_of_path {first last : PBFTStage} {stages : List PBFTStage}
    (h : Path first stages last)
    : stages.count .executed ≤ 1 := by
  induction stages generalizing first with
  | nil => simp
  | cons stage stages ih =>
    by_cases hstage : stage = .executed
    . subst hstage
      cases stages with
      | nil => simp
      | cons stage' stages => exact absurd h.2.1 (by simp [PBFTStage.next])
    . rw [List.count_cons_of_ne hstage]
      exact ih h.2

theorem round_lifecycle (s : PBFTConsensus C) (key : Bytes)
    : (∀ call, s.RoundStep call key)
        ∧
      ∀ (first : Call C) (rest : List (Call C)),
        Run.Along step (fun s call => s.removes call key = false) (s.step first) rest →
        let stages := Run.observe step (stageFor key) s (first :: rest)
        Path (s.found first key).state stages (((first :: rest).foldl step s).roundOf key).state
          ∧ stages.count .executed ≤ 1 := by
  refine ⟨fun call => s.roundStep call key, ?_⟩
  intro first rest h
  have hpath := path_append (s.path_step first key) (path_of_not_removes _ rest key h)
  exact ⟨hpath, count_executed_of_path hpath⟩

def sampleVote (stage : Bytes) (sender : String) (seq : UInt64) : P2PMessage :=
  {
    stageStr := stage
    senderId := bytes sender
    targetId := bytes "T"
    evidenceJson := bytes "\x7b\x7d"
    signature := []
    prevMessageHash := []
    sequenceNumber := seq
    view := 0
  }

def atZero (op : Op C) : Call C :=
  {
    ambient := { now := 0, bucketOrder := id, bucketOrder_perm := List.Perm.refl }
    op
  }

theorem round_lifecycle_alone
    : let s := (new .plain 1 none none).registerPeerKey (bytes "A") (bytes "A")
      let vote := fun stage seq => atZero (C := .plain) (.advanceState (sampleVote stage "A" seq))
      let key := roundKey .plain (bytes "\x7b\x7d") (bytes "T")
      let stages := Run.observe step (stageFor key) s
        [vote Stage.prePrepare 1, vote Stage.prepare 2, vote Stage.commit 3]
      stages = [.prepare, .commit, .executed] ∧ stages.count .executed ≤ 1 := by
  refine ⟨by decide +kernel, ?_⟩
  exact ((round_lifecycle _ _).2 _ _ (by decide +kernel)).2

end PBFTConsensus
end NeuroMesh
