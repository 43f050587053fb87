import NeuroMesh.Consensus.MeshNode.Impl.Discovery
import NeuroMesh.Consensus.MeshNode.Lemmas.Follow
import NeuroMesh.Consensus.PBFT.Tally.Order
import NeuroMesh.Data.Run

namespace NeuroMesh
namespace MeshNode

open PBFTConsensus (Carries Follows roundKey roundTtlSec)
open Tally (OrderFree senders)

variable {C : IdentityCore}

inductive Input where
  | vote (msg : P2PMessage)
  | proposal

structure Delivery where
  env : Env
  input : Input

def deliver (targetId evidenceJson : Bytes) (node : MeshNode C) (delivery : Delivery) : MeshNode C :=
  match delivery.input with
  | .vote msg =>
    let (next, pbft) := node.pbft.advanceState (delivery.env 0) msg
    let key := C.sha256Hex (joinPipe [msg.evidenceJson, msg.targetId])
    { node with pbft }.dispatch dispatchFuel delivery.env.right (some next) msg.stageStr msg.targetId
      msg.evidenceJson (pbft.getRoundCommitSig key)
  | .proposal => node.broadcastPbftStage delivery.env Stage.prePrepare targetId evidenceJson

def ballotOf (stageStr : Bytes) : Ballot :=
  if stageStr = Stage.prePrepare then
    .prePrepare
  else if stageStr = Stage.prepare then
    .prepare
  else
    .commit

def voteOf (own : Bytes) (input : Input) : Ballot × Bytes :=
  match input with
  | .vote msg => (ballotOf msg.stageStr, msg.senderId)
  | .proposal => (.prePrepare, own)

def allVotes (own : Bytes) (inputs : List Input) : List (Ballot × Bytes) :=
  (.prepare, own) :: (.commit, own) :: inputs.map (voteOf own)

structure Ready (node : MeshNode C) (targetId evidenceJson : Bytes) (inputs : List Input) : Prop where
  starts : node.Starts targetId evidenceJson (allVotes node.nodeId inputs)
  carries : ∀ msg, .vote msg ∈ inputs →
    Carries evidenceJson targetId node.pbft.currentView (voteOf node.nodeId (.vote msg)) msg
  foreign : ∀ msg, .vote msg ∈ inputs → msg.senderId ≠ node.nodeId
  nodup : (inputs.map (voteOf node.nodeId)).Nodup
  proposed : senders .prePrepare (inputs.map (voteOf node.nodeId)) ≠ ∅
  noRound : node.pbft.rounds[roundKey C evidenceJson targetId]? = none
  noVotes : ∀ ballot : Ballot,
    node.pbft.voters (roundKey C evidenceJson targetId) ballot.stageStr = ∅

structure Calm (targetId evidenceJson : Bytes) (node : MeshNode C) (delivery : Delivery) : Prop where
  live : node.pbft.Live (roundKey C evidenceJson targetId) (readings delivery.env)
  close : ∀ now ∈ readings delivery.env, ∀ since ∈ readings delivery.env,
    ¬roundTtlSec < seconds (now - since)

variable {node₀ node : MeshNode C} {targetId evidenceJson : Bytes} {inputs : List Input}
  {T : Set Time} {done : List (Ballot × Bytes)} {t : Tally Bytes}

theorem admissible_of_ready (h : node₀.Ready targetId evidenceJson inputs)
    : Tally.Admissible node₀.nodeId (inputs.map (voteOf node₀.nodeId)) := by
  constructor
  . exact h.nodup
  . intro vote hvote hballot heq
    obtain ⟨input, hinput, rfl⟩ := List.mem_map.mp hvote
    cases input with
    | vote msg => exact h.foreign msg hinput heq
    | proposal => exact hballot rfl

theorem executed_deliver (h : Executed targetId evidenceJson T t node)
    {delivery : Delivery} (henv : readings delivery.env ⊆ T)
    (hclose : ∀ now ∈ T, ∀ since ∈ T, ¬roundTtlSec < seconds (now - since))
    (hround : ∀ msg, delivery.input = .vote msg →
      msg.evidenceJson = evidenceJson ∧ msg.targetId = targetId)
    (q : Nat) (own : Bytes) (vote : Ballot × Bytes)
    : Executed targetId evidenceJson T (t.hand q own vote)
        (node.deliver targetId evidenceJson delivery) := by
  have htally : (t.hand q own vote).state = .executed := Tally.state_hand_of_executed h.tally_eq vote
  unfold deliver
  split
  . next msg hinput =>
    have hnow : (delivery.env 0).now ∈ T := henv ⟨0, rfl⟩
    have hkey : PBFTConsensus.keyOf C msg = roundKey C evidenceJson targetId := by
      unfold PBFTConsensus.keyOf
      rw [(hround msg hinput).1, (hround msg hinput).2]
    have hstep := PBFTConsensus.advanceState_of_executed hkey h.state_eq (h.live.any_expired_eq hnow)
    have hlive : (node.pbft.advanceState (delivery.env 0) msg).2.Live
        (roundKey C evidenceJson targetId) T := PBFTConsensus.live_advanceState h.live hnow hclose
    dsimp
    rw [hstep.1]
    exact ⟨htally, hstep.2, hlive⟩
  . have hnow : (delivery.env.left 1).now ∈ T := henv (readings_left_subset delivery.env ⟨1, rfl⟩)
    have hkey : PBFTConsensus.keyOf C (node.ownMessage Stage.prePrepare targetId evidenceJson)
        = roundKey C evidenceJson targetId := rfl
    have hstep := PBFTConsensus.receive_of_executed hkey h.state_eq (h.live.any_expired_eq hnow)
      (delivery.env.left 0).now
    have hlive : (node.pbft.receive (delivery.env.left 0).now (delivery.env.left 1)
        (node.ownMessage Stage.prePrepare targetId evidenceJson)).2.Live
          (roundKey C evidenceJson targetId) T :=
      PBFTConsensus.live_receive h.live _ hnow hclose
    have hcast : (node.castOwnVote delivery.env.left Stage.prePrepare targetId evidenceJson).2.pbft
        = (node.pbft.receive (delivery.env.left 0).now (delivery.env.left 1)
          (node.ownMessage Stage.prePrepare targetId evidenceJson)).2 := by
      rw [castOwnVote_eq, pbft_receive]
      rfl
    have hnext : (node.castOwnVote delivery.env.left Stage.prePrepare targetId evidenceJson).1
        = (node.pbft.receive (delivery.env.left 0).now (delivery.env.left 1)
          (node.ownMessage Stage.prePrepare targetId evidenceJson)).1 := by
      rw [castOwnVote_eq, fst_receive]
      rfl
    unfold broadcastPbftStage
    dsimp
    rw [hnext]
    rcases hstep.1 with heq | heq
    all_goals
      rw [heq]
      unfold dispatch dispatchFuel
      dsimp
      constructor
      . exact htally
      . rw [hcast]
        exact hstep.2
      . rw [hcast]
        exact hlive

theorem answers_cast {own : Bytes} {handled : List (Ballot × Bytes)} (h : Answered own handled t)
    {vote : Ballot × Bytes} (hforeign : Tally.Foreign own vote) (q : Nat)
    : Answers own (vote :: handled) (t.cast q vote.1 vote.2).2 (t.cast q vote.1 vote.2).1 := by
  have hmem : ∀ ballot, ballot ≠ .prePrepare → (ballot, own) ∈ vote :: handled →
      (ballot, own) ∈ handled := by
    intro ballot hballot hin
    rcases List.mem_cons.mp hin with heq | hin
    . exact absurd (heq ▸ rfl) (hforeign (heq ▸ hballot))
    . exact hin
  have hprepare := hmem .prepare (by simp)
  have hcommit := hmem .commit (by simp)
  rcases t.cast_cases vote.1 with hidle | hpre | hprep | hexec
  . rw [hidle.1]
    constructor
    . intro hin
      rw [hidle.2]
      exact h.prepare (hprepare hin)
    . intro hin
      rw [hidle.2]
      exact h.commit (hcommit hin)
  . obtain ⟨_, hstate, hnext, hstate'⟩ := hpre
    rw [hnext]
    refine ⟨hstate', ?_, ?_⟩
    . intro hin
      exact h.prepare (hprepare hin) hstate
    . intro hin
      exact (h.commit (hcommit hin)).1 hstate
  . obtain ⟨_, hstate, hnext, hstate'⟩ := hprep
    rw [hnext]
    refine ⟨hstate', ?_⟩
    intro hin
    exact (h.commit (hcommit hin)).2 hstate
  . obtain ⟨_, _, hnext, hstate'⟩ := hexec
    rw [hnext]
    exact hstate'

theorem simulates_deliver (hready : node₀.Ready targetId evidenceJson inputs)
    (h : Simulates node₀ targetId evidenceJson T (allVotes node₀.nodeId inputs) done t node)
    {delivery : Delivery} (henv : readings delivery.env ⊆ T)
    (hclose : ∀ now ∈ T, ∀ since ∈ T, ¬roundTtlSec < seconds (now - since))
    (hmem : delivery.input ∈ inputs) (hnew : voteOf node₀.nodeId delivery.input ∉ done)
    : Simulates node₀ targetId evidenceJson T (allVotes node₀.nodeId inputs)
        (done ++ [voteOf node₀.nodeId delivery.input])
        (t.hand node₀.pbft.quorumSize node₀.nodeId (voteOf node₀.nodeId delivery.input))
        (node.deliver targetId evidenceJson delivery) := by
  obtain ⟨env, input⟩ := delivery
  dsimp at *
  have hvote : voteOf node₀.nodeId input ∈ allVotes node₀.nodeId inputs := by
    simp only [allVotes, List.mem_cons]
    exact .inr (.inr (List.mem_map_of_mem hmem))
  rcases h with hexecuted | ⟨handled, hproceeds, hanswered, hdone⟩
  . left
    apply executed_deliver hexecuted henv hclose
    intro msg hinput
    have hcarries := hready.carries msg (hinput ▸ hmem)
    exact ⟨hcarries.evidence_eq, hcarries.target_eq⟩
  . have hforeign := (admissible_of_ready hready).foreign _ (List.mem_map_of_mem hmem)
    have hunhandled : voteOf node₀.nodeId input ∉ handled := by
      intro hin
      rcases hdone _ hin with hin | heq | heq
      . exact hnew hin
      . exact hforeign (by simp [heq]) (by simp [heq])
      . exact hforeign (by simp [heq]) (by simp [heq])
    have hdone' : ∀ vote ∈ voteOf node₀.nodeId input :: handled,
        vote ∈ done ++ [voteOf node₀.nodeId input] ∨ vote = (.prepare, node₀.nodeId)
          ∨ vote = (.commit, node₀.nodeId) := by
      intro vote hin
      rcases List.mem_cons.mp hin with heq | hin
      . simp [heq]
      . rcases hdone vote hin with hin | hin
        . exact .inl (List.mem_append_left _ hin)
        . exact .inr hin
    have hanswers := answers_cast hanswered hforeign node₀.pbft.quorumSize
    have hright := (readings_right_subset env).trans henv
    have hleft := (readings_left_subset env).trans henv
    unfold deliver Tally.hand
    cases input with
    | vote msg =>
      dsimp only
      have hcarries := hready.carries msg hmem
      obtain ⟨hnext, hproceeds'⟩ := proceeds_advanceState hready.starts hclose hproceeds hvote
        hunhandled hcarries (hready.foreign msg hmem) (henv ⟨0, rfl⟩)
      rw [hnext, hcarries.target_eq, hcarries.evidence_eq]
      apply simulates_dispatch hready.starts hclose (by simp [allVotes]) (by simp [allVotes])
        hproceeds' hdone' hanswers hright
    | proposal =>
      dsimp only
      obtain ⟨hnext, hproceeds'⟩ := proceeds_castOwnVote hready.starts hclose hproceeds hvote
        hunhandled (by simp) hleft
      unfold broadcastPbftStage
      dsimp
      simp only [Ballot.stageStr] at hnext hproceeds'
      rw [hnext]
      apply simulates_dispatch hready.starts hclose (by simp [allVotes]) (by simp [allVotes])
        hproceeds' hdone' hanswers hright

section Simulates

variable {votes : List (Ballot × Bytes)}

theorem Simulates.live (h : Simulates node₀ targetId evidenceJson T votes done t node)
    : node.pbft.Live (roundKey C evidenceJson targetId) T := by
  rcases h with hexecuted | ⟨_, hproceeds, _⟩
  . exact hexecuted.live
  . exact hproceeds.live

theorem Simulates.relive (h : Simulates node₀ targetId evidenceJson T votes done t node)
    {T' : Set Time} (hlive : node.pbft.Live (roundKey C evidenceJson targetId) T')
    : Simulates node₀ targetId evidenceJson T' votes done t node := by
  rcases h with hexecuted | ⟨handled, hproceeds, hrest⟩
  . exact .inl { hexecuted with live := hlive }
  . exact .inr ⟨handled, { hproceeds with live := hlive }, hrest⟩

theorem Simulates.state_eq (h : Simulates node₀ targetId evidenceJson T votes done t node)
    : (node.pbft.roundOf (roundKey C evidenceJson targetId)).state = t.state := by
  rcases h with hexecuted | ⟨_, hproceeds, _⟩
  . rw [hexecuted.state_eq, hexecuted.tally_eq]
  . exact hproceeds.follows.tallies.state_eq

end Simulates

theorem simulates_init (hready : node₀.Ready targetId evidenceJson inputs) (T : Set Time)
    : Simulates node₀ targetId evidenceJson T (allVotes node₀.nodeId inputs) [] {} node₀ := by
  have hround : node₀.pbft.roundOf (roundKey C evidenceJson targetId) = {} := by
    unfold PBFTConsensus.roundOf
    simp [Std.ExtTreeMap.getD_eq_getD_getElem?, hready.noRound]
  right
  refine ⟨[], ?_, ?_, by simp⟩
  . constructor
    case nodup => simp
    case subset => simp
    case nodeId_eq => rfl
    case numbers_le => simp
    case chained => exact hready.starts.chained
    case live =>
      intro round hsome
      rw [hready.noRound] at hsome
      contradiction
    case follows =>
      constructor
      case tallies =>
        constructor
        . rw [hround]
        . simp
        . exact hready.noVotes
      case seen => exact fun hash hseen => .inl hseen
      all_goals simp
  . constructor <;> simp

def votesOf (own : Bytes) (run : List Delivery) : List (Ballot × Bytes) :=
  run.map fun delivery => voteOf own delivery.input

theorem votesOf_eq (own : Bytes) (run : List Delivery)
    : votesOf own run = (run.map (·.input)).map (voteOf own) := by
  simp [votesOf]

theorem simulates_run (hready : node₀.Ready targetId evidenceJson inputs) (run : List Delivery)
    (h : Simulates node₀ targetId evidenceJson ∅ (allVotes node₀.nodeId inputs) done t node)
    (hmem : ∀ delivery ∈ run, delivery.input ∈ inputs)
    (hnew : (done ++ votesOf node₀.nodeId run).Nodup)
    (hcalm : Run.Along (deliver targetId evidenceJson) (Calm targetId evidenceJson) node run)
    : Simulates node₀ targetId evidenceJson ∅ (allVotes node₀.nodeId inputs)
        (done ++ votesOf node₀.nodeId run)
        ((votesOf node₀.nodeId run).foldl (Tally.hand node₀.pbft.quorumSize node₀.nodeId) t)
        (run.foldl (deliver targetId evidenceJson) node) := by
  induction run generalizing node t done with
  | nil => simpa [votesOf] using h
  | cons delivery run ih =>
    obtain ⟨hhead, htail⟩ := hcalm
    have hfresh : voteOf node₀.nodeId delivery.input ∉ done := by
      simp only [votesOf, List.map_cons, List.nodup_append, List.mem_cons] at hnew
      intro hin
      exact hnew.2.2 _ hin _ (.inl rfl) rfl
    have hstep := simulates_deliver hready (h.relive hhead.live) (Set.Subset.refl _) hhead.close
      (hmem _ List.mem_cons_self) hfresh
    have hsplit : done ++ votesOf node₀.nodeId (delivery :: run)
        = done ++ [voteOf node₀.nodeId delivery.input] ++ votesOf node₀.nodeId run := by
      simp [votesOf]
    rw [hsplit] at hnew ⊢
    apply ih (hstep.relive _) _ hnew htail
    . intro round _ now hnow
      contradiction
    . intro delivery' hin
      exact hmem _ (List.mem_cons_of_mem _ hin)

theorem state_foldl_deliver (hready : node₀.Ready targetId evidenceJson inputs) {run : List Delivery}
    (hperm : (run.map (·.input)).Perm inputs)
    (hcalm : Run.Along (deliver targetId evidenceJson) (Calm targetId evidenceJson) node₀ run)
    : ((run.foldl (deliver targetId evidenceJson) node₀).pbft.roundOf
        (roundKey C evidenceJson targetId)).state
        =
      (Tally.run node₀.pbft.quorumSize node₀.nodeId (votesOf node₀.nodeId run)).state := by
  apply Simulates.state_eq
  apply simulates_run hready run (simulates_init hready ∅) _ _ hcalm
  . intro delivery hin
    apply hperm.subset
    apply List.mem_map_of_mem hin
  . rw [List.nil_append, votesOf_eq]
    apply (hperm.map _).nodup_iff.mpr hready.nodup

def atOnce (a : Ambient) (inputs : List Input) : List Delivery :=
  inputs.map fun input => { env := fun _ => a, input }

@[simp]
theorem input_atOnce (a : Ambient) (inputs : List Input)
    : (atOnce a inputs).map (·.input) = inputs := by
  unfold atOnce
  rw [List.map_map]
  apply List.map_id

theorem calm_atOnce (hready : node₀.Ready targetId evidenceJson inputs) (a : Ambient)
    {order : List Input} (hmem : order ⊆ inputs)
    (hnew : (done ++ order.map (voteOf node₀.nodeId)).Nodup)
    (h : Simulates node₀ targetId evidenceJson {a.now} (allVotes node₀.nodeId inputs) done t node)
    : Run.Along (deliver targetId evidenceJson) (Calm targetId evidenceJson) node (atOnce a order) := by
  have hreadings : readings (fun _ => a) = {a.now} := Set.range_const
  have hclose : ∀ now ∈ ({a.now} : Set Time), ∀ since ∈ ({a.now} : Set Time),
      ¬roundTtlSec < seconds (now - since) := by
    rintro _ rfl _ rfl
    simp [roundTtlSec, seconds]
  induction order generalizing node t done with
  | nil => trivial
  | cons input order ih =>
    have hfresh : voteOf node₀.nodeId input ∉ done := by
      simp only [List.map_cons, List.nodup_append, List.mem_cons] at hnew
      intro hin
      exact hnew.2.2 _ hin _ (.inl rfl) rfl
    constructor
    . constructor
      . rw [hreadings]
        exact h.live
      . rw [hreadings]
        exact hclose
    . apply ih (List.subset_of_cons_subset hmem) _ (simulates_deliver hready h _ hclose _ hfresh)
      . simpa using hnew
      . rw [hreadings]
      . exact hmem List.mem_cons_self

theorem calm_atOnce_of_perm (hready : node₀.Ready targetId evidenceJson inputs) (a : Ambient)
    {order : List Input} (hperm : order.Perm inputs)
    : Run.Along (deliver targetId evidenceJson) (Calm targetId evidenceJson) node₀
        (atOnce a order) := by
  apply calm_atOnce hready a hperm.subset _ (simulates_init hready _)
  apply (hperm.map _).nodup_iff.mpr hready.nodup

theorem exists_perm_of_perm_map {α β : Type} {f : α → β} {l : List α} {order : List β}
    (h : order.Perm (l.map f))
    : ∃ l' : List α, l'.Perm l ∧ l'.map f = order := by
  have hmap : List.Forall₂ (fun b a => b = f a) (l.map f) l := by
    simp [List.forall₂_map_left_iff, List.forall₂_same]
  obtain ⟨l', hl', hperm⟩ := List.perm_comp_forall₂ h hmap
  refine ⟨l', hperm, ?_⟩
  rw [← List.forall₂_eq_eq_eq, List.forall₂_map_left_iff]
  exact hl'.flip.imp fun _ _ heq => heq.symm

def SameOutcome (node : MeshNode C) (targetId evidenceJson : Bytes) (inputs : List Input) : Prop :=
  ∀ run₁ run₂ : List Delivery,
    (run₁.map (·.input)).Perm inputs →
    (run₂.map (·.input)).Perm inputs →
    Run.Along (deliver targetId evidenceJson) (Calm targetId evidenceJson) node run₁ →
    Run.Along (deliver targetId evidenceJson) (Calm targetId evidenceJson) node run₂ →
    ((run₁.foldl (deliver targetId evidenceJson) node).pbft.roundOf
        (roundKey C evidenceJson targetId)).state
      =
    ((run₂.foldl (deliver targetId evidenceJson) node).pbft.roundOf
        (roundKey C evidenceJson targetId)).state

theorem sameOutcome_iff_orderFree (node : MeshNode C) (targetId evidenceJson : Bytes)
    (inputs : List Input) (h : node.Ready targetId evidenceJson inputs)
    : node.SameOutcome targetId evidenceJson inputs
        ↔
      OrderFree node.pbft.quorumSize (senders .prepare (inputs.map (voteOf node.nodeId)))
        (senders .commit (inputs.map (voteOf node.nodeId))) := by
  have hadmissible := admissible_of_ready h
  have hquorum : 1 ≤ node.pbft.quorumSize := node.pbft.quorumSize_pos
  rw [← Tally.sameOutcome_iff hadmissible h.proposed hquorum]
  constructor
  . intro hsame order₁ order₂ hperm₁ hperm₂
    -- Every order of the votes comes from an order of the inputs, which are handed over at once.
    obtain ⟨inputs₁, hinputs₁, rfl⟩ := exists_perm_of_perm_map hperm₁
    obtain ⟨inputs₂, hinputs₂, rfl⟩ := exists_perm_of_perm_map hperm₂
    let a : Ambient := { now := 0, bucketOrder := id, bucketOrder_perm := List.Perm.refl }
    have hcalm₁ := calm_atOnce_of_perm h a hinputs₁
    have hcalm₂ := calm_atOnce_of_perm h a hinputs₂
    have := hsame (atOnce a inputs₁) (atOnce a inputs₂) (by simpa) (by simpa) hcalm₁ hcalm₂
    rw [state_foldl_deliver h (by simpa) hcalm₁, state_foldl_deliver h (by simpa) hcalm₂] at this
    rw [votesOf_eq, votesOf_eq, input_atOnce, input_atOnce] at this
    exact this
  . intro hsame run₁ run₂ hperm₁ hperm₂ hcalm₁ hcalm₂
    rw [state_foldl_deliver h hperm₁ hcalm₁, state_foldl_deliver h hperm₂ hcalm₂]
    apply hsame
    . rw [votesOf_eq]
      apply hperm₁.map
    . rw [votesOf_eq]
      apply hperm₂.map

def fourNodes : MeshNode .plain :=
  new .plain (bytes "A") (bytes "A") (bytes "A") {
    pbftRateMax := some (bytes "100")
    peerKeys := some (bytes "B:-----BEGIN B,C:-----BEGIN C,D:-----BEGIN D")
  }

def sampleTarget : Bytes := bytes "T"

def sampleEvidence : Bytes := bytes "\x7b\x7d"

def sampleVote (vote : Ballot × Bytes) : Input :=
  .vote {
    stageStr := vote.1.stageStr
    senderId := vote.2
    targetId := sampleTarget
    evidenceJson := sampleEvidence
    signature := []
    prevMessageHash := []
    sequenceNumber := 1
    view := 0
  }

@[simp]
theorem ballotOf_stageStr (ballot : Ballot) : ballotOf ballot.stageStr = ballot := by
  cases ballot <;> decide

theorem voteOf_sampleVote (own : Bytes) (vote : Ballot × Bytes) : voteOf own (sampleVote vote) = vote := by
  simp [sampleVote, voteOf]

theorem starts_fourNodes {votes : List (Ballot × Bytes)} (hlength : votes.length ≤ 50)
    (hmem : ∀ vote ∈ votes, vote.2 ∈ [bytes "A", bytes "B", bytes "C", bytes "D"])
    : fourNodes.Starts sampleTarget sampleEvidence votes := by
  have hmembers : ∀ voter ∈ [bytes "A", bytes "B", bytes "C", bytes "D"],
      voter ∈ fourNodes.pbft.peerPublicKeys ∧ voter ∉ fourNodes.pbft.bannedPeers ∧ pipe ∉ voter := by
    decide +kernel
  have hrate : fourNodes.pbft.rateLimits = ∅ := by rfl
  have hmax : sizeT fourNodes.pbft.rateMax = 100 := by decide +kernel
  constructor
  . exact IdentityCore.plain_collisionFree
  . constructor
    . decide +kernel
    . decide +kernel
    . exact ⟨bytes "A", rfl, IdentityCore.plain_signatureCorrect (bytes "A")⟩
  . left
    rfl
  . change 0 + votes.length + 100 < 2 ^ 64
    omega
  . intro vote hvote
    exact (hmembers _ (hmem vote hvote)).1
  . intro vote hvote
    exact (hmembers _ (hmem vote hvote)).2.1
  . intro vote hvote
    exact (hmembers _ (hmem vote hvote)).2.2
  . intro nodeId
    have := votes.countP_le_length (p := (·.2 = nodeId))
    rw [hrate, hmax]
    simp
    omega
  . intro msg _ _
    exact Std.ExtTreeSet.not_mem_empty

theorem ready_fourNodes {votes : List (Ballot × Bytes)} (hlength : votes.length ≤ 48)
    (hmem : ∀ vote ∈ votes, vote.2 ∈ [bytes "B", bytes "C", bytes "D"])
    (hnodup : votes.Nodup) (hproposed : senders .prePrepare votes ≠ ∅)
    : fourNodes.Ready sampleTarget sampleEvidence (votes.map sampleVote) := by
  have hvotes : (votes.map sampleVote).map (voteOf fourNodes.nodeId) = votes := by
    rw [List.map_map]
    apply (List.map_congr_left fun vote _ => voteOf_sampleVote _ vote).trans
    apply List.map_id
  constructor
  . apply starts_fourNodes
    . simp [allVotes]
      omega
    . unfold allVotes
      rw [hvotes]
      intro vote hvote
      simp only [List.mem_cons] at hvote ⊢
      rcases hvote with rfl | rfl | hvote
      . left
        rfl
      . left
        rfl
      . have := hmem vote hvote
        simp only [List.mem_cons] at this
        exact .inr this
  . intro msg hmsg
    obtain ⟨vote, -, heq⟩ := List.mem_map.mp hmsg
    rw [← heq, voteOf_sampleVote]
    cases heq
    exact ⟨rfl, rfl, rfl, rfl, rfl⟩
  . intro msg hmsg
    obtain ⟨vote, hvote, heq⟩ := List.mem_map.mp hmsg
    cases heq
    have hne : ∀ voter ∈ [bytes "B", bytes "C", bytes "D"], voter ≠ fourNodes.nodeId := by
      decide +kernel
    exact hne _ (hmem vote hvote)
  . rwa [hvotes]
  . rwa [hvotes]
  . rfl
  . intro ballot
    rfl

theorem sameOutcome_three
    : fourNodes.SameOutcome sampleTarget sampleEvidence
        ([(.prePrepare, bytes "B"), (.prepare, bytes "B"), (.prepare, bytes "C"), (.commit, bytes "B"),
          (.commit, bytes "C")].map sampleVote) := by
  apply (sameOutcome_iff_orderFree fourNodes sampleTarget sampleEvidence _
    (ready_fourNodes (by decide) (by decide) (by decide) (by decide))).mpr
  right
  right
  decide +kernel

/--
All of them vote for everything. If the `COMMIT` of `D` comes early and its `PREPARE` late, then the
`COMMIT` of `C` finds a quorum without an intersection, it is rolled back and cannot be cast again.
-/
theorem not_forall_sameOutcome
    : ¬ ∀ (node : MeshNode .plain) (targetId evidenceJson : Bytes) (inputs : List Input),
        node.Ready targetId evidenceJson inputs →
        node.SameOutcome targetId evidenceJson inputs := by
  intro h
  let stuck : List (Ballot × Bytes) := [
    (.prePrepare, bytes "B"), (.commit, bytes "D"), (.prepare, bytes "B"), (.prepare, bytes "C"),
    (.commit, bytes "B"), (.commit, bytes "C"), (.prepare, bytes "D")
  ]
  let executed : List (Ballot × Bytes) := [
    (.prePrepare, bytes "B"), (.prepare, bytes "B"), (.prepare, bytes "C"), (.prepare, bytes "D"),
    (.commit, bytes "B"), (.commit, bytes "C"), (.commit, bytes "D")
  ]
  let a : Ambient := { now := 0, bucketOrder := id, bucketOrder_perm := List.Perm.refl }
  have hperm : (executed.map sampleVote).Perm (stuck.map sampleVote) := by
    apply List.Perm.map
    decide
  have hready : fourNodes.Ready sampleTarget sampleEvidence (stuck.map sampleVote) :=
    ready_fourNodes (by decide) (by decide) (by decide) (by decide)
  have hstate := h _ _ _ _ hready (atOnce a (stuck.map sampleVote)) (atOnce a (executed.map sampleVote))
    (by simp) (by simpa using hperm) (calm_atOnce_of_perm hready a .rfl)
    (calm_atOnce_of_perm hready a hperm)
  revert hstate
  decide +kernel

end MeshNode
end NeuroMesh
