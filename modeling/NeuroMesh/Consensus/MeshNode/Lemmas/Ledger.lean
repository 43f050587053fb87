import NeuroMesh.Consensus.MeshNode.Lemmas.Calls
import NeuroMesh.Consensus.MeshNode.Lemmas.Quiet
import NeuroMesh.Consensus.PBFT.Lemmas.Membership
import NeuroMesh.Consensus.PBFT.Lemmas.Message
import NeuroMesh.Consensus.PBFT.Lemmas.Rounds

/-!
This module relates the state of a node to its log: whatever a node has counted, decided or broadcast is
accounted for by what it has done before.
-/

namespace NeuroMesh

variable {C : IdentityCore}

open PBFTConsensus (keyOf roundKey)

def Voted (log : List (Event C)) (key stage voter : Bytes) : Prop :=
  ∃ msg next, .advanced msg next ∈ log ∧ msg.senderId = voter ∧ msg.stageStr = stage
    ∧ keyOf C msg = key

def Opened (log : List (Event C)) (key : Bytes) (view : Int) : Prop :=
  ∃ msg, .advanced msg .prepare ∈ log ∧ keyOf C msg = key ∧ msg.view = view

def Justified (Own : P2PMessage → Prop) (log : List (Event C)) (pbft : PBFTConsensus C)
    (msg : P2PMessage) : Prop :=
  msg.stageStr = Stage.prePrepare ∧ .proposed msg.targetId msg.evidenceJson ∈ log ∧ Own msg
    ∨ msg.stageStr = Stage.prepare
    ∨ msg.stageStr = Stage.commit
      ∧ pbft.quorumSize ≤ (pbft.voters (keyOf C msg) Stage.prepare).card

structure Issued (nodeId : Bytes) (pbft : PBFTConsensus C) (msg : P2PMessage) : Prop where
  sender : msg.senderId = nodeId
  signed : msg.signature = pbft.signMessage msg
  target : pipe ∉ msg.targetId
  prev : pipe ∉ msg.prevMessageHash

structure Ledger (Auth Own : P2PMessage → Prop) (q : Nat) (node : MeshNode C) : Prop where
  votes : ∀ key stage voter, voter ∈ node.pbft.voters key stage → Voted node.log key stage voter
  rounds : ∀ key, (node.pbft.roundOf key).state ≠ .idle →
    Opened node.log key (node.pbft.roundOf key).view
  prepared : ∀ msg, .advanced msg .prepare ∈ node.log →
    msg.stageStr = Stage.prePrepare ∨ msg.stageStr = Stage.banPeer
  executed : ∀ msg, .advanced msg .executed ∈ node.log →
    Opened node.log (keyOf C msg) msg.view
      ∧ ∃ voters : Finset Bytes, q ≤ voters.card
        ∧ ∀ voter ∈ voters, Voted node.log (keyOf C msg) Stage.commit voter
  origins : ∀ msg next, .advanced msg next ∈ node.log →
    Auth msg ∨ ∃ pbft, .broadcast msg pbft ∈ node.log
  broadcasts : ∀ msg pbft, .broadcast msg pbft ∈ node.log →
    Issued node.nodeId pbft msg ∧ Justified Own node.log pbft msg
  genesis : pipe ∉ node.pbft.genesisHash
  history : ∀ (seq : UInt64) (hash : Bytes),
    (node.pbft.historyOf node.nodeId)[seq]? = some hash → pipe ∉ hash

section Log

variable {log log' : List (Event C)} (h : log ⊆ log')
include h

theorem Voted.mono {key stage voter : Bytes} (hvoted : Voted log key stage voter)
    : Voted log' key stage voter := by
  obtain ⟨msg, next, hmem, hrest⟩ := hvoted
  exact ⟨msg, next, h hmem, hrest⟩

theorem Opened.mono {key : Bytes} {view : Int} (hopened : Opened log key view)
    : Opened log' key view := by
  obtain ⟨msg, hmem, hrest⟩ := hopened
  exact ⟨msg, h hmem, hrest⟩

theorem Justified.mono {Own : P2PMessage → Prop} {pbft : PBFTConsensus C} {msg : P2PMessage}
    (hjustified : Justified Own log pbft msg)
    : Justified Own log' pbft msg := by
  rcases hjustified with ⟨hstage, hmem, hown⟩ | hrest
  . exact .inl ⟨hstage, h hmem, hown⟩
  . exact .inr hrest

end Log

namespace MeshNode

variable {Auth Own : P2PMessage → Prop} {q : Nat} {node : MeshNode C}

section Steps

variable (h : Ledger Auth Own q node)
include h

theorem ledger_congr {node' : MeshNode C} (hid : node'.nodeId = node.nodeId)
    (hpbft : node'.pbft = node.pbft) (hlog : node'.log = node.log)
    : Ledger Auth Own q node' := by
  constructor
  . rw [hpbft, hlog]
    exact h.votes
  . rw [hpbft, hlog]
    exact h.rounds
  . rw [hlog]
    exact h.prepared
  . rw [hlog]
    exact h.executed
  . rw [hlog]
    exact h.origins
  . rw [hid, hlog]
    exact h.broadcasts
  . rw [hpbft]
    exact h.genesis
  . rw [hid, hpbft]
    exact h.history

theorem ledger_pbft {pbft : PBFTConsensus C}
    (hvoters : ∀ key stage voter, voter ∈ pbft.voters key stage → voter ∈ node.pbft.voters key stage)
    (hrounds : ∀ key, (pbft.roundOf key).state = (node.pbft.roundOf key).state
      ∧ (pbft.roundOf key).view = (node.pbft.roundOf key).view)
    (hcontinues : PBFTConsensus.Continues node.nodeId node.pbft pbft)
    : Ledger Auth Own q { node with pbft } := by
  constructor
  case votes =>
    intro key stage voter hvoter
    exact h.votes key stage voter (hvoters key stage voter hvoter)
  case rounds =>
    intro key hstate
    dsimp only at hstate ⊢
    rw [(hrounds key).1] at hstate
    rw [(hrounds key).2]
    exact h.rounds key hstate
  case genesis =>
    dsimp only
    rw [hcontinues.genesisHash_eq]
    exact h.genesis
  case history =>
    intro seq hash hentry
    exact h.history seq hash (hcontinues.history seq hash hentry)
  case prepared => exact h.prepared
  case executed => exact h.executed
  case origins => exact h.origins
  case broadcasts => exact h.broadcasts

theorem ledger_log {log : List (Event C)} (hlog : node.log ⊆ log)
    (hadvanced : ∀ msg next, .advanced msg next ∈ log → .advanced msg next ∈ node.log)
    (hbroadcast : ∀ msg pbft, .broadcast msg pbft ∈ log →
      .broadcast msg pbft ∈ node.log
        ∨ Issued node.nodeId pbft msg ∧ Justified Own log pbft msg)
    : Ledger Auth Own q { node with log } := by
  constructor
  case votes =>
    intro key stage voter hvoter
    exact (h.votes key stage voter hvoter).mono hlog
  case rounds =>
    intro key hstate
    exact (h.rounds key hstate).mono hlog
  case prepared =>
    intro msg hmem
    exact h.prepared msg (hadvanced msg _ hmem)
  case executed =>
    intro msg hmem
    obtain ⟨hopened, voters, hcard, hvoted⟩ := h.executed msg (hadvanced msg _ hmem)
    exact ⟨hopened.mono hlog, voters, hcard, fun voter hvoter => (hvoted voter hvoter).mono hlog⟩
  case origins =>
    intro msg next hmem
    rcases h.origins msg next (hadvanced msg next hmem) with hauth | ⟨pbft, hpbft⟩
    . exact .inl hauth
    . exact .inr ⟨pbft, hlog hpbft⟩
  case broadcasts =>
    intro msg pbft hmem
    rcases hbroadcast msg pbft hmem with hold | hnew
    . obtain ⟨hissued, hjustified⟩ := h.broadcasts msg pbft hold
      exact ⟨hissued, hjustified.mono hlog⟩
    . exact hnew
  case genesis => exact h.genesis
  case history => exact h.history

theorem ledger_emit {event : Event C} (hadvanced : ∀ msg next, event ≠ .advanced msg next)
    (hbroadcast : ∀ msg pbft, event ≠ .broadcast msg pbft)
    : Ledger Auth Own q (node.emit event) := by
  apply ledger_log h (List.subset_cons_self event node.log)
  . intro msg next hmem
    rcases List.mem_cons.mp hmem with heq | hold
    . exact absurd heq.symm (hadvanced msg next)
    . exact hold
  . intro msg pbft hmem
    rcases List.mem_cons.mp hmem with heq | hold
    . exact absurd heq.symm (hbroadcast msg pbft)
    . exact .inl hold

theorem ledger_advance (hhex : C.HexDigest) {msg : P2PMessage} {a : Ambient}
    (hq : node.pbft.quorumSize = q)
    (horigin : Auth msg ∨ ∃ pbft, .broadcast msg pbft ∈ node.log)
    : Ledger Auth Own q
        ({ node with pbft := (node.pbft.advanceState a msg).2 }.emit
          (.advanced msg (node.pbft.advanceState a msg).1)) := by
  have hlog : node.log ⊆ .advanced msg (node.pbft.advanceState a msg).1 :: node.log :=
    List.subset_cons_self _ _
  have hevent : .advanced msg (node.pbft.advanceState a msg).1
      ∈ (.advanced msg (node.pbft.advanceState a msg).1 :: node.log : List (Event C)) :=
    List.mem_cons_self
  have hvotes : ∀ key stage voter, voter ∈ (node.pbft.advanceState a msg).2.voters key stage →
      Voted (.advanced msg (node.pbft.advanceState a msg).1 :: node.log) key stage voter := by
    intro key stage voter hvoter
    rcases PBFTConsensus.mem_voters_of_advanceState hvoter with hold | ⟨_, rfl, rfl, rfl⟩
    . exact (h.votes key stage voter hold).mono hlog
    . exact ⟨msg, _, hevent, rfl, rfl, rfl⟩
  have hrounds : ∀ key, ((node.pbft.advanceState a msg).2.roundOf key).state ≠ .idle →
      Opened (.advanced msg (node.pbft.advanceState a msg).1 :: node.log) key
        ((node.pbft.advanceState a msg).2.roundOf key).view := by
    intro key hstate
    rcases PBFTConsensus.opened_of_advanceState hstate with ⟨hold, hview⟩ | ⟨hkey, hprepare, hview⟩
    . rw [hview]
      exact (h.rounds key hold).mono hlog
    . rw [hview]
      exact ⟨msg, hprepare ▸ hevent, hkey.symm, rfl⟩
  constructor
  case votes => exact hvotes
  case rounds => exact hrounds
  case prepared =>
    intro msg' hmem
    rcases List.mem_cons.mp hmem with heq | hold
    . have htriggers := node.pbft.triggers_advanceState a msg
      obtain ⟨rfl, hprepare⟩ := Event.advanced.inj heq
      rw [← hprepare] at htriggers
      exact htriggers
    . exact h.prepared msg' hold
  case executed =>
    intro msg' hmem
    rcases List.mem_cons.mp hmem with heq | hold
    . obtain ⟨rfl, hexecuted⟩ := Event.advanced.inj heq
      obtain ⟨hcard, hstate, hview⟩ := PBFTConsensus.quorum_of_advanceState_executed hexecuted.symm
      constructor
      . rw [← hview]
        apply hrounds
        simp [hstate]
      . exact ⟨_, hq ▸ hcard, hvotes _ _⟩
    . obtain ⟨hopened, voters, hcard, hvoted⟩ := h.executed msg' hold
      exact ⟨hopened.mono hlog, voters, hcard, fun voter hvoter => (hvoted voter hvoter).mono hlog⟩
  case origins =>
    intro msg' next hmem
    have horigin' : Auth msg' ∨ ∃ pbft, .broadcast msg' pbft ∈ node.log := by
      rcases List.mem_cons.mp hmem with heq | hold
      . obtain ⟨rfl, _⟩ := Event.advanced.inj heq
        exact horigin
      . exact h.origins msg' next hold
    rcases horigin' with hauth | ⟨pbft, hpbft⟩
    . exact .inl hauth
    . exact .inr ⟨pbft, hlog hpbft⟩
  case broadcasts =>
    intro msg' pbft hmem
    rcases List.mem_cons.mp hmem with heq | hold
    . contradiction
    . obtain ⟨hissued, hjustified⟩ := h.broadcasts msg' pbft hold
      exact ⟨hissued, hjustified.mono hlog⟩
  case genesis =>
    dsimp only [emit]
    rw [PBFTConsensus.genesisHash_advanceState]
    exact h.genesis
  case history =>
    intro seq hash hentry
    rcases PBFTConsensus.history_advanceState _ _ hentry with hold | ⟨_, _, rfl⟩
    . exact h.history seq hash hold
    . apply PBFTConsensus.pipe_notMem_sha256Hex hhex

theorem ledger_receive (hhex : C.HexDigest) {env : Env} {msg : P2PMessage}
    (hq : node.pbft.quorumSize = q)
    (horigin : node.pbft.Verifies msg → Auth msg ∨ ∃ pbft, .broadcast msg pbft ∈ node.log)
    : Ledger Auth Own q (node.receive env msg).2 := by
  by_cases hvalid : node.pbft.Verifies msg
  . have hsuccess : Ledger Auth Own q { node with pbft := node.pbft.recordSuccess msg.senderId } := by
      refine ledger_pbft h (fun _ _ _ hvoter => hvoter) (fun _ => ⟨rfl, rfl⟩) ?_
      apply PBFTConsensus.Continues.of_eq <;> rfl
    unfold receive
    rw [PBFTConsensus.receive_of_verifies hvalid]
    exact ledger_advance hsuccess hhex hq (horigin hvalid)
  . unfold receive
    rw [PBFTConsensus.receive_of_not_verifies hvalid]
    apply ledger_pbft h
    . intro key stage voter hvoter
      exact PBFTConsensus.mem_voters_of_verifyMessage hvoter
    . intro key
      unfold PBFTConsensus.roundOf
      rw [PBFTConsensus.rounds_verifyMessage]
      exact ⟨rfl, rfl⟩
    . apply PBFTConsensus.continues_verifyMessage

theorem ledger_commitSig (key sig : Bytes)
    : Ledger Auth Own q { node with pbft := node.pbft.setRoundCommitSig key sig } := by
  refine ledger_pbft h (fun _ _ _ hvoter => hvoter) ?_ ?_
  . intro key'
    unfold PBFTConsensus.setRoundCommitSig
    rw [PBFTConsensus.roundOf_setRound]
    split
    . next heq =>
      subst heq
      exact ⟨rfl, rfl⟩
    . exact ⟨rfl, rfl⟩
  . apply PBFTConsensus.continues_setRoundCommitSig

theorem ledger_afterSend {stageStr targetId evidenceJson : Bytes} (htarget : pipe ∉ targetId)
    (hjustified : Justified Own node.log node.pbft (node.ownMessage stageStr targetId evidenceJson))
    : Ledger Auth Own q (node.afterSend stageStr targetId evidenceJson) := by
  have hprev := PBFTConsensus.pipe_notMem_getLastSentHash h.genesis h.history
  -- `pbft` is the object after the signature of the vote has been stored.
  have hsend : ∀ pbft : PBFTConsensus C, Ledger Auth Own q { node with pbft } →
      pbft.privateKey = node.pbft.privateKey →
      Justified Own node.log pbft (node.ownMessage stageStr targetId evidenceJson) →
      Ledger Auth Own q {
        node with
        sequenceNumber := node.sequenceNumber + 1
        pbft
        log := .broadcast (node.ownMessage stageStr targetId evidenceJson) pbft :: node.log
      } := by
    intro pbft hpbft hkey hjustified
    have hsigned : (node.ownMessage stageStr targetId evidenceJson).signature
        = pbft.signMessage (node.ownMessage stageStr targetId evidenceJson) := by
      unfold PBFTConsensus.signMessage
      rw [hkey]
      rfl
    have hlog : node.log
        ⊆ .broadcast (node.ownMessage stageStr targetId evidenceJson) pbft :: node.log :=
      List.subset_cons_self _ _
    have hledger := ledger_log hpbft hlog (by simp) (by
      intro msg pbft' hmem
      rcases List.mem_cons.mp hmem with heq | hold
      . obtain ⟨rfl, rfl⟩ := Event.broadcast.inj heq
        exact .inr ⟨⟨rfl, hsigned, htarget, hprev⟩, hjustified.mono hlog⟩
      . exact .inl hold)
    exact ledger_congr hledger rfl rfl rfl
  unfold afterSend
  dsimp only
  split
  . exact hsend _ (ledger_commitSig h _ _) rfl hjustified
  . exact hsend _ h rfl hjustified

end Steps

structure LedgerAt (Auth Own : P2PMessage → Prop) (q : Nat) (targetId evidenceJson : Bytes)
    (next : Option PBFTStage) (node : MeshNode C) : Prop where
  ledger : Ledger Auth Own q node
  quorum : next ≠ none → node.pbft.quorumSize = q
  prepared : next = some .commit →
    q ≤ (node.pbft.voters (roundKey C evidenceJson targetId) Stage.prepare).card

variable {targetId evidenceJson : Bytes}

theorem ledgerAt_receive (h : Ledger Auth Own q node) (hhex : C.HexDigest) (env : Env)
    (msg : P2PMessage) (hq : node.pbft.quorumSize = q)
    (horigin : node.pbft.Verifies msg → Auth msg ∨ ∃ pbft, .broadcast msg pbft ∈ node.log)
    : LedgerAt Auth Own q msg.targetId msg.evidenceJson (node.receive env msg).1
        (node.receive env msg).2 := by
  constructor
  . exact ledger_receive h hhex hq horigin
  . intro hnext
    rw [fst_receive] at hnext
    rw [pbft_receive, ← hq]
    obtain ⟨next, hnext⟩ := Option.ne_none_iff_exists'.mp hnext
    have hsame := PBFTConsensus.sameMembers_receive hnext
    unfold PBFTConsensus.quorumSize
    rw [hsame.total_eq]
  . intro hnext
    rw [fst_receive] at hnext
    rw [pbft_receive, ← hq]
    exact PBFTConsensus.quorum_of_receive_commit hnext

theorem ledgerAt_castOwnVote (h : Ledger Auth Own q node) (hhex : C.HexDigest) {env : Env}
    {stageStr : Bytes} (hq : node.pbft.quorumSize = q) (htarget : pipe ∉ targetId)
    (hjustified : Justified Own node.log node.pbft (node.ownMessage stageStr targetId evidenceJson))
    : LedgerAt Auth Own q targetId evidenceJson
        (node.castOwnVote env stageStr targetId evidenceJson).1
        (node.castOwnVote env stageStr targetId evidenceJson).2 := by
  rw [castOwnVote_eq]
  apply ledgerAt_receive (ledger_afterSend h htarget hjustified) hhex env
    (node.ownMessage stageStr targetId evidenceJson)
  . rw [← hq]
    unfold afterSend
    dsimp only
    split <;> rfl
  . intro _
    exact .inr ⟨_, List.mem_cons_self⟩

theorem ledger_banPeerLocal (h : Ledger Auth Own q node) (nodeId reason : Bytes)
    : Ledger Auth Own q { node with pbft := node.pbft.banPeerLocal nodeId reason } := by
  refine ledger_pbft h (fun _ _ _ hvoter => hvoter) (fun _ => ⟨rfl, rfl⟩) ?_
  apply PBFTConsensus.continues_banPeerLocal

theorem ledger_onExecuted (h : Ledger Auth Own q node) (stageStr commitSig : Bytes)
    : Ledger Auth Own q (node.onExecuted stageStr targetId evidenceJson commitSig) := by
  unfold onExecuted
  split
  . apply ledger_emit
    . exact ledger_banPeerLocal h targetId _
    . simp
    . simp
  . split
    . exact h
    . apply ledger_emit
      . apply ledger_emit
        . apply ledger_emit h <;> simp
        . simp
        . simp
      . simp
      . simp

theorem ledger_dispatch (hhex : C.HexDigest) (htarget : pipe ∉ targetId) {next : Option PBFTStage}
    (h : LedgerAt Auth Own q targetId evidenceJson next node) (fuel : Nat) (env : Env)
    (stageStr commitSig : Bytes)
    : Ledger Auth Own q
        (node.dispatch fuel env next stageStr targetId evidenceJson commitSig) := by
  apply dispatch_induction (E := fun _ => True)
    (M := fun next _ node => LedgerAt Auth Own q targetId evidenceJson next node)
  . simp
  . simp
  . intro _ _ _ h
    exact h.ledger
  . intro _ node env _ h
    apply ledgerAt_castOwnVote h.ledger hhex (h.quorum (by simp)) htarget
    exact .inr (.inl rfl)
  . intro _ node env _ h
    have hemit : Ledger Auth Own q (node.emit (.journal (bytes "COMMIT") targetId evidenceJson)) := by
      apply ledger_emit h.ledger <;> simp
    have hquorum := h.quorum (by simp)
    apply ledgerAt_castOwnVote hemit hhex hquorum htarget
    refine .inr (.inr ⟨rfl, ?_⟩)
    exact hquorum ▸ h.prepared rfl
  . intro stageStr node commitSig h
    exact ledger_onExecuted h.ledger stageStr commitSig
  . trivial
  . exact h

section Handlers

variable (hhex : C.HexDigest) (h : Ledger Auth Own q node) (hq : node.pbft.quorumSize = q)
include hhex h hq

theorem ledger_broadcastPbftStage (env : Env) (htarget : pipe ∉ targetId)
    (hproposed : .proposed targetId evidenceJson ∈ node.log)
    (hown : Own (node.ownMessage Stage.prePrepare targetId evidenceJson))
    : Ledger Auth Own q (node.broadcastPbftStage env Stage.prePrepare targetId evidenceJson) := by
  unfold broadcastPbftStage
  apply ledger_dispatch hhex htarget
  apply ledgerAt_castOwnVote h hhex hq htarget
  exact .inl ⟨rfl, hproposed, hown⟩

theorem ledger_proposed (env : Env) (htarget : pipe ∉ targetId)
    (hown : ∀ msg : P2PMessage, msg.view = node.pbft.currentView → msg.targetId = targetId →
      msg.evidenceJson = evidenceJson → Own msg)
    {start : MeshNode C} (hid : start.nodeId = node.nodeId) (hpbft : start.pbft = node.pbft)
    (hlog : start.log = .proposed targetId evidenceJson :: node.log)
    : Ledger Auth Own q (start.broadcastPbftStage env Stage.prePrepare targetId evidenceJson) := by
  have hemit : Ledger Auth Own q (node.emit (.proposed targetId evidenceJson)) := by
    apply ledger_emit h <;> simp
  apply ledger_broadcastPbftStage hhex
  . exact ledger_congr hemit hid hpbft hlog
  . rw [hpbft, hq]
  . exact htarget
  . rw [hlog]
    exact List.mem_cons_self
  . apply hown
    . rw [← hpbft]
      rfl
    . rfl
    . rfl

theorem ledger_initiateConsensus (env : Env) (htarget : pipe ∉ targetId)
    (hown : ∀ msg : P2PMessage, msg.view = node.pbft.currentView → msg.targetId = targetId →
      msg.evidenceJson = evidenceJson → Own msg)
    : Ledger Auth Own q (node.initiateConsensus env targetId evidenceJson) := by
  unfold initiateConsensus
  extract_lets start peerManager
  split
  . apply ledger_emit h <;> simp
  . apply ledger_proposed hhex h hq env.right htarget hown <;> rfl

theorem ledger_proposeBan (env : Env) (reason : Bytes) (htarget : pipe ∉ targetId)
    (hown : ∀ msg : P2PMessage, msg.view = node.pbft.currentView → msg.targetId = targetId →
      msg.evidenceJson = banEvidence reason → Own msg)
    : Ledger Auth Own q (node.proposeBan env targetId reason).2 := by
  unfold proposeBan
  split
  . exact h
  . extract_lets start sent
    have hsent : Ledger Auth Own q sent := by
      apply ledger_proposed hhex h hq env htarget hown <;> rfl
    split
    . exact hsent
    . apply ledger_emit
      . exact ledger_banPeerLocal hsent targetId reason
      . simp
      . simp

theorem ledger_proposeRecentBans_go (env : Env) (bans : List Bytes)
    (hend : (proposeRecentBans.go node env bans).pbft.quorumSize = q)
    (htarget : ∀ banned ∈ bans, pipe ∉ banned)
    (hown : ∀ msg : P2PMessage, msg.view = node.pbft.currentView → msg.targetId ∈ bans →
      msg.evidenceJson = banEvidence (bytes "local_auto_ban") → Own msg)
    : Ledger Auth Own q (proposeRecentBans.go node env bans) := by
  induction bans generalizing node env with
  | nil => exact h
  | cons banned bans ih =>
    unfold proposeRecentBans.go at hend ⊢
    have hvotes := keptByVoting_votes.proposeBan node env.left banned (bytes "local_auto_ban")
    apply ih
    . apply ledger_proposeBan hhex h hq env.left _ (htarget banned List.mem_cons_self)
      intro msg hview htarget
      apply hown msg hview
      rw [htarget]
      exact List.mem_cons_self
    -- The quorum can only shrink on the way to the end, where it is as large as before.
    . apply Nat.le_antisymm
      . rw [← hq]
        exact PBFTConsensus.quorumSize_le_of_votes hvotes
      . rw [← hend]
        apply PBFTConsensus.quorumSize_le_of_votes
        apply keptByVoting_votes.proposeRecentBans_go
    . exact hend
    . intro other hother
      exact htarget other (List.mem_cons_of_mem banned hother)
    . intro msg hview htarget
      rw [PBFTConsensus.currentView_of_votes hvotes] at hview
      exact hown msg hview (List.mem_cons_of_mem banned htarget)

theorem ledger_processVote (env : Env) {vote : P2PMessage} (htarget : pipe ∉ vote.targetId)
    (hauth : vote.senderId ≠ node.nodeId → node.pbft.Verifies vote → Auth vote)
    : Ledger Auth Own q (node.processVote env vote) := by
  unfold processVote
  split
  . exact h
  . next hsender =>
    extract_lets start
    have hstart : Ledger Auth Own q start ∧ start.pbft = node.pbft := by
      unfold start
      split
      . exact ⟨ledger_congr h rfl rfl rfl, rfl⟩
      . exact ⟨h, rfl⟩
    apply ledger_dispatch hhex htarget
    apply ledgerAt_receive hstart.1 hhex env.left vote
    . rw [hstart.2, hq]
    . rw [hstart.2]
      intro hvalid
      exact .inl (hauth hsender hvalid)

end Handlers

theorem ledger_of_quiet {node' : MeshNode C} (h : Ledger Auth Own q node) (hquiet : Quiet node node')
    : Ledger Auth Own q node' := by
  have hlog : Ledger Auth Own q { node with log := node'.log } := by
    apply ledger_log h hquiet.log_subset
    . intro msg next hmem
      rcases hquiet.announced _ hmem with hold | ⟨payload, heq⟩
      . exact hold
      . contradiction
    . intro msg pbft hmem
      rcases hquiet.announced _ hmem with hold | ⟨payload, heq⟩
      . exact .inl hold
      . contradiction
  have hpbft : Ledger Auth Own q { node with log := node'.log, pbft := node'.pbft } := by
    apply ledger_pbft hlog hquiet.voters _ hquiet.continues
    intro key
    unfold PBFTConsensus.roundOf
    rw [hquiet.rounds_eq]
    exact ⟨rfl, rfl⟩
  exact ledger_congr hpbft hquiet.nodeId_eq rfl rfl

def proposals (node : MeshNode C) (step : Step) : List (Bytes × Bytes) :=
  match step.action with
  | .initiateConsensus targetId evidenceJson => [(targetId, evidenceJson)]
  | .proposeBan targetId reason => [(targetId, banEvidence reason)]
  | .proposeRecentBans =>
    node.pbft.recentBans.toList.map (·, banEvidence (bytes "local_auto_ban"))
  | _ => []

def handed (node : MeshNode C) (step : Step) : Option P2PMessage :=
  match step.action with
  | .message msg _ => node.incoming msg
  | _ => none

theorem framed_of_handed {step : Step} {vote : P2PMessage} (h : node.handed step = some vote)
    : Framed vote := by
  unfold handed at h
  split at h
  . exact framed_of_incoming h
  . contradiction

theorem ledger_proposeRecentBans (hhex : C.HexDigest) (h : Ledger Auth Own q node)
    (hq : node.pbft.quorumSize = q) (env : Env)
    (hend : (node.proposeRecentBans env).pbft.quorumSize = q)
    (htarget : ∀ banned ∈ node.pbft.recentBans, pipe ∉ banned)
    (hown : ∀ msg : P2PMessage, msg.view = node.pbft.currentView →
      msg.targetId ∈ node.pbft.recentBans →
      msg.evidenceJson = banEvidence (bytes "local_auto_ban") → Own msg)
    : Ledger Auth Own q (node.proposeRecentBans env) := by
  have hbans : ∀ banned, banned ∈ (node.pbft.drainRecentBans (env 0)).1 →
      banned ∈ node.pbft.recentBans := by
    intro banned hbanned
    rw [← Std.ExtTreeSet.mem_toList]
    exact ((env 0).bucketOrder_perm _).mem_iff.mp hbanned
  have hdrain : Ledger Auth Own q { node with pbft := (node.pbft.drainRecentBans (env 0)).2 } := by
    refine ledger_pbft h (fun _ _ _ hvoter => hvoter) (fun _ => ⟨rfl, rfl⟩) ?_
    apply PBFTConsensus.Continues.of_eq <;> rfl
  apply ledger_proposeRecentBans_go hhex hdrain hq env.right _ hend
  . intro banned hbanned
    exact htarget banned (hbans banned hbanned)
  . intro msg hview hmem
    exact hown msg hview (hbans msg.targetId hmem)

theorem ledger_processMessage (hhex : C.HexDigest) (h : Ledger Auth Own q node)
    (hq : node.pbft.quorumSize = q) (env : Env) (msg senderIp : Bytes)
    (hauth : ∀ vote, node.incoming msg = some vote → vote.senderId ≠ node.nodeId →
      node.pbft.Verifies vote → Auth vote)
    : Ledger Auth Own q (node.processMessage env msg senderIp) := by
  have hstart : ∀ peerManager, Ledger Auth Own q { node with peerManager } := fun _ => ledger_congr h rfl rfl rfl
  refine processMessage_rule node env msg senderIp hstart ?_ ?_
  . intro peerManager tokens
    exact ledger_of_quiet (hstart peerManager) (keptByUpkeep_quiet.processAnnounce _ _ _ _)
  . intro peerManager vote hvote
    exact ledger_processVote hhex (hstart peerManager) hq env.right (framed_of_incoming hvote).target
      (hauth vote hvote)

theorem ledger_act (hhex : C.HexDigest) (h : Ledger Auth Own q node) (step : Step)
    (hq : node.pbft.quorumSize = q) (hend : (node.act step).pbft.quorumSize = q)
    (htarget : ∀ proposal ∈ node.proposals step, pipe ∉ proposal.1)
    (hown : ∀ msg : P2PMessage, (msg.targetId, msg.evidenceJson) ∈ node.proposals step →
      msg.view = node.pbft.currentView → Own msg)
    (hauth : ∀ vote, node.handed step = some vote → vote.senderId ≠ node.nodeId →
      node.pbft.Verifies vote → Auth vote)
    : Ledger Auth Own q (node.act step) := by
  by_cases hupkeep : step.action.isUpkeep
  . exact ledger_of_quiet h (keptByUpkeep_quiet.act node step hupkeep)
  . obtain ⟨env, dial, action⟩ := step
    unfold act at hend ⊢
    unfold proposals at htarget hown
    cases action with
    | message msg senderIp => exact ledger_processMessage hhex h hq env msg senderIp hauth
    | proposeRecentBans =>
      apply ledger_proposeRecentBans hhex h hq env hend
      . intro banned hbanned
        exact htarget _ (List.mem_map_of_mem (Std.ExtTreeSet.mem_toList.mpr hbanned))
      . intro msg hview hmem hevidence
        apply hown msg _ hview
        rw [hevidence]
        exact List.mem_map_of_mem (Std.ExtTreeSet.mem_toList.mpr hmem)
    | initiateConsensus targetId evidenceJson =>
      apply ledger_initiateConsensus hhex h hq env (htarget _ List.mem_cons_self)
      intro msg hview heq hevidence
      apply hown msg _ hview
      rw [heq, hevidence]
      exact List.mem_cons_self
    | proposeBan targetId reason =>
      apply ledger_proposeBan hhex h hq env reason (htarget _ List.mem_cons_self)
      intro msg hview heq hevidence
      apply hown msg _ hview
      rw [heq, hevidence]
      exact List.mem_cons_self
    | _ => exact absurd trivial hupkeep

theorem ledger_mono {Auth' : P2PMessage → Prop} (himp : ∀ msg, Auth msg → Auth' msg)
    (h : Ledger Auth Own q node)
    : Ledger Auth' Own q node := by
  refine { h with origins := ?_ }
  intro msg next hmem
  exact (h.origins msg next hmem).imp_left (himp msg)

theorem ledger_new (hhex : C.HexDigest) (nodeId : Bytes) (key pbftKey : C.PrivKey)
    (settings : Settings)
    : Ledger Auth Own q (new C nodeId key pbftKey settings) := by
  unfold new
  extract_lets pbft₀ pbft₁ pbft₂ pbft node
  apply ledger_of_quiet _ (Quiet.of_foldl quiet_provisionPeer node _)
  have hvotes : pbft.voteRegistry = ∅ := rfl
  have hrounds : pbft.rounds = ∅ := rfl
  have hhistory : pbft.messageHistory = ∅ := rfl
  constructor
  case votes => simp [node, PBFTConsensus.voters, hvotes]
  case rounds => simp [node, PBFTConsensus.roundOf, hrounds]
  case history => simp [node, PBFTConsensus.historyOf, hhistory]
  case genesis => apply PBFTConsensus.pipe_notMem_sha256Hex hhex
  all_goals simp [node]

end MeshNode
end NeuroMesh
