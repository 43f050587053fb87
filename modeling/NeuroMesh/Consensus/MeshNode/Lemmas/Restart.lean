import NeuroMesh.Consensus.MeshNode.Lemmas.Quiet
import NeuroMesh.Consensus.MeshNode.Lemmas.Threads
import NeuroMesh.Consensus.PBFT.Lemmas.Equivocation

/-!
This module contains the analysis of a node that is restarted while another node stays up. The key of the
node survives the restart, its sequence number does not.
-/

namespace NeuroMesh

open PBFTConsensus (computeMessageHash)

variable {C : IdentityCore}

namespace Threads

structure Distinct (st : Threads C) : Prop where
  broadcasts : ∀ thread frame, st.frames thread = some frame → frame.next = .fetchAdd →
    frame.msg.senderId = st.nodeId
  fresh : ∀ thread frame, st.frames thread = some frame → numbered frame.next = true →
    st.Fresh frame.msg
  apart : ∀ thread thread' frame frame', thread ≠ thread' →
    st.frames thread = some frame → st.frames thread' = some frame' →
    numbered frame.next = true → numbered frame'.next = true →
    frame.msg.sequenceNumber ≠ frame'.msg.sequenceNumber
  sender : ∀ msg ∈ st.sent, msg.senderId = st.nodeId
  le : ∀ msg ∈ st.sent, msg.sequenceNumber.toNat ≤ st.sequenceNumber.toNat
  unique : ∀ msg ∈ st.sent, ∀ msg' ∈ st.sent, msg.sequenceNumber = msg'.sequenceNumber → msg = msg'

variable {st : Threads C}

theorem distinct_new (node : MeshNode C) : Distinct (new node) := by
  constructor
  all_goals simp [new]

structure Allowed (st : Threads C) (thread : Nat) (frame : ThreadFrame) : Prop where
  sender_eq : frame.next = .fetchAdd → frame.msg.senderId = st.nodeId
  fresh : numbered frame.next = true → st.Fresh frame.msg
  apart : numbered frame.next = true → ∀ thread' frame', thread' ≠ thread →
    st.frames thread' = some frame' → numbered frame'.next = true →
    frame'.msg.sequenceNumber ≠ frame.msg.sequenceNumber

theorem distinct_goto (h : st.Distinct) {thread : Nat} {frame : Option ThreadFrame}
    (hframe : ∀ f, frame = some f → st.Allowed thread f)
    : (st.goto thread frame).Distinct := by
  have hcases (thread' : Nat) (f : ThreadFrame) (hf : (st.goto thread frame).frames thread' = some f)
      : (thread' = thread ∧ frame = some f) ∨ (thread' ≠ thread ∧ st.frames thread' = some f) := by
    by_cases heq : thread' = thread
    . rw [heq, frames_goto] at hf
      exact .inl ⟨heq, hf⟩
    . refine .inr ⟨heq, ?_⟩
      simpa [goto, heq] using hf
  constructor
  . intro thread' f hf hnext
    rcases hcases thread' f hf with ⟨_, hf⟩ | ⟨_, hf⟩
    . exact (hframe f hf).sender_eq hnext
    . exact h.broadcasts thread' f hf hnext
  . intro thread' f hf hnumbered
    rcases hcases thread' f hf with ⟨_, hf⟩ | ⟨_, hf⟩
    . have hfresh := (hframe f hf).fresh hnumbered
      exact ⟨hfresh.sender_eq, hfresh.pos, hfresh.le, hfresh.unsent⟩
    . have hfresh := h.fresh thread' f hf hnumbered
      exact ⟨hfresh.sender_eq, hfresh.pos, hfresh.le, hfresh.unsent⟩
  . intro thread₁ thread₂ f₁ f₂ hne hf₁ hf₂ hnumbered₁ hnumbered₂
    rcases hcases thread₁ f₁ hf₁ with ⟨heq₁, hnew₁⟩ | ⟨hne₁, hold₁⟩
    . rcases hcases thread₂ f₂ hf₂ with ⟨heq₂, _⟩ | ⟨hne₂, hold₂⟩
      . exact absurd (heq₁.trans heq₂.symm) hne
      . exact ((hframe f₁ hnew₁).apart hnumbered₁ thread₂ f₂ hne₂ hold₂ hnumbered₂).symm
    . rcases hcases thread₂ f₂ hf₂ with ⟨_, hnew₂⟩ | ⟨_, hold₂⟩
      . exact (hframe f₂ hnew₂).apart hnumbered₂ thread₁ f₁ hne₁ hold₁ hnumbered₁
      . exact h.apart thread₁ thread₂ f₁ f₂ hne hold₁ hold₂ hnumbered₁ hnumbered₂
  . exact h.sender
  . exact h.le
  . exact h.unique

theorem distinct_goto_some (h : st.Distinct) {thread : Nat} {frame : ThreadFrame}
    (hframe : st.Allowed thread frame)
    : (st.goto thread (some frame)).Distinct := by
  apply distinct_goto h
  intro f hf
  rw [← Option.some.inj hf]
  exact hframe

theorem Distinct.allowed (h : st.Distinct) {thread : Nat} {next next' : ProgramPoint} {msg msg' : P2PMessage}
    (hframe : st.frames thread = some { next, msg }) (hnumbered : numbered next = true)
    (hnext' : next' ≠ .fetchAdd) (hsender : msg'.senderId = msg.senderId)
    (hseq : msg'.sequenceNumber = msg.sequenceNumber)
    : st.Allowed thread { next := next', msg := msg' } := by
  have hfresh := h.fresh thread _ hframe hnumbered
  constructor
  . intro heq
    exact absurd heq hnext'
  . intro _
    refine ⟨?_, ?_, ?_, ?_⟩
    . rw [hsender]
      exact hfresh.sender_eq
    . rw [hseq]
      exact hfresh.pos
    . rw [hseq]
      exact hfresh.le
    . rw [hseq]
      exact hfresh.unsent
  . intro _ thread' frame' hne hframe' hnumbered'
    rw [hseq]
    exact h.apart thread' thread frame' _ hne hframe' hframe hnumbered' hnumbered

theorem allowed_of_not_numbered (thread : Nat) {frame : ThreadFrame} (hnext : frame.next ≠ .fetchAdd)
    (hnumbered : numbered frame.next = false)
    : st.Allowed thread frame := by
  refine ⟨?_, ?_, ?_⟩
  . intro heq
    exact absurd heq hnext
  . simp [hnumbered]
  . simp [hnumbered]

theorem allowed_broadcast (st : Threads C) (thread : Nat) (stageStr targetId evidenceJson : Bytes)
    : st.Allowed thread (st.broadcast stageStr targetId evidenceJson) := by
  refine ⟨fun _ => rfl, ?_, ?_⟩
  . simp [broadcast, numbered]
  . simp [broadcast, numbered]

theorem allowed_dispatch (thread : Nat) {stage : PBFTStage} {msg : P2PMessage} {frame : ThreadFrame}
    (hframe : st.dispatch stage msg = some frame)
    : st.Allowed thread frame := by
  unfold dispatch at hframe
  split at hframe
  . cases hframe
    exact allowed_broadcast st thread _ _ _
  . cases hframe
    exact allowed_broadcast st thread _ _ _
  . split at hframe
    . cases hframe
      exact allowed_of_not_numbered thread (by simp) rfl
    . contradiction
  . contradiction

theorem distinct_fetchAdd (h : st.Distinct) (hlt : st.sequenceNumber.toNat + 1 < 2 ^ 64) {thread : Nat}
    {msg : P2PMessage} (hframe : st.frames thread = some { next := .fetchAdd, msg })
    : ({ st with sequenceNumber := st.sequenceNumber + 1 }.goto thread (some {
        next := .currentView
        msg := { msg with sequenceNumber := st.sequenceNumber + 1 }
      })).Distinct := by
  have hone := MeshNode.toNat_add_one st.sequenceNumber hlt
  have hsender := h.broadcasts thread _ hframe rfl
  have hne {seq : UInt64} (hle : seq.toNat ≤ st.sequenceNumber.toNat) : seq ≠ st.sequenceNumber + 1 := by
    intro heq
    rw [heq] at hle
    omega
  apply distinct_goto_some
  . constructor
    . exact h.broadcasts
    . intro thread' frame hf hnumbered
      have hfresh := h.fresh thread' frame hf hnumbered
      refine ⟨hfresh.sender_eq, hfresh.pos, ?_, hfresh.unsent⟩
      have hle := hfresh.le
      show _ ≤ (st.sequenceNumber + 1).toNat
      omega
    . exact h.apart
    . exact h.sender
    . intro msg' hmsg'
      have hle := h.le msg' hmsg'
      show _ ≤ (st.sequenceNumber + 1).toNat
      omega
    . exact h.unique
  . constructor
    . simp
    . intro _
      refine ⟨hsender, ?_, ?_, ?_⟩
      . show 0 < (st.sequenceNumber + 1).toNat
        omega
      . exact Nat.le_refl _
      . intro m hm
        exact hne (h.le m hm)
    . intro _ thread' frame' _ hframe' hnumbered'
      exact hne (h.fresh thread' frame' hframe' hnumbered').le

theorem distinct_send (h : st.Distinct) {thread : Nat} {msg : P2PMessage}
    (hframe : st.frames thread = some { next := .send, msg })
    : ({ st with sent := msg :: st.sent }.goto thread (some { next := .verifyMessage, msg })).Distinct := by
  have hfresh := h.fresh thread _ hframe rfl
  -- the frame is replaced first, so that the message is not taken for one of the numbered ones
  have hgoto : (st.goto thread (some { next := .verifyMessage, msg })).Distinct := by
    exact distinct_goto_some h (allowed_of_not_numbered thread (by simp) rfl)
  constructor
  . exact hgoto.broadcasts
  . intro thread' frame hf hnumbered
    have hold := hgoto.fresh thread' frame hf hnumbered
    refine ⟨hold.sender_eq, hold.pos, hold.le, ?_⟩
    intro m hm
    rcases List.mem_cons.mp hm with rfl | hm
    . have hne : thread' ≠ thread := by
        rintro rfl
        rw [frames_goto] at hf
        cases hf
        contradiction
      have hf : st.frames thread' = some frame := by
        simpa [goto, hne] using hf
      exact h.apart thread thread' _ frame hne.symm hframe hf rfl hnumbered
    . exact hold.unsent m hm
  . exact hgoto.apart
  . intro m hm
    rcases List.mem_cons.mp hm with rfl | hm
    . exact hfresh.sender_eq
    . exact h.sender m hm
  . intro m hm
    rcases List.mem_cons.mp hm with rfl | hm
    . exact hfresh.le
    . exact h.le m hm
  . intro m hm m' hm' hseq
    rcases List.mem_cons.mp hm with rfl | hold
    . rcases List.mem_cons.mp hm' with rfl | hold'
      . rfl
      . exact absurd hseq.symm (hfresh.unsent m' hold')
    . rcases List.mem_cons.mp hm' with rfl | hold'
      . exact absurd hseq (hfresh.unsent m hold)
      . exact h.unique m hold m' hold' hseq

theorem distinct_pbft (h : st.Distinct) (pbft : PBFTConsensus C) (verdicts : List (P2PMessage × Bool))
    : Distinct { st with pbft, verdicts } := by
  refine ⟨h.broadcasts, ?_, h.apart, h.sender, h.le, h.unique⟩
  intro thread frame hf hnumbered
  have hfresh := h.fresh thread frame hf hnumbered
  exact ⟨hfresh.sender_eq, hfresh.pos, hfresh.le, hfresh.unsent⟩

theorem distinct_resume (h : st.Distinct) (hlt : st.sequenceNumber.toNat + 1 < 2 ^ 64) (thread : Nat)
    (a : Ambient)
    : (st.resume thread a).Distinct := by
  unfold resume
  split
  . exact h
  . next next msg hframe =>
    cases next with
    | fetchAdd => exact distinct_fetchAdd h hlt hframe
    | send => exact distinct_send h hframe
    | currentView =>
      exact distinct_goto_some h (h.allowed hframe rfl (by simp) rfl rfl)
    | getLastSentHash =>
      exact distinct_goto_some h (h.allowed hframe rfl (by simp) rfl rfl)
    | signMessage =>
      exact distinct_goto_some h (h.allowed hframe rfl (by simp) rfl rfl)
    | setRoundCommitSig =>
      have hpbft := fun pbft => distinct_pbft h pbft st.verdicts
      exact distinct_goto_some (hpbft _) ((hpbft _).allowed hframe rfl (by simp) rfl rfl)
    | verifyMessage =>
      dsimp only
      generalize st.pbft.verifyMessage a.now msg = res
      obtain ⟨valid, pbft⟩ := res
      have hpbft := distinct_pbft h pbft ((msg, valid) :: st.verdicts)
      cases valid with
      | false =>
        apply distinct_goto hpbft
        simp
      | true => exact distinct_goto_some hpbft (allowed_of_not_numbered thread (by simp) rfl)
    | advanceState =>
      dsimp only
      generalize st.pbft.advanceState a msg = res
      obtain ⟨stage, pbft⟩ := res
      apply distinct_goto (distinct_pbft h pbft st.verdicts)
      intro frame hf
      exact allowed_dispatch thread hf
    | banPeerLocal =>
      apply distinct_goto (distinct_pbft h _ st.verdicts)
      simp

theorem distinct_step (h : st.Distinct) (hlt : st.sequenceNumber.toNat + 1 < 2 ^ 64)
    (action : ThreadAction C)
    : (st.step action).Distinct := by
  cases action with
  | propose thread targetId evidenceJson =>
    unfold step
    dsimp only
    split
    . exact h
    . exact distinct_goto_some h (allowed_broadcast st thread _ _ _)
  | receive thread msg =>
    unfold step
    dsimp only
    split
    . exact h
    . exact distinct_goto_some h (allowed_of_not_numbered thread (by simp) rfl)
  | resume thread a => exact distinct_resume h hlt thread a
  | maintain call =>
    unfold step
    dsimp only
    split
    . exact distinct_pbft h _ st.verdicts
    . exact h

theorem nodeId_step (st : Threads C) (action : ThreadAction C) : (st.step action).nodeId = st.nodeId := by
  cases action with
  | propose thread targetId evidenceJson =>
    unfold step
    dsimp only
    split <;> rfl
  | receive thread msg =>
    unfold step
    dsimp only
    split <;> rfl
  | resume thread a =>
    show (st.resume thread a).nodeId = st.nodeId
    unfold resume
    split
    . rfl
    . next next msg _ => cases next <;> rfl
  | maintain call =>
    unfold step
    dsimp only
    split <;> rfl

end Threads

structure Lifecycle (C : IdentityCore) where
  key : C.PrivKey
  node : Threads C
  past : List (List P2PMessage) := []
  peer : PBFTConsensus C

inductive LifeAction (C : IdentityCore) where
  | act (action : ThreadAction C)
  | restart (pbftKey : C.PrivKey) (settings : MeshNode.Settings)
  | verify (life : Nat) (msg : P2PMessage) (now : Time)
  | advance (life : Nat) (msg : P2PMessage) (ambient : Ambient)
  | other (call : PBFTConsensus.Call C)

namespace Lifecycle

variable (st : Lifecycle C)

def life (life : Nat) : List P2PMessage :=
  (st.node.sent :: st.past).getD life []

def isOther (op : PBFTConsensus.Op C) : Bool :=
  match op with
  | .advanceState msg => msg.senderId ≠ st.node.nodeId
  | _ => true

def step (action : LifeAction C) : Lifecycle C :=
  match action with
  | .act action => { st with node := st.node.step action }
  | .restart pbftKey settings =>
    {
      st with
      node := Threads.new (MeshNode.new C st.node.nodeId st.key pbftKey settings)
      past := st.node.sent :: st.past
    }
  | .verify life msg now =>
    if msg ∈ st.life life then { st with peer := (st.peer.verifyMessage now msg).2 } else st
  | .advance life msg a =>
    if msg ∈ st.life life then { st with peer := (st.peer.advanceState a msg).2 } else st
  | .other call => if st.isOther call.op then { st with peer := st.peer.step call } else st

def recorded (msgs : List P2PMessage) (seq : UInt64) (hash : Bytes) : Bool :=
  msgs.any fun msg => msg.sequenceNumber == seq && computeMessageHash C msg == hash

def peerOf (life : Nat) : PBFTConsensus C :=
  let history := (st.peer.historyOf st.node.nodeId).filter (recorded (C := C) (st.life life))
  { st.peer with messageHistory := st.peer.messageHistory.insert st.node.nodeId history }

def Unharmed (action : LifeAction C) : Prop :=
  (st.step action).peer.equivocationHistory[st.node.nodeId]? = none
    ∧ match action with
      | .verify life msg _ =>
        msg ∈ st.life life → (st.peerOf life).verifyMessageChaining msg = true →
          st.peer.verifyMessageChaining msg = true
      | _ => True

def Remembers (life : Nat) : Prop :=
  ∀ (seq : UInt64) (hash : Bytes), (st.peer.historyOf st.node.nodeId)[seq]? = some hash →
    recorded (C := C) (st.life life) seq hash = true

/--
A message is only processed together with messages of the same life, and the node does not run out of
numbers.
-/
def Apart (action : LifeAction C) : Prop :=
  match action with
  | .act _ => st.node.sequenceNumber.toNat + 1 < 2 ^ 64
  | .verify life msg _ => msg ∈ st.life life → st.Remembers life
  | .advance life msg _ => msg ∈ st.life life → st.Remembers life
  | _ => True

structure Invariant (nodeId : Bytes) (st : Lifecycle C) : Prop where
  nodeId_eq : st.node.nodeId = nodeId
  distinct : st.node.Distinct
  sender : ∀ sent ∈ st.past, ∀ msg ∈ sent, msg.senderId = nodeId
  unique : ∀ sent ∈ st.past, ∀ msg ∈ sent, ∀ msg' ∈ sent,
    msg.sequenceNumber = msg'.sequenceNumber → msg = msg'
  innocent : st.peer.equivocationHistory[nodeId]? = none

variable {st} {nodeId : Bytes}

theorem Invariant.mem_life {life : Nat} (h : Invariant nodeId st)
    : (∀ msg ∈ st.life life, msg.senderId = nodeId)
        ∧ ∀ msg ∈ st.life life, ∀ msg' ∈ st.life life,
          msg.sequenceNumber = msg'.sequenceNumber → msg = msg' := by
  have hmem : ∀ sent ∈ st.node.sent :: st.past, (∀ msg ∈ sent, msg.senderId = nodeId)
      ∧ ∀ msg ∈ sent, ∀ msg' ∈ sent, msg.sequenceNumber = msg'.sequenceNumber → msg = msg' := by
    rw [List.forall_mem_cons]
    constructor
    . rw [← h.nodeId_eq]
      exact ⟨h.distinct.sender, h.distinct.unique⟩
    . intro sent hsent
      exact ⟨h.sender sent hsent, h.unique sent hsent⟩
  unfold Lifecycle.life
  rw [List.getD_eq_getElem?_getD]
  cases hlife : (st.node.sent :: st.past)[life]? with
  | none => simp
  | some sent => exact hmem sent (List.mem_of_getElem? hlife)

theorem hash_eq_of_remembers (h : Invariant nodeId st) {life : Nat} {msg : P2PMessage}
    (hmsg : msg ∈ st.life life) (hremembers : st.Remembers life) {hash : Bytes}
    (hhash : (st.peer.historyOf nodeId)[msg.sequenceNumber]? = some hash)
    : hash = computeMessageHash C msg := by
  rw [← h.nodeId_eq] at hhash
  have hrecorded := hremembers _ hash hhash
  simp only [recorded, List.any_eq_true, Bool.and_eq_true, beq_iff_eq] at hrecorded
  obtain ⟨msg', hmsg', hseq, rfl⟩ := hrecorded
  rw [h.mem_life.2 msg' hmsg' msg hmsg hseq]

theorem innocent_step (h : Invariant nodeId st) {action : LifeAction C} (hapart : st.Apart action)
    : (st.step action).peer.equivocationHistory[nodeId]? = none := by
  unfold step
  cases action with
  | act action => exact h.innocent
  | restart pbftKey settings => exact h.innocent
  | verify life msg now =>
    dsimp only
    split
    . rw [PBFTConsensus.equivocationHistory_verifyMessage]
      exact h.innocent
    . exact h.innocent
  | advance life msg a =>
    dsimp only
    split
    . next hmsg =>
      apply PBFTConsensus.equivocation_advanceState _ h.innocent
      intro _ hash hhash
      exact hash_eq_of_remembers h hmsg (hapart hmsg) hhash
    . exact h.innocent
  | other call =>
    dsimp only
    split
    . next hother =>
      apply PBFTConsensus.equivocation_step _ h.innocent
      intro msg hop hsender
      simp [isOther, hop, hsender, h.nodeId_eq] at hother
    . exact h.innocent

theorem invariant_of_peer (h : Invariant nodeId st) {st' : Lifecycle C}
    (hpeer : ∃ peer, st' = { st with peer }) (hinnocent : st'.peer.equivocationHistory[nodeId]? = none)
    : Invariant nodeId st' := by
  obtain ⟨peer, rfl⟩ := hpeer
  exact ⟨h.nodeId_eq, h.distinct, h.sender, h.unique, hinnocent⟩

theorem invariant_step (h : Invariant nodeId st) {action : LifeAction C} (hapart : st.Apart action)
    : Invariant nodeId (st.step action) := by
  have hinnocent := innocent_step h hapart
  cases action with
  | act action =>
    refine ⟨?_, Threads.distinct_step h.distinct hapart action, h.sender, h.unique, hinnocent⟩
    rw [← h.nodeId_eq]
    exact st.node.nodeId_step action
  | restart pbftKey settings =>
    refine ⟨?_, Threads.distinct_new _, ?_, ?_, hinnocent⟩
    . exact (MeshNode.nodeId_new _ _ _ _).trans h.nodeId_eq
    . refine List.forall_mem_cons.mpr ⟨?_, h.sender⟩
      rw [← h.nodeId_eq]
      exact h.distinct.sender
    . exact List.forall_mem_cons.mpr ⟨h.distinct.unique, h.unique⟩
  | verify life msg now =>
    apply invariant_of_peer h _ hinnocent
    unfold step
    dsimp only
    split
    . exact ⟨_, rfl⟩
    . exact ⟨st.peer, rfl⟩
  | advance life msg a =>
    apply invariant_of_peer h _ hinnocent
    unfold step
    dsimp only
    split
    . exact ⟨_, rfl⟩
    . exact ⟨st.peer, rfl⟩
  | other call =>
    apply invariant_of_peer h _ hinnocent
    unfold step
    dsimp only
    split
    . exact ⟨_, rfl⟩
    . exact ⟨st.peer, rfl⟩

theorem historyOf_peerOf {life : Nat} (h : st.Remembers life)
    : (st.peerOf life).historyOf st.node.nodeId = st.peer.historyOf st.node.nodeId := by
  unfold peerOf PBFTConsensus.historyOf
  rw [Std.ExtTreeMap.getD_insert_self]
  apply Std.ExtTreeMap.ext_getElem?
  intro seq
  rw [Std.ExtTreeMap.getElem?_filter']
  cases hhash : (st.peer.messageHistory.getD st.node.nodeId ∅)[seq]? with
  | none => rfl
  | some hash =>
    have hrecorded := h seq hash hhash
    simp [Option.filter, hrecorded]

theorem unharmed_of_invariant (h : Invariant nodeId st) {action : LifeAction C} (hapart : st.Apart action)
    : st.Unharmed action := by
  constructor
  . rw [h.nodeId_eq]
    exact innocent_step h hapart
  . cases action with
    | verify life msg now =>
      intro hmsg hverify
      have hsender := h.mem_life.1 msg hmsg
      unfold PBFTConsensus.verifyMessageChaining at hverify ⊢
      rw [hsender, ← h.nodeId_eq] at hverify ⊢
      rw [historyOf_peerOf (hapart hmsg)] at hverify
      exact hverify
    | _ => trivial

theorem along_unharmed_of_apart (nodeId : Bytes) (key pbftKey : C.PrivKey) (settings : MeshNode.Settings)
    (peer : PBFTConsensus C) (hpeer : peer.equivocationHistory[nodeId]? = none)
    (actions : List (LifeAction C))
    (h : Run.Along step Apart
      { key, node := Threads.new (MeshNode.new C nodeId key pbftKey settings), peer } actions)
    : Run.Along step Unharmed
        { key, node := Threads.new (MeshNode.new C nodeId key pbftKey settings), peer } actions := by
  apply Run.along_of_invariant (I := Invariant nodeId) _ _ h
  . intro st action hinv hapart
    exact ⟨unharmed_of_invariant hinv hapart, invariant_step hinv hapart⟩
  . exact ⟨MeshNode.nodeId_new _ _ _ _, Threads.distinct_new _, by simp, by simp, hpeer⟩

theorem remembers_iff {life : Nat}
    : st.Remembers life ↔ ∀ entry ∈ (st.peer.historyOf st.node.nodeId).toList,
        recorded (C := C) (st.life life) entry.1 entry.2 = true := by
  simp only [Prod.forall, Std.ExtTreeMap.mem_toList_iff_getElem?_eq_some]
  rfl

instance (st : Lifecycle C) (life : Nat) : Decidable (st.Remembers life) :=
  decidable_of_iff _ remembers_iff.symm

instance (st : Lifecycle C) (action : LifeAction C) : Decidable (st.Apart action) :=
  match action with
  | .act _ => inferInstanceAs (Decidable (_ < _))
  | .verify life msg _ => inferInstanceAs (Decidable (msg ∈ st.life life → st.Remembers life))
  | .advance life msg _ => inferInstanceAs (Decidable (msg ∈ st.life life → st.Remembers life))
  | .restart _ _ | .other _ => .isTrue trivial

def sampleLifecycle : Lifecycle .plain where
  key := bytes "A"
  node := Threads.new (MeshNode.new .plain (bytes "A") (bytes "A") (bytes "A") {})
  peer := (PBFTConsensus.new .plain 1 none none).registerPeerKey (bytes "A") (bytes "A")

def sampleVote (targetId : Bytes) : P2PMessage :=
  (MeshNode.new .plain (bytes "A") (bytes "A") (bytes "A") {}).ownMessage Stage.prePrepare targetId
    (bytes "\x7b\x7d")

def sampleBroadcast (targetId : Bytes) : List (LifeAction .plain) :=
  .act (.propose 0 targetId (bytes "\x7b\x7d")) :: List.replicate 6 (.act (.resume 0 default))

def sampleProposal (targetId : Bytes) : List (LifeAction .plain) :=
  sampleBroadcast targetId ++ [.verify 0 (sampleVote targetId) 0, .advance 0 (sampleVote targetId) default]

/--
The vote of the first life is lost. The one of the second life is recorded, and then it is handed over once more.
-/
def sampleRestart : List (LifeAction .plain) :=
  sampleBroadcast (bytes "T") ++ [.restart (bytes "A") {}] ++ sampleProposal (bytes "U")
    ++ [.verify 0 (sampleVote (bytes "U")) 0]

theorem along_unharmed_sampleRestart
    : sampleVote (bytes "T") ∈ (sampleRestart.foldl step sampleLifecycle).life 1
        ∧ ((sampleRestart.foldl step sampleLifecycle).peer.historyOf (bytes "A")).toList
            =
          [(1, computeMessageHash .plain (sampleVote (bytes "U")))]
        ∧ Run.Along step Unharmed sampleLifecycle sampleRestart := by
  refine ⟨by decide +kernel, by decide +kernel, ?_⟩
  exact along_unharmed_of_apart _ _ _ _ _ (by decide +kernel) _ (by decide +kernel)

/--
The first votes of two lives are taken for an attempt to vote twice.
-/
theorem restart_equivocates
    : let st := (sampleProposal (bytes "T") ++ [LifeAction.restart (bytes "A") {}] ++ sampleProposal (bytes "U")).foldl
        step sampleLifecycle
      (st.peer.equivocationHistory[bytes "A"]?).isSome = true := by
  decide +kernel

end Lifecycle
end NeuroMesh
