import NeuroMesh.Consensus.MeshNode.Impl.Discovery
import NeuroMesh.Consensus.MeshNode.Impl.Threads
import NeuroMesh.Consensus.MeshNode.Lemmas.OwnVote
import NeuroMesh.Consensus.PBFT.Lemmas.Continue
import NeuroMesh.Data.Run

namespace NeuroMesh
namespace Threads

open PBFTConsensus (computeMessageHash Continues)

variable {C : IdentityCore}

@[simp]
theorem frames_goto (st : Threads C) (thread : Nat) (frame : Option ThreadFrame)
    : (st.goto thread frame).frames thread = frame := by
  simp [goto]

theorem frames_goto_cases {st : Threads C} {thread t : Nat} {frame : Option ThreadFrame} {f : ThreadFrame}
    (h : (st.goto thread frame).frames t = some f)
    : t = thread ∧ frame = some f ∨ t ≠ thread ∧ st.frames t = some f := by
  unfold goto at h
  dsimp at h
  rw [Function.update_apply] at h
  split at h
  . next heq => exact .inl ⟨heq, h⟩
  . next hne => exact .inr ⟨hne, h⟩

def undisturbed (thread : Nat) (env : Env) : List (ThreadAction C) :=
  List.replicate 6 (.resume thread (env 0)) ++ [.resume thread (env 0), .resume thread (env 1)]

theorem foldl_step_send (node : MeshNode C) (frames : Nat → Option ThreadFrame) (sent : List P2PMessage)
    (verdicts : List (P2PMessage × Bool)) (thread : Nat) (a : Ambient)
    (stageStr targetId evidenceJson : Bytes)
    : (List.replicate 6 (.resume thread a)).foldl step
        ({ new node with frames, sent, verdicts }.goto thread
          (some ((new node).broadcast stageStr targetId evidenceJson)))
        =
      {
        new (node.afterSend stageStr targetId evidenceJson) with
        frames, verdicts
        sent := node.ownMessage stageStr targetId evidenceJson :: sent
      }.goto thread
        (some { next := .verifyMessage, msg := node.ownMessage stageStr targetId evidenceJson }) := by
  simp only [List.replicate, List.foldl_cons, List.foldl_nil, step]
  simp only [resume, broadcast, frames_goto]
  simp [goto, new, MeshNode.afterSend, MeshNode.ownMessage]

theorem foldl_step_undisturbed (node : MeshNode C) (frames : Nat → Option ThreadFrame)
    (sent : List P2PMessage) (verdicts : List (P2PMessage × Bool)) (thread : Nat) (env : Env)
    (stageStr targetId evidenceJson : Bytes)
    : let (next, node') := node.castOwnVote env stageStr targetId evidenceJson
      let st := (undisturbed thread env).foldl step
        ({ new node with frames, sent, verdicts }.goto thread
          (some ((new node).broadcast stageStr targetId evidenceJson)))
      st.pbft = node'.pbft
        ∧ st.sequenceNumber = node'.sequenceNumber
        ∧ st.sent = node.ownMessage stageStr targetId evidenceJson :: sent
        ∧ st.frames thread
          = next.bind fun stage =>
            (new node).dispatch stage (node.ownMessage stageStr targetId evidenceJson) := by
  unfold undisturbed
  rw [List.foldl_append, foldl_step_send, MeshNode.castOwnVote_eq]
  dsimp only
  rw [MeshNode.fst_receive, MeshNode.pbft_receive, MeshNode.sequenceNumber_receive]
  generalize hmsg : node.ownMessage stageStr targetId evidenceJson = msg
  generalize hnode : node.afterSend stageStr targetId evidenceJson = node'
  have hid : node'.nodeId = node.nodeId := by
    rw [← hnode]
    rfl
  simp only [List.foldl_cons, List.foldl_nil, step, resume, frames_goto, PBFTConsensus.receive]
  cases hverify : node'.pbft.verifyMessage (env 0).now msg with
  | mk valid pbft =>
    cases valid with
    | false => simp [new, hverify, goto]
    | true => simp [new, hverify, goto, dispatch, broadcast, hid]

structure WellFormed (st : Threads C) : Prop where
  linked : ∀ msg ∈ st.sent, ∀ prev ∈ st.sent,
    msg.sequenceNumber.toNat = prev.sequenceNumber.toNat + 1 →
    msg.prevMessageHash = computeMessageHash C prev
  complete : ∀ msg ∈ st.sent, msg.sequenceNumber.toNat ≠ 1 →
    ∃ prev ∈ st.sent, msg.sequenceNumber.toNat = prev.sequenceNumber.toNat + 1
  accepted : ∀ verdict ∈ st.verdicts, verdict.1.senderId = st.nodeId → verdict.2 = true

def OwnKey (st : Threads C) : Prop :=
  match st.pbft.privateKey with
  | none => False
  | some key =>
    st.pbft.peerPublicKeys[st.nodeId]? = some (C.getPubkeyFromPem (C.getPemFromPubkey key))

def PrevRecorded (st : Threads C) (msg : P2PMessage) : Prop :=
  msg.sequenceNumber = 1
    ∨ (st.pbft.historyOf st.nodeId).isEmpty = true
    ∨ msg.sequenceNumber - 1 ∈ st.pbft.historyOf st.nodeId

def FrameOrderly (st : Threads C) (frame : ThreadFrame) : Prop :=
  match frame.next with
  | .fetchAdd => st.sequenceNumber.toNat + 101 < 2 ^ 64
  | .getLastSentHash =>
    if frame.msg.sequenceNumber = 1 then
      (st.pbft.historyOf st.nodeId).isEmpty = true
    else
      (st.pbft.historyOf st.nodeId).keys.getLast? = some (frame.msg.sequenceNumber - 1)
  | .verifyMessage =>
    frame.msg.senderId = st.nodeId →
      st.nodeId ∉ st.pbft.bannedPeers
        ∧ st.OwnKey
        ∧ (frame.msg.sequenceNumber = 1
          ∨ (st.pbft.historyOf st.nodeId).isEmpty = true
          ∨ frame.msg.sequenceNumber - 1 ∈ st.pbft.historyOf st.nodeId)
  | _ => True

/--
When a thread asks for the hash of the last message, the last message that has been recorded is the one
that was numbered before its own. When it verifies its own message, that record is still there and the
node is a member. The sequence numbers are not used up.
-/
def Orderly (st : Threads C) (action : ThreadAction C) : Prop :=
  match action with
  | .resume thread _ => ∀ frame ∈ st.frames thread, st.FrameOrderly frame
  | _ => True

section Sound

variable (st : Threads C)

structure Fresh (msg : P2PMessage) : Prop where
  sender_eq : msg.senderId = st.nodeId
  pos : 0 < msg.sequenceNumber.toNat
  le : msg.sequenceNumber.toNat ≤ st.sequenceNumber.toNat
  unsent : ∀ m ∈ st.sent, m.sequenceNumber ≠ msg.sequenceNumber

structure Linked (msg : P2PMessage) : Prop where
  first : msg.sequenceNumber.toNat = 1 → msg.prevMessageHash = st.pbft.genesisHash
  next : msg.sequenceNumber.toNat ≠ 1 → ∃ prev ∈ st.sent,
    msg.sequenceNumber.toNat = prev.sequenceNumber.toNat + 1
      ∧ msg.prevMessageHash = computeMessageHash C prev

def Signed (msg : P2PMessage) : Prop :=
  msg.signature = st.pbft.signMessage msg

def FrameSound (frame : ThreadFrame) : Prop :=
  match frame.next with
  | .fetchAdd => frame.msg.senderId = st.nodeId
  | .currentView => st.Fresh frame.msg
  | .getLastSentHash => st.Fresh frame.msg
  | .signMessage => st.Fresh frame.msg ∧ st.Linked frame.msg
  | .setRoundCommitSig => st.Fresh frame.msg ∧ st.Linked frame.msg ∧ st.Signed frame.msg
  | .send => st.Fresh frame.msg ∧ st.Linked frame.msg ∧ st.Signed frame.msg
  | .verifyMessage => frame.msg.senderId = st.nodeId → frame.msg ∈ st.sent
  | .advanceState => frame.msg.senderId = st.nodeId → frame.msg ∈ st.sent
  | .banPeerLocal => True

def numbered (next : ProgramPoint) : Bool :=
  match next with
  | .currentView | .getLastSentHash | .signMessage | .setRoundCommitSig | .send => true
  | _ => false

structure SentSound (msg : P2PMessage) : Prop where
  sender_eq : msg.senderId = st.nodeId
  pos : 0 < msg.sequenceNumber.toNat
  le : msg.sequenceNumber.toNat ≤ st.sequenceNumber.toNat
  linked : st.Linked msg
  signed : st.Signed msg

structure Sound : Prop where
  bound : st.sequenceNumber.toNat + 100 < 2 ^ 64
  frames : ∀ thread frame, st.frames thread = some frame → st.FrameSound frame
  apart : ∀ thread thread' frame frame', thread ≠ thread' →
    st.frames thread = some frame → st.frames thread' = some frame' →
    numbered frame.next = true → numbered frame'.next = true →
    frame.msg.sequenceNumber ≠ frame'.msg.sequenceNumber
  sent : ∀ msg ∈ st.sent, st.SentSound msg
  unique : ∀ msg ∈ st.sent, ∀ msg' ∈ st.sent, msg.sequenceNumber = msg'.sequenceNumber → msg = msg'
  history : ∀ (seq : UInt64) (hash : Bytes), (st.pbft.historyOf st.nodeId)[seq]? = some hash →
    ∃ msg ∈ st.sent, msg.sequenceNumber = seq ∧ hash = computeMessageHash C msg
  accepted : ∀ verdict ∈ st.verdicts, verdict.1.senderId = st.nodeId → verdict.2 = true

end Sound

variable {st st' : Threads C}

theorem FrameSound.fresh {frame : ThreadFrame} (h : st.FrameSound frame)
    (hnumbered : numbered frame.next = true)
    : st.Fresh frame.msg := by
  obtain ⟨next, msg⟩ := frame
  cases next with
  | currentView => exact h
  | getLastSentHash => exact h
  | signMessage => exact h.1
  | setRoundCommitSig => exact h.1
  | send => exact h.1
  | _ => simp [numbered] at hnumbered

theorem Sound.eq_of_toNat_eq (h : st.Sound) {msg msg' : P2PMessage} (hmsg : msg ∈ st.sent)
    (hmsg' : msg' ∈ st.sent) (heq : msg.sequenceNumber.toNat = msg'.sequenceNumber.toNat)
    : msg = msg' := by
  apply h.unique msg hmsg msg' hmsg'
  apply UInt64.toNat_inj.mp heq

theorem wellFormed_of_sound (h : st.Sound) : st.WellFormed := by
  constructor
  . intro msg hmsg prev hprev hnumber
    have hpos := (h.sent prev hprev).pos
    obtain ⟨prev', hprev', hnumber', hhash⟩ := (h.sent msg hmsg).linked.next (by omega)
    rw [hhash, h.eq_of_toNat_eq hprev hprev' (by omega)]
  . intro msg hmsg hne
    obtain ⟨prev, hprev, hnumber, _⟩ := (h.sent msg hmsg).linked.next hne
    exact ⟨prev, hprev, hnumber⟩
  . exact h.accepted

structure Grows (st st' : Threads C) : Prop where
  nodeId_eq : st'.nodeId = st.nodeId
  privateKey_eq : st'.pbft.privateKey = st.pbft.privateKey
  genesisHash_eq : st'.pbft.genesisHash = st.pbft.genesisHash
  number_le : st.sequenceNumber.toNat ≤ st'.sequenceNumber.toNat
  sent_subset : st.sent ⊆ st'.sent

namespace Grows

variable {msg : P2PMessage}

theorem linked (h : Grows st st') (hlinked : st.Linked msg) : st'.Linked msg := by
  constructor
  . intro hone
    rw [h.genesisHash_eq]
    exact hlinked.first hone
  . intro hne
    obtain ⟨prev, hprev, hlink⟩ := hlinked.next hne
    exact ⟨prev, h.sent_subset hprev, hlink⟩

theorem signed (h : Grows st st') (hsigned : st.Signed msg) : st'.Signed msg := by
  unfold Signed PBFTConsensus.signMessage at *
  rw [h.privateKey_eq]
  exact hsigned

theorem sentSound (h : Grows st st') (hsound : st.SentSound msg) : st'.SentSound msg := by
  constructor
  . rw [h.nodeId_eq]
    exact hsound.sender_eq
  . exact hsound.pos
  . apply Nat.le_trans hsound.le h.number_le
  . exact h.linked hsound.linked
  . exact h.signed hsound.signed

theorem fresh (h : Grows st st') (hfresh : st.Fresh msg)
    (hunsent : ∀ m ∈ st'.sent, m ∈ st.sent ∨ m.sequenceNumber ≠ msg.sequenceNumber)
    : st'.Fresh msg := by
  constructor
  . rw [h.nodeId_eq]
    exact hfresh.sender_eq
  . exact hfresh.pos
  . apply Nat.le_trans hfresh.le h.number_le
  . intro m hm
    rcases hunsent m hm with hm | hne
    . exact hfresh.unsent m hm
    . exact hne

theorem frameSound (h : Grows st st') {frame : ThreadFrame} (hframe : st.FrameSound frame)
    (hunsent : numbered frame.next = true →
      ∀ m ∈ st'.sent, m ∈ st.sent ∨ m.sequenceNumber ≠ frame.msg.sequenceNumber)
    : st'.FrameSound frame := by
  obtain ⟨next, msg⟩ := frame
  have hid := h.nodeId_eq
  cases next with
  | fetchAdd => exact hframe.trans hid.symm
  | currentView => exact h.fresh hframe (hunsent rfl)
  | getLastSentHash => exact h.fresh hframe (hunsent rfl)
  | signMessage => exact ⟨h.fresh hframe.1 (hunsent rfl), h.linked hframe.2⟩
  | setRoundCommitSig =>
    exact ⟨h.fresh hframe.1 (hunsent rfl), h.linked hframe.2.1, h.signed hframe.2.2⟩
  | send => exact ⟨h.fresh hframe.1 (hunsent rfl), h.linked hframe.2.1, h.signed hframe.2.2⟩
  | verifyMessage => exact fun hsender => h.sent_subset (hframe (hsender.trans hid))
  | advanceState => exact fun hsender => h.sent_subset (hframe (hsender.trans hid))
  | banPeerLocal => trivial

end Grows

theorem toNat_sub_one (seq : UInt64) (h : 0 < seq.toNat) : (seq - 1).toNat = seq.toNat - 1 := by
  apply UInt64.toNat_sub_of_le
  rw [UInt64.le_iff_toNat_le]
  exact h

theorem exists_endsAt {history : Map UInt64 Bytes} (hne : history.isEmpty = false)
    : ∃ seq hash, EndsAt history seq hash := by
  have hmax : history.maxKey?.isSome = true := by
    rw [Std.ExtTreeMap.isSome_maxKey?_eq_not_isEmpty, hne]
    rfl
  obtain ⟨seq, hseq⟩ := Option.isSome_iff_exists.mp hmax
  obtain ⟨hmem, hle⟩ := Std.ExtTreeMap.maxKey?_eq_some_iff_mem_and_forall.mp hseq
  obtain ⟨hash, hhash⟩ := Option.isSome_iff_exists.mp (Std.ExtTreeMap.mem_iff_isSome_getElem?.mp hmem)
  refine ⟨seq, hash, hhash, ?_⟩
  intro k hk
  exact Std.isLE_compare.mp (hle k hk)

section Steps

variable (h : st.Sound) (thread : Nat)
include h

theorem sound_goto {frame : Option ThreadFrame}
    (hframe : ∀ f, frame = some f → st.FrameSound f)
    (hapart : ∀ f, frame = some f → numbered f.next = true → ∀ thread' frame', thread' ≠ thread →
      st.frames thread' = some frame' → numbered frame'.next = true →
      f.msg.sequenceNumber ≠ frame'.msg.sequenceNumber)
    : (st.goto thread frame).Sound := by
  have hgrows : Grows st (st.goto thread frame) := ⟨rfl, rfl, rfl, Nat.le_refl _, List.Subset.refl _⟩
  constructor
  . exact h.bound
  . intro t f hf
    apply hgrows.frameSound
    . rcases frames_goto_cases hf with ⟨_, heq⟩ | ⟨_, hold⟩
      . exact hframe f heq
      . exact h.frames t f hold
    . intro _ m hm
      exact .inl hm
  . intro t t' f f' hne hf hf' hnum hnum'
    rcases frames_goto_cases hf with ⟨rfl, heq⟩ | ⟨hne₁, hold⟩
    . rcases frames_goto_cases hf' with ⟨rfl, _⟩ | ⟨hne₂, hold'⟩
      . contradiction
      . exact hapart f heq hnum t' f' hne₂ hold' hnum'
    . rcases frames_goto_cases hf' with ⟨rfl, heq'⟩ | ⟨_, hold'⟩
      . exact (hapart f' heq' hnum' t f hne₁ hold hnum).symm
      . exact h.apart t t' f f' hne hold hold' hnum hnum'
  . intro msg hmsg
    exact hgrows.sentSound (h.sent msg hmsg)
  . exact h.unique
  . exact h.history
  . exact h.accepted

theorem sound_of_grows (hgrows : Grows st st') (hbound : st'.sequenceNumber.toNat + 100 < 2 ^ 64)
    (hframes : st'.frames = st.frames) (hsent : st'.sent = st.sent)
    (hhistory : ∀ (seq : UInt64) (hash : Bytes), (st'.pbft.historyOf st.nodeId)[seq]? = some hash →
      (st.pbft.historyOf st.nodeId)[seq]? = some hash
        ∨ ∃ msg ∈ st.sent, msg.sequenceNumber = seq ∧ hash = computeMessageHash C msg)
    (haccepted : ∀ verdict ∈ st'.verdicts, verdict.1.senderId = st.nodeId → verdict.2 = true)
    : st'.Sound := by
  constructor
  . exact hbound
  . intro t f hf
    rw [hframes] at hf
    apply hgrows.frameSound (h.frames t f hf)
    intro _ m hm
    rw [hsent] at hm
    exact .inl hm
  . rw [hframes]
    exact h.apart
  . rw [hsent]
    intro msg hmsg
    exact hgrows.sentSound (h.sent msg hmsg)
  . rw [hsent]
    exact h.unique
  . rw [hgrows.nodeId_eq, hsent]
    intro seq hash hentry
    exact (hhistory seq hash hentry).elim (h.history seq hash) id
  . rw [hgrows.nodeId_eq]
    exact haccepted

theorem sound_pbft {pbft : PBFTConsensus C} (hkey : pbft.privateKey = st.pbft.privateKey)
    (hgenesis : pbft.genesisHash = st.pbft.genesisHash)
    (hhistory : ∀ (seq : UInt64) (hash : Bytes), (pbft.historyOf st.nodeId)[seq]? = some hash →
      (st.pbft.historyOf st.nodeId)[seq]? = some hash
        ∨ ∃ msg ∈ st.sent, msg.sequenceNumber = seq ∧ hash = computeMessageHash C msg)
    {verdicts : List (P2PMessage × Bool)}
    (haccepted : ∀ verdict ∈ verdicts, verdict.1.senderId = st.nodeId → verdict.2 = true)
    : Sound { st with pbft, verdicts } := by
  have hgrows : Grows st { st with pbft, verdicts } :=
    ⟨rfl, hkey, hgenesis, Nat.le_refl _, List.Subset.refl _⟩
  exact sound_of_grows h hgrows h.bound rfl rfl hhistory haccepted

theorem sound_of_continues {pbft : PBFTConsensus C} (hcontinues : Continues st.nodeId st.pbft pbft)
    {verdicts : List (P2PMessage × Bool)}
    (haccepted : ∀ verdict ∈ verdicts, verdict.1.senderId = st.nodeId → verdict.2 = true)
    : Sound { st with pbft, verdicts } := by
  apply sound_pbft h hcontinues.privateKey_eq hcontinues.genesisHash_eq _ haccepted
  intro seq hash hentry
  exact .inl (hcontinues.history seq hash hentry)

theorem sound_goto_numbered {frame frame' : ThreadFrame} (hframe : st.frames thread = some frame)
    (hnumbered : numbered frame.next = true)
    (hnumber : frame'.msg.sequenceNumber = frame.msg.sequenceNumber) (hsound : st.FrameSound frame')
    : (st.goto thread (some frame')).Sound := by
  apply sound_goto h
  . rintro f ⟨⟩
    exact hsound
  . rintro f ⟨⟩ _ t' f' hne hf' hnumbered'
    rw [hnumber]
    exact h.apart thread t' frame f' hne.symm hframe hf' hnumbered hnumbered'

theorem sound_goto_unnumbered {frame : Option ThreadFrame}
    (hsound : ∀ f, frame = some f → st.FrameSound f ∧ numbered f.next = false)
    : (st.goto thread frame).Sound := by
  apply sound_goto h
  . intro f hf
    exact (hsound f hf).1
  . intro f hf hnumbered
    rw [(hsound f hf).2] at hnumbered
    contradiction

theorem sound_fetchAdd {msg : P2PMessage} (hsender : msg.senderId = st.nodeId)
    (hbound : st.sequenceNumber.toNat + 101 < 2 ^ 64)
    : ({ st with sequenceNumber := st.sequenceNumber + 1 }.goto thread
        (some {
          next := .currentView
          msg := { msg with sequenceNumber := st.sequenceNumber + 1 }
        })).Sound := by
  have hone : (st.sequenceNumber + 1).toNat = st.sequenceNumber.toNat + 1 :=
    MeshNode.toNat_add_one st.sequenceNumber (by omega)
  have hgrows : Grows st { st with sequenceNumber := st.sequenceNumber + 1 } := by
    refine ⟨rfl, rfl, rfl, ?_, List.Subset.refl _⟩
    dsimp
    omega
  have hsound : Sound { st with sequenceNumber := st.sequenceNumber + 1 } := by
    refine sound_of_grows h hgrows ?_ rfl rfl (fun _ _ => .inl) h.accepted
    dsimp
    omega
  apply sound_goto hsound
  . rintro f ⟨⟩
    constructor
    . exact hsender
    . dsimp
      omega
    . exact Nat.le_refl _
    . intro m hm heq
      have hle := (h.sent m hm).le
      rw [heq] at hle
      dsimp at hle
      omega
  . rintro f ⟨⟩ _ t' f' _ hf' hnumbered' heq
    have hle := ((h.frames t' f' hf').fresh hnumbered').le
    rw [← heq] at hle
    dsimp at hle
    omega

theorem sound_send {msg : P2PMessage} (hframe : st.frames thread = some { next := .send, msg })
    : ({ st with sent := msg :: st.sent }.goto thread (some { next := .verifyMessage, msg })).Sound := by
  obtain ⟨hfresh, hlinked, hsigned⟩ : st.FrameSound { next := .send, msg } := h.frames _ _ hframe
  -- The thread drops its number first, so that nobody holds the number of a message that was sent.
  have hdropped : (st.goto thread none).Sound := sound_goto_unnumbered h thread (by simp)
  have hgrows : Grows (st.goto thread none) { st.goto thread none with sent := msg :: st.sent } :=
    ⟨rfl, rfl, rfl, Nat.le_refl _, List.subset_cons_self _ _⟩
  have hgrows' : Grows st { st.goto thread none with sent := msg :: st.sent } :=
    ⟨rfl, rfl, rfl, Nat.le_refl _, List.subset_cons_self _ _⟩
  have hsound : Sound { st.goto thread none with sent := msg :: st.sent } := by
    constructor
    . exact h.bound
    . intro t f hf
      apply hgrows.frameSound (hdropped.frames t f hf)
      intro hnumbered m hm
      rcases List.mem_cons.mp hm with rfl | hm
      . right
        have hne : t ≠ thread := by
          rintro rfl
          simp [goto] at hf
        have hf' : st.frames t = some f := by
          simpa [goto, Function.update_of_ne hne] using hf
        exact h.apart thread t _ f hne.symm hframe hf' rfl hnumbered
      . exact .inl hm
    . exact hdropped.apart
    . intro m hm
      rcases List.mem_cons.mp hm with rfl | hm
      . exact ⟨hfresh.sender_eq, hfresh.pos, hfresh.le, hgrows'.linked hlinked, hgrows'.signed hsigned⟩
      . exact hgrows.sentSound (hdropped.sent m hm)
    . intro m hm m' hm' heq
      rcases List.mem_cons.mp hm with hmsg | hold
      . rcases List.mem_cons.mp hm' with hmsg' | hold'
        . rw [hmsg, hmsg']
        . rw [hmsg] at heq
          exact absurd heq.symm (hfresh.unsent m' hold')
      . rcases List.mem_cons.mp hm' with hmsg' | hold'
        . rw [hmsg'] at heq
          exact absurd heq (hfresh.unsent m hold)
        . exact h.unique m hold m' hold' heq
    . intro seq hash hentry
      obtain ⟨m, hm, hrest⟩ := h.history seq hash hentry
      exact ⟨m, List.mem_cons_of_mem _ hm, hrest⟩
    . exact h.accepted
  have hgoto : { st with sent := msg :: st.sent }.goto thread (some { next := .verifyMessage, msg })
      = { st.goto thread none with sent := msg :: st.sent }.goto thread
        (some { next := .verifyMessage, msg }) := by
    simp [goto]
  rw [hgoto]
  apply sound_goto_unnumbered hsound
  rintro f ⟨⟩
  exact ⟨fun _ => List.mem_cons_self, rfl⟩

theorem verifyMessageChaining_of_sound {msg : P2PMessage} (hmsg : msg ∈ st.sent)
    (hrecorded : st.PrevRecorded msg)
    : st.pbft.verifyMessageChaining msg = true := by
  have hsent := h.sent msg hmsg
  unfold PBFTConsensus.verifyMessageChaining
  rw [hsent.sender_eq]
  dsimp
  split
  . rfl
  . next hempty =>
    split
    . next hnone =>
      rcases hrecorded with hone | hempty' | hmem
      . rw [hsent.linked.first (by rw [hone]; rfl)]
        simp
      . contradiction
      . rw [Std.ExtTreeMap.mem_iff_isSome_getElem?, hnone] at hmem
        contradiction
    . next hash hsome =>
      obtain ⟨prev, hprev, hnumber, hhash⟩ := h.history _ _ hsome
      have hpos := (h.sent prev hprev).pos
      have hsub := toNat_sub_one msg.sequenceNumber hsent.pos
      rw [hnumber] at hpos
      obtain ⟨prev', hprev', hnumber', hhash'⟩ := hsent.linked.next (by omega)
      have heq : prev = prev' := by
        apply h.eq_of_toNat_eq hprev hprev'
        rw [hnumber]
        omega
      rw [hhash, hhash', heq]
      simp

theorem verifySequenceContinuity_of_sound {msg : P2PMessage} (hmsg : msg ∈ st.sent)
    (hrecorded : st.PrevRecorded msg)
    : st.pbft.verifySequenceContinuity msg = true := by
  have hsent := h.sent msg hmsg
  by_cases hempty : (st.pbft.historyOf msg.senderId).isEmpty = true
  . unfold PBFTConsensus.verifySequenceContinuity
    simp [hempty]
  . obtain ⟨seq, hash, hends⟩ := exists_endsAt (Bool.eq_false_iff.mpr hempty)
    rw [PBFTConsensus.verifySequenceContinuity_of_endsAt hends]
    rw [hsent.sender_eq] at hends hempty
    obtain ⟨last, hlast, hnumber, -⟩ := h.history _ _ hends.getElem?_eq
    have hle := (h.sent last hlast).le
    have hbound := h.bound
    have hgap : (seq + PBFTConsensus.maxSequenceGap).toNat = seq.toNat + 100 := by
      rw [hnumber] at hle
      rw [UInt64.toNat_add]
      simp only [PBFTConsensus.maxSequenceGap, UInt64.reduceToNat]
      omega
    have hnext : msg.sequenceNumber.toNat ≤ seq.toNat + 1 := by
      rcases hrecorded with hone | hempty' | hmem
      . rw [hone]
        simp
      . contradiction
      . have := hends.le_of_mem _ hmem
        rw [UInt64.le_iff_toNat_le, toNat_sub_one _ hsent.pos] at this
        omega
    have hnot : ¬seq + PBFTConsensus.maxSequenceGap < msg.sequenceNumber := by
      rw [UInt64.lt_iff_toNat_lt]
      omega
    simp [hnot]

theorem verifies_of_sound (hcorrect : C.SignatureCorrect) {msg : P2PMessage} (hmsg : msg ∈ st.sent)
    (hban : st.nodeId ∉ st.pbft.bannedPeers) (hkey : st.OwnKey)
    (hrecorded : st.PrevRecorded msg)
    : st.pbft.Verifies msg := by
  have hsent := h.sent msg hmsg
  have hsigned := hsent.signed
  unfold OwnKey at hkey
  split at hkey
  . contradiction
  . next key hprivate =>
    constructor
    . rw [hsent.sender_eq]
      exact hban
    . rw [hsent.sender_eq, Std.ExtTreeMap.mem_iff_isSome_getElem?, hkey]
      rfl
    . unfold Signed PBFTConsensus.signMessage at hsigned
      unfold PBFTConsensus.SignedBySender
      rw [hprivate] at hsigned
      rw [hsigned, hsent.sender_eq, Std.ExtTreeMap.getD_eq_getD_getElem?, hkey]
      exact hcorrect key msg.blob
    . exact verifyMessageChaining_of_sound h hmsg hrecorded
    . exact verifySequenceContinuity_of_sound h hmsg hrecorded

theorem linked_getLastSentHash {msg : P2PMessage} (hfresh : st.Fresh msg)
    (hlast : if msg.sequenceNumber = 1 then (st.pbft.historyOf st.nodeId).isEmpty = true
      else (st.pbft.historyOf st.nodeId).keys.getLast? = some (msg.sequenceNumber - 1))
    : st.Linked { msg with prevMessageHash := st.pbft.getLastSentHash st.nodeId } := by
  have hpos := hfresh.pos
  split at hlast
  . next hone =>
    have hnone : (st.pbft.historyOf st.nodeId).keys.getLast? = none := by
      rw [Std.ExtTreeMap.isEmpty_iff.mp hlast]
      rfl
    constructor
    . intro _
      simp [PBFTConsensus.getLastSentHash, hnone]
    . intro hne
      dsimp at hne
      rw [hone] at hne
      contradiction
  . next hne =>
    have hmem : msg.sequenceNumber - 1 ∈ st.pbft.historyOf st.nodeId := by
      rw [← Std.ExtTreeMap.mem_keys]
      exact List.mem_of_getLast? hlast
    obtain ⟨hash, hhash⟩ := Option.isSome_iff_exists.mp
      (Std.ExtTreeMap.mem_iff_isSome_getElem?.mp hmem)
    obtain ⟨prev, hprev, hnumber, heq⟩ := h.history _ _ hhash
    have hget : st.pbft.getLastSentHash st.nodeId = hash := by
      simp [PBFTConsensus.getLastSentHash, hlast, Std.ExtTreeMap.getD_eq_getD_getElem?, hhash]
    constructor
    . intro hone
      exact absurd (UInt64.toNat_inj.mp hone) hne
    . intro _
      refine ⟨prev, hprev, ?_, ?_⟩
      . rw [hnumber, toNat_sub_one _ hpos]
        dsimp
        omega
      . rw [← heq]
        exact hget

theorem sound_verifyMessage (hcorrect : C.SignatureCorrect) (a : Ambient) {msg : P2PMessage}
    (hmsg : msg.senderId = st.nodeId → msg ∈ st.sent)
    (horderly : msg.senderId = st.nodeId → st.nodeId ∉ st.pbft.bannedPeers ∧ st.OwnKey ∧ st.PrevRecorded msg)
    : Sound
        ({
          st with
          pbft := (st.pbft.verifyMessage a.now msg).2
          verdicts := (msg, (st.pbft.verifyMessage a.now msg).1) :: st.verdicts
        }.goto thread
          (if (st.pbft.verifyMessage a.now msg).1 then some { next := .advanceState, msg } else none))
    := by
  apply sound_goto_unnumbered
  . apply sound_of_continues h (st.pbft.continues_verifyMessage st.nodeId a.now msg)
    intro verdict hverdict hsender
    rcases List.mem_cons.mp hverdict with rfl | hold
    . obtain ⟨hban, hkey, hrecorded⟩ := horderly hsender
      rw [PBFTConsensus.verifyMessage_eq_true_iff]
      exact verifies_of_sound h hcorrect (hmsg hsender) hban hkey hrecorded
    . exact h.accepted verdict hold hsender
  . intro f hf
    split at hf
    . cases hf
      exact ⟨hmsg, rfl⟩
    . contradiction

theorem sound_advanceState (a : Ambient) {msg : P2PMessage}
    (hmsg : msg.senderId = st.nodeId → msg ∈ st.sent)
    : Sound
        ({ st with pbft := (st.pbft.advanceState a msg).2 }.goto thread
          (st.dispatch (st.pbft.advanceState a msg).1 msg)) := by
  apply sound_goto_unnumbered
  . apply sound_pbft h (st.pbft.privateKey_advanceState a msg)
      (st.pbft.genesisHash_advanceState a msg) _ h.accepted
    intro seq hash hentry
    rcases st.pbft.history_advanceState st.nodeId hentry with hold | ⟨hsender, hseq, hhash⟩
    . exact .inl hold
    . exact .inr ⟨msg, hmsg hsender, hseq.symm, hhash⟩
  . intro f hf
    unfold dispatch at hf
    split at hf
    . cases hf
      exact ⟨rfl, rfl⟩
    . cases hf
      exact ⟨rfl, rfl⟩
    . split at hf
      . cases hf
        exact ⟨trivial, rfl⟩
      . contradiction
    . contradiction

theorem sound_resume (hcorrect : C.SignatureCorrect) (a : Ambient)
    (horderly : Orderly st (.resume thread a))
    : (st.resume thread a).Sound := by
  unfold resume
  split
  . exact h
  . next next msg hframe =>
    have hsound := h.frames thread _ hframe
    replace horderly := horderly _ hframe
    cases next with
    | fetchAdd => exact sound_fetchAdd h thread hsound horderly
    | currentView =>
      have hfresh : st.Fresh msg := hsound
      apply sound_goto_numbered h thread hframe rfl
      . rfl
      . exact ⟨hfresh.sender_eq, hfresh.pos, hfresh.le, hfresh.unsent⟩
    | getLastSentHash =>
      have hfresh : st.Fresh msg := hsound
      apply sound_goto_numbered h thread hframe rfl
      . rfl
      . refine ⟨?_, linked_getLastSentHash h hfresh horderly⟩
        exact ⟨hfresh.sender_eq, hfresh.pos, hfresh.le, hfresh.unsent⟩
    | signMessage =>
      obtain ⟨hfresh, hlinked⟩ : st.Fresh msg ∧ st.Linked msg := hsound
      apply sound_goto_numbered h thread hframe rfl
      . rfl
      . refine ⟨?_, ?_, rfl⟩
        . exact ⟨hfresh.sender_eq, hfresh.pos, hfresh.le, hfresh.unsent⟩
        . exact ⟨hlinked.first, hlinked.next⟩
    | setRoundCommitSig =>
      have hcontinues : Continues st.nodeId st.pbft
          (if msg.stageStr = Stage.commit then
            st.pbft.setRoundCommitSig (C.sha256Hex (joinPipe [msg.evidenceJson, msg.targetId]))
              msg.signature
          else
            st.pbft) := by
        split
        . apply PBFTConsensus.continues_setRoundCommitSig
        . apply PBFTConsensus.Continues.refl
      have hpbft := sound_of_continues h hcontinues h.accepted
      have hkept := hpbft.frames thread _ hframe
      apply sound_goto_numbered hpbft thread hframe rfl
      . rfl
      . exact hkept
    | send => exact sound_send h thread hframe
    | verifyMessage => exact sound_verifyMessage h thread hcorrect a hsound horderly
    | advanceState => exact sound_advanceState h thread a hsound
    | banPeerLocal =>
      apply sound_goto_unnumbered
      . apply sound_of_continues h (PBFTConsensus.continues_banPeerLocal _ _ _ _) h.accepted
      . simp

theorem sound_step (hcorrect : C.SignatureCorrect) {action : ThreadAction C}
    (horderly : Orderly st action)
    : (st.step action).Sound := by
  unfold step
  split
  . split
    . exact h
    . apply sound_goto_unnumbered h
      rintro f ⟨⟩
      exact ⟨rfl, rfl⟩
  . split
    . exact h
    . next msg hforeign =>
      rw [not_or] at hforeign
      apply sound_goto_unnumbered h
      rintro f ⟨⟩
      exact ⟨fun hsender => absurd hsender hforeign.2, rfl⟩
  . exact sound_resume h _ hcorrect _ horderly
  . next call =>
    split
    . next hop =>
      apply sound_of_continues h _ h.accepted
      apply PBFTConsensus.continues_step
      . intro msg heq
        simp [isMaintenance, heq] at hop
      . intro key heq
        simp [isMaintenance, heq] at hop
    . exact h

end Steps

theorem foldl_provisionPeer (peers : List (Bytes × Bytes)) (node : MeshNode C)
    : (peers.foldl MeshNode.provisionPeer node).sequenceNumber = node.sequenceNumber
        ∧
      (peers.foldl MeshNode.provisionPeer node).pbft.messageHistory = node.pbft.messageHistory
        ∧
      (peers.foldl MeshNode.provisionPeer node).pbft.rounds = node.pbft.rounds := by
  induction peers generalizing node with
  | nil => exact ⟨rfl, rfl, rfl⟩
  | cons peer peers ih => exact ih (node.provisionPeer peer)

theorem sound_new (C : IdentityCore) (nodeId : Bytes) (key pbftKey : C.PrivKey)
    (settings : MeshNode.Settings)
    : (new (MeshNode.new C nodeId key pbftKey settings)).Sound := by
  obtain ⟨hnumber, hhistory, _⟩ : (MeshNode.new C nodeId key pbftKey settings).sequenceNumber = 0
      ∧ (MeshNode.new C nodeId key pbftKey settings).pbft.messageHistory = ∅
      ∧ (MeshNode.new C nodeId key pbftKey settings).pbft.rounds = ∅ :=
    foldl_provisionPeer _ _
  constructor
  . unfold new
    rw [hnumber]
    simp
  . intro thread frame hframe
    contradiction
  . intro thread thread' frame frame' _ hframe
    contradiction
  . intro msg hmsg
    contradiction
  . intro msg hmsg
    contradiction
  . intro seq hash hentry
    unfold new PBFTConsensus.historyOf at hentry
    rw [hhistory] at hentry
    simp at hentry
  . intro verdict hverdict
    contradiction

theorem wellFormed_of_orderly (C : IdentityCore) (hcorrect : C.SignatureCorrect) (nodeId : Bytes)
    (key pbftKey : C.PrivKey) (settings : MeshNode.Settings) (actions : List (ThreadAction C))
    (horderly : Run.Along step Orderly (new (MeshNode.new C nodeId key pbftKey settings)) actions)
    : Run.Always step WellFormed (new (MeshNode.new C nodeId key pbftKey settings)) actions := by
  apply Run.always_of_invariant (I := fun st : Threads C => st.Sound)
  . intro st action h horderly
    exact sound_step h hcorrect horderly
  . intro st h
    exact wellFormed_of_sound h
  . exact sound_new C nodeId key pbftKey settings
  . exact horderly

instance (st : Threads .plain) : Decidable st.OwnKey :=
  match hkey : st.pbft.privateKey with
  | none => isFalse (by simp [OwnKey, hkey])
  | some key =>
    decidable_of_iff
      (st.pbft.peerPublicKeys[st.nodeId]?
        = some (IdentityCore.plain.getPubkeyFromPem (IdentityCore.plain.getPemFromPubkey key)))
      (by simp [OwnKey, hkey])

instance (st : Threads .plain) (frame : ThreadFrame) : Decidable (st.FrameOrderly frame) :=
  match frame with
  | { next := .fetchAdd, msg := _ } => inferInstanceAs (Decidable (_ < _))
  | { next := .getLastSentHash, msg } =>
    inferInstanceAs (Decidable
      (if msg.sequenceNumber = 1 then
        (st.pbft.historyOf st.nodeId).isEmpty = true
      else
        (st.pbft.historyOf st.nodeId).keys.getLast? = some (msg.sequenceNumber - 1)))
  | { next := .verifyMessage, msg := _ } => inferInstanceAs (Decidable (_ → _))
  | { next := .currentView, msg := _ } => isTrue trivial
  | { next := .signMessage, msg := _ } => isTrue trivial
  | { next := .setRoundCommitSig, msg := _ } => isTrue trivial
  | { next := .send, msg := _ } => isTrue trivial
  | { next := .advanceState, msg := _ } => isTrue trivial
  | { next := .banPeerLocal, msg := _ } => isTrue trivial

instance (st : Threads .plain) (action : ThreadAction .plain) : Decidable (Orderly st action) :=
  match action with
  | .resume _ _ => inferInstanceAs (Decidable (∀ frame ∈ _, st.FrameOrderly frame))
  | .propose _ _ _ => isTrue trivial
  | .receive _ _ => isTrue trivial
  | .maintain _ => isTrue trivial

def sampleThreads : Threads .plain :=
  new (MeshNode.new .plain (bytes "A") (bytes "A") (bytes "A")
    { peerKeys := some (bytes "B:-----BEGIN B,C:-----BEGIN C,D:-----BEGIN D") })

def proposal (thread : Nat) (target : String) (n : Nat) : List (ThreadAction .plain) :=
  .propose thread (bytes target) (bytes "\x7b\x7d")
    :: List.replicate n
      (.resume thread { now := 0, bucketOrder := id, bucketOrder_perm := List.Perm.refl })

theorem wellFormed_twoProposals
    : Run.Always step WellFormed sampleThreads (proposal 0 "T" 16 ++ proposal 0 "U" 16) := by
  apply wellFormed_of_orderly .plain IdentityCore.plain_signatureCorrect
  change Run.Along step Orderly sampleThreads (proposal 0 "T" 16 ++ proposal 0 "U" 16)
  decide +kernel

/--
Three proposals in a row make six votes. The sixth one is beyond the rate limit, it is broadcast but not
recorded, and the seventh one continues the chain from the fifth one.
-/
theorem not_forall_wellFormed
    : ¬ ∀ (nodeId key : Bytes) (settings : MeshNode.Settings) (actions : List (ThreadAction .plain)),
        Run.Always step WellFormed (new (MeshNode.new .plain nodeId key key settings)) actions := by
  intro h
  have hrun : Run.Always step WellFormed sampleThreads
      (proposal 0 "T" 16 ++ proposal 0 "U" 16 ++ proposal 0 "V" 16 ++ proposal 0 "W" 6) := h _ _ _ _
  have hlinked := (Run.foldl_of_always hrun).linked
  revert hlinked
  decide +kernel

end Threads
end NeuroMesh
