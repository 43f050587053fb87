import NeuroMesh.Consensus.MeshNode.Impl.Audit
import NeuroMesh.Consensus.MeshNode.Lemmas.Threads
import NeuroMesh.Consensus.PBFT.Lemmas.Message
import NeuroMesh.Consensus.PBFT.Lemmas.Rounds

/-!
This module contains the analysis of the signatures that end up in the proof chain. Between the transition of a
round to `COMMIT` and the call of `set_round_commit_sig` the round has no signature, and nothing keeps the
votes of the other nodes from executing it in the meantime.
-/

namespace NeuroMesh

variable {C : IdentityCore}

def unrecorded (next : ProgramPoint) : Bool :=
  match next with
  | .fetchAdd | .currentView | .getLastSentHash | .signMessage | .setRoundCommitSig => true
  | _ => false

def signedAt (next : ProgramPoint) : Bool :=
  match next with
  | .setRoundCommitSig | .send | .verifyMessage | .advanceState => true
  | _ => false

structure Awaits (C : IdentityCore) (frame : ThreadFrame) (key : Bytes) : Prop where
  unrecorded : unrecorded frame.next = true
  stage : frame.msg.stageStr = Stage.commit
  key : commitKey C frame.msg = key

def Threads.OnWay (st : Threads C) (key : Bytes) : Prop :=
  ∃ thread frame, st.frames thread = some frame ∧ Awaits C frame key

theorem Threads.onWay_goto {st st' : Threads C} {thread : Nat} {frame : Option ThreadFrame} {key : Bytes}
    (hframes : st'.frames = st.frames)
    (hway : ∀ f, st.frames thread = some f → Awaits C f key → ∃ f', frame = some f' ∧ Awaits C f' key)
    (h : st.OnWay key)
    : (st'.goto thread frame).OnWay key := by
  obtain ⟨t, f, hf, hawaits⟩ := h
  by_cases heq : t = thread
  . subst heq
    obtain ⟨f', hf', hawaits'⟩ := hway f hf hawaits
    refine ⟨t, f', ?_, hawaits'⟩
    rw [frames_goto, hf']
  . refine ⟨t, f, ?_, hawaits⟩
    unfold goto
    dsimp only
    rw [Function.update_of_ne heq, hframes, hf]

namespace Audit

def Genuine (s : Audit C) (link : ConsensusLink) : Prop :=
  link.commitSig ≠ []
    ∧ ∃ msg ∈ s.signed, msg.senderId = s.threads.nodeId ∧ msg.stageStr = Stage.commit
      ∧ msg.targetId = link.targetId ∧ msg.evidenceJson = link.evidenceJson ∧ msg.signature = link.commitSig

def AllGenuine (s : Audit C) : Prop :=
  ∀ link ∈ s.links, s.Genuine link

def FrameOrderly (s : Audit C) (a : Ambient) (frame : ThreadFrame) : Prop :=
  match frame.next with
  | .signMessage => frame.msg.stageStr = Stage.commit → s.threads.pbft.signMessage frame.msg ≠ []
  | .advanceState =>
    (frame.msg.senderId ≠ s.threads.nodeId → frame.msg.stageStr = Stage.commit →
      ¬s.threads.OnWay (commitKey C frame.msg))
    ∧
    ∀ thread msg, s.pending thread = some msg → msg.senderId ≠ s.threads.nodeId →
      s.threads.pbft.removes ⟨a, .advanceState frame.msg⟩ (commitKey C msg) = false
  | _ => True

/--
The node can sign its `COMMIT` messages. While a thread is on its way to record the signature of a round no
`COMMIT` of another node gets to vote in it, and a round is not cleaned up while a thread is about to look up
its signature. The target is what comes after the last separator of the text that the key is the hash of.
-/
def Orderly (s : Audit C) (action : AuditAction C) : Prop :=
  match action with
  | .run (.propose _ targetId _) => pipe ∉ targetId
  | .run (.receive _ msg) => pipe ∉ msg.targetId
  | .run (.resume thread a) => ∀ frame, s.threads.frames thread = some frame → s.FrameOrderly a frame
  | _ => True

section Sound

structure FrameSound (nodeId : Bytes) (signed : List P2PMessage) (frame : ThreadFrame) : Prop where
  target : pipe ∉ frame.msg.targetId
  own : unrecorded frame.next = true → frame.msg.senderId = nodeId
  signed : signedAt frame.next = true → frame.msg.senderId = nodeId →
    frame.msg ∈ signed ∧ (frame.msg.stageStr = Stage.commit → frame.msg.signature ≠ [])

theorem FrameSound.mono {nodeId : Bytes} {signed signed' : List P2PMessage} {frame : ThreadFrame}
    (h : FrameSound nodeId signed frame) (hsubset : signed ⊆ signed')
    : FrameSound nodeId signed' frame := by
  refine ⟨h.target, h.own, ?_⟩
  intro hat hown
  have hsigned := h.signed hat hown
  exact ⟨hsubset hsigned.1, hsigned.2⟩

variable (s : Audit C)

structure PendingSound (msg : P2PMessage) : Prop where
  target : pipe ∉ msg.targetId
  stage : msg.stageStr = Stage.commit
  own : msg.senderId = s.threads.nodeId → msg ∈ s.signed ∧ msg.signature ≠ []
  foreign : msg.senderId ≠ s.threads.nodeId → s.threads.pbft.getRoundCommitSig (commitKey C msg) ≠ []

def Recorded (key : Bytes) : Prop :=
  ∃ msg ∈ s.signed, msg.senderId = s.threads.nodeId ∧ msg.stageStr = Stage.commit ∧ pipe ∉ msg.targetId
    ∧ commitKey C msg = key ∧ msg.signature = s.threads.pbft.getRoundCommitSig key

structure Sound : Prop where
  frames : ∀ thread frame, s.threads.frames thread = some frame → FrameSound s.threads.nodeId s.signed frame
  pending : ∀ thread msg, s.pending thread = some msg → s.PendingSound msg
  recorded : ∀ key, s.threads.pbft.getRoundCommitSig key ≠ [] → s.Recorded key
  committed : ∀ key, (s.threads.pbft.roundOf key).state = .commit →
    s.threads.pbft.getRoundCommitSig key ≠ [] ∨ s.threads.OnWay key
  genuine : s.AllGenuine

end Sound

variable {s : Audit C}

theorem genuine_of_subset {link : ConsensusLink} {threads : Threads C} {pending : Nat → Option P2PMessage}
    {signed : List P2PMessage} {links : List ConsensusLink} (hid : threads.nodeId = s.threads.nodeId)
    (hsigned : s.signed ⊆ signed) (h : s.Genuine link)
    : Genuine { threads, pending, signed, links } link := by
  obtain ⟨hne, msg, hmem, hsender, hrest⟩ := h
  exact ⟨hne, msg, hsigned hmem, hsender.trans hid.symm, hrest⟩

theorem Sound.of_rounds_eq (h : s.Sound) {threads : Threads C} {signed : List P2PMessage}
    (hid : threads.nodeId = s.threads.nodeId) (hsigned : s.signed ⊆ signed)
    (hrounds : ∀ key, threads.pbft.roundOf key = s.threads.pbft.roundOf key)
    (hframes : ∀ thread frame, threads.frames thread = some frame → FrameSound s.threads.nodeId signed frame)
    (hway : ∀ key, s.threads.OnWay key → threads.OnWay key)
    : Sound { s with threads, signed } := by
  have hsig : ∀ key, threads.pbft.getRoundCommitSig key = s.threads.pbft.getRoundCommitSig key := by
    intro key
    unfold PBFTConsensus.getRoundCommitSig
    rw [hrounds]
  constructor
  . dsimp only
    rw [hid]
    exact hframes
  . intro thread msg hmsg
    have hold := h.pending thread msg hmsg
    refine ⟨hold.target, hold.stage, ?_, ?_⟩
    . intro hown
      have hown := hold.own (hown.trans hid)
      exact ⟨hsigned hown.1, hown.2⟩
    . intro hforeign
      dsimp only at hforeign ⊢
      rw [hid] at hforeign
      rw [hsig]
      exact hold.foreign hforeign
  . intro key hne
    dsimp only at hne
    rw [hsig] at hne
    obtain ⟨msg, hmem, hsender, hstage, htarget, hkey, heq⟩ := h.recorded key hne
    exact ⟨msg, hsigned hmem, hsender.trans hid.symm, hstage, htarget, hkey, heq.trans (hsig key).symm⟩
  . intro key hstate
    dsimp only at hstate ⊢
    rw [hrounds] at hstate
    rw [hsig]
    rcases h.committed key hstate with hne | honWay
    . exact .inl hne
    . exact .inr (hway key honWay)
  . intro link hlink
    exact genuine_of_subset hid hsigned (h.genuine link hlink)

theorem Sound.goto (h : s.Sound) {threads : Threads C} {signed : List P2PMessage} {thread : Nat}
    {frame : Option ThreadFrame} (hid : threads.nodeId = s.threads.nodeId)
    (hframes : threads.frames = s.threads.frames) (hsigned : s.signed ⊆ signed)
    (hrounds : ∀ key, threads.pbft.roundOf key = s.threads.pbft.roundOf key)
    (hframe : ∀ f, frame = some f → FrameSound s.threads.nodeId signed f)
    (hway : ∀ f key, s.threads.frames thread = some f → Awaits C f key →
      ∃ f', frame = some f' ∧ Awaits C f' key)
    : Sound { s with threads := threads.goto thread frame, signed } := by
  refine h.of_rounds_eq hid hsigned hrounds ?_ ?_
  . intro t f hf
    rcases Threads.frames_goto_cases hf with ⟨-, hf⟩ | ⟨-, hf⟩
    . exact hframe f hf
    . rw [hframes] at hf
      exact (h.frames t f hf).mono hsigned
  . intro key honWay
    exact Threads.onWay_goto hframes (fun f hf => hway f key hf) honWay

theorem Sound.fillIn (h : s.Sound) {threads : Threads C} {thread : Nat} {next next' : ProgramPoint}
    {msg msg' : P2PMessage} (hframe : s.threads.frames thread = some { next, msg })
    (hid : threads.nodeId = s.threads.nodeId) (hframes : threads.frames = s.threads.frames)
    (hpbft : threads.pbft = s.threads.pbft) (hnext : unrecorded next = true ∧ unrecorded next' = true)
    (hunsigned : signedAt next' = false) (hsender : msg'.senderId = msg.senderId)
    (hstage : msg'.stageStr = msg.stageStr) (htarget : msg'.targetId = msg.targetId)
    (hevidence : msg'.evidenceJson = msg.evidenceJson)
    : Sound { s with threads := threads.goto thread (some { next := next', msg := msg' }) } := by
  have hsound := h.frames thread _ hframe
  apply h.goto hid hframes (List.Subset.refl _)
  . intro key
    rw [hpbft]
  . rintro f ⟨⟩
    refine ⟨?_, ?_, ?_⟩
    . dsimp only
      rw [htarget]
      exact hsound.target
    . intro _
      exact hsender.trans (hsound.own hnext.1)
    . intro hsigned
      rw [hunsigned] at hsigned
      contradiction
  . intro f key hf hawaits
    rw [hframe] at hf
    cases hf
    refine ⟨_, rfl, hnext.2, hstage.trans hawaits.stage, ?_⟩
    have hkey := hawaits.key
    unfold commitKey at hkey ⊢
    dsimp only at hkey ⊢
    rw [htarget, hevidence, hkey]

theorem Sound.goOn (h : s.Sound) {threads : Threads C} {thread : Nat} {next : ProgramPoint} {msg : P2PMessage}
    {frame : Option ThreadFrame} (hframe : s.threads.frames thread = some { next, msg })
    (hid : threads.nodeId = s.threads.nodeId) (hframes : threads.frames = s.threads.frames)
    (hrounds : ∀ key, threads.pbft.roundOf key = s.threads.pbft.roundOf key)
    (hnext : unrecorded next = false) (hsigned : frame ≠ none → signedAt next = true)
    (hmsg : ∀ f, frame = some f → f.msg = msg ∧ unrecorded f.next = false)
    : Sound { s with threads := threads.goto thread frame } := by
  have hsound := h.frames thread _ hframe
  apply h.goto hid hframes (List.Subset.refl _) hrounds
  . rintro f rfl
    obtain ⟨rfl, hrecorded⟩ := hmsg f rfl
    refine ⟨hsound.target, ?_, fun _ => hsound.signed (hsigned nofun)⟩
    intro hunrecorded
    rw [hrecorded] at hunrecorded
    contradiction
  . intro f key hf hawaits
    rw [hframe] at hf
    cases hf
    have hunrecorded := hawaits.unrecorded
    rw [hnext] at hunrecorded
    contradiction

section Resume

variable {thread : Nat} {a : Ambient} {msg : P2PMessage}

theorem signs_of_ne {next : ProgramPoint} (hframe : s.threads.frames thread = some { next, msg })
    (h : next ≠ .signMessage)
    : s.threads.signs (.resume thread a) = none := by
  unfold Threads.signs
  dsimp only
  rw [hframe]
  cases next with
  | signMessage => contradiction
  | _ => rfl

theorem executes_of_ne {next : ProgramPoint} (hframe : s.threads.frames thread = some { next, msg })
    (h : next ≠ .advanceState)
    : s.threads.executes (.resume thread a) = none := by
  unfold Threads.executes
  dsimp only
  rw [hframe]
  cases next with
  | advanceState => contradiction
  | _ => rfl

theorem run_of_ne {next : ProgramPoint} (hframe : s.threads.frames thread = some { next, msg })
    (hsign : next ≠ .signMessage) (hvote : next ≠ .advanceState)
    : s.run (.resume thread a) = { s with threads := s.threads.resume thread a } := by
  unfold run
  rw [signs_of_ne hframe hsign, executes_of_ne hframe hvote]
  rfl

theorem run_of_signMessage (hframe : s.threads.frames thread = some { next := .signMessage, msg })
    : let msg := { msg with signature := s.threads.pbft.signMessage msg }
      s.run (.resume thread a)
        =
      {
        s with
        threads := s.threads.goto thread (some { next := .setRoundCommitSig, msg })
        signed := msg :: s.signed
      } := by
  intro msg
  unfold run
  rw [executes_of_ne hframe nofun]
  unfold Threads.signs Threads.step Threads.resume
  dsimp only
  rw [hframe]
  rfl

theorem sound_signMessage (h : s.Sound) (hframe : s.threads.frames thread = some { next := .signMessage, msg })
    (horderly : msg.stageStr = Stage.commit → s.threads.pbft.signMessage msg ≠ [])
    : (s.run (.resume thread a)).Sound := by
  have hsound := h.frames thread _ hframe
  rw [run_of_signMessage hframe]
  apply h.goto rfl rfl (List.subset_cons_self _ _) (fun _ => rfl)
  . rintro f ⟨⟩
    refine ⟨hsound.target, hsound.own, ?_⟩
    intro _ _
    exact ⟨List.mem_cons_self, horderly⟩
  . intro f key hf hawaits
    rw [hframe] at hf
    cases hf
    exact ⟨_, rfl, rfl, hawaits.stage, hawaits.key⟩

theorem getRoundCommitSig_setRoundCommitSig (pbft : PBFTConsensus C) (key sig key' : Bytes)
    : (pbft.setRoundCommitSig key sig).getRoundCommitSig key'
        =
      if key = key' then sig else pbft.getRoundCommitSig key' := by
  unfold PBFTConsensus.getRoundCommitSig PBFTConsensus.setRoundCommitSig
  rw [PBFTConsensus.roundOf_setRound]
  split
  . rfl
  . rfl

theorem state_setRoundCommitSig (pbft : PBFTConsensus C) (key sig key' : Bytes)
    : ((pbft.setRoundCommitSig key sig).roundOf key').state = (pbft.roundOf key').state := by
  unfold PBFTConsensus.setRoundCommitSig
  rw [PBFTConsensus.roundOf_setRound]
  split
  . next heq => rw [heq]
  . rfl

theorem sound_recordSig (h : s.Sound) (hframe : s.threads.frames thread = some { next := .setRoundCommitSig, msg })
    (hstage : msg.stageStr = Stage.commit)
    : Sound {
        s with
        threads := { s.threads with pbft := s.threads.pbft.setRoundCommitSig (commitKey C msg) msg.signature }.goto
          thread (some { next := .send, msg })
      } := by
  have hsound := h.frames thread _ hframe
  have hown : msg.senderId = s.threads.nodeId := hsound.own rfl
  obtain ⟨hmem, hne⟩ := hsound.signed rfl hown
  have hsig := getRoundCommitSig_setRoundCommitSig s.threads.pbft (commitKey C msg) msg.signature
  constructor
  . intro t f hf
    rcases Threads.frames_goto_cases hf with ⟨-, hf⟩ | ⟨-, hf⟩
    . cases hf
      exact ⟨hsound.target, nofun, hsound.signed⟩
    . exact h.frames t f hf
  . intro t m hm
    have hold := h.pending t m hm
    refine ⟨hold.target, hold.stage, hold.own, ?_⟩
    intro hforeign
    have hforeign := hold.foreign hforeign
    change (s.threads.pbft.setRoundCommitSig _ _).getRoundCommitSig _ ≠ []
    rw [hsig]
    split
    . exact hne hstage
    . exact hforeign
  . intro key hkey
    change (s.threads.pbft.setRoundCommitSig _ _).getRoundCommitSig key ≠ [] at hkey
    unfold Recorded
    change ∃ m ∈ s.signed, m.senderId = s.threads.nodeId ∧ _ ∧ _ ∧ _
      ∧ m.signature = (s.threads.pbft.setRoundCommitSig _ _).getRoundCommitSig key
    rw [hsig] at hkey ⊢
    by_cases heq : commitKey C msg = key
    . rw [if_pos heq]
      exact ⟨msg, hmem, hown, hstage, hsound.target, heq, rfl⟩
    . rw [if_neg heq] at hkey ⊢
      exact h.recorded key hkey
  . intro key hstate
    change ((s.threads.pbft.setRoundCommitSig _ _).roundOf key).state = _ at hstate
    rw [state_setRoundCommitSig] at hstate
    by_cases heq : commitKey C msg = key
    . left
      change (s.threads.pbft.setRoundCommitSig _ _).getRoundCommitSig key ≠ []
      rw [hsig, if_pos heq]
      exact hne hstage
    . rcases h.committed key hstate with hrecorded | honWay
      . left
        change (s.threads.pbft.setRoundCommitSig _ _).getRoundCommitSig key ≠ []
        rw [hsig, if_neg heq]
        exact hrecorded
      . right
        refine Threads.onWay_goto rfl ?_ honWay
        intro f hf hawaits
        rw [hframe] at hf
        cases hf
        exact absurd hawaits.key heq
  . exact h.genuine

theorem sound_setRoundCommitSig (h : s.Sound)
    (hframe : s.threads.frames thread = some { next := .setRoundCommitSig, msg })
    : (s.run (.resume thread a)).Sound := by
  rw [run_of_ne hframe nofun nofun]
  unfold Threads.resume
  rw [hframe]
  dsimp only
  split
  . next hstage => exact sound_recordSig h hframe hstage
  . next hstage =>
    have hsound := h.frames thread _ hframe
    apply h.goto rfl rfl (List.Subset.refl _) (fun _ => rfl)
    . rintro f ⟨⟩
      exact ⟨hsound.target, nofun, hsound.signed⟩
    . intro f key hf hawaits
      rw [hframe] at hf
      cases hf
      exact absurd hawaits.stage hstage

end Resume

section Vote

variable {thread : Nat} {a : Ambient} {msg : P2PMessage}

theorem commitKey_eq_keyOf (hhex : C.HexDigest) (msg : P2PMessage)
    : commitKey C msg = PBFTConsensus.keyOf C msg := by
  unfold PBFTConsensus.keyOf PBFTConsensus.roundKey
  exact (if_neg (hhex _).1).symm

theorem getRoundCommitSig_advanceState (pbft : PBFTConsensus C) (a : Ambient) (msg : P2PMessage) (key : Bytes)
    : (pbft.advanceState a msg).2.getRoundCommitSig key
        =
      (pbft.found ⟨a, .advanceState msg⟩ key).commitSignature := by
  unfold PBFTConsensus.getRoundCommitSig
  by_cases heq : key = PBFTConsensus.keyOf C msg
  . rw [heq]
    exact (pbft.moves_advanceState a msg).commitSignature
  . rw [PBFTConsensus.roundOf_advanceState_of_ne a heq]

theorem getRoundCommitSig_of_advanceState {pbft : PBFTConsensus C} {key : Bytes}
    (h : (pbft.advanceState a msg).2.getRoundCommitSig key ≠ [])
    : (pbft.advanceState a msg).2.getRoundCommitSig key = pbft.getRoundCommitSig key := by
  rw [getRoundCommitSig_advanceState] at h ⊢
  unfold PBFTConsensus.found at h ⊢
  split
  . next hremoves =>
    rw [if_pos hremoves] at h
    contradiction
  . rfl

theorem getRoundCommitSig_advanceState_of_kept {pbft : PBFTConsensus C} {key : Bytes}
    (h : pbft.removes ⟨a, .advanceState msg⟩ key = false)
    : (pbft.advanceState a msg).2.getRoundCommitSig key = pbft.getRoundCommitSig key := by
  rw [getRoundCommitSig_advanceState]
  unfold PBFTConsensus.found
  rw [h]
  rfl

theorem run_of_advanceState (hframe : s.threads.frames thread = some { next := .advanceState, msg })
    : s.run (.resume thread a)
        =
      {
        s with
        threads := { s.threads with pbft := (s.threads.pbft.advanceState a msg).2 }.goto thread
          (s.threads.dispatch (s.threads.pbft.advanceState a msg).1 msg)
        pending :=
          if (s.threads.pbft.advanceState a msg).1 = .executed
              ∧ ¬(MeshNode.isBanRound msg.evidenceJson ∨ msg.stageStr = Stage.banPeer) then
            Function.update s.pending thread (some msg)
          else
            s.pending
      } := by
  unfold run
  rw [signs_of_ne hframe nofun]
  unfold Threads.executes Threads.step Threads.resume
  dsimp only
  rw [hframe]
  dsimp only
  by_cases hexecuted : (s.threads.pbft.advanceState a msg).1 = .executed
      ∧ ¬(MeshNode.isBanRound msg.evidenceJson ∨ msg.stageStr = Stage.banPeer)
  . rw [if_pos hexecuted, if_pos hexecuted]
    rfl
  . rw [if_neg hexecuted, if_neg hexecuted]
    rfl

theorem frameSound_dispatch (h : FrameSound s.threads.nodeId s.signed { next := .advanceState, msg })
    {stage : PBFTStage} {frame : ThreadFrame} (hframe : s.threads.dispatch stage msg = some frame)
    : FrameSound s.threads.nodeId s.signed frame := by
  unfold Threads.dispatch at hframe
  split at hframe
  . cases hframe
    exact ⟨h.target, fun _ => rfl, nofun⟩
  . cases hframe
    exact ⟨h.target, fun _ => rfl, nofun⟩
  . split at hframe
    . cases hframe
      exact ⟨h.target, nofun, nofun⟩
    . contradiction
  . contradiction

theorem signature_of_executed (hhex : C.HexDigest) (h : s.Sound)
    (horderly : msg.senderId ≠ s.threads.nodeId → msg.stageStr = Stage.commit →
      ¬s.threads.OnWay (commitKey C msg))
    (hexecuted : (s.threads.pbft.advanceState a msg).1 = .executed)
    : msg.stageStr = Stage.commit
        ∧ (msg.senderId ≠ s.threads.nodeId →
          (s.threads.pbft.advanceState a msg).2.getRoundCommitSig (commitKey C msg) ≠ []) := by
  have hstage : msg.stageStr = Stage.commit := by
    have htriggers := s.threads.pbft.triggers_advanceState a msg
    rw [hexecuted] at htriggers
    exact htriggers
  refine ⟨hstage, ?_⟩
  intro hforeign
  obtain ⟨hstate, hkept⟩ := PBFTConsensus.committed_of_executed hexecuted
  have hnotOnWay := horderly hforeign hstage
  rw [commitKey_eq_keyOf hhex] at hnotOnWay ⊢
  rw [getRoundCommitSig_advanceState_of_kept hkept]
  rcases h.committed _ hstate with hne | honWay
  . exact hne
  . contradiction

theorem sound_advanceState (hhex : C.HexDigest) (h : s.Sound)
    (hframe : s.threads.frames thread = some { next := .advanceState, msg })
    (horderly : s.FrameOrderly a { next := .advanceState, msg })
    : (s.run (.resume thread a)).Sound := by
  have hsound := h.frames thread _ hframe
  rw [run_of_advanceState hframe]
  constructor
  . intro t f hf
    rcases Threads.frames_goto_cases hf with ⟨-, hf⟩ | ⟨-, hf⟩
    . exact frameSound_dispatch hsound hf
    . exact h.frames t f hf
  . intro t m hm
    have hcases : s.pending t = some m ∨ m = msg ∧ (s.threads.pbft.advanceState a msg).1 = .executed := by
      dsimp only at hm
      split at hm
      . next hexecuted =>
        rw [Function.update_apply] at hm
        split at hm
        . cases hm
          exact .inr ⟨rfl, hexecuted.1⟩
        . exact .inl hm
      . exact .inl hm
    rcases hcases with hold | ⟨rfl, hexecuted⟩
    . have hpending := h.pending t m hold
      refine ⟨hpending.target, hpending.stage, hpending.own, ?_⟩
      intro hforeign
      change (s.threads.pbft.advanceState a msg).2.getRoundCommitSig _ ≠ []
      rw [getRoundCommitSig_advanceState_of_kept (horderly.2 t m hold hforeign)]
      exact hpending.foreign hforeign
    . obtain ⟨hstage, hforeign⟩ := signature_of_executed hhex h horderly.1 hexecuted
      refine ⟨hsound.target, hstage, ?_, hforeign⟩
      intro hown
      have hsigned := hsound.signed rfl hown
      exact ⟨hsigned.1, hsigned.2 hstage⟩
  . intro key hne
    change (s.threads.pbft.advanceState a msg).2.getRoundCommitSig key ≠ [] at hne
    unfold Recorded
    change ∃ m ∈ s.signed, m.senderId = s.threads.nodeId ∧ _ ∧ _ ∧ _
      ∧ m.signature = (s.threads.pbft.advanceState a msg).2.getRoundCommitSig key
    have heq := getRoundCommitSig_of_advanceState hne
    rw [heq] at hne ⊢
    exact h.recorded key hne
  . intro key hstate
    rcases PBFTConsensus.committed_of_advanceState hstate with ⟨hcommit, hkept⟩ | ⟨hkey, hstage⟩
    . rcases h.committed key hcommit with hne | honWay
      . left
        change (s.threads.pbft.advanceState a msg).2.getRoundCommitSig key ≠ []
        rw [getRoundCommitSig_advanceState_of_kept hkept]
        exact hne
      . right
        refine Threads.onWay_goto rfl ?_ honWay
        intro f hf hawaits
        rw [hframe] at hf
        cases hf
        exact absurd hawaits.unrecorded nofun
    . right
      refine ⟨thread, s.threads.broadcast Stage.commit msg.targetId msg.evidenceJson, ?_, rfl, rfl, ?_⟩
      . dsimp only
        rw [Threads.frames_goto, hstage]
        rfl
      . rw [hkey]
        exact commitKey_eq_keyOf hhex msg
  . exact h.genuine

end Vote

theorem sound_resume (hhex : C.HexDigest) (h : s.Sound) {thread : Nat} {a : Ambient}
    (horderly : s.Orderly (.run (.resume thread a)))
    : (s.run (.resume thread a)).Sound := by
  cases hframe : s.threads.frames thread with
  | none =>
    have heq : s.run (.resume thread a) = s := by
      unfold run Threads.signs Threads.executes Threads.step Threads.resume
      dsimp only
      rw [hframe]
      rfl
    rw [heq]
    exact h
  | some frame =>
    replace horderly := horderly frame hframe
    obtain ⟨next, msg⟩ := frame
    cases next with
    | fetchAdd | currentView | getLastSentHash =>
      rw [run_of_ne hframe nofun nofun]
      unfold Threads.resume
      rw [hframe]
      exact h.fillIn hframe rfl rfl rfl ⟨rfl, rfl⟩ rfl rfl rfl rfl rfl
    | signMessage => exact sound_signMessage h hframe horderly
    | setRoundCommitSig => exact sound_setRoundCommitSig h hframe
    | send =>
      rw [run_of_ne hframe nofun nofun]
      unfold Threads.resume
      rw [hframe]
      refine h.goOn hframe rfl rfl (fun _ => rfl) rfl (fun _ => rfl) ?_
      rintro f ⟨⟩
      exact ⟨rfl, rfl⟩
    | verifyMessage =>
      rw [run_of_ne hframe nofun nofun]
      unfold Threads.resume
      rw [hframe]
      have hrounds := s.threads.pbft.rounds_verifyMessage a.now msg
      dsimp only
      generalize s.threads.pbft.verifyMessage a.now msg = result at hrounds ⊢
      obtain ⟨valid, pbft⟩ := result
      refine h.goOn hframe rfl rfl ?_ rfl (fun _ => rfl) ?_
      . intro key
        unfold PBFTConsensus.roundOf
        dsimp only at hrounds ⊢
        rw [hrounds]
      . intro f hf
        split at hf
        . cases hf
          exact ⟨rfl, rfl⟩
        . contradiction
    | advanceState => exact sound_advanceState hhex h hframe horderly
    | banPeerLocal =>
      rw [run_of_ne hframe nofun nofun]
      unfold Threads.resume
      rw [hframe]
      exact h.goOn hframe rfl rfl (fun _ => rfl) rfl (fun hne => absurd rfl hne) nofun

theorem Sound.start (h : s.Sound) {thread : Nat} {frame : ThreadFrame} (hidle : s.threads.frames thread = none)
    (hframe : FrameSound s.threads.nodeId s.signed frame)
    : Sound { s with threads := s.threads.goto thread (some frame) } := by
  apply h.goto rfl rfl (List.Subset.refl _) (fun _ => rfl)
  . rintro f ⟨⟩
    exact hframe
  . intro f key hf
    rw [hidle] at hf
    contradiction

theorem roundOf_maintenance (pbft : PBFTConsensus C) {call : PBFTConsensus.Call C}
    (hop : Threads.isMaintenance call.op = true) (hsig : ∀ key sig, call.op ≠ .setRoundCommitSig key sig)
    (key : Bytes)
    : (pbft.step call).roundOf key = pbft.roundOf key := by
  obtain ⟨a, op⟩ := call
  have hround : PBFTConsensus.Call.round ⟨a, op⟩ ≠ some key ∧ pbft.removes ⟨a, op⟩ key = false := by
    cases op with
    | advanceState msg => contradiction
    | setRoundCommitSig key' sig => exact absurd rfl (hsig key' sig)
    | _ => exact ⟨nofun, rfl⟩
  rw [PBFTConsensus.roundOf_step_of_ne hround.1]
  unfold PBFTConsensus.found
  rw [hround.2]
  rfl

theorem sound_run (hhex : C.HexDigest) (h : s.Sound) {action : ThreadAction C}
    (hpossible : s.possible action = true) (horderly : s.Orderly (.run action))
    : (s.run action).Sound := by
  cases action with
  | propose thread targetId evidenceJson =>
    change Sound { s with threads := s.threads.step _ }
    unfold Threads.step
    dsimp only
    split
    . exact h
    . next hidle =>
      apply h.start (by simpa using hidle)
      exact ⟨horderly, fun _ => rfl, nofun⟩
  | receive thread msg =>
    change Sound { s with threads := s.threads.step _ }
    unfold Threads.step
    dsimp only
    split
    . exact h
    . next hidle =>
      rw [not_or] at hidle
      apply h.start (by simpa using hidle.1)
      refine ⟨horderly, nofun, ?_⟩
      intro _ hown
      exact absurd hown hidle.2
  | resume thread a => exact sound_resume hhex h horderly
  | maintain call =>
    change Sound { s with threads := s.threads.step _ }
    unfold Threads.step
    dsimp only
    split
    . next hop =>
      refine h.of_rounds_eq rfl (List.Subset.refl _) ?_ h.frames (fun _ honWay => honWay)
      apply roundOf_maintenance s.threads.pbft hop
      rintro key sig heq
      obtain ⟨a, op⟩ := call
      subst heq
      contradiction
    . exact h

theorem eq_of_commitKey_eq (hfree : C.CollisionFree) (hhex : C.HexDigest) {msg msg' : P2PMessage}
    (hmsg : pipe ∉ msg.targetId) (hmsg' : pipe ∉ msg'.targetId) (h : commitKey C msg = commitKey C msg')
    : msg.evidenceJson = msg'.evidenceJson ∧ msg.targetId = msg'.targetId := by
  rw [commitKey_eq_keyOf hhex, commitKey_eq_keyOf hhex] at h
  exact PBFTConsensus.roundKey_inj hfree hhex hmsg hmsg' h

theorem genuine_linkOf (hfree : C.CollisionFree) (hhex : C.HexDigest) (h : s.Sound) {msg : P2PMessage}
    (hpending : s.PendingSound msg)
    : s.Genuine (s.linkOf msg) := by
  unfold Genuine linkOf
  dsimp only
  by_cases hown : msg.senderId = s.threads.nodeId
  . rw [if_pos hown]
    obtain ⟨hmem, hne⟩ := hpending.own hown
    exact ⟨hne, msg, hmem, hown, hpending.stage, rfl, rfl, rfl⟩
  . rw [if_neg hown]
    have hne := hpending.foreign hown
    obtain ⟨msg', hmem, hsender, hstage, htarget, hkey, hsig⟩ := h.recorded _ hne
    obtain ⟨hevidence, heq⟩ := eq_of_commitKey_eq hfree hhex htarget hpending.target hkey
    exact ⟨hne, msg', hmem, hsender, hstage, heq, hevidence, hsig⟩

theorem sound_step (hfree : C.CollisionFree) (hhex : C.HexDigest) (h : s.Sound) {action : AuditAction C}
    (horderly : s.Orderly action)
    : (s.step action).Sound := by
  unfold step
  cases action with
  | run action =>
    dsimp only
    split
    . next hpossible => exact sound_run hhex h hpossible horderly
    . exact h
  | append thread records =>
    dsimp only
    split
    . exact h
    . next msg hmsg =>
      have hgenuine := genuine_linkOf hfree hhex h (h.pending thread msg hmsg)
      refine ⟨h.frames, ?_, h.recorded, h.committed, ?_⟩
      . intro t m hm
        dsimp only at hm
        rw [Function.update_apply] at hm
        split at hm
        . contradiction
        . have hold := h.pending t m hm
          exact ⟨hold.target, hold.stage, hold.own, hold.foreign⟩
      . intro link hlink
        dsimp only at hlink
        split at hlink
        . rcases List.mem_cons.mp hlink with rfl | hlink
          . exact hgenuine
          . exact h.genuine link hlink
        . exact h.genuine link hlink

theorem sound_new (C : IdentityCore) (nodeId : Bytes) (key pbftKey : C.PrivKey) (settings : MeshNode.Settings)
    : (new (MeshNode.new C nodeId key pbftKey settings)).Sound := by
  have hrounds : (MeshNode.new C nodeId key pbftKey settings).pbft.rounds = ∅ :=
    (Threads.foldl_provisionPeer _ _).2.2
  have hround : ∀ key', (MeshNode.new C nodeId key pbftKey settings).pbft.roundOf key' = {} := by
    intro key'
    unfold PBFTConsensus.roundOf
    rw [hrounds]
    rfl
  constructor
  . nofun
  . nofun
  . intro key' hne
    unfold PBFTConsensus.getRoundCommitSig new Threads.new at hne
    dsimp only at hne
    rw [hround] at hne
    contradiction
  . intro key' hstate
    unfold new Threads.new at hstate
    dsimp only at hstate
    rw [hround] at hstate
    contradiction
  . nofun

theorem allGenuine_of_orderly (C : IdentityCore) (hfree : C.CollisionFree) (hhex : C.HexDigest) (nodeId : Bytes)
    (key pbftKey : C.PrivKey) (settings : MeshNode.Settings) (actions : List (AuditAction C))
    (horderly : Run.Along step Orderly (new (MeshNode.new C nodeId key pbftKey settings)) actions)
    : Run.Always step AllGenuine (new (MeshNode.new C nodeId key pbftKey settings)) actions := by
  apply Run.always_of_invariant (I := Sound)
  . intro s action h horderly
    exact sound_step hfree hhex h horderly
  . intro s h
    exact h.genuine
  . exact sound_new C nodeId key pbftKey settings
  . exact horderly

section Few

def Few (n : Nat) (s : Audit C) : Prop :=
  ∀ thread, n ≤ thread → s.threads.frames thread = none ∧ s.pending thread = none

def actor (action : AuditAction C) : Option Nat :=
  match action with
  | .run action => action.thread
  | .append thread _ => some thread

theorem frames_resume_of_ne (st : Threads C) {thread other : Nat} (a : Ambient) (hne : other ≠ thread)
    : (st.resume thread a).frames other = st.frames other := by
  have hgoto : ∀ (st' : Threads C) frame, (st'.goto thread frame).frames other = st'.frames other := by
    intro st' frame
    exact Function.update_of_ne hne _ _
  unfold Threads.resume
  split
  . rfl
  . next next msg _ =>
    cases next with
    | _ => exact hgoto _ _

theorem frames_step_of_ne (st : Threads C) {action : ThreadAction C} {other : Nat} (hne : action.thread ≠ some other)
    : (st.step action).frames other = st.frames other := by
  unfold Threads.step
  cases action with
  | resume thread a =>
    apply frames_resume_of_ne
    rintro rfl
    exact hne rfl
  | maintain call =>
    dsimp only
    split
    . rfl
    . rfl
  | propose thread targetId evidenceJson =>
    dsimp only
    split
    . rfl
    . apply Function.update_of_ne
      rintro rfl
      exact hne rfl
  | receive thread msg =>
    dsimp only
    split
    . rfl
    . apply Function.update_of_ne
      rintro rfl
      exact hne rfl

theorem pending_run_of_ne {action : ThreadAction C} {other : Nat} (hne : action.thread ≠ some other)
    : (s.run action).pending other = s.pending other := by
  unfold run
  dsimp only
  cases hexecutes : s.threads.executes action with
  | none => rfl
  | some executed =>
    apply Function.update_of_ne
    rintro rfl
    apply hne
    unfold Threads.executes at hexecutes
    split at hexecutes
    . split at hexecutes
      . dsimp only at hexecutes
        split at hexecutes
        . cases hexecutes
          rfl
        . contradiction
      . contradiction
    . contradiction

theorem few_step {n : Nat} (h : s.Few n) {action : AuditAction C} (hactor : (actor action).all (· < n) = true)
    : (s.step action).Few n := by
  intro thread hle
  have hne : actor action ≠ some thread := by
    intro heq
    rw [heq] at hactor
    simp at hactor
    omega
  have hidle := h thread hle
  unfold step
  cases action with
  | run action =>
    dsimp only
    split
    . rw [pending_run_of_ne hne]
      exact ⟨(frames_step_of_ne s.threads hne).trans hidle.1, hidle.2⟩
    . exact hidle
  | append other records =>
    dsimp only
    split
    . exact hidle
    . refine ⟨hidle.1, ?_⟩
      dsimp only
      rw [Function.update_of_ne (fun heq => hne (congrArg some heq.symm))]
      exact hidle.2

end Few

section Sample

instance (frame : ThreadFrame) (key : Bytes) : Decidable (Awaits C frame key) :=
  decidable_of_iff (unrecorded frame.next = true ∧ frame.msg.stageStr = Stage.commit ∧ commitKey C frame.msg = key)
    ⟨fun h => ⟨h.1, h.2.1, h.2.2⟩, fun h => ⟨h.unrecorded, h.stage, h.key⟩⟩

def orderlyFew (n : Nat) (s : Audit C) (action : AuditAction C) : Bool :=
  (actor action).all (· < n)
    &&
  match action with
  | .run (.propose _ targetId _) => pipe ∉ targetId
  | .run (.receive _ msg) => pipe ∉ msg.targetId
  | .run (.resume thread a) =>
    match s.threads.frames thread with
    | some { next := .signMessage, msg } => s.threads.pbft.signMessage msg ≠ []
    | some { next := .advanceState, msg } =>
      (List.range n).all fun thread =>
        (s.threads.frames thread).all (fun frame => !decide (Awaits C frame (commitKey C msg)))
          && (s.pending thread).all fun msg' =>
            s.threads.pbft.removes ⟨a, .advanceState msg⟩ (commitKey C msg') = false
    | _ => true
  | _ => true

theorem orderly_of_few {n : Nat} (hfew : s.Few n) {action : AuditAction C} (h : s.orderlyFew n action = true)
    : s.Orderly action := by
  unfold orderlyFew at h
  rw [Bool.and_eq_true] at h
  obtain ⟨-, h⟩ := h
  cases action with
  | append thread records => trivial
  | run action =>
    cases action with
    | propose thread targetId evidenceJson => exact of_decide_eq_true (p := pipe ∉ targetId) h
    | receive thread msg => exact of_decide_eq_true (p := pipe ∉ msg.targetId) h
    | maintain call => trivial
    | resume thread a =>
      rintro ⟨next, msg⟩ hframe
      dsimp only at h
      rw [hframe] at h
      cases next with
      | signMessage => exact fun _ => of_decide_eq_true h
      | advanceState =>
        rw [List.all_eq_true] at h
        constructor
        . rintro _ _ ⟨t, frame, hf, hawaits⟩
          have hlt : t < n := by
            by_contra hle
            rw [(hfew t (by omega)).1] at hf
            contradiction
          have hnot := h t (List.mem_range.mpr hlt)
          rw [hf] at hnot
          simp [hawaits] at hnot
        . intro t msg' hpending _
          have hlt : t < n := by
            by_contra hle
            rw [(hfew t (by omega)).2] at hpending
            contradiction
          have hkept := h t (List.mem_range.mpr hlt)
          rw [hpending, Bool.and_eq_true] at hkept
          exact of_decide_eq_true hkept.2
      | _ => trivial

theorem along_orderly_of_few {n : Nat} {actions : List (AuditAction C)} (hfew : s.Few n)
    (h : Run.Along step (fun s action => s.orderlyFew n action = true) s actions)
    : Run.Along step Orderly s actions := by
  apply Run.along_of_invariant (I := Few n) _ hfew h
  intro s action hfew h
  refine ⟨orderly_of_few hfew h, few_step hfew ?_⟩
  unfold orderlyFew at h
  rw [Bool.and_eq_true] at h
  exact h.1

def sampleAudit : Audit .plain :=
  new (MeshNode.new .plain (bytes "A") (bytes "A") (bytes "A")
    { peerKeys := some (bytes "B:-----BEGIN B,C:-----BEGIN C,D:-----BEGIN D") })

def peerVote (sender : String) (stageStr : Bytes) (sequenceNumber : UInt64) (prevMessageHash : Bytes) : P2PMessage :=
  let msg : P2PMessage := {
    stageStr, sequenceNumber, prevMessageHash
    senderId := bytes sender
    targetId := bytes "T"
    evidenceJson := bytes "\x7b\x7d"
    signature := []
    view := 0
  }
  { msg with signature := IdentityCore.plain.signPayload (bytes ("-----BEGIN " ++ sender)) msg.blob }

def prepareVote (sender : String) : P2PMessage :=
  peerVote sender Stage.prepare 1 (IdentityCore.plain.sha256Hex (bytes "GENESIS"))

def commitVote (sender : String) : P2PMessage :=
  peerVote sender Stage.commit 2 (PBFTConsensus.computeMessageHash .plain (prepareVote sender))

def resumes (thread n : Nat) : List (AuditAction .plain) :=
  List.replicate n (.run (.resume thread default))

def listens (msg : P2PMessage) : List (AuditAction .plain) :=
  .run (.receive 1 msg) :: resumes 1 2

def proposes : AuditAction .plain :=
  .run (.propose 0 (bytes "T") (bytes "\x7b\x7d"))

theorem allGenuine_listener
    : let actions := [proposes] ++ resumes 0 16 ++ listens (prepareVote "B") ++ listens (prepareVote "C")
        ++ resumes 1 8 ++ listens (commitVote "B") ++ listens (commitVote "C") ++ [.append 1 true]
      Run.Always step AllGenuine sampleAudit actions ∧ (actions.foldl step sampleAudit).links.length = 1 := by
  intro actions
  refine ⟨?_, by decide +kernel⟩
  apply allGenuine_of_orderly .plain IdentityCore.plain_collisionFree IdentityCore.plain_hexDigest
  apply along_orderly_of_few (n := 2)
  . intro thread _
    exact ⟨rfl, rfl⟩
  . change Run.Along step _ sampleAudit actions
    decide +kernel

/--
The vote of thread `0` completes the quorum for `COMMIT`. Before the thread gets to sign its own `COMMIT` the
listener executes the round with the ones of the other nodes.
-/
theorem not_forall_allGenuine
    : ¬ ∀ (nodeId key : Bytes) (settings : MeshNode.Settings) (actions : List (AuditAction .plain)),
        Run.Always step AllGenuine (new (MeshNode.new .plain nodeId key key settings)) actions := by
  intro h
  have hrun : Run.Always step AllGenuine sampleAudit
      ([proposes] ++ resumes 0 8 ++ listens (prepareVote "B") ++ listens (prepareVote "C") ++ resumes 0 8
        ++ listens (prepareVote "D") ++ listens (commitVote "B") ++ listens (commitVote "C")
        ++ listens (commitVote "D") ++ [.append 1 true]) := h _ _ _ _
  have hgenuine := Run.foldl_of_always hrun { targetId := bytes "T", evidenceJson := bytes "\x7b\x7d", commitSig := [] }
    (by decide +kernel)
  exact hgenuine.1 rfl

end Sample

end Audit
end NeuroMesh
