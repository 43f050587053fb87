import NeuroMesh.Crypto.ProofChain.Soundness

namespace NeuroMesh
namespace ProofLink

variable {sha256Hex : Bytes → Bytes} {a b : ProofLink}

structure IsRecorded (sha256Hex : Bytes → Bytes) (link : ProofLink) : Prop where
  linkHash : link.linkHash = sha256Hex link.toString
  dataHash : ∃ data, link.dataHash = sha256Hex data
  parentHash : link.parentHash = [] ∨ ∃ data, link.parentHash = sha256Hex data

structure Alike (a b : ProofLink) : Prop where
  sequence : a.sequence = b.sequence
  eventType : a.eventType = b.eventType
  names : joinPipe [a.nodeId, a.targetId] = joinPipe [b.nodeId, b.targetId]
  dataHash : a.dataHash = b.dataHash
  parentHash : a.parentHash = b.parentHash

theorem code_injective : Function.Injective ProofEventType.code := by
  intro s t h
  cases s <;> cases t <;> first | rfl | contradiction

section IsRecorded

variable (hdigest : ∀ data, ProofChain.IsDigest (sha256Hex data))
include hdigest

theorem IsRecorded.pipe_notMem_dataHash (h : IsRecorded sha256Hex a) : pipe ∉ a.dataHash := by
  obtain ⟨data, hdata⟩ := h.dataHash
  rw [hdata]
  exact ProofChain.pipe_notMem_of_isDigest (hdigest data)

theorem IsRecorded.pipe_notMem_parentHash (h : IsRecorded sha256Hex a) : pipe ∉ a.parentHash := by
  rcases h.parentHash with hnil | ⟨data, hdata⟩
  . rw [hnil]
    exact List.not_mem_nil
  . rw [hdata]
    exact ProofChain.pipe_notMem_of_isDigest (hdigest data)

theorem toString_eq_iff (ha : IsRecorded sha256Hex a) (hb : IsRecorded sha256Hex b)
    : a.toString = b.toString ↔ Alike a b := by
  constructor
  . intro h
    unfold toString joinPipe at h
    obtain ⟨hsequence, h⟩ := Delimited.intercalate_cons_inj (pipe_notMem_toDecimal _) (pipe_notMem_toDecimal _)
      (List.cons_ne_nil _ _) (List.cons_ne_nil _ _) h
    obtain ⟨hevent, h⟩ := Delimited.intercalate_cons_inj (pipe_notMem_toDecimal _) (pipe_notMem_toDecimal _)
      (List.cons_ne_nil _ _) (List.cons_ne_nil _ _) h
    obtain ⟨hparent, h⟩ := Delimited.intercalate_concat_inj (x := [a.nodeId, a.targetId, a.dataHash])
      (y := [b.nodeId, b.targetId, b.dataHash]) (ha.pipe_notMem_parentHash hdigest)
      (hb.pipe_notMem_parentHash hdigest) (List.cons_ne_nil _ _) (List.cons_ne_nil _ _) h
    obtain ⟨hdata, h⟩ := Delimited.intercalate_concat_inj (x := [a.nodeId, a.targetId])
      (y := [b.nodeId, b.targetId]) (ha.pipe_notMem_dataHash hdigest) (hb.pipe_notMem_dataHash hdigest)
      (List.cons_ne_nil _ _) (List.cons_ne_nil _ _) h
    refine ⟨?_, code_injective (toDecimal_injective hevent), h, hdata, hparent⟩
    apply UInt64.toNat_inj.mp
    exact toDecimal_injective hsequence
  . intro h
    have hfields (link : ProofLink) : link.toString
        = toDecimal link.sequence.toNat ++ pipe :: (toDecimal link.eventType.code ++ pipe ::
          (joinPipe [link.nodeId, link.targetId] ++ pipe :: (link.dataHash ++ pipe :: link.parentHash))) := by
      simp [toString, joinPipe, List.intercalate]
    rw [hfields, hfields, h.sequence, h.eventType, h.names, h.dataHash, h.parentHash]

end IsRecorded

/--
The time and the signature are not hashed at all, and the same string can be split into a node and a target
in more than one way.
-/
theorem linkHash_binds_iff (sha256Hex : Bytes → Bytes) (hdigest : ∀ data, ProofChain.IsDigest (sha256Hex data))
    (a b : ProofLink) (ha : IsRecorded sha256Hex a) (hb : IsRecorded sha256Hex b)
    : (a.linkHash = b.linkHash →
        a = b ∨ (a.toString ≠ b.toString ∧ sha256Hex a.toString = sha256Hex b.toString))
        ↔
      (Alike a b →
        a.nodeId.length = b.nodeId.length ∧ a.timestampUs = b.timestampUs
          ∧ a.signatureHex = b.signatureHex) := by
  rw [ha.linkHash, hb.linkHash, ← toString_eq_iff hdigest ha hb]
  constructor
  . intro h hstring
    rcases h (congrArg sha256Hex hstring) with rfl | ⟨hne, _⟩
    . exact ⟨rfl, rfl, rfl⟩
    . contradiction
  . intro h hhash
    by_cases hstring : a.toString = b.toString
    . left
      obtain ⟨hnode, htime, hsignature⟩ := h hstring
      have halike := (toString_eq_iff hdigest ha hb).mp hstring
      have hnames := halike.names
      simp only [joinPipe, List.intercalate, List.intersperse, List.flatten_cons, List.flatten_nil,
        List.append_nil] at hnames
      have hparts := List.append_inj hnames hnode
      have htarget := List.append_inj hparts.2 rfl
      have hlink : a.linkHash = b.linkHash := by rw [ha.linkHash, hb.linkHash, hstring]
      cases a
      cases b
      rw [ProofLink.mk.injEq]
      exact ⟨halike.sequence, halike.eventType, hparts.1, htarget.2, halike.dataHash, halike.parentHash, hlink,
        htime, hsignature⟩
    . exact .inr ⟨hstring, hhash⟩

def sampleLink (sha256Hex : Bytes → Bytes) (nodeId targetId : Bytes) (nowUs : Int) (sigHex : Bytes) : ProofLink :=
  ProofChain.newLink sha256Hex { nodeId } nowUs .consensusReached targetId [] sigHex

theorem isRecorded_sampleLink (sha256Hex : Bytes → Bytes) (nodeId targetId : Bytes) (nowUs : Int)
    (sigHex : Bytes)
    : IsRecorded sha256Hex (sampleLink sha256Hex nodeId targetId nowUs sigHex) :=
  ⟨rfl, ⟨[], rfl⟩, .inl rfl⟩

theorem linkHash_binds_sampleLink
    : let sha256Hex : Bytes → Bytes := fun data => List.replicate 63 0x30 ++ [if data = [] then 0x30 else 0x31]
      let a := sampleLink sha256Hex (bytes "A") (bytes "T") 0 (bytes "00")
      let b := sampleLink sha256Hex (bytes "A") (bytes "U") 0 (bytes "00")
      a.linkHash = b.linkHash →
        a = b ∨ (a.toString ≠ b.toString ∧ sha256Hex a.toString = sha256Hex b.toString) := by
  intro sha256Hex a b
  have hdigest : ∀ data, ProofChain.IsDigest (sha256Hex data) := by
    intro data
    constructor
    . simp [sha256Hex]
    . intro c hc
      left
      rw [List.mem_append, List.mem_replicate, List.mem_singleton] at hc
      rcases hc with ⟨_, rfl⟩ | rfl
      . rfl
      . split <;> rfl
  rw [linkHash_binds_iff sha256Hex hdigest a b (isRecorded_sampleLink ..) (isRecorded_sampleLink ..)]
  intro h
  have hnames : joinPipe [bytes "A", bytes "T"] = joinPipe [bytes "A", bytes "U"] := h.names
  revert hnames
  decide

/--
The node, the target, the time and the signature of a link can be replaced without any change of its hash.
-/
theorem linkHash_unbound
    : let a := sampleLink id (bytes "A") (bytes "B|T") 0 (bytes "00")
      let b := sampleLink id (bytes "A|B") (bytes "T") 1 (bytes "01")
      a.linkHash = b.linkHash ∧ a.toString = b.toString ∧ a.nodeId ≠ b.nodeId ∧ a.targetId ≠ b.targetId
        ∧ a.timestampUs ≠ b.timestampUs ∧ a.signatureHex ≠ b.signatureHex := by
  decide +kernel

end ProofLink
end NeuroMesh
