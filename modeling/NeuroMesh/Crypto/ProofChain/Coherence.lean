import NeuroMesh.Crypto.ProofChain.Export
import NeuroMesh.Crypto.ProofChain.Linked

namespace NeuroMesh
namespace ProofChain

variable (sha256Hex : Bytes → Bytes)

inductive Call where
  | basic (op : Op)
  | exportProofToFile (opened : Bool) (seq : Nat)

def call (chain : ProofChain) (call : Call) : ProofChain :=
  match call with
  | .basic op => chain.step sha256Hex op
  | .exportProofToFile opened seq => (chain.exportProofToFile sha256Hex opened seq).2

def Call.isAppend (call : Call) : Bool :=
  match call with
  | .basic op => op.isAppend
  | .exportProofToFile .. => false

def Call.appended (chain : ProofChain) (call : Call) : List ProofLink :=
  match call with
  | .basic (.append nowUs type targetId data sigHex) =>
    [chain.newLink sha256Hex nowUs type targetId data sigHex]
  | _ => []

def history (chain : ProofChain) (calls : List Call) : List ProofLink :=
  match calls with
  | [] => []
  | call :: calls => call.appended sha256Hex chain ++ history (chain.call sha256Hex call) calls

variable {sha256Hex : Bytes → Bytes} {chain : ProofChain} {links : List ProofLink}

structure Chained (sha256Hex : Bytes → Bytes) (links : List ProofLink) : Prop where
  sequence : ∀ i link, links[i]? = some link → link.sequence = UInt64.ofNat i
  hash : ∀ link ∈ links, link.linkHash = sha256Hex link.toString
  parent : ∀ i link, links[i]? = some link →
    link.parentHash = ((links.take i).getLast?.map ProofLink.linkHash).getD []

theorem of_getElem?_concat {link l : ProofLink} {i : Nat} (h : (links ++ [link])[i]? = some l)
    : links[i]? = some l ∧ i < links.length ∨ i = links.length ∧ l = link := by
  rw [List.getElem?_append] at h
  split at h
  . next hlt => exact Or.inl ⟨h, hlt⟩
  . next hge =>
    right
    have hlt := (List.getElem?_eq_some_iff.mp h).1
    rw [List.length_singleton] at hlt
    have hi : i = links.length := by omega
    rw [hi, Nat.sub_self, List.getElem?_cons_zero, Option.some.injEq] at h
    exact ⟨hi, h.symm⟩

theorem Chained.concat (h : Chained sha256Hex links) {link : ProofLink}
    (hsequence : link.sequence = UInt64.ofNat links.length)
    (hhash : link.linkHash = sha256Hex link.toString)
    (hparent : link.parentHash = (links.getLast?.map ProofLink.linkHash).getD [])
    : Chained sha256Hex (links ++ [link]) := by
  constructor
  . intro i l hl
    rcases of_getElem?_concat hl with ⟨hl, -⟩ | ⟨rfl, rfl⟩
    . exact h.sequence i l hl
    . exact hsequence
  . intro l hl
    rw [List.mem_append, List.mem_singleton] at hl
    rcases hl with hl | rfl
    . exact h.hash l hl
    . exact hhash
  . intro i l hl
    rcases of_getElem?_concat hl with ⟨hl, hlt⟩ | ⟨rfl, rfl⟩
    . rw [List.take_append_of_le_length (by omega)]
      exact h.parent i l hl
    . rw [List.take_left]
      exact hparent

structure Coherent (sha256Hex : Bytes → Bytes) (links : List ProofLink) (chain : ProofChain) : Prop where
  chained : Chained sha256Hex links
  held : chain.links = links.drop (links.length - maxChain)
  seq : chain.seq = UInt64.ofNat links.length
  cached : chain.Cached sha256Hex

theorem Coherent.length (h : Coherent sha256Hex links chain)
    : chain.links.length = min links.length maxChain := by
  rw [h.held, List.length_drop]
  omega

theorem Coherent.getLast? (h : Coherent sha256Hex links chain)
    : chain.links.getLast? = links.getLast? := by
  have hmax : 0 < maxChain := by decide
  rw [h.held, List.getLast?_drop]
  split
  . next hle =>
    have hnil : links = [] := List.eq_nil_of_length_eq_zero (by omega)
    rw [hnil]
    rfl
  . rfl

theorem coherent_new (sha256Hex : Bytes → Bytes) (nodeId : Bytes) : Coherent sha256Hex [] { nodeId } := by
  refine ⟨⟨?_, ?_, ?_⟩, rfl, rfl, ?_⟩
  . simp
  . simp
  . simp
  . intro _ hlinks
    contradiction

theorem Coherent.rebuildMerkle (h : Coherent sha256Hex links chain)
    : Coherent sha256Hex links (chain.rebuildMerkle sha256Hex) := by
  refine ⟨h.chained, ?_, ?_, cached_rebuildMerkle h.cached⟩
  . rw [links_rebuildMerkle]
    exact h.held
  . rw [← h.seq]
    unfold ProofChain.rebuildMerkle
    split <;> rfl

theorem Coherent.append (h : Coherent sha256Hex links chain) (nowUs : Int) (type : ProofEventType)
    (targetId data sigHex : Bytes)
    : Coherent sha256Hex (links ++ [chain.newLink sha256Hex nowUs type targetId data sigHex])
        (chain.append sha256Hex nowUs type targetId data sigHex) := by
  have hlength := h.length
  constructor
  . apply h.chained.concat
    . exact h.seq
    . rfl
    . rw [← h.getLast?]
      rfl
  . -- the link that is evicted is the oldest one of those that are held
    rw [links_append (by omega), hlength, h.held]
    rw [← List.drop_append_of_le_length (by omega), List.drop_drop, List.length_append,
      List.length_singleton]
    rw [show links.length - maxChain + (min links.length maxChain + 1 - maxChain)
      = links.length + 1 - maxChain by omega]
  . rw [List.length_append, List.length_singleton, UInt64.ofNat_add, ← h.seq]
    rfl
  . intro hdirty
    contradiction

theorem Coherent.call (h : Coherent sha256Hex links chain) (call : Call)
    : Coherent sha256Hex (links ++ call.appended sha256Hex chain) (chain.call sha256Hex call) := by
  unfold ProofChain.call
  cases call with
  | basic op =>
    cases op with
    | append nowUs type targetId data sigHex => exact h.append nowUs type targetId data sigHex
    | getRootHash =>
      simp only [Call.appended, List.append_nil, step, getRootHash]
      split
      . exact h
      . exact h.rebuildMerkle
    | getProofPath seq =>
      simp only [Call.appended, List.append_nil, step, getProofPath]
      split
      . exact h
      . exact h.rebuildMerkle
  | exportProofToFile opened seq =>
    simp only [Call.appended, List.append_nil, exportProofToFile]
    split
    . exact h
    . exact h.rebuildMerkle

theorem Coherent.run (h : Coherent sha256Hex links chain) (calls : List Call)
    : Coherent sha256Hex (links ++ history sha256Hex chain calls)
        (calls.foldl (ProofChain.call sha256Hex) chain) := by
  induction calls generalizing links chain with
  | nil => simpa [history] using h
  | cons call calls ih =>
    have hrest := ih (h.call call)
    rwa [List.append_assoc] at hrest

theorem length_history (calls : List Call) (chain : ProofChain)
    : (history sha256Hex chain calls).length = calls.countP Call.isAppend := by
  induction calls generalizing chain with
  | nil => rfl
  | cons call calls ih =>
    have hcall : (call.appended sha256Hex chain).length = if call.isAppend then 1 else 0 := by
      cases call with
      | basic op => cases op <;> rfl
      | exportProofToFile => rfl
    rw [history, List.length_append, ih, hcall, List.countP_cons]
    omega

/--
Whatever is called between the appends, the chain holds the last links of its history, which is linked
from its first link on, and the root that it returns is the one of the links that it holds.
-/
theorem coherent_run (sha256Hex : Bytes → Bytes) (nodeId : Bytes) (calls : List Call)
    : let chain := calls.foldl (call sha256Hex) { nodeId }
      let links := history sha256Hex { nodeId } calls
      let count := calls.countP Call.isAppend
      chain.links.length = min count maxChain
        ∧ chain.links = links.drop (count - maxChain)
        ∧ (∀ i link, chain.links[i]? = some link →
            link.sequence = UInt64.ofNat (count - chain.links.length + i))
        ∧ (∀ i link, links[i]? = some link →
            link.linkHash = sha256Hex link.toString
              ∧ link.parentHash = ((links.take i).getLast?.map ProofLink.linkHash).getD [])
        ∧ (chain.getRootHash sha256Hex).1 = chain.root sha256Hex := by
  have h := (coherent_new sha256Hex nodeId).run calls
  rw [List.nil_append] at h
  intro chain links count
  have hcount : links.length = count := length_history calls { nodeId }
  have hlength : chain.links.length = min count maxChain := by
    rw [h.length, length_history]
  have hheld : chain.links = links.drop (count - maxChain) := by
    rw [← hcount]
    exact h.held
  refine ⟨hlength, hheld, ?_, ?_, getRootHash_eq_root h.cached⟩
  . intro i link hi
    rw [hheld, List.getElem?_drop] at hi
    rw [h.chained.sequence _ link hi, hlength]
    apply congrArg UInt64.ofNat
    omega
  . intro i link hi
    constructor
    . exact h.chained.hash link (List.mem_of_getElem? hi)
    . exact h.chained.parent i link hi

end ProofChain
end NeuroMesh
