import NeuroMesh.Crypto.Plain
import NeuroMesh.Crypto.ProofChain.Basic
import NeuroMesh.Data.Run

namespace NeuroMesh
namespace ProofChain

open Merkle (Sibling)

variable {sha256Hex : Bytes → Bytes}

def encode (s : Sibling Bytes) : Bytes :=
  match s with
  | .left a => bytes "L" ++ a
  | .right b => bytes "R" ++ b

theorem applySibling_encode (cur : Bytes) (s : Sibling Bytes)
    : applySibling sha256Hex cur (encode s) = s.join (join sha256Hex) cur := by
  cases s with
  | left a => rfl
  | right b => rfl

section SiblingPass

variable {layer : List Bytes} {i : Nat} {path : SiblingPath}

theorem nextIdx_of_lt {idx : Nat} (h : idx < i) : nextIdx i idx = idx := by
  unfold nextIdx
  rw [if_neg]
  omega

theorem siblingPass_of_lt (h : path.idx < i)
    : siblingPass sha256Hex layer i path
        =
      { path with next := path.next ++ Merkle.nextLayer (join sha256Hex) sha256Hex layer } := by
  induction layer using Merkle.nextLayer.induct generalizing i path with
  | case1 a b layer ih =>
    have hnone : siblingAt i path.idx a b = [] := by
      unfold siblingAt
      rw [if_neg (by omega), if_neg (by omega)]
    unfold siblingPass
    rw [nextIdx_of_lt h, hnone, ih (by dsimp only; omega)]
    simp [Merkle.nextLayer, join]
  | case2 a =>
    unfold siblingPass
    rw [nextIdx_of_lt h]
    rfl
  | case3 => simp [siblingPass, Merkle.nextLayer]

theorem siblingPass_eq {j : Nat} (hidx : path.idx = i + j) (heven : i % 2 = 0) (h : j < layer.length)
    : siblingPass sha256Hex layer i path
        =
      {
        idx := path.idx / 2
        siblings := path.siblings ++ ((Merkle.sibling? layer j).map encode).toList
        next := path.next ++ Merkle.nextLayer (join sha256Hex) sha256Hex layer
      } := by
  induction layer using Merkle.nextLayer.induct generalizing i j path with
  | case1 a b layer ih =>
    unfold siblingPass
    by_cases hj : j < 2
    . have hhalf : nextIdx i path.idx = path.idx / 2 := by
        unfold nextIdx
        rw [if_pos (by omega)]
        omega
      have hsibling : siblingAt i path.idx a b
          = ((Merkle.sibling? (a :: b :: layer) j).map encode).toList := by
        rw [hidx]
        unfold siblingAt Merkle.sibling?
        interval_cases j <;> simp [encode]
      rw [hhalf, hsibling, siblingPass_of_lt (by dsimp only; omega)]
      simp [Merkle.nextLayer, join]
    . obtain ⟨j, rfl⟩ : ∃ k, j = k + 2 := ⟨j - 2, by omega⟩
      have hkeep : nextIdx i path.idx = path.idx := by
        unfold nextIdx
        rw [if_neg (by omega)]
      have hnone : siblingAt i path.idx a b = [] := by
        unfold siblingAt
        rw [if_neg (by omega), if_neg (by omega)]
      rw [hkeep, hnone, Merkle.sibling?_cons_cons]
      rw [ih (j := j) (by dsimp only; omega) (by omega) (by simpa using h)]
      simp [Merkle.nextLayer, join]
  | case2 a =>
    obtain rfl : j = 0 := by simpa using h
    have hhalf : nextIdx i path.idx = path.idx / 2 := by
      unfold nextIdx
      rw [if_pos (by omega)]
      omega
    unfold siblingPass
    rw [hhalf]
    simp [Merkle.nextLayer, Merkle.sibling?]
  | case3 => simp at h

end SiblingPass

theorem computeSiblingPath_go_eq (fuel : Nat) {layer : List Bytes} {idx : Nat} (siblings : List Bytes)
    (h : idx < layer.length)
    : computeSiblingPath.go sha256Hex fuel layer idx siblings
        =
      siblings ++ (Merkle.siblings (join sha256Hex) sha256Hex fuel layer idx).filterMap
        (Option.map encode) := by
  induction fuel generalizing layer idx siblings with
  | zero => simp [computeSiblingPath.go, Merkle.siblings]
  | succ fuel ih =>
    unfold computeSiblingPath.go Merkle.siblings
    split
    . have hpass : siblingPass sha256Hex layer 0 { idx, siblings, next := [] } = _ :=
        siblingPass_eq (Nat.zero_add idx).symm rfl h
      have hnext : idx / 2 < (Merkle.nextLayer (join sha256Hex) sha256Hex layer).length := by
        rw [Merkle.length_nextLayer]
        omega
      dsimp only
      rw [hpass]
      dsimp only
      rw [List.nil_append, ih _ hnext]
      cases Merkle.sibling? layer idx <;> simp
    . simp

theorem foldl_applySibling (path : List (Option (Sibling Bytes))) (cur : Bytes)
    : (path.filterMap (Option.map encode)).foldl (applySibling sha256Hex) cur
        =
      (path.filterMap id).foldl (fun a s => s.join (join sha256Hex) a) cur := by
  have hmap : path.filterMap (Option.map encode) = (path.filterMap id).map encode := by
    rw [List.map_filterMap]
    rfl
  rw [hmap, List.foldl_map]
  simp only [applySibling_encode]

section Root

variable {chain : ProofChain}

def root (sha256Hex : Bytes → Bytes) (chain : ProofChain) : Bytes :=
  (Merkle.collapse (join sha256Hex) sha256Hex chain.links.length chain.leaves).headD []

def Cached (sha256Hex : Bytes → Bytes) (chain : ProofChain) : Prop :=
  chain.merkleDirty = false → chain.links ≠ [] → chain.merkleRoot = chain.root sha256Hex

@[simp]
theorem links_rebuildMerkle : (chain.rebuildMerkle sha256Hex).links = chain.links := by
  unfold rebuildMerkle
  split <;> rfl

theorem merkleRoot_rebuildMerkle (h : chain.Cached sha256Hex) (hlinks : chain.links ≠ [])
    : (chain.rebuildMerkle sha256Hex).merkleRoot = chain.root sha256Hex := by
  unfold rebuildMerkle
  split
  . next hskip =>
    apply h
    . simpa [hlinks] using hskip
    . exact hlinks
  . rfl

theorem cached_rebuildMerkle (h : chain.Cached sha256Hex)
    : (chain.rebuildMerkle sha256Hex).Cached sha256Hex := by
  intro _ hlinks
  rw [links_rebuildMerkle] at hlinks
  rw [merkleRoot_rebuildMerkle h hlinks]
  unfold root leaves
  rw [links_rebuildMerkle]

theorem cached_step (op : Op) (h : chain.Cached sha256Hex) : (chain.step sha256Hex op).Cached sha256Hex := by
  cases op with
  | append => simp [step, append, Cached]
  | getRootHash =>
    unfold step getRootHash
    dsimp only
    split
    . exact h
    . exact cached_rebuildMerkle h
  | getProofPath seq =>
    unfold step getProofPath
    dsimp only
    split
    . exact h
    . exact cached_rebuildMerkle h

theorem cached_run (nodeId : Bytes) (ops : List Op)
    : (ops.foldl (step sha256Hex) { nodeId }).Cached sha256Hex := by
  apply Run.foldl_of_invariant (Q := fun _ _ => True)
  . intro chain op h _
    exact cached_step op h
  . intro _ h
    contradiction
  . exact Run.along_of_forall fun _ _ => trivial

def Op.isAppend (op : Op) : Bool :=
  match op with
  | .append .. => true
  | .getRootHash => false
  | .getProofPath _ => false

theorem length_links_step (op : Op) (h : chain.links.length ≤ maxChain)
    : (chain.step sha256Hex op).links.length
        =
      min (chain.links.length + if op.isAppend then 1 else 0) maxChain := by
  cases op with
  | append =>
    simp only [step, append, Op.isAppend, apply_ite List.length, List.length_drop, List.length_append,
      List.length_singleton, if_true]
    split <;> omega
  | getRootHash =>
    unfold step getRootHash
    dsimp only
    split <;> simp [Op.isAppend, h]
  | getProofPath seq =>
    unfold step getProofPath
    dsimp only
    split <;> simp [Op.isAppend, h]

theorem length_links_run (ops : List Op) (h : chain.links.length ≤ maxChain)
    : (ops.foldl (step sha256Hex) chain).links.length
        =
      min (chain.links.length + ops.countP Op.isAppend) maxChain := by
  induction ops generalizing chain with
  | nil => simp [h]
  | cons op ops ih =>
    have hstep : (chain.step sha256Hex op).links.length = _ := length_links_step op h
    rw [List.foldl_cons, ih (by omega), hstep, List.countP_cons]
    omega

def proofVerifies (sha256Hex : Bytes → Bytes) (chain : ProofChain) (i : Nat) : Bool :=
  let (rootHash, chain) := chain.getRootHash sha256Hex
  let (path, chain) := chain.getProofPath sha256Hex i
  match chain.links[i]? with
  | some link => verifyProof sha256Hex rootHash link.linkHash path
  | none => false

theorem getRootHash_eq (h : chain.Cached sha256Hex) (hlinks : chain.links ≠ [])
    : chain.getRootHash sha256Hex = (chain.root sha256Hex, chain.rebuildMerkle sha256Hex) := by
  unfold getRootHash
  rw [if_neg (by simpa using hlinks)]
  dsimp only
  rw [merkleRoot_rebuildMerkle h hlinks]

theorem getRootHash_eq_root (h : chain.Cached sha256Hex)
    : (chain.getRootHash sha256Hex).1 = chain.root sha256Hex := by
  by_cases hlinks : chain.links = []
  . simp [getRootHash, root, leaves, hlinks, Merkle.collapse]
  . rw [getRootHash_eq h hlinks]

theorem getProofPath_eq {i : Nat} (hi : i < chain.links.length)
    : (chain.getProofPath sha256Hex i).1
        =
      (Merkle.siblings (join sha256Hex) sha256Hex chain.links.length chain.leaves i).filterMap
        (Option.map encode) := by
  have hleaves : i < (chain.rebuildMerkle sha256Hex).leaves.length := by simpa [leaves] using hi
  unfold getProofPath
  rw [if_neg (by omega)]
  dsimp only
  rw [computeSiblingPath, computeSiblingPath_go_eq _ _ hleaves, List.nil_append]
  unfold leaves
  rw [links_rebuildMerkle]

theorem proofVerifies_iff {i : Nat} (h : chain.Cached sha256Hex) (hi : i < chain.links.length)
    : chain.proofVerifies sha256Hex i
        ↔
      let path := Merkle.siblings (join sha256Hex) sha256Hex chain.links.length chain.leaves i
      (path.filterMap id).foldl (fun a s => s.join (join sha256Hex) a) chain.links[i].linkHash
          =
        path.foldl (Merkle.climb (join sha256Hex) sha256Hex) chain.links[i].linkHash := by
  have hlinks : chain.links ≠ [] := List.ne_nil_of_length_pos (by omega)
  have hleaf : chain.leaves[i]? = some chain.links[i].linkHash := by
    simp [leaves, hi]
  have hroot : chain.root sha256Hex = _ :=
    congrArg (List.headD · []) (Merkle.collapse_eq _ _ hleaf (by simp [leaves]))
  have hpath : ((chain.rebuildMerkle sha256Hex).getProofPath sha256Hex i).1 = _ :=
    getProofPath_eq (by simpa using hi)
  have hlink : ((chain.rebuildMerkle sha256Hex).getProofPath sha256Hex i).2.links = chain.links := by
    unfold getProofPath
    split <;> simp
  unfold leaves at hpath
  rw [links_rebuildMerkle] at hpath
  unfold proofVerifies
  rw [getRootHash_eq h hlinks]
  dsimp only
  rw [hpath, hlink, List.getElem?_eq_getElem hi]
  dsimp only
  rw [verifyProof, beq_iff_eq, foldl_applySibling, hroot]
  rfl

theorem forall_isSome_siblings_iff {i : Nat} (hi : i < chain.links.length)
    : (∀ s ∈ Merkle.siblings (join sha256Hex) sha256Hex chain.links.length chain.leaves i, s.isSome)
        ↔
      Merkle.NeverAlone chain.links.length i := by
  have hleaves : chain.leaves.length = chain.links.length := by simp [leaves]
  have hiff := Merkle.forall_isSome_siblings_iff (join sha256Hex) sha256Hex
    (show i < chain.leaves.length by omega) (show _ ≤ chain.links.length + 1 by omega)
  rwa [hleaves] at hiff

theorem proofVerifies_of_neverAlone {i : Nat} (h : chain.Cached sha256Hex) (hi : i < chain.links.length)
    (halone : Merkle.NeverAlone chain.links.length i)
    : chain.proofVerifies sha256Hex i := by
  rw [proofVerifies_iff h hi]
  dsimp only
  rw [Merkle.foldl_climb_of_isSome]
  rwa [forall_isSome_siblings_iff hi]

theorem length_plain_sha256Hex (data : Bytes)
    : (IdentityCore.plain.sha256Hex data).length = 1 + 2 * data.length := by
  simp only [IdentityCore.plain, List.length_cons, List.length_flatMap, IdentityCore.hexByte,
    List.length_nil, List.map_const', List.sum_replicate]
  simp
  omega

def lengthAbove (s : Sibling Bytes) (n : Nat) : Nat :=
  match s with
  | .left a => 1 + 2 * (a.length + n)
  | .right b => 1 + 2 * (n + b.length)

theorem length_join_plain (s : Sibling Bytes) (a : Bytes)
    : (s.join (join IdentityCore.plain.sha256Hex) a).length = lengthAbove s a.length := by
  cases s with
  | left b => simp [Sibling.join, join, length_plain_sha256Hex, lengthAbove]
  | right b => simp [Sibling.join, join, length_plain_sha256Hex, lengthAbove]

theorem strictMono_lengthAbove (s : Sibling Bytes) : StrictMono (lengthAbove s) := by
  intro m n h
  cases s with
  | left b =>
    simp only [lengthAbove]
    omega
  | right b =>
    simp only [lengthAbove]
    omega

theorem neverAlone_of_proofVerifies_plain {i : Nat} (h : chain.Cached IdentityCore.plain.sha256Hex)
    (hi : i < chain.links.length) (hverifies : chain.proofVerifies IdentityCore.plain.sha256Hex i)
    : Merkle.NeverAlone chain.links.length i := by
  have hlone (a : Bytes) : a.length < (IdentityCore.plain.sha256Hex a).length := by
    rw [length_plain_sha256Hex]
    omega
  rw [proofVerifies_iff h hi] at hverifies
  have hrank := Merkle.isSome_of_foldl_eq _ _ length_join_plain strictMono_lengthAbove hlone hverifies
  rw [← forall_isSome_siblings_iff hi]
  exact hrank.2 rfl

end Root

theorem proofVerifies_run_iff_neverAlone (nodeId : Bytes) (ops : List Op) {i : Nat}
    (hi : i < min (ops.countP Op.isAppend) maxChain)
    : (∀ sha256Hex, proofVerifies sha256Hex (ops.foldl (step sha256Hex) { nodeId }) i = true)
        ↔
      Merkle.NeverAlone (min (ops.countP Op.isAppend) maxChain) i := by
  have hlength (sha256Hex : Bytes → Bytes)
      : (ops.foldl (step sha256Hex) { nodeId }).links.length
          = min (ops.countP Op.isAppend) maxChain := by
    simp [length_links_run ops (show ({ nodeId } : ProofChain).links.length ≤ maxChain by simp)]
  constructor
  . intro h
    have halone := neverAlone_of_proofVerifies_plain (cached_run nodeId ops) (by rwa [hlength]) (h _)
    rwa [hlength] at halone
  . intro h sha256Hex
    apply proofVerifies_of_neverAlone (cached_run nodeId ops)
    . rwa [hlength]
    . rwa [hlength]

def sampleAppend (data : Bytes) : Op :=
  .append 0 .anomalyDetected [] data []

theorem proofVerifies_of_four_appends
    : proofVerifies IdentityCore.plain.sha256Hex
        ([[], [0x01], [0x02], [0x03]].map sampleAppend |>.foldl (step IdentityCore.plain.sha256Hex)
          { nodeId := [0x61] }) 2 = true := by
  refine (proofVerifies_run_iff_neverAlone [0x61] _ ?_).mpr ?_ IdentityCore.plain.sha256Hex
  . decide
  . rw [show min _ maxChain = 4 by decide, Merkle.neverAlone_iff, Merkle.neverAlone_iff]
    refine ⟨by omega, by omega, ?_⟩
    exact Merkle.neverAlone_of_le_one (by omega) _

theorem proofVerifies_of_three_appends
    : proofVerifies IdentityCore.plain.sha256Hex
        ([[], [0x01], [0x02]].map sampleAppend |>.foldl (step IdentityCore.plain.sha256Hex)
          { nodeId := [0x61] }) 2 = false := by
  decide +kernel

end ProofChain
end NeuroMesh
