import NeuroMesh.Crypto.ProofChain.Soundness

/-!
This module contains the proofs that `verify_proof` accepts although they are not about a link of the chain.
They are the same for any contents of a chain, so it is enough to have a digest whose values are easy to
predict: the digest of a link is its number, and a node of the tree is the number of the first link below it
together with its height.
-/

namespace NeuroMesh
namespace ProofChain

def hexDigits (k n : Nat) : Bytes :=
  match k with
  | 0 => []
  | k + 1 => hexDigit (n % 16) :: hexDigits k (n / 16)

def readHexDigits (s : Bytes) : Nat :=
  match s with
  | [] => 0
  | c :: s => (hexValue c).getD 0 + 16 * readHexDigits s

def hexNumber (n : Nat) : Bytes :=
  hexDigits 64 n

def storey : Nat := 2 ^ 64

def sampleDigest (data : Bytes) : Bytes :=
  if pipe ∈ data then
    hexNumber ((data.takeWhile isDigit).foldl (fun acc c => acc * 10 + (c.toNat - 0x30)) 0)
  else
    hexNumber (readHexDigits (data.take 64) + storey)

theorem length_hexDigits (k n : Nat) : (hexDigits k n).length = k := by
  induction k generalizing n with
  | zero => rfl
  | succ k ih => rw [hexDigits, List.length_cons, ih]

theorem readHexDigits_hexDigits (k n : Nat) : readHexDigits (hexDigits k n) = n % 16 ^ k := by
  induction k generalizing n with
  | zero => simp [hexDigits, readHexDigits, Nat.mod_one]
  | succ k ih =>
    rw [hexDigits, readHexDigits, ih, Ascii.hexValue_hexDigit (Nat.mod_lt _ (by omega)), Option.getD_some,
      Nat.pow_succ', Nat.mod_mul]

theorem isDigest_hexNumber (n : Nat) : IsDigest (hexNumber n) := by
  refine ⟨length_hexDigits 64 n, ?_⟩
  have hdigits (k n : Nat) : ∀ c ∈ hexDigits k n, isDigit c ∨ (0x61 ≤ c ∧ c ≤ 0x66) := by
    induction k generalizing n with
    | zero => simp [hexDigits]
    | succ k ih =>
      rw [hexDigits, List.forall_mem_cons]
      exact ⟨Ascii.hexDigit_hex (Nat.mod_lt _ (by omega)), ih (n / 16)⟩
  exact hdigits 64 n

theorem isDigest_sampleDigest (data : Bytes) : IsDigest (sampleDigest data) := by
  unfold sampleDigest
  split
  . exact isDigest_hexNumber _
  . exact isDigest_hexNumber _

theorem hexNumber_inj {m n : Nat} (hm : m < 16 ^ 64) (hn : n < 16 ^ 64) (h : hexNumber m = hexNumber n)
    : m = n := by
  have hread := congrArg readHexDigits h
  unfold hexNumber at hread
  rwa [readHexDigits_hexDigits, readHexDigits_hexDigits, Nat.mod_eq_of_lt hm, Nat.mod_eq_of_lt hn] at hread

theorem sampleDigest_numbered (n : Nat) (rest : Bytes)
    : sampleDigest (toDecimal n ++ pipe :: rest) = hexNumber n := by
  unfold sampleDigest
  rw [if_pos (by simp), List.takeWhile_append_of_pos (fun c hc => isDigit_of_mem_toDecimal hc),
    List.takeWhile_cons_of_neg (by decide), List.append_nil, foldl_toDecimal]

theorem sampleDigest_toString (link : ProofLink)
    : sampleDigest link.toString = hexNumber link.sequence.toNat := by
  obtain ⟨rest, hrest⟩ := toString_eq_cons link
  rw [hrest, sampleDigest_numbered]

theorem sampleDigest_hexNumber {n : Nat} (hn : n < 16 ^ 64) {rest : Bytes} (hrest : pipe ∉ rest)
    : sampleDigest (hexNumber n ++ rest) = hexNumber (n + storey) := by
  have hpipe := pipe_notMem_of_isDigest (isDigest_hexNumber n)
  unfold sampleDigest
  rw [if_neg (by simp [hpipe, hrest]), List.take_left' (isDigest_hexNumber n).1]
  unfold hexNumber
  rw [readHexDigits_hexDigits, Nat.mod_eq_of_lt hn]

section Codes

def nextCodes (codes : List Nat) : List Nat :=
  Merkle.nextLayer (fun a _ => a + storey) (fun a => a + storey) codes

def treeCodes (fuel : Nat) (codes : List Nat) : List Nat :=
  match fuel with
  | 0 => []
  | fuel + 1 =>
    if 1 < codes.length then nextCodes codes ++ treeCodes fuel (nextCodes codes) else []

structure AtHeight (height : Nat) (codes : List Nat) : Prop where
  nodup : codes.Nodup
  bounds : ∀ c ∈ codes, height * storey ≤ c ∧ c < (height + 1) * storey
  small : height + codes.length < 2 ^ 64

variable {codes : List Nat} {height fuel : Nat}

theorem AtHeight.lt (h : AtHeight height codes) : ∀ c ∈ codes, c < 16 ^ 64 := by
  intro c hc
  have hbound := (h.bounds c hc).2
  have hpos : 0 < codes.length := List.length_pos_of_mem hc
  have hsmall := h.small
  have hheight : (height + 1) * storey ≤ 2 ^ 64 * storey := Nat.mul_le_mul_right _ (by omega)
  have hstorey : 2 ^ 64 * storey < 16 ^ 64 := by
    decide
  omega

theorem sublist_nextCodes (codes : List Nat) : (nextCodes codes).Sublist (codes.map (· + storey)) := by
  unfold nextCodes
  induction codes using Merkle.nextLayer.induct with
  | case1 a b codes ih => exact (ih.cons _).cons_cons _
  | case2 a => exact List.Sublist.refl _
  | case3 => exact List.Sublist.refl _

theorem length_nextCodes (codes : List Nat) : (nextCodes codes).length = (codes.length + 1) / 2 := by
  exact Merkle.length_nextLayer _ _ codes

theorem AtHeight.nextCodes (h : AtHeight height codes) (hlarge : 1 < codes.length)
    : AtHeight (height + 1) (nextCodes codes) := by
  have hsub := sublist_nextCodes codes
  have hsmall := h.small
  refine ⟨?_, ?_, ?_⟩
  . apply List.Nodup.sublist hsub
    apply h.nodup.map
    intro a b hab
    exact Nat.add_right_cancel hab
  . intro c hc
    obtain ⟨a, ha, rfl⟩ := List.mem_map.mp (hsub.subset hc)
    have hbounds := h.bounds a ha
    simp only [Nat.add_mul, Nat.one_mul] at hbounds ⊢
    omega
  . rw [length_nextCodes]
    omega

theorem nextLayer_sampleDigest (h : ∀ c ∈ codes, c < 16 ^ 64)
    : Merkle.nextLayer (join sampleDigest) sampleDigest (codes.map hexNumber)
        =
      (nextCodes codes).map hexNumber := by
  unfold nextCodes
  induction codes using Merkle.nextLayer.induct with
  | case1 a b codes ih =>
    simp only [List.forall_mem_cons] at h
    have hpipe := pipe_notMem_of_isDigest (isDigest_hexNumber b)
    simp only [List.map_cons, Merkle.nextLayer, join, sampleDigest_hexNumber h.1 hpipe, ih h.2.2]
  | case2 a =>
    have hdigest := sampleDigest_hexNumber (h a List.mem_cons_self) (List.not_mem_nil)
    rw [List.append_nil] at hdigest
    simp [Merkle.nextLayer, hdigest]
  | case3 => rfl

theorem map_treeStrings (fuel : Nat) (h : AtHeight height codes)
    : (treeStrings sampleDigest fuel (codes.map hexNumber)).map sampleDigest
        =
      (treeCodes fuel codes).map hexNumber := by
  induction fuel generalizing codes height with
  | zero => rfl
  | succ fuel ih =>
    unfold treeStrings treeCodes
    rw [List.length_map]
    split
    . next hlarge =>
      rw [List.map_append, ← nextLayer_eq, nextLayer_sampleDigest h.lt, ih (h.nextCodes hlarge),
        List.map_append]
    . rfl

theorem treeCodes_bounds (fuel : Nat) (h : AtHeight height codes)
    : ∀ c ∈ treeCodes fuel codes, (height + 1) * storey ≤ c ∧ c < 16 ^ 64 := by
  induction fuel generalizing codes height with
  | zero => simp [treeCodes]
  | succ fuel ih =>
    unfold treeCodes
    split
    . next hlarge =>
      intro c hc
      rw [List.mem_append] at hc
      have hnext := h.nextCodes hlarge
      rcases hc with hc | hc
      . exact ⟨(hnext.bounds c hc).1, hnext.lt c hc⟩
      . have hbounds := ih hnext c hc
        rw [Nat.add_mul] at hbounds
        omega
    . simp

theorem nodup_treeCodes (fuel : Nat) (h : AtHeight height codes) : (treeCodes fuel codes).Nodup := by
  induction fuel generalizing codes height with
  | zero => simp [treeCodes]
  | succ fuel ih =>
    unfold treeCodes
    split
    . next hlarge =>
      have hnext := h.nextCodes hlarge
      apply List.Nodup.append hnext.nodup (ih hnext)
      intro c hc hc'
      have hbounds := hnext.bounds c hc
      have hbounds' := treeCodes_bounds fuel hnext c hc'
      omega
    . exact List.nodup_nil

theorem nodup_codes (fuel : Nat) (h : AtHeight 0 codes) {extra : List Nat} (hnodup : extra.Nodup)
    (hextra : ∀ c ∈ extra, c < storey ∧ c ∉ codes)
    : ((codes ++ treeCodes fuel codes ++ extra).map hexNumber).Nodup := by
  have hstorey : storey < 16 ^ 64 := by
    decide
  apply List.Nodup.map_on
  . intro a ha b hb hab
    have hlt : ∀ c ∈ codes ++ treeCodes fuel codes ++ extra, c < 16 ^ 64 := by
      intro c hc
      simp only [List.mem_append] at hc
      rcases hc with (hc | hc) | hc
      . exact h.lt c hc
      . exact (treeCodes_bounds fuel h c hc).2
      . have hc := (hextra c hc).1
        omega
    exact hexNumber_inj (hlt a ha) (hlt b hb) hab
  . apply List.Nodup.append _ hnodup
    . intro c hc hc'
      rw [List.mem_append] at hc
      rcases hc with hc | hc
      . exact (hextra c hc').2 hc
      . have hbounds := (treeCodes_bounds fuel h c hc).1
        have hsmall := (hextra c hc').1
        omega
    . apply List.Nodup.append h.nodup (nodup_treeCodes fuel h)
      intro c hc hc'
      have hbounds := (treeCodes_bounds fuel h c hc').1
      have hsmall := (h.bounds c hc).2
      omega

end Codes

section LeftPath

variable {sha256Hex : Bytes → Bytes}

def leftPath (sha256Hex : Bytes → Bytes) (fuel : Nat) (layer : List Bytes) : List Bytes :=
  match fuel, layer with
  | fuel + 1, a :: b :: layer =>
    (bytes "R" ++ b)
      :: leftPath sha256Hex fuel (Merkle.nextLayer (join sha256Hex) sha256Hex (a :: b :: layer))
  | _, _ => []

theorem treeStrings_of_large {fuel : Nat} {layer : List Bytes} (h : 1 < layer.length)
    : treeStrings sha256Hex (fuel + 1) layer
        =
      layerStrings layer
        ++ treeStrings sha256Hex fuel (Merkle.nextLayer (join sha256Hex) sha256Hex layer) := by
  rw [treeStrings, if_pos h]

structure LeadsUp (sha256Hex : Bytes → Bytes) (fuel : Nat) (a : Bytes) (layer : List Bytes) : Prop where
  length : (leftPath sha256Hex fuel (a :: layer)).length = Nat.clog 2 (layer.length + 1)
  root : Merkle.collapse (join sha256Hex) sha256Hex fuel (a :: layer)
    = [(leftPath sha256Hex fuel (a :: layer)).foldl (applySibling sha256Hex) a]
  strings : verifyStrings sha256Hex a (leftPath sha256Hex fuel (a :: layer))
    ⊆ treeStrings sha256Hex fuel (a :: layer)

theorem leadsUp {fuel : Nat} {a : Bytes} {layer : List Bytes} (hfuel : layer.length ≤ fuel)
    : LeadsUp sha256Hex fuel a layer := by
  induction fuel generalizing a layer with
  | zero =>
    rw [List.eq_nil_of_length_eq_zero (show layer.length = 0 by omega)]
    constructor
    . simp [leftPath]
    . rfl
    . simp [leftPath, verifyStrings]
  | succ fuel ih =>
    cases layer with
    | nil =>
      constructor
      . simp [leftPath]
      . rfl
      . simp [leftPath, verifyStrings]
    | cons b layer =>
      -- the first node of the next layer is the one above `a` and `b`
      have hnext : LeadsUp sha256Hex fuel (sha256Hex (a ++ b))
          (Merkle.nextLayer (join sha256Hex) sha256Hex layer) := by
        apply ih
        rw [Merkle.length_nextLayer]
        rw [List.length_cons] at hfuel
        omega
      have hlength := Merkle.length_nextLayer (join sha256Hex) sha256Hex layer
      have hlarge : 1 < (a :: b :: layer).length := by simp
      constructor
      . have hclog := Merkle.clog_halve hlarge
        simp only [List.length_cons] at hclog ⊢
        rw [show (layer.length + 1 + 1 + 1) / 2 = (layer.length + 1) / 2 + 1 by omega, ← hlength] at hclog
        rw [hclog, ← hnext.length]
        rfl
      . unfold Merkle.collapse
        rw [if_pos hlarge]
        exact hnext.root
      . rw [treeStrings_of_large hlarge]
        show (a ++ b) :: verifyStrings sha256Hex (sha256Hex (a ++ b)) _ ⊆ _
        apply List.cons_subset.mpr
        constructor
        . exact List.mem_append_left _ List.mem_cons_self
        . intro string hstring
          exact List.mem_append_right _ (hnext.strings hstring)

end LeftPath

structure LayerOf (fuel : Nat) (codes : List Nat) (height fuel' : Nat) (codes' : List Nat) : Prop where
  atHeight : AtHeight height codes'
  ne_nil : codes' ≠ []
  fuel_le : codes'.length ≤ fuel' + 1
  layers : Nat.clog 2 codes'.length + height = Nat.clog 2 codes.length
  root : Merkle.collapse (join sampleDigest) sampleDigest fuel' (codes'.map hexNumber)
    = Merkle.collapse (join sampleDigest) sampleDigest fuel (codes.map hexNumber)
  strings : treeStrings sampleDigest fuel' (codes'.map hexNumber)
    ⊆ treeStrings sampleDigest fuel (codes.map hexNumber)

theorem exists_layerOf {codes : List Nat} {fuel height : Nat} (h : AtHeight 0 codes) (hne : codes ≠ [])
    (hfuel : codes.length ≤ fuel + 1) (hheight : height ≤ Nat.clog 2 codes.length)
    : ∃ fuel' codes', LayerOf fuel codes height fuel' codes' := by
  induction height with
  | zero => exact ⟨fuel, codes, h, hne, hfuel, rfl, rfl, List.Subset.refl _⟩
  | succ height ih =>
    obtain ⟨fuel', codes', hlayer⟩ := ih (by omega)
    have hlayers := hlayer.layers
    have hlarge : 1 < codes'.length := by
      by_contra hsmall
      rw [Nat.clog_of_right_le_one (by omega)] at hlayers
      omega
    have hnext := nextLayer_sampleDigest hlayer.atHeight.lt
    match fuel', hlayer with
    | 0, hlayer =>
      have hle := hlayer.fuel_le
      omega
    | fuel' + 1, hlayer =>
      have hle := hlayer.fuel_le
      refine ⟨fuel', nextCodes codes', hlayer.atHeight.nextCodes hlarge, ?_, ?_, ?_, ?_, ?_⟩
      . apply List.ne_nil_of_length_pos
        rw [length_nextCodes]
        omega
      . rw [length_nextCodes]
        omega
      . rw [Merkle.clog_halve hlarge] at hlayers
        rw [length_nextCodes]
        omega
      . rw [← hlayer.root, ← hnext, Merkle.collapse, if_pos (by simpa using hlarge)]
      . apply List.Subset.trans _ hlayer.strings
        rw [← hnext, treeStrings_of_large (by simpa using hlarge)]
        exact List.subset_append_right _ _

section Forged

variable {chain : ProofChain} {count : Nat}

def codes (chain : ProofChain) : List Nat :=
  chain.links.map fun link => link.sequence.toNat

theorem getElem?_codes (h : Linked sampleDigest count chain) {i c : Nat} (hi : chain.codes[i]? = some c)
    : i < chain.links.length ∧ c = (count - chain.links.length + i) % 2 ^ 64 := by
  unfold codes at hi
  rw [List.getElem?_map, Option.map_eq_some_iff] at hi
  obtain ⟨link, hlink, rfl⟩ := hi
  refine ⟨(List.getElem?_eq_some_iff.mp hlink).1, ?_⟩
  rw [h.sequence i link hlink, UInt64.toNat_ofNat']

theorem atHeight_codes (h : Linked sampleDigest count chain) : AtHeight 0 chain.codes := by
  have hlength := h.length
  have hmax : maxChain = 4096 := rfl
  refine ⟨?_, ?_, ?_⟩
  . rw [List.nodup_iff_getElem?_ne_getElem?]
    intro i j hij hj heq
    have hi := List.getElem?_eq_getElem (show i < chain.codes.length by omega)
    obtain ⟨_, hci⟩ := getElem?_codes h hi
    rw [heq] at hi
    obtain ⟨_, hcj⟩ := getElem?_codes h hi
    omega
  . intro c hc
    obtain ⟨i, hi⟩ := List.getElem?_of_mem hc
    obtain ⟨_, hci⟩ := getElem?_codes h hi
    unfold storey
    omega
  . unfold codes
    rw [List.length_map]
    omega

theorem leaves_eq (h : Linked sampleDigest count chain) : chain.leaves = chain.codes.map hexNumber := by
  unfold leaves codes
  rw [List.map_map]
  apply List.map_congr_left
  intro link hlink
  rw [h.hash link hlink, sampleDigest_toString]
  rfl

theorem map_linkStrings (chain : ProofChain)
    : chain.linkStrings.map sampleDigest = chain.codes.map hexNumber := by
  unfold linkStrings codes
  rw [List.map_map, List.map_map]
  apply List.map_congr_left
  intro link _
  exact sampleDigest_toString link

theorem not_collides_of_subset (h : Linked sampleDigest count chain) {strings : List Bytes}
    (extra : List Bytes) (extraCodes : List Nat) (hextra : extra.map sampleDigest = extraCodes.map hexNumber)
    (hnodup : extraCodes.Nodup) (hother : ∀ c ∈ extraCodes, c < storey ∧ c ∉ chain.codes)
    (hsubset : strings ⊆ chain.linkStrings
      ++ treeStrings sampleDigest chain.links.length chain.leaves ++ extra)
    : ¬Collides sampleDigest strings := by
  intro hcollides
  obtain ⟨a, ha, b, hb, hne, heq⟩ := hcollides.mono hsubset
  apply hne
  apply List.inj_on_of_nodup_map _ ha hb heq
  rw [List.map_append, List.map_append, map_linkStrings, leaves_eq h,
    map_treeStrings _ (atHeight_codes h), hextra, ← List.map_append, ← List.map_append]
  exact nodup_codes _ (atHeight_codes h) hnodup hother

theorem hexNumber_notMem_leaves (h : Linked sampleDigest count chain) {c : Nat} (hc : c < 16 ^ 64)
    (hnot : c ∉ chain.codes)
    : hexNumber c ∉ chain.leaves := by
  rw [leaves_eq h, List.mem_map]
  rintro ⟨c', hc', heq⟩
  rw [hexNumber_inj ((atHeight_codes h).lt c' hc') hc heq] at hc'
  exact hnot hc'

theorem exists_short_proof (h : Linked sampleDigest count chain) {m : Nat}
    (hm : m < Nat.clog 2 chain.links.length)
    : ∃ leafHash siblings, IsDigest leafHash ∧ siblings.length = m
        ∧ verifyProof sampleDigest (chain.root sampleDigest) leafHash siblings = true
        ∧ leafHash ∉ chain.leaves
        ∧ ¬Collides sampleDigest (chain.allStrings sampleDigest leafHash siblings) := by
  have hlinks : chain.codes.length = chain.links.length := by simp [codes]
  have hne : chain.codes ≠ [] := by
    intro hnil
    rw [← hlinks, hnil] at hm
    simp at hm
  obtain ⟨fuel, codes', hlayer⟩ : ∃ fuel codes', LayerOf chain.links.length chain.codes
      (Nat.clog 2 chain.links.length - m) fuel codes' := by
    apply exists_layerOf (atHeight_codes h) hne (by omega)
    rw [hlinks]
    omega
  have hlayers := hlayer.layers
  rw [hlinks] at hlayers
  match codes', hlayer with
  | [], hlayer => exact absurd rfl hlayer.ne_nil
  | c :: codes', hlayer =>
    have hfuel := hlayer.fuel_le
    rw [List.length_cons] at hlayers hfuel
    have hup : LeadsUp sampleDigest fuel (hexNumber c) (codes'.map hexNumber) := by
      apply leadsUp
      rw [List.length_map]
      omega
    have hheight := (hlayer.atHeight.bounds c List.mem_cons_self).1
    refine ⟨hexNumber c, leftPath sampleDigest fuel (hexNumber c :: codes'.map hexNumber),
      isDigest_hexNumber c, ?_, ?_, ?_, ?_⟩
    . rw [hup.length, List.length_map]
      omega
    . have hroot := hlayer.root
      rw [List.map_cons, hup.root, ← leaves_eq h] at hroot
      simp [verifyProof, root, ← hroot]
    . apply hexNumber_notMem_leaves h (hlayer.atHeight.lt c List.mem_cons_self)
      intro hmem
      have hbound := ((atHeight_codes h).bounds c hmem).2
      have hstorey := Nat.mul_le_mul_right storey
        (show 1 ≤ Nat.clog 2 chain.links.length - m by omega)
      omega
    . apply not_collides_of_subset h [] [] rfl List.nodup_nil (by simp)
      unfold allStrings
      rw [List.append_nil]
      apply List.append_subset.mpr
      refine ⟨List.Subset.refl _, ?_⟩
      intro string hstring
      apply List.mem_append_right
      rw [leaves_eq h]
      exact hlayer.strings (hup.strings hstring)

def idle (n : Nat) : Bytes :=
  bytes "L" ++ (toDecimal n ++ [pipe])

theorem applySibling_idle (n : Nat) : applySibling sampleDigest (hexNumber n) (idle n) = hexNumber n := by
  show sampleDigest ((toDecimal n ++ [pipe]) ++ hexNumber n) = hexNumber n
  rw [List.append_assoc]
  exact sampleDigest_numbered n _

theorem foldl_idle (n k : Nat)
    : (List.replicate k (idle n)).foldl (applySibling sampleDigest) (hexNumber n) = hexNumber n := by
  induction k with
  | zero => rfl
  | succ k ih => rw [List.replicate_succ, List.foldl_cons, applySibling_idle, ih]

theorem verifyStrings_idle (n k : Nat)
    : verifyStrings sampleDigest (hexNumber n) (List.replicate k (idle n))
        ⊆ [toDecimal n ++ pipe :: hexNumber n] := by
  induction k with
  | zero => simp [verifyStrings]
  | succ k ih =>
    rw [List.replicate_succ, verifyStrings, applySibling_idle]
    apply List.cons_subset.mpr
    refine ⟨?_, ih⟩
    show (toDecimal n ++ [pipe]) ++ hexNumber n ∈ _
    simp

theorem exists_long_proof (h : Linked sampleDigest count chain) (hcount : maxChain < count) {m : Nat}
    (hm : Nat.clog 2 chain.links.length < m)
    : ∃ leafHash siblings, IsDigest leafHash ∧ siblings.length = m
        ∧ verifyProof sampleDigest (chain.root sampleDigest) leafHash siblings = true
        ∧ leafHash ∉ chain.leaves
        ∧ ¬Collides sampleDigest (chain.allStrings sampleDigest leafHash siblings) := by
  have hlength := h.length
  have hmax : maxChain = 4096 := rfl
  match hlinks : chain.links with
  | [] => simp [hlinks] at hlength; omega
  | link :: links =>
    have hfirst : chain.links[0]? = some link := by simp [hlinks]
    rcases h.first link hfirst with ⟨hle, _⟩ | ⟨_, gone, hgone, hparent⟩
    . omega
    . rw [sampleDigest_toString] at hparent
      obtain ⟨front, hfront⟩ := toString_eq_concat link
      have hleaf : link.linkHash = sampleDigest ((front ++ [pipe]) ++ hexNumber gone.sequence.toNat) := by
        rw [h.hash link (List.mem_of_getElem? hfirst), hfront, hparent]
      have hleaves : chain.leaves = link.linkHash :: links.map ProofLink.linkHash := by
        simp [leaves, hlinks]
      have hup : LeadsUp sampleDigest chain.links.length link.linkHash (links.map ProofLink.linkHash) := by
        apply leadsUp
        simp [hlinks]
      have hnot : gone.sequence.toNat ∉ chain.codes := by
        intro hmem
        obtain ⟨i, hi⟩ := List.getElem?_of_mem hmem
        obtain ⟨hlt, hcode⟩ := getElem?_codes h hi
        rw [hgone, UInt64.toNat_ofNat'] at hcode
        omega
      have hgone_lt := gone.sequence.toNat_lt
      have hlast : applySibling sampleDigest (hexNumber gone.sequence.toNat)
          (bytes "L" ++ (front ++ [pipe])) = link.linkHash := hleaf.symm
      have hclog : Nat.clog 2 chain.links.length = Nat.clog 2 (links.length + 1) := by
        rw [hlinks, List.length_cons]
      refine ⟨hexNumber gone.sequence.toNat,
        List.replicate (m - Nat.clog 2 chain.links.length - 1) (idle gone.sequence.toNat)
          ++ (bytes "L" ++ (front ++ [pipe])) :: leftPath sampleDigest chain.links.length chain.leaves,
        isDigest_hexNumber _, ?_, ?_, ?_, ?_⟩
      . rw [List.length_append, List.length_replicate, List.length_cons, hleaves, hup.length,
          List.length_map]
        omega
      . simp only [verifyProof, List.foldl_append, foldl_idle, List.foldl_cons, hlast, root]
        rw [hleaves, hup.root]
        simp
      . apply hexNumber_notMem_leaves h _ hnot
        omega
      . apply not_collides_of_subset h
          [toDecimal gone.sequence.toNat ++ pipe :: hexNumber gone.sequence.toNat] [gone.sequence.toNat]
        . simp [sampleDigest_numbered]
        . exact List.nodup_singleton _
        . rw [List.forall_mem_singleton]
          exact ⟨hgone_lt, hnot⟩
        . unfold allStrings
          rw [verifyStrings_append, foldl_idle, verifyStrings, hlast]
          intro string hstring
          simp only [List.mem_append, List.mem_cons] at hstring ⊢
          rcases hstring with (hstring | hstring) | hstring | hstring | hstring
          . exact .inl (.inl hstring)
          . exact .inl (.inr hstring)
          . exact .inr (by simpa using verifyStrings_idle _ _ hstring)
          . refine .inl (.inl (List.mem_map.mpr ⟨link, List.mem_of_getElem? hfirst, ?_⟩))
            rw [hstring, hfront, hparent]
            rfl
          . rw [hleaves] at hstring ⊢
            exact .inl (.inr (hup.strings hstring))

end Forged

/--
The proofs of one length are sound for a chain if and only if they have a sibling for every layer of the
tree, and no more than that once links have been removed from the chain.
-/
theorem verifyProof_sound_iff (nodeId : Bytes) (ops : List Op) (m : Nat)
    : (∀ sha256Hex, (∀ data, IsDigest (sha256Hex data)) →
        ∀ leafHash siblings, IsDigest leafHash → siblings.length = m →
          let chain := ops.foldl (step sha256Hex) { nodeId }
          verifyProof sha256Hex (chain.getRootHash sha256Hex).1 leafHash siblings = true →
            leafHash ∈ chain.leaves
              ∨ Collides sha256Hex (chain.allStrings sha256Hex leafHash siblings))
        ↔
      let count := ops.countP Op.isAppend
      Nat.clog 2 (min count maxChain) ≤ m
        ∧ (count ≤ maxChain ∨ m = Nat.clog 2 (min count maxChain)) := by
  constructor
  . intro h
    let chain := ops.foldl (step sampleDigest) { nodeId }
    have hlinked : Linked sampleDigest (ops.countP Op.isAppend) chain := linked_run sampleDigest nodeId ops
    have hcached : chain.Cached sampleDigest := cached_run nodeId ops
    have hsound (leafHash : Bytes) (siblings : List Bytes) (hleaf : IsDigest leafHash)
        (hm : siblings.length = m)
        (hverify : verifyProof sampleDigest (chain.root sampleDigest) leafHash siblings = true)
        : leafHash ∈ chain.leaves
          ∨ Collides sampleDigest (chain.allStrings sampleDigest leafHash siblings) := by
      apply h sampleDigest isDigest_sampleDigest leafHash siblings hleaf hm
      rwa [getRootHash_eq_root hcached]
    dsimp only
    rw [← hlinked.length]
    by_contra hnot
    have hforged : ∃ leafHash siblings, IsDigest leafHash ∧ siblings.length = m
        ∧ verifyProof sampleDigest (chain.root sampleDigest) leafHash siblings = true
        ∧ leafHash ∉ chain.leaves
        ∧ ¬Collides sampleDigest (chain.allStrings sampleDigest leafHash siblings) := by
      by_cases hshort : m < Nat.clog 2 chain.links.length
      . exact exists_short_proof hlinked hshort
      . exact exists_long_proof hlinked (by omega) (by omega)
    obtain ⟨leafHash, siblings, hleaf, hm, hverify, hmem, hfree⟩ := hforged
    rcases hsound leafHash siblings hleaf hm hverify with hleaves | hcollides
    . exact hmem hleaves
    . exact hfree hcollides
  . rintro ⟨hle, hcond⟩ sha256Hex hdigest leafHash siblings hleaf hm chain hverify
    have hlinked : Linked sha256Hex (ops.countP Op.isAppend) chain := linked_run sha256Hex nodeId ops
    have hcached : chain.Cached sha256Hex := cached_run nodeId ops
    rw [getRootHash_eq_root hcached] at hverify
    rw [← hlinked.length, ← hm] at hle hcond
    exact mem_leaves_of_verifyProof hlinked hdigest hleaf hle hcond hverify

theorem verifyProof_of_root
    : let chain := [sampleAppend [], sampleAppend [0x01]].foldl (step sampleDigest) { nodeId := [0x61] }
      let rootHash := (chain.getRootHash sampleDigest).1
      IsDigest rootHash
        ∧ verifyProof sampleDigest rootHash rootHash [] = true
        ∧ rootHash ∉ chain.leaves
        ∧ ¬Collides sampleDigest (chain.allStrings sampleDigest rootHash []) := by
  unfold IsDigest Collides
  decide +kernel

end ProofChain
end NeuroMesh
