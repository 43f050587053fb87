import NeuroMesh.Common.JsonText
import NeuroMesh.Consensus.MeshNode.Lemmas.Effects
import NeuroMesh.Consensus.MeshNode.Lemmas.Wire
import NeuroMesh.Crypto.ProofChain.Soundness
import NeuroMesh.Tools.TestProof

namespace NeuroMesh

open Json (Plain Reads)

namespace ProofLink

structure IsPlain (link : ProofLink) : Prop where
  nodeId : Plain link.nodeId
  targetId : Plain link.targetId
  dataHash : Plain link.dataHash
  linkHash : Plain link.linkHash
  parentHash : Plain link.parentHash
  signatureHex : Plain link.signatureHex

def members (link : ProofLink) : List Json.Member :=
  let quote (s : Bytes) : Bytes := 0x22 :: (s ++ [0x22])
  [
    ⟨bytes "seq", toDecimal link.sequence.toNat, .int link.sequence.toNat⟩,
    ⟨bytes "event", toDecimal link.eventType.code, .int link.eventType.code⟩,
    ⟨bytes "node", quote link.nodeId, .str link.nodeId⟩,
    ⟨bytes "target", quote link.targetId, .str link.targetId⟩,
    ⟨bytes "data_hash", quote link.dataHash, .str link.dataHash⟩,
    ⟨bytes "link_hash", quote link.linkHash, .str link.linkHash⟩,
    ⟨bytes "parent_hash", quote link.parentHash, .str link.parentHash⟩,
    ⟨bytes "sig", quote link.signatureHex, .str link.signatureHex⟩,
    ⟨bytes "ts_us", toDecimalInt link.timestampUs, .int link.timestampUs⟩
  ]

def json (link : ProofLink) : Json :=
  .obj (link.members.map fun member => (member.key, member.json))

theorem toJson_eq (link : ProofLink) : link.toJson = 0x7b :: Json.membersText link.members := by
  unfold toJson members
  simp only [Json.membersText, List.append_assoc, List.cons_append]
  rfl

theorem reads_toJson {link : ProofLink} (h : link.IsPlain) (half : Bool)
    : Reads half link.toJson link.json := by
  rw [toJson_eq]
  apply Json.reads_obj
  apply Json.readsMembers_membersText
  . exact List.cons_ne_nil _ _
  . simp only [members, List.forall_mem_cons, Json.reads_string, reads_toDecimal, reads_toDecimalInt,
      h.nodeId, h.targetId, h.dataHash, h.linkHash, h.parentHash, h.signatureHex, and_true, List.not_mem_nil,
      false_implies, implies_true]
    decide +kernel

theorem valid_joinPipe {fields : List Bytes} (h : ∀ field ∈ fields, Utf8.valid field)
    : Utf8.valid (joinPipe fields) := by
  unfold joinPipe
  induction fields with
  | nil => rfl
  | cons field fields ih =>
    rw [List.forall_mem_cons] at h
    cases fields with
    | nil =>
      rw [List.intercalate_singleton]
      exact h.1
    | cons next fields =>
      rw [Delimited.intercalate_cons field (List.cons_ne_nil _ _)]
      apply Utf8.valid_append h.1
      show Utf8.valid ([pipe] ++ _)
      apply Utf8.valid_append
      . decide
      . exact ih h.2

theorem checkLink_json {link : ProofLink} (h : link.IsPlain) {sha256Hex : Bytes → Bytes}
    (hhash : link.linkHash = sha256Hex link.toString) (other : Json → Bytes) {prev : Option Json}
    (hprev : ∀ json ∈ prev, json = .str link.parentHash)
    : TestProof.checkLink sha256Hex other prev link.json = some true := by
  have hseq : link.json.get? (bytes "seq") = some (.int link.sequence.toNat) := rfl
  have hevent : link.json.get? (bytes "event") = some (.int link.eventType.code) := rfl
  have hnode : link.json.get? (bytes "node") = some (.str link.nodeId) := rfl
  have htarget : link.json.get? (bytes "target") = some (.str link.targetId) := rfl
  have hdata : link.json.get? (bytes "data_hash") = some (.str link.dataHash) := rfl
  have hparent : link.json.get? (bytes "parent_hash") = some (.str link.parentHash) := rfl
  have hlink : link.json.get? (bytes "link_hash") = some (.str link.linkHash) := rfl
  have hcanonical : joinPipe [toDecimalInt link.sequence.toNat, toDecimalInt link.eventType.code, link.nodeId,
      link.targetId, link.dataHash, link.parentHash] = link.toString := rfl
  have hvalid : Utf8.valid link.toString := by
    apply valid_joinPipe
    simp [valid_toDecimal, h.nodeId.valid, h.targetId.valid, h.dataHash.valid, h.parentHash.valid]
  have hlinked : prev.all (TestProof.isText link.parentHash) = true := by
    cases prev with
    | none => rfl
    | some json => simp [hprev json rfl, TestProof.isText]
  have hintact : TestProof.isText (sha256Hex link.toString) (.str link.linkHash) = true := by
    rw [hhash]
    exact beq_self_eq_true _
  unfold TestProof.checkLink
  simp only [hseq, hevent, hnode, htarget, hdata, hparent, hlink, Option.bind_eq_bind, Option.bind_some, TestProof.text,
    TestProof.str, hcanonical, hvalid, hintact, hlinked]
  rfl

theorem checkLinks_json {sha256Hex : Bytes → Bytes} {links : List ProofLink}
    (hplain : ∀ link ∈ links, link.IsPlain) (hhash : ∀ link ∈ links, link.linkHash = sha256Hex link.toString)
    (hparent : links.IsChain (fun a b => b.parentHash = a.linkHash)) (other : Json → Bytes)
    {prev : Option Json} (hprev : ∀ json ∈ prev, ∀ link ∈ links.head?, json = .str link.parentHash)
    : TestProof.checkLinks sha256Hex other prev (links.map json) = some true := by
  induction links generalizing prev with
  | nil => rfl
  | cons link links ih =>
    rw [List.forall_mem_cons] at hplain hhash
    have hlink : TestProof.checkLink sha256Hex other prev link.json = some true := by
      apply checkLink_json hplain.1 hhash.1
      intro json hjson
      exact hprev json hjson link rfl
    have hrest : TestProof.checkLinks sha256Hex other (some (.str link.linkHash)) (links.map ProofLink.json)
        = some true := by
      apply ih hplain.2 hhash.2 hparent.tail
      rintro _ ⟨⟩ next hnext
      cases links with
      | nil => cases hnext
      | cons next' links =>
        cases hnext
        rw [(List.isChain_cons_cons.mp hparent).1]
    rw [List.map_cons, TestProof.checkLinks, hlink]
    show (TestProof.checkLinks sha256Hex other (some (.str link.linkHash)) _).bind _ = _
    rw [hrest]
    rfl

end ProofLink

namespace ProofChain

variable {half : Bool}

theorem layout_spec
    : (∀ space ∈ [bytes "\n", bytes "\n  ", bytes "\n    ", bytes " "], ∀ c ∈ space, Json.isSpace c)
        ∧ Plain (bytes "node_id") ∧ Plain (bytes "links")
        ∧ ∀ text ∈ [bytes "    ", bytes "\n", bytes ",", bytes "  ]\n\x7d", bytes "\",\n  \"links\": [\n",
            bytes "\x7b\n  \"node_id\": \""], Utf8.valid text := by
  decide +kernel

theorem isSpace_of_mem {space : Bytes} (h : space ∈ [bytes "\n", bytes "\n  ", bytes "\n    ", bytes " "])
    : ∀ c ∈ space, Json.isSpace c := by
  exact layout_spec.1 space h

theorem readsElements_exportLinks {links : List ProofLink} (hne : links ≠ [])
    (h : ∀ link ∈ links, link.IsPlain)
    : Json.ReadsElements half (bytes "\n" ++ (exportLinks links ++ bytes "  ]")) (links.map ProofLink.json) := by
  induction links with
  | nil => exact absurd rfl hne
  | cons link links ih =>
    rw [List.forall_mem_cons] at h
    have hlink : Reads half (bytes "\n    " ++ link.toJson) link.json :=
      (ProofLink.reads_toJson h.1 half).space (isSpace_of_mem (by simp))
    cases links with
    | nil =>
      have hspace : ∀ c ∈ bytes "\n  ", Json.isSpace c := isSpace_of_mem (by simp)
      have htext : bytes "\n" ++ (exportLinks [link] ++ bytes "  ]")
          = (bytes "\n    " ++ link.toJson) ++ (bytes "\n  " ++ [0x5d]) := by
        simp only [exportLinks, List.append_assoc]
        rfl
      rw [htext]
      exact Json.readsElements_single hlink hspace
    | cons next links =>
      have hspace : ∀ c ∈ ([] : Bytes), Json.isSpace c := nofun
      have htext : bytes "\n" ++ (exportLinks (link :: next :: links) ++ bytes "  ]")
          = (bytes "\n    " ++ link.toJson)
            ++ ([] ++ 0x2c :: (bytes "\n" ++ (exportLinks (next :: links) ++ bytes "  ]"))) := by
        simp only [exportLinks, List.append_assoc]
        rfl
      rw [htext]
      exact Json.readsElements_cons hlink hspace (ih (List.cons_ne_nil _ _) h.2)

def json (chain : ProofChain) : Json :=
  .obj [(bytes "node_id", .str chain.nodeId), (bytes "links", .arr (chain.links.map ProofLink.json))]

theorem reads_links {links : List ProofLink} (h : ∀ link ∈ links, link.IsPlain)
    : Reads half (bytes "[\n" ++ (exportLinks links ++ bytes "  ]")) (.arr (links.map ProofLink.json)) := by
  cases links with
  | nil =>
    have hspace : ∀ c ∈ bytes "\n  ", Json.isSpace c := isSpace_of_mem (by simp)
    exact Json.reads_arr_nil hspace
  | cons link links => exact Json.reads_arr (readsElements_exportLinks (List.cons_ne_nil _ _) h)

theorem reads_exportText {chain : ProofChain} (hnode : Plain chain.nodeId)
    (h : ∀ link ∈ chain.links, link.IsPlain)
    : Reads half
        (bytes "\x7b\n  \"node_id\": \"" ++ (chain.nodeId
          ++ (bytes "\",\n  \"links\": [\n" ++ (exportLinks chain.links ++ bytes "  ]\n\x7d"))))
        chain.json := by
  have hline : ∀ c ∈ bytes "\n", Json.isSpace c := isSpace_of_mem (by simp)
  have hindent : ∀ c ∈ bytes "\n  ", Json.isSpace c := isSpace_of_mem (by simp)
  have hblank : ∀ c ∈ bytes " ", Json.isSpace c := isSpace_of_mem (by simp)
  have hnone : ∀ c ∈ ([] : Bytes), Json.isSpace c := nofun
  have hvalue : Reads half _ _ := reads_links h
  have hlinks := Json.readsMembers_single layout_spec.2.2.1.names hindent (hvalue.space hblank) hline
  have hmembers := Json.readsMembers_cons layout_spec.2.1.names hindent ((Json.reads_string hnode).space hblank)
    hnone hlinks
  have hfront : bytes "\x7b\n  \"node_id\": \""
      = 0x7b :: (bytes "\n  " ++ 0x22 :: (bytes "node_id" ++ 0x22 :: 0x3a :: (bytes " " ++ [0x22]))) := rfl
  have hmiddle : bytes "\",\n  \"links\": [\n"
      = 0x22 :: 0x2c :: (bytes "\n  " ++ 0x22 :: (bytes "links" ++ 0x22 :: 0x3a :: (bytes " " ++ bytes "[\n"))) :=
    rfl
  have hend : bytes "  ]\n\x7d" = bytes "  ]" ++ (bytes "\n" ++ [0x7d]) := rfl
  rw [hfront, hmiddle, hend, json]
  simpa only [List.append_assoc, List.cons_append, List.nil_append] using Json.reads_obj hmembers

theorem valid_toJson {link : ProofLink} (h : link.IsPlain) : Utf8.valid link.toJson := by
  have htext : link.toJson = [
      bytes "\x7b\"seq\":", toDecimal link.sequence.toNat, bytes ",\"event\":", toDecimal link.eventType.code,
      bytes ",\"node\":\"", link.nodeId, bytes "\",\"target\":\"", link.targetId,
      bytes "\",\"data_hash\":\"", link.dataHash, bytes "\",\"link_hash\":\"", link.linkHash,
      bytes "\",\"parent_hash\":\"", link.parentHash, bytes "\",\"sig\":\"", link.signatureHex,
      bytes "\",\"ts_us\":", toDecimalInt link.timestampUs, bytes "\x7d"
    ].flatten := by
    unfold ProofLink.toJson
    simp only [List.flatten_cons, List.flatten_nil, List.append_assoc, List.append_nil]
  rw [htext]
  apply Utf8.valid_flatten
  simp only [List.forall_mem_cons, valid_toDecimal, valid_toDecimalInt, h.nodeId.valid, h.targetId.valid,
    h.dataHash.valid, h.linkHash.valid, h.parentHash.valid, h.signatureHex.valid, List.not_mem_nil,
    false_implies, implies_true]
  decide +kernel

theorem valid_exportLinks {links : List ProofLink} (h : ∀ link ∈ links, link.IsPlain)
    : Utf8.valid (exportLinks links) := by
  have htexts := layout_spec.2.2.2
  simp only [List.forall_mem_cons] at htexts
  obtain ⟨hblanks, hline, hcomma, -⟩ := htexts
  induction links with
  | nil => rfl
  | cons link links ih =>
    rw [List.forall_mem_cons] at h
    have hlink : Utf8.valid (bytes "    " ++ link.toJson) := Utf8.valid_append hblanks (valid_toJson h.1)
    cases links with
    | nil => exact Utf8.valid_append hlink hline
    | cons next links =>
      have hbreak := Utf8.valid_append (Utf8.valid_append hlink hcomma) hline
      exact Utf8.valid_append hbreak (ih h.2)

theorem parse_exportText {chain : ProofChain} (hnode : Plain chain.nodeId)
    (h : ∀ link ∈ chain.links, link.IsPlain)
    : Json.parse half chain.exportText = some chain.json := by
  have hline : ∀ c ∈ bytes "\n", Json.isSpace c := isSpace_of_mem (by simp)
  have htext : chain.exportText
      = (bytes "\x7b\n  \"node_id\": \"" ++ (chain.nodeId
          ++ (bytes "\",\n  \"links\": [\n" ++ (exportLinks chain.links ++ bytes "  ]\n\x7d"))))
        ++ bytes "\n" := by
    simp only [exportText, List.append_assoc]
    rfl
  rw [htext]
  apply (reads_exportText hnode h).parse hline
  have htexts := layout_spec.2.2.2
  simp only [List.forall_mem_cons] at htexts
  obtain ⟨-, hbreak, -, hend, hmiddle, hfront, -⟩ := htexts
  have hlinks := Utf8.valid_append hmiddle (Utf8.valid_append (valid_exportLinks h) hend)
  have hall := Utf8.valid_append hfront (Utf8.valid_append hnode.valid hlinks)
  exact Utf8.valid_append hall hbreak

def Op.IsPlain (op : Op) : Prop :=
  match op with
  | .append _ _ targetId _ sigHex => Plain targetId ∧ Plain sigHex
  | _ => True

section Run

variable {sha256Hex : Bytes → Bytes}

theorem plain_of_isDigest {s : Bytes} (h : IsDigest s) : Plain s := by
  have hbounds : ∀ c ∈ s, 0x30 ≤ c.toNat ∧ c.toNat ≤ 0x66 ∧ c.toNat ≠ 0x5c := by
    intro c hc
    rcases h.2 c hc with hdigit | ⟨hlow, hhigh⟩
    . have := bounds_of_isDigit hdigit
      omega
    . rw [UInt8.le_iff_toNat_le] at hlow hhigh
      have hlow : 0x61 ≤ c.toNat := hlow
      have hhigh : c.toNat ≤ 0x66 := hhigh
      omega
  constructor
  . apply Utf8.valid_of_ascii
    intro c hc
    have := hbounds c hc
    rw [UInt8.lt_iff_toNat_lt]
    show c.toNat < 0x80
    omega
  . intro c hc
    have := hbounds c hc
    simp only [UInt8.le_iff_toNat_le, ne_eq, ← UInt8.toNat_inj]
    show 0x20 ≤ c.toNat ∧ ¬c.toNat = 0x22 ∧ ¬c.toNat = 0x5c
    omega

theorem links_getRootHash (chain : ProofChain) : (chain.getRootHash sha256Hex).2.links = chain.links := by
  unfold getRootHash
  split
  . rfl
  . exact links_rebuildMerkle

theorem links_getProofPath (chain : ProofChain) (seq : Nat)
    : (chain.getProofPath sha256Hex seq).2.links = chain.links := by
  unfold getProofPath
  split
  . rfl
  . exact links_rebuildMerkle

theorem forall_links_run {P : ProofLink → Prop} {chain : ProofChain} {ops : List Op}
    (hchain : ∀ link ∈ chain.links, P link) (hlength : chain.links.length ≤ maxChain)
    (h : ∀ chain nowUs type targetId data sigHex, Op.append nowUs type targetId data sigHex ∈ ops →
      P (newLink sha256Hex chain nowUs type targetId data sigHex))
    : ∀ link ∈ (ops.foldl (step sha256Hex) chain).links, P link := by
  induction ops generalizing chain with
  | nil => exact hchain
  | cons op ops ih =>
    apply ih
    . cases op with
      | append nowUs type targetId data sigHex =>
        show ∀ link ∈ (chain.append sha256Hex nowUs type targetId data sigHex).links, P link
        rw [links_append hlength]
        exact mem_concat hchain (h chain nowUs type targetId data sigHex List.mem_cons_self) _
      | getRootHash =>
        rw [step, links_getRootHash]
        exact hchain
      | getProofPath seq =>
        rw [step, links_getProofPath]
        exact hchain
    . rw [length_links_step op hlength]
      omega
    . intro chain nowUs type targetId data sigHex hmem
      exact h chain nowUs type targetId data sigHex (List.mem_cons_of_mem _ hmem)

theorem nodeId_run (nodeId : Bytes) (ops : List Op) : (ops.foldl (step sha256Hex) { nodeId }).nodeId = nodeId := by
  have hrebuild (chain : ProofChain) : (chain.rebuildMerkle sha256Hex).nodeId = chain.nodeId := by
    unfold rebuildMerkle
    split <;> rfl
  have hstep (chain : ProofChain) (op : Op) : (chain.step sha256Hex op).nodeId = chain.nodeId := by
    cases op with
    | append => rfl
    | getRootHash =>
      rw [step, getRootHash]
      split
      . rfl
      . exact hrebuild chain
    | getProofPath seq =>
      rw [step, getProofPath]
      split
      . rfl
      . exact hrebuild chain
  suffices ∀ chain : ProofChain, (ops.foldl (step sha256Hex) chain).nodeId = chain.nodeId by
    exact this { nodeId }
  induction ops with
  | nil => exact fun _ => rfl
  | cons op ops ih =>
    intro chain
    rw [List.foldl_cons, ih, hstep]

theorem isPlain_of_linked {chain : ProofChain} {count : Nat} (hlinked : Linked sha256Hex count chain)
    (hdigest : ∀ data, IsDigest (sha256Hex data)) (hnode : Plain chain.nodeId)
    (htexts : ∀ link ∈ chain.links, Plain link.targetId ∧ Plain link.signatureHex)
    : ∀ link ∈ chain.links, link.IsPlain := by
  intro link hlink
  have hhash : ∀ link ∈ chain.links, Plain link.linkHash := by
    intro link hlink
    rw [hlinked.hash link hlink]
    exact plain_of_isDigest (hdigest _)
  obtain ⟨data, hdata⟩ := hlinked.data link hlink
  constructor
  . rwa [hlinked.nodeId link hlink]
  . exact (htexts link hlink).1
  . rw [hdata]
    exact plain_of_isDigest (hdigest data)
  . exact hhash link hlink
  . obtain ⟨i, hi⟩ := List.mem_iff_getElem?.mp hlink
    cases i with
    | zero =>
      rcases hlinked.first link hi with ⟨_, hparent⟩ | ⟨_, gone, _, hparent⟩
      . rw [hparent]
        exact ⟨rfl, nofun⟩
      . rw [hparent]
        exact plain_of_isDigest (hdigest _)
    | succ i =>
      have hlt := (List.getElem?_eq_some_iff.mp hi).1
      have hprev := List.getElem?_eq_getElem (show i < chain.links.length by omega)
      rw [hlinked.parent i _ link hprev hi]
      exact hhash _ (List.getElem_mem _)
  . exact (htexts link hlink).2

end Run

theorem verifyProofFile_exportFile (sha256Hex : Bytes → Bytes) (hdigest : ∀ data, IsDigest (sha256Hex data))
    (other : Json → Bytes) (nodeId : Bytes) (hnode : Plain nodeId) (ops : List Op)
    (hops : ∀ op ∈ ops, op.IsPlain)
    : let chain := ops.foldl (step sha256Hex) { nodeId }
      ∃ text, chain.exportFile true = some text
        ∧ (∀ half, (Json.parse half text).isSome)
        ∧ TestProof.verifyProofFile sha256Hex other text = some true := by
  intro chain
  have hlinked : Linked sha256Hex (ops.countP Op.isAppend) chain := linked_run sha256Hex nodeId ops
  have hid : chain.nodeId = nodeId := nodeId_run nodeId ops
  have htexts : ∀ link ∈ chain.links, Plain link.targetId ∧ Plain link.signatureHex := by
    apply forall_links_run
    . exact nofun
    . exact Nat.zero_le _
    . intro _ _ _ _ _ _ hmem
      exact hops _ hmem
  have hplain := isPlain_of_linked hlinked hdigest (by rwa [hid]) htexts
  have hparse (half : Bool) : Json.parse half chain.exportText = some chain.json :=
    parse_exportText (by rwa [hid]) hplain
  refine ⟨_, rfl, ?_, ?_⟩
  . intro half
    rw [hparse]
    rfl
  . unfold TestProof.verifyProofFile
    rw [hparse]
    have hchain : chain.links.IsChain (fun a b => b.parentHash = a.linkHash) := by
      rw [List.isChain_iff_getElem]
      intro i hi
      apply hlinked.parent i
      . exact List.getElem?_eq_getElem _
      . exact List.getElem?_eq_getElem hi
    exact ProofLink.checkLinks_json hplain hlinked.hash hchain other (by simp)

def lengthDigest (data : Bytes) : Bytes :=
  List.replicate 63 0x30 ++ [UInt8.ofNat (0x30 + data.length % 10)]

theorem isDigest_lengthDigest (data : Bytes) : IsDigest (lengthDigest data) := by
  constructor
  . simp [lengthDigest]
  . intro c hc
    left
    unfold lengthDigest at hc
    rw [List.mem_append, List.mem_replicate, List.mem_singleton] at hc
    rcases hc with ⟨_, rfl⟩ | rfl
    . rfl
    . have hlt := Nat.mod_lt data.length (show 10 > 0 by decide)
      generalize data.length % 10 = n at hlt
      interval_cases n <;> rfl

theorem verifyProofFile_exportFile_twice
    : let chain := [
        Op.append 0 .consensusReached (bytes "T") (bytes "\x7b\x7d") (bytes "00"),
        Op.append 1 .consensusReached (bytes "U") (bytes "\x7b\x7d") (bytes "01")
      ].foldl (step lengthDigest) { nodeId := bytes "A" }
      ∃ text, chain.exportFile true = some text
        ∧ (∀ half, (Json.parse half text).isSome)
        ∧ TestProof.verifyProofFile lengthDigest (fun _ => []) text = some true := by
  apply verifyProofFile_exportFile lengthDigest isDigest_lengthDigest
  . decide +kernel
  . simp only [List.forall_mem_cons, Op.IsPlain, List.not_mem_nil, false_implies, implies_true, and_true]
    decide +kernel

def appendsOf {C : IdentityCore} (log : List (Event C)) : List Op :=
  log.filterMap fun
    | .consensusReached targetId data sigHex => some (.append 0 .consensusReached targetId data sigHex)
    | _ => none

/--
A node has executed a round for a target with a quotation mark in its name. The file of its proof chain is
not a document any more.
-/
theorem exportFile_unquoted
    : MeshNode.WireId (bytes "T\"")
        ∧ let init := MeshNode.new .plain (bytes "A") (bytes "A") (bytes "A")
            { peerKeys := some (bytes "B:-----BEGIN") }
          let steps := [
            MeshNode.stepAt 0 (.pex (bytes "PEX|X|1|B:10.0.0.1:9000")),
            MeshNode.stepAt 0 (.initiateConsensus (bytes "T\"") (bytes "\x7b\x7d"))
          ]
          let appends := appendsOf (steps.foldl MeshNode.act init).log
          let chain := appends.foldl (step IdentityCore.plain.sha256Hex) { nodeId := bytes "A" }
          appends.length = 1
            ∧ ∃ text ∈ chain.exportFile true, (Json.parse true text).isNone = true
              ∧ TestProof.verifyProofFile IdentityCore.plain.sha256Hex (fun _ => []) text = none := by
  constructor
  . constructor <;> decide +kernel
  . decide +kernel

end ProofChain
end NeuroMesh
