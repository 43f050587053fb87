import NeuroMesh.Common.JsonText
import NeuroMesh.Consensus.MeshNode.Impl.Webhook
import NeuroMesh.Consensus.MeshNode.Lemmas.Wire

namespace NeuroMesh
namespace Webhook

variable {half : Bool} {targetId evidenceJson : Bytes} {quorum timestampUs : Int}

def headMembers : List Json.Member :=
  [⟨bytes "event", 0x22 :: (bytes "isolation" ++ [0x22]), .str (bytes "isolation")⟩]

def targetMember (targetId : Bytes) : Json.Member :=
  ⟨bytes "target", 0x22 :: (targetId ++ [0x22]), .str targetId⟩

def quorumMember (quorum : Int) : Json.Member :=
  ⟨bytes "quorum", toDecimalInt quorum, .int quorum⟩

def timestampMember (timestampUs : Int) : Json.Member :=
  ⟨bytes "timestamp_us", toDecimalInt timestampUs, .int timestampUs⟩

def evidenceMember (evidenceJson : Bytes) : Json.Member :=
  ⟨bytes "evidence", escape evidenceJson, .obj []⟩

def payloadMembers (targetId evidenceJson : Bytes) (quorum timestampUs : Int) : List Json.Member :=
  headMembers
    ++ [targetMember targetId, quorumMember quorum, timestampMember timestampUs, evidenceMember evidenceJson]

def keys : List Bytes :=
  [bytes "event", bytes "target", bytes "quorum", bytes "timestamp_us", bytes "evidence"]

theorem nodup_keys : keys.Nodup ∧ Json.Plain (bytes "isolation") ∧ ∀ key ∈ keys, Json.Plain key := by
  decide +kernel

theorem plain_key {key : Bytes} (h : key ∈ keys) : Json.Plain key := nodup_keys.2.2 key h

theorem payload_eq
    : payload targetId evidenceJson quorum timestampUs
        =
      0x7b :: Json.membersText (payloadMembers targetId evidenceJson quorum timestampUs) := by
  unfold payload payloadMembers headMembers targetMember quorumMember timestampMember evidenceMember
  simp only [Json.membersText, List.append_assoc, List.cons_append, List.nil_append]
  rfl

def Delivers (half : Bool) (body targetId evidenceJson : Bytes) (members : List (List UInt8 × Json)) : Prop :=
  ∃ json value, Json.parse half body = some json
    ∧ json.Has (bytes "target") (.str targetId)
    ∧ json.Has (bytes "evidence") value
    ∧ (value = .obj members ∨ value = .str evidenceJson)

section Evidence

theorem escapeWith_of_plain {c : UInt8} (h : 0x20 ≤ c ∧ c ≠ 0x22 ∧ c ≠ 0x5c) : escapeWith letters c = [c] := by
  have hall : ∀ c : UInt8, (0x20 ≤ c ∧ c ≠ 0x22 ∧ c ≠ 0x5c) → escapeWith letters c = [c] := by
    exact Utf8.forall_byte (by decide +kernel)
  exact hall c h

theorem escape_of_plain (h : ∀ c ∈ evidenceJson, 0x20 ≤ c ∧ c ≠ 0x22 ∧ c ≠ 0x5c)
    : escape evidenceJson = evidenceJson := by
  unfold escape
  induction evidenceJson with
  | nil => rfl
  | cons c s ih =>
    rw [List.forall_mem_cons] at h
    rw [List.flatMap_cons, escapeWith_of_plain h.1, ih h.2, List.singleton_append]

theorem escape_append (s t : Bytes) : escape (s ++ t) = escape s ++ escape t := by
  exact List.flatMap_append

theorem escape_cons (c : UInt8) (s : Bytes) : escape (c :: s) = escapeWith letters c ++ escape s := by
  exact List.flatMap_cons

theorem exists_escapeWith_of_isSpace {c : UInt8} (h : Json.isSpace c) (hblank : c ≠ 0x20)
    : ∃ letter, escapeWith letters c = [0x5c, letter] := by
  simp only [Json.isSpace, Bool.or_eq_true, beq_iff_eq] at h
  rcases h with ((rfl | rfl) | rfl) | rfl
  . contradiction
  . exact ⟨0x74, rfl⟩
  . exact ⟨0x6e, rfl⟩
  . exact ⟨0x72, rfl⟩

theorem skip_escape {space : Bytes} (hspace : ∀ c ∈ space, Json.isSpace c) (rest : Bytes)
    : (∃ more, Json.skip (escape space ++ rest) = Json.backslash :: more)
        ∨ ((∀ c ∈ space, c = 0x20) ∧ Json.skip (escape space ++ rest) = Json.skip rest) := by
  induction space with
  | nil => exact .inr ⟨nofun, rfl⟩
  | cons c space ih =>
    rw [List.forall_mem_cons] at hspace
    rw [escape_cons, List.append_assoc]
    by_cases hblank : c = 0x20
    . subst hblank
      rw [escapeWith_of_plain (by decide)]
      simp only [List.forall_mem_cons, true_and]
      exact ih hspace.2
    . left
      obtain ⟨letter, hletter⟩ := exists_escapeWith_of_isSpace hspace.1 hblank
      rw [hletter]
      exact ⟨_, Json.skip_cons (by decide)⟩

theorem plain_of_value {members : List (List UInt8 × Json)} {fuel : Nat} {rest more : Bytes} {json : Json}
    (hevidence : Json.parse half evidenceJson = some (.obj members))
    (h : Json.Parser.value half fuel (escape evidenceJson ++ rest) = some (json, more))
    (hmore : (Json.skip more).head? = some 0x2c ∨ (Json.skip more).head? = some 0x7d)
    : ∀ c ∈ evidenceJson, 0x20 ≤ c ∧ c ≠ 0x22 ∧ c ≠ 0x5c := by
  obtain ⟨before, inner, c, after, rfl, hbefore, hinner, hc⟩ := Json.exists_of_parse_obj hevidence
  rw [escape_append, escape_cons, escape_append, escape_cons, escapeWith_of_plain (by decide)] at h
  simp only [List.append_assoc, List.cons_append, List.nil_append] at h
  rcases skip_escape hbefore (0x7b :: (escape inner ++ (escapeWith letters c ++ (escape after ++ rest))))
    with ⟨s, hskip⟩ | ⟨hbefore, hskip⟩
  . rw [Json.value_backslash hskip] at h
    contradiction
  . rw [Json.skip_cons (by decide)] at hskip
    cases fuel with
    | zero => contradiction
    | succ fuel =>
      rw [Json.Parser.value, hskip] at h
      simp only [if_true] at h
      have hstuck {s : Bytes} : Json.skip (escape inner ++ (escapeWith letters c ++ (escape after ++ rest)))
          ≠ Json.backslash :: s := by
        intro hskip
        rw [hskip, if_neg (by simp [Json.backslash]), Json.members_backslash hskip] at h
        contradiction
      rcases skip_escape hinner (escapeWith letters c ++ (escape after ++ rest))
        with ⟨s, hskip'⟩ | ⟨hinner, hskip'⟩
      . exact absurd hskip' hstuck
      . rcases hc with rfl | ⟨rfl, hafter, -⟩
        . exact absurd (hskip'.trans (Json.skip_cons (by decide))) hstuck
        . have hend : Json.skip (escapeWith letters 0x7d ++ (escape after ++ rest))
              = 0x7d :: (escape after ++ rest) := by
            exact Json.skip_cons (by decide)
          rw [hskip', hend] at h
          simp only [List.head?_cons, if_true, List.drop_succ_cons, List.drop_zero, Option.some.injEq,
            Prod.mk.injEq] at h
          obtain ⟨-, rfl⟩ := h
          rcases skip_escape hafter rest with ⟨s, hskip''⟩ | ⟨hafter, -⟩
          . simp [hskip'', Json.backslash] at hmore
          . intro d hd
            have hd' : d = 0x20 ∨ d = 0x7b ∨ d = 0x7d := by
              simp only [List.mem_append, List.mem_cons] at hd
              grind
            rcases hd' with rfl | rfl | rfl <;> decide

theorem readsMembers_evidenceMember {members : List (List UInt8 × Json)}
    (hevidence : Json.parse half evidenceJson = some (.obj members))
    (h : ∀ c ∈ evidenceJson, 0x20 ≤ c ∧ c ≠ 0x22 ∧ c ≠ 0x5c)
    : Json.ReadsMembers half (Json.membersText [evidenceMember evidenceJson]) [(bytes "evidence", .obj [])]
        ∧ members = [] := by
  obtain ⟨before, inner, c, after, rfl, hbefore, hinner, hc⟩ := Json.exists_of_parse_obj hevidence
  rcases hc with rfl | ⟨rfl, hafter, hmembers⟩
  . exact absurd rfl (h 0x22 (by simp)).2.1
  . refine ⟨?_, hmembers⟩
    have hkey : Json.Plain (bytes "evidence") := plain_key (by simp [keys])
    have hempty : Json.Reads half (before ++ 0x7b :: (inner ++ [0x7d])) (.obj []) :=
      (Json.reads_obj_nil hinner).space hbefore
    have hreads := Json.readsMembers_single hkey.names (show ∀ c ∈ [], Json.isSpace c from nofun) hempty hafter
    unfold Json.membersText evidenceMember
    rw [escape_of_plain h]
    simpa using hreads

end Evidence

section Members

theorem reads_headMembers
    : ∀ member ∈ headMembers, Json.Plain member.key ∧ Json.Reads half member.text member.json := by
  intro member hmember
  rw [List.mem_singleton.mp hmember]
  exact ⟨plain_key List.mem_cons_self, Json.reads_string nodup_keys.2.1⟩

theorem ascii_of_legible {c : UInt8} (h : MeshNode.Legible c) : c < 0x80 := by
  rcases h with ⟨-, hle⟩ | rfl | rfl
  . exact UInt8.lt_of_le_of_lt hle (by decide)
  . decide
  . decide

theorem plain_targetId (hwire : MeshNode.WireText targetId)
    (htarget : ∀ c ∈ targetId, 0x20 ≤ c ∧ c ≠ 0x22 ∧ c ≠ 0x5c)
    : Json.Plain targetId := by
  refine ⟨Utf8.valid_of_ascii ?_, htarget⟩
  intro c hc
  exact ascii_of_legible (hwire.legible c hc)

theorem reads_frontMembers (htarget : Json.Plain targetId)
    : ∀ member ∈ headMembers ++ [targetMember targetId, quorumMember quorum, timestampMember timestampUs],
        Json.Plain member.key ∧ Json.Reads half member.text member.json := by
  rw [List.forall_mem_append]
  refine ⟨reads_headMembers, ?_⟩
  simp only [List.forall_mem_cons, List.not_mem_nil, false_implies, implies_true, and_true]
  refine ⟨⟨plain_key (by simp [keys, targetMember]), ?_⟩, ⟨plain_key (by simp [keys, quorumMember]), ?_⟩,
    ⟨plain_key (by simp [keys, timestampMember]), ?_⟩⟩
  . exact Json.reads_string htarget
  . exact reads_toDecimalInt quorum
  . exact reads_toDecimalInt timestampUs

end Members

theorem plain_of_delivers {members : List (List UInt8 × Json)} (hwire : MeshNode.WireText targetId)
    (hevidence : Json.parse half evidenceJson = some (.obj members))
    (h : Delivers half (payload targetId evidenceJson quorum timestampUs) targetId evidenceJson members)
    : (∀ c ∈ targetId, 0x20 ≤ c ∧ c ≠ 0x22 ∧ c ≠ 0x5c)
        ∧ ∀ c ∈ evidenceJson, 0x20 ≤ c ∧ c ≠ 0x22 ∧ c ≠ 0x5c := by
  obtain ⟨json, value, hparse, htarget, -, -⟩ := h
  obtain ⟨rest, hvalue, -⟩ := Json.exists_value_of_parse hparse
  rw [payload_eq] at hvalue
  have hplain : ∀ c ∈ targetId, 0x20 ≤ c ∧ c ≠ 0x22 ∧ c ≠ 0x5c := by
    apply Json.plain_of_has reads_headMembers (plain_key (by simp [keys, targetMember])) rfl rfl rfl (by decide)
      (by decide) _ hvalue htarget
    rw [List.length_cons]
    unfold payloadMembers
    omega
  refine ⟨hplain, ?_⟩
  obtain ⟨s, hs⟩ := Json.exists_membersText_eq_cons
    (payloadMembers targetId evidenceJson quorum timestampUs) (by simp [payloadMembers])
  rw [hs] at hvalue
  obtain ⟨found, hmembers, -⟩ := Json.exists_members_of_value hvalue
  rw [← hs] at hmembers
  obtain ⟨fuel, found', -, hlast, -⟩ := Json.exists_members_of_append
    (reads_frontMembers (plain_targetId hwire hplain)) (List.cons_ne_nil (evidenceMember evidenceJson) [])
    (by simp [payloadMembers]; omega) hmembers
  obtain ⟨fuel', json', more, hvalue', -, hmore⟩ := Json.exists_value_of_members
    (plain_key (by simp [keys, evidenceMember])) hlast
  exact plain_of_value hevidence hvalue' hmore

theorem valid_payload (htarget : Json.Plain targetId) (hevidence : Utf8.valid evidenceJson)
    (h : ∀ c ∈ evidenceJson, 0x20 ≤ c ∧ c ≠ 0x22 ∧ c ≠ 0x5c)
    : Utf8.valid (payload targetId evidenceJson quorum timestampUs) := by
  have hkeys : ∀ key ∈ keys, Utf8.valid key := fun key hkey => (plain_key hkey).valid
  have hquoted {s : Bytes} (hs : Json.Plain s) : Utf8.valid (0x22 :: (s ++ [0x22])) := by
    apply Json.valid_cons (by decide)
    exact Utf8.valid_append hs.valid (by decide)
  rw [payload_eq]
  apply Json.valid_cons (by decide)
  apply Json.valid_membersText
  simp only [keys, List.forall_mem_cons] at hkeys
  simp only [payloadMembers, headMembers, targetMember, quorumMember, timestampMember, evidenceMember,
    List.cons_append, List.nil_append, List.forall_mem_cons, List.not_mem_nil, false_implies, implies_true,
    and_true, escape_of_plain h, hkeys, hquoted htarget, hquoted nodup_keys.2.1, valid_toDecimalInt, hevidence]

theorem delivers_of_plain {members : List (List UInt8 × Json)} (hwire : MeshNode.WireText targetId)
    (hparse : Json.parse half evidenceJson = some (.obj members))
    (htarget : ∀ c ∈ targetId, 0x20 ≤ c ∧ c ≠ 0x22 ∧ c ≠ 0x5c)
    (hevidence : ∀ c ∈ evidenceJson, 0x20 ≤ c ∧ c ≠ 0x22 ∧ c ≠ 0x5c)
    : Delivers half (payload targetId evidenceJson quorum timestampUs) targetId evidenceJson members := by
  obtain ⟨hlast, rfl⟩ := readsMembers_evidenceMember hparse hevidence
  have hplain := plain_targetId hwire htarget
  have hfront : ∀ member ∈ headMembers ++ [targetMember targetId, quorumMember quorum,
      timestampMember timestampUs], Json.Plain member.key ∧ Json.Reads half member.text member.json :=
    reads_frontMembers hplain
  have hreads := Json.reads_obj (Json.readsMembers_append hfront (List.cons_ne_nil _ _) hlast)
  have hbody := hreads.parse (show ∀ c ∈ [], Json.isSpace c from nofun)
  rw [List.append_nil] at hbody
  have hvalid : Utf8.valid (payload targetId evidenceJson quorum timestampUs) :=
    valid_payload hplain (Json.valid_of_parse hparse) hevidence
  rw [payload_eq] at hvalid
  refine ⟨_, .obj [], by rw [payload_eq]; exact hbody hvalid, ?_, ?_, .inl rfl⟩
  . exact Json.has_of_mem nodup_keys.1 (by simp [targetMember])
  . exact Json.has_of_mem nodup_keys.1 (by simp)

theorem delivers_iff {members : List (List UInt8 × Json)} (hwire : MeshNode.WireText targetId)
    (hevidence : Json.parse half evidenceJson = some (.obj members))
    : Delivers half (payload targetId evidenceJson quorum timestampUs) targetId evidenceJson members
        ↔
      (∀ c ∈ targetId, 0x20 ≤ c ∧ c ≠ 0x22 ∧ c ≠ 0x5c)
        ∧ ∀ c ∈ evidenceJson, 0x20 ≤ c ∧ c ≠ 0x22 ∧ c ≠ 0x5c := by
  constructor
  . intro h
    exact plain_of_delivers hwire hevidence h
  . intro h
    exact delivers_of_plain hwire hevidence h.1 h.2

theorem parse_emptyObject : Json.parse half (bytes "\x7b \x7d") = some (.obj []) := by
  have hblank : ∀ c ∈ [0x20], Json.isSpace c := by simp [Json.isSpace]
  have htext : bytes "\x7b \x7d" = 0x7b :: ([0x20] ++ [0x7d]) ++ [] := rfl
  rw [htext]
  apply Json.Reads.parse
  . exact Json.reads_obj_nil hblank
  . simp
  . exact Utf8.valid_of_ascii (by simp)

theorem wireText_sample : MeshNode.WireText (bytes "T") := by
  rw [show bytes "T" = [0x54] from rfl]
  exact ⟨by decide, by decide, by simp [MeshNode.Legible], by decide⟩

theorem delivers_emptyObject : Delivers true (payload (bytes "T") (bytes "\x7b \x7d") 3 0) (bytes "T")
    (bytes "\x7b \x7d") [] := by
  rw [delivers_iff wireText_sample parse_emptyObject, show bytes "T" = [0x54] from rfl,
    show bytes "\x7b \x7d" = [0x7b, 0x20, 0x7d] from rfl]
  simp

theorem not_forall_delivers
    : ¬ ∀ (half : Bool) (targetId evidenceJson : Bytes) (members : List (List UInt8 × Json))
        (quorum timestampUs : Int), MeshNode.WireText targetId →
          Json.parse half evidenceJson = some (.obj members) →
            Delivers half (payload targetId evidenceJson quorum timestampUs) targetId evidenceJson members := by
  intro h
  have hmember : ∀ member ∈ [(⟨bytes "a", toDecimal 1, .int 1⟩ : Json.Member)],
      Json.Plain member.key ∧ Json.Reads true member.text member.json := by
    have hkey : Json.Plain (bytes "a") := by decide +kernel
    simp only [List.forall_mem_cons, List.not_mem_nil, false_implies, implies_true, and_true]
    exact ⟨hkey, reads_toDecimal 1⟩
  have hreads := Json.reads_obj (Json.readsMembers_membersText (List.cons_ne_nil _ _) hmember)
  have hparse := hreads.parse (show ∀ c ∈ [], Json.isSpace c from nofun) (by decide +kernel)
  rw [List.append_nil] at hparse
  have hdelivers := h true (bytes "T") _ _ 3 0 wireText_sample hparse
  have hplain := (plain_of_delivers wireText_sample hparse hdelivers).2 0x22 (by decide +kernel)
  exact hplain.2.1 rfl

end Webhook
end NeuroMesh
