import NeuroMesh.Common.JsonEscape
import NeuroMesh.Common.JsonText
import NeuroMesh.Common.StateJournal.Lemmas
import NeuroMesh.Crypto.Plain

namespace NeuroMesh
namespace StateJournal

variable {sha256Hex : Bytes → Bytes} {seq : UInt64} {nowMs : Int} {stage targetId evidenceJson : Bytes}

def stages : List Bytes :=
  [bytes "COMMIT", bytes "EXECUTED", bytes "BAN_PEER_EXECUTED", bytes "BAN_PEER_LOCAL"]

def keys : List Bytes :=
  [bytes "seq", bytes "ts", bytes "stage", bytes "target", bytes "evidence", bytes "hash"]

def entryHash (sha256Hex : Bytes → Bytes) (evidenceJson : Bytes) : Bytes :=
  if sha256Hex evidenceJson = [] then List.replicate 64 0x30 else sha256Hex evidenceJson

def headMembers (seq : UInt64) (nowMs : Int) (stage : Bytes) : List Json.Member := [
  ⟨bytes "seq", toDecimal seq.toNat, .int seq.toNat⟩,
  ⟨bytes "ts", toDecimalInt nowMs, .int nowMs⟩,
  ⟨bytes "stage", 0x22 :: (stage ++ [0x22]), .str stage⟩
]

def targetMember (targetId : Bytes) : Json.Member :=
  ⟨bytes "target", 0x22 :: (targetId ++ [0x22]), .str targetId⟩

def evidenceMember (evidenceJson : Bytes) : Json.Member :=
  ⟨bytes "evidence", 0x22 :: (escape evidenceJson ++ [0x22]), .str evidenceJson⟩

def hashMember (sha256Hex : Bytes → Bytes) (evidenceJson : Bytes) : Json.Member :=
  let hash := entryHash sha256Hex evidenceJson
  ⟨bytes "hash", 0x22 :: (hash ++ [0x22]), .str hash⟩

def entryMembers (sha256Hex : Bytes → Bytes) (seq : UInt64) (nowMs : Int) (stage targetId evidenceJson : Bytes)
    : List Json.Member :=
  headMembers seq nowMs stage
    ++ [targetMember targetId, evidenceMember evidenceJson, hashMember sha256Hex evidenceJson]

theorem entryLine_eq
    : entryLine sha256Hex seq nowMs stage targetId evidenceJson
        =
      0x7b :: Json.membersText (entryMembers sha256Hex seq nowMs stage targetId evidenceJson) ++ [newline] := by
  unfold entryLine entryMembers headMembers targetMember evidenceMember hashMember
  simp only [Json.membersText, List.append_assoc, List.cons_append, List.nil_append]
  rfl

/--
A complete write adds one line to the file, with the arguments of the call in it. The bytes of the line are
not required to be UTF-8, because those of the target and of the evidence are arbitrary.
-/
def Recorded (sha256Hex : Bytes → Bytes) (seq : UInt64) (nowMs : Int) (stage targetId evidenceJson : Bytes)
    : Prop :=
  ∃ line json,
    (∀ (st : Disk) (journal : StateJournal) (result : Int),
        (entryLine sha256Hex seq nowMs stage targetId evidenceJson).length ≤ result.toNat →
          (st.call journal ⟨seq, entryLine sha256Hex seq nowMs stage targetId evidenceJson⟩ .write result).live
            = st.live ++ (line ++ [newline]))
      ∧ newline ∉ line
      ∧ extractSeq line = seq
      ∧ Json.parseBytes line = some json
      ∧ json.Has (bytes "seq") (.int seq.toNat)
      ∧ json.Has (bytes "stage") (.str stage)
      ∧ json.Has (bytes "target") (.str targetId)
      ∧ json.Has (bytes "evidence") (.str evidenceJson)

theorem live_call_write {st : Disk} {journal : StateJournal} {entry : JournalEntry} {result : Int}
    (h : entry.line.length ≤ result.toNat)
    : (st.call journal entry .write result).live = st.live ++ entry.line := by
  unfold Disk.call
  dsimp only
  rw [if_pos h]

section Read

theorem plain_of_mem_stages (hstage : stage ∈ stages) : ∀ c ∈ stage, 0x20 ≤ c ∧ c ≠ 0x22 ∧ c ≠ 0x5c := by
  have hall : ∀ stage ∈ stages, ∀ c ∈ stage, 0x20 ≤ c ∧ c ≠ 0x22 ∧ c ≠ 0x5c := by decide +kernel
  exact hall stage hstage

theorem plain_entryHash (hdigest : ∀ data, ∀ c ∈ sha256Hex data, isDigit c ∨ (0x61 ≤ c ∧ c ≤ 0x66))
    (evidenceJson : Bytes)
    : ∀ c ∈ entryHash sha256Hex evidenceJson, 0x20 ≤ c ∧ c ≠ 0x22 ∧ c ≠ 0x5c := by
  have hhex : ∀ c : UInt8, isDigit c ∨ (0x61 ≤ c ∧ c ≤ 0x66) → 0x20 ≤ c ∧ c ≠ 0x22 ∧ c ≠ 0x5c := by
    exact Utf8.forall_byte (by decide +kernel)
  intro c hc
  unfold entryHash at hc
  split at hc
  . rw [List.eq_of_mem_replicate hc]
    decide
  . exact hhex c (hdigest evidenceJson c hc)

theorem nodup_keys : keys.Nodup ∧ ∀ key ∈ keys, Json.Plain key := by
  decide +kernel

theorem plain_key {key : Bytes} (h : key ∈ keys) : Json.Plain key := nodup_keys.2 key h

theorem reads_headMembers (hstage : stage ∈ stages)
    : ∀ member ∈ headMembers seq nowMs stage,
        Json.Plain member.key ∧ Json.Reads true member.text member.json := by
  simp only [headMembers, List.forall_mem_cons, reads_toDecimal, reads_toDecimalInt,
    Json.reads_raw (plain_of_mem_stages hstage), and_true, List.not_mem_nil, false_implies, implies_true]
  exact ⟨plain_key (by simp [keys]), plain_key (by simp [keys]), plain_key (by simp [keys])⟩

theorem reads_evidenceMember (evidenceJson : Bytes)
    : Json.Reads true (evidenceMember evidenceJson).text (.str evidenceJson) := by
  exact Json.reads_flatMap isSpelling_escapeChar (.inl rfl)

theorem reads_entryMembers (hdigest : ∀ data, ∀ c ∈ sha256Hex data, isDigit c ∨ (0x61 ≤ c ∧ c ≤ 0x66))
    (hstage : stage ∈ stages) (htarget : ∀ c ∈ targetId, 0x20 ≤ c ∧ c ≠ 0x22 ∧ c ≠ 0x5c)
    : ∀ member ∈ entryMembers sha256Hex seq nowMs stage targetId evidenceJson,
        Json.Plain member.key ∧ Json.Reads true member.text member.json := by
  unfold entryMembers
  rw [List.forall_mem_append]
  refine ⟨reads_headMembers hstage, ?_⟩
  simp only [List.forall_mem_cons, List.not_mem_nil, false_implies, implies_true, and_true]
  refine ⟨⟨plain_key (by simp [keys, targetMember]), ?_⟩, ⟨plain_key (by simp [keys, evidenceMember]), ?_⟩,
    ⟨plain_key (by simp [keys, hashMember]), ?_⟩⟩
  . exact Json.reads_raw htarget
  . exact reads_evidenceMember evidenceJson
  . exact Json.reads_raw (plain_entryHash hdigest evidenceJson)

theorem newline_notMem_of_plain {text : Bytes} (h : ∀ c ∈ text, 0x20 ≤ c ∧ c ≠ 0x22 ∧ c ≠ 0x5c)
    : newline ∉ text := by
  intro hmem
  exact absurd (h newline hmem).1 (by decide)

theorem newline_notMem_entryMembers (hdigest : ∀ data, ∀ c ∈ sha256Hex data, isDigit c ∨ (0x61 ≤ c ∧ c ≤ 0x66))
    (hstage : stage ∈ stages) (htarget : ∀ c ∈ targetId, 0x20 ≤ c ∧ c ≠ 0x22 ∧ c ≠ 0x5c)
    : newline ∉ Json.membersText (entryMembers sha256Hex seq nowMs stage targetId evidenceJson) := by
  have hdecimal (n : Nat) : newline ∉ toDecimal n := by
    intro hmem
    exact absurd (isDigit_of_mem_toDecimal hmem) (by decide)
  have hdecimalInt : newline ∉ toDecimalInt nowMs := by
    intro hmem
    rcases isDigit_or_eq_of_mem_toDecimalInt hmem with h | h
    . exact absurd h (by decide)
    . exact absurd h (by decide)
  have hevidence : newline ∉ escape evidenceJson := by
    intro hmem
    exact (escapeOf_flatMap isSpelling_escapeChar evidenceJson).low newline hmem (by decide)
  apply Json.notMem_membersText
  . decide
  . have hkeys : ∀ key ∈ keys, newline ∉ key := by
      intro key hkey
      exact newline_notMem_of_plain (plain_key hkey).notMem
    simp only [keys, List.forall_mem_cons] at hkeys
    have hquote : newline ≠ 0x22 := by decide
    simp [entryMembers, headMembers, targetMember, evidenceMember, hashMember, hkeys, hdecimal, hdecimalInt,
      hquote, newline_notMem_of_plain (plain_of_mem_stages hstage), newline_notMem_of_plain htarget, hevidence,
      newline_notMem_of_plain (plain_entryHash hdigest evidenceJson)]

end Read

theorem plain_of_recorded (hstage : stage ∈ stages)
    (h : Recorded sha256Hex seq nowMs stage targetId evidenceJson)
    : ∀ c ∈ targetId, 0x20 ≤ c ∧ c ≠ 0x22 ∧ c ≠ 0x5c := by
  obtain ⟨line, json, hlive, -, -, hparse, -, -, htarget, -⟩ := h
  have hline : line
      = 0x7b :: Json.membersText (entryMembers sha256Hex seq nowMs stage targetId evidenceJson) := by
    have hempty := hlive {} ⟨0, true, [], none⟩
      (entryLine sha256Hex seq nowMs stage targetId evidenceJson).length (by simp)
    rw [live_call_write (by simp), entryLine_eq] at hempty
    exact (List.append_cancel_right (List.append_cancel_left hempty)).symm
  unfold Json.parseBytes at hparse
  rw [hline] at hparse
  simp only [Option.bind_eq_bind, Option.bind_eq_some_iff] at hparse
  obtain ⟨⟨json', rest⟩, hvalue, hjson⟩ := hparse
  dsimp only at hjson
  split at hjson
  . cases hjson
    apply Json.plain_of_has (reads_headMembers hstage) (plain_key (by simp [keys, targetMember])) rfl rfl rfl
      (by decide) (by decide) _ hvalue htarget
    rw [List.length_cons]
    unfold entryMembers
    omega
  . contradiction

theorem recorded_of_plain (hdigest : ∀ data, ∀ c ∈ sha256Hex data, isDigit c ∨ (0x61 ≤ c ∧ c ≤ 0x66))
    (hstage : stage ∈ stages) (htarget : ∀ c ∈ targetId, 0x20 ≤ c ∧ c ≠ 0x22 ∧ c ≠ 0x5c)
    : Recorded sha256Hex seq nowMs stage targetId evidenceJson := by
  have hkeys : (((entryMembers sha256Hex seq nowMs stage targetId evidenceJson).map
      fun member => (member.key, member.json)).map Prod.fst).Nodup := by
    exact nodup_keys.1
  refine ⟨0x7b :: Json.membersText (entryMembers sha256Hex seq nowMs stage targetId evidenceJson),
    .obj ((entryMembers sha256Hex seq nowMs stage targetId evidenceJson).map
      fun member => (member.key, member.json)), ?_, ?_, ?_, ?_, ?_, ?_, ?_, ?_⟩
  . intro st journal result hresult
    rw [live_call_write]
    . rw [entryLine_eq]
    . exact hresult
  . rw [List.mem_cons, not_or]
    exact ⟨by decide, newline_notMem_entryMembers hdigest hstage htarget⟩
  . exact extractSeq_front seq _
  . apply Json.Reads.parseBytes
    apply Json.reads_obj
    apply Json.readsMembers_membersText
    . exact List.cons_ne_nil _ _
    . exact reads_entryMembers hdigest hstage htarget
  . exact Json.has_of_mem hkeys (by simp [entryMembers, headMembers])
  . exact Json.has_of_mem hkeys (by simp [entryMembers, headMembers])
  . exact Json.has_of_mem hkeys (by simp [entryMembers, targetMember])
  . exact Json.has_of_mem hkeys (by simp [entryMembers, evidenceMember])

theorem recorded_iff (hdigest : ∀ data, ∀ c ∈ sha256Hex data, isDigit c ∨ (0x61 ≤ c ∧ c ≤ 0x66))
    (hstage : stage ∈ stages)
    : Recorded sha256Hex seq nowMs stage targetId evidenceJson
        ↔
      ∀ c ∈ targetId, 0x20 ≤ c ∧ c ≠ 0x22 ∧ c ≠ 0x5c := by
  constructor
  . intro h
    exact plain_of_recorded hstage h
  . intro h
    exact recorded_of_plain hdigest hstage h

theorem recorded_sample
    : Recorded IdentityCore.plain.sha256Hex 1 0 (bytes "COMMIT") (bytes "T")
        (bytes "\x7b\"a\":\"b\\\n\"\x7d") := by
  rw [recorded_iff]
  . rw [show bytes "T" = [0x54] from rfl]
    simp
  . intro data
    exact (IdentityCore.plain_hexDigest data).2
  . exact List.mem_cons_self

theorem not_forall_recorded
    : ¬ ∀ (seq : UInt64) (nowMs : Int) (stage targetId evidenceJson : Bytes), stage ∈ stages →
        targetId ≠ [] → targetId.length ≤ 64 →
          Recorded IdentityCore.plain.sha256Hex seq nowMs stage targetId evidenceJson := by
  intro h
  have hstage : bytes "COMMIT" ∈ stages := List.mem_cons_self
  have hrecorded := h 1 0 (bytes "COMMIT") [0x54, 0x22] [] hstage (by decide) (by decide)
  have hplain := plain_of_recorded hstage hrecorded 0x22 (by decide)
  exact hplain.2.1 rfl

end StateJournal
end NeuroMesh
