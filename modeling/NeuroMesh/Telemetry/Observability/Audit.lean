import NeuroMesh.Crypto.Plain
import NeuroMesh.Data.Merkle
import NeuroMesh.Data.Run
import NeuroMesh.Telemetry.Observability

namespace NeuroMesh
namespace DetailedAuditLogger

variable {sha256Hex : Bytes → Bytes}

section Run

structure Sealed (sha256Hex : Bytes → Bytes) (logger : DetailedAuditLogger) : Prop where
  tamperProtection : logger.tamperProtection = true
  entryHash : ∀ entry ∈ logger.entries, sha256Hex entry.hashed = entry.entryHash

theorem sealed_logEvent {logger : DetailedAuditLogger} (h : Sealed sha256Hex logger) (event : LogEvent)
    : Sealed sha256Hex (logger.logEvent sha256Hex event) := by
  unfold logEvent computeHash
  simp only [h.tamperProtection, if_true]
  refine ⟨rfl, ?_⟩
  intro entry hentry
  have happend {entry' : AuditEntry} (hentry' : sha256Hex entry'.hashed = entry'.entryHash)
      (hmem : entry ∈ logger.entries ++ [entry'])
      : sha256Hex entry.hashed = entry.entryHash := by
    rcases List.mem_append.mp hmem with hmem | hmem
    . exact h.entryHash entry hmem
    . rw [List.mem_singleton.mp hmem]
      exact hentry'
  dsimp only at hentry
  split at hentry
  . exact happend rfl (List.mem_of_mem_drop hentry)
  . exact happend rfl hentry

def logged (sha256Hex : Bytes → Bytes) (events : List LogEvent) : List AuditEntry :=
  (events.foldl (logEvent sha256Hex) (setTamperProtection {} true)).entries

theorem sealed_run (events : List LogEvent)
    : Sealed sha256Hex (events.foldl (logEvent sha256Hex) (setTamperProtection {} true)) := by
  apply Run.foldl_of_always
  apply Run.always_of_step
  . intro logger event h
    exact sealed_logEvent h event
  . exact ⟨rfl, nofun⟩

end Run

section Tamper

def KeepsEnds (log list : List AuditEntry) : Prop :=
  list.head?.map AuditEntry.entryHash = log.head?.map AuditEntry.entryHash
    ∧ list.getLast?.map AuditEntry.entryHash = log.getLast?.map AuditEntry.entryHash

def Collision (sha256Hex : Bytes → Bytes) (log list : List AuditEntry) : Prop :=
  Merkle.Collides sha256Hex ((log ++ list).map AuditEntry.hashed)

def TamperEvident (sha256Hex : Bytes → Bytes) (log list : List AuditEntry) : Prop :=
  KeepsEnds log list → ¬list <:+: log → verifyHashChain sha256Hex list = false ∨ Collision sha256Hex log list

/--
Without a delimiter only the concatenation of the fields counts. The hash and the text of an entry of the log belong
together, and an entry that shares neither of them with the log has to bring the digest of its own text.
-/
def Unsealed (sha256Hex : Bytes → Bytes) (log : List AuditEntry) (entry : AuditEntry) : Prop :=
  let text (e : AuditEntry) := e.previousHash ++ e.eventId ++ e.eventType ++ e.actor ++ e.action ++ e.target
  (∃ original ∈ log, ¬(original.entryHash = entry.entryHash ↔ text original = text entry))
    ∨ ((∀ original ∈ log, original.entryHash ≠ entry.entryHash ∧ text original ≠ text entry)
      ∧ sha256Hex (text entry) ≠ entry.entryHash)

variable {log list : List AuditEntry}

theorem verifyHashChain_eq_false_iff
    : verifyHashChain sha256Hex list = false ↔ ∃ entry ∈ list, sha256Hex entry.hashed ≠ entry.entryHash := by
  simp [verifyHashChain]

theorem hashed_eq_of_not_collision (hlog : ∀ entry ∈ log, sha256Hex entry.hashed = entry.entryHash)
    (hcollision : ¬Collision sha256Hex log list) {original entry : AuditEntry} (horiginal : original ∈ log)
    (hentry : entry ∈ list) (hhash : sha256Hex entry.hashed = original.entryHash)
    : original.hashed = entry.hashed := by
  by_contra hne
  apply hcollision
  refine ⟨original.hashed, ?_, entry.hashed, ?_, hne, ?_⟩
  . exact List.mem_map_of_mem (List.mem_append_left _ horiginal)
  . exact List.mem_map_of_mem (List.mem_append_right _ hentry)
  . rw [hlog original horiginal, hhash]

theorem not_sealed_iff_unsealed (hlog : ∀ entry ∈ log, sha256Hex entry.hashed = entry.entryHash)
    (hcollision : ¬Collision sha256Hex log list) {entry : AuditEntry} (hentry : entry ∈ list)
    : sha256Hex entry.hashed ≠ entry.entryHash ↔ Unsealed sha256Hex log entry := by
  change _ ↔ (∃ original ∈ log, ¬(original.entryHash = entry.entryHash ↔ original.hashed = entry.hashed))
    ∨ ((∀ original ∈ log, original.entryHash ≠ entry.entryHash ∧ original.hashed ≠ entry.hashed)
      ∧ sha256Hex entry.hashed ≠ entry.entryHash)
  constructor
  . intro hne
    have hapart : ∀ original ∈ log, original.hashed = entry.hashed → original.entryHash ≠ entry.entryHash := by
      intro original horiginal htext
      rwa [← hlog original horiginal, htext]
    rw [or_iff_not_imp_left]
    intro hbelong
    refine ⟨?_, hne⟩
    intro original horiginal
    have htext : original.hashed ≠ entry.hashed := by
      intro htext
      apply hbelong
      exact ⟨original, horiginal, fun hiff => hapart original horiginal htext (hiff.mpr htext)⟩
    refine ⟨?_, htext⟩
    intro hhash
    apply hbelong
    exact ⟨original, horiginal, fun hiff => htext (hiff.mp hhash)⟩
  . rintro (⟨original, horiginal, hapart⟩ | ⟨-, hne⟩)
    . intro hseal
      apply hapart
      constructor
      . intro hhash
        exact hashed_eq_of_not_collision hlog hcollision horiginal hentry (hseal.trans hhash.symm)
      . intro htext
        rw [← hlog original horiginal, htext, hseal]
    . exact hne

/--
The log itself is always accepted. A change of it is noticed exactly if an entry is left whose hash does not belong
to its text: nothing ties an entry to its neighbours, and neither the time nor the details are in the text.
-/
theorem tamperEvident_iff (sha256Hex : Bytes → Bytes) (events : List LogEvent) (list : List AuditEntry)
    : verifyHashChain sha256Hex (logged sha256Hex events) = true
        ∧ (TamperEvident sha256Hex (logged sha256Hex events) list
          ↔
        (KeepsEnds (logged sha256Hex events) list → ¬list <:+: logged sha256Hex events →
          (∃ entry ∈ list, Unsealed sha256Hex (logged sha256Hex events) entry)
            ∨ Collision sha256Hex (logged sha256Hex events) list)) := by
  have hlog : ∀ entry ∈ logged sha256Hex events, sha256Hex entry.hashed = entry.entryHash :=
    (sealed_run events).entryHash
  constructor
  . unfold verifyHashChain
    simpa using hlog
  . unfold TamperEvident
    rw [verifyHashChain_eq_false_iff]
    by_cases hcollision : Collision sha256Hex (logged sha256Hex events) list
    . simp only [hcollision, or_true]
    . simp only [hcollision, or_false]
      have hiff : (∃ entry ∈ list, sha256Hex entry.hashed ≠ entry.entryHash)
          ↔ ∃ entry ∈ list, Unsealed sha256Hex (logged sha256Hex events) entry := by
        apply exists_congr
        intro entry
        apply and_congr_right
        intro hentry
        exact not_sealed_iff_unsealed hlog hcollision hentry
      rw [hiff]

def sampleEvents : List LogEvent := [
  ⟨0, bytes "1", bytes "consensus", bytes "system", bytes "pbft_vote", bytes "R1", ∅⟩,
  ⟨1, bytes "2", bytes "enforcement", bytes "enforcer", bytes "isolate", bytes "T", ∅⟩,
  ⟨2, bytes "3", bytes "consensus", bytes "system", bytes "pbft_vote", bytes "R2", ∅⟩
]

theorem not_collision_plain (log list : List AuditEntry) : ¬Collision IdentityCore.plain.sha256Hex log list := by
  rintro ⟨s, -, t, -, hne, heq⟩
  exact hne (IdentityCore.plain_collisionFree heq)

theorem not_forall_tamperEvident
    : ¬ ∀ (events : List LogEvent) (list : List AuditEntry),
        TamperEvident IdentityCore.plain.sha256Hex (logged IdentityCore.plain.sha256Hex events) list := by
  intro h
  have hevident := h sampleEvents ((logged IdentityCore.plain.sha256Hex sampleEvents).eraseIdx 1)
  have hsample : verifyHashChain IdentityCore.plain.sha256Hex
        ((logged IdentityCore.plain.sha256Hex sampleEvents).eraseIdx 1) = true
      ∧ KeepsEnds (logged IdentityCore.plain.sha256Hex sampleEvents)
        ((logged IdentityCore.plain.sha256Hex sampleEvents).eraseIdx 1)
      ∧ ¬((logged IdentityCore.plain.sha256Hex sampleEvents).eraseIdx 1).map AuditEntry.eventId
        <:+: (logged IdentityCore.plain.sha256Hex sampleEvents).map AuditEntry.eventId := by
    unfold KeepsEnds
    decide +kernel
  obtain ⟨haccepted, hends, hids⟩ := hsample
  rcases hevident hends fun hpart => hids (hpart.map _) with hrejected | hcollision
  . rw [haccepted] at hrejected
    cases hrejected
  . exact not_collision_plain _ _ hcollision

end Tamper

end DetailedAuditLogger
end NeuroMesh
