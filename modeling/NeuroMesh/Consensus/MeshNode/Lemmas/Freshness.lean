import NeuroMesh.Common.Duration
import NeuroMesh.Consensus.MeshNode.Lemmas.Wire

namespace NeuroMesh
namespace MeshNode

variable {C : IdentityCore}

def IsReading (t : Int) : Prop :=
  0 ≤ t ∧ t < 2 ^ 63

instance (t : Int) : Decidable (IsReading t) :=
  inferInstanceAs (Decidable (0 ≤ t ∧ t < 2 ^ 63))

def acceptsDatagram (receiver : MeshNode C) (now : Time) (datagram : Bytes) : Bool :=
  (parseBeacon (splitString datagram pipe)).any (receiver.acceptsBeacon now)

/--
A beacon is accepted within a minute and rejected after a minute and a second, no matter when it is sent.
The clocks run alike, `origin` and `origin'` are what the ones of the sender and of the receiver show at the
time `0`.
-/
def JudgesAge (sender receiver : MeshNode C) (endpoint : Endpoint) (origin origin' : Int) : Prop :=
  ∀ built arrived : Int, built ≤ arrived → IsReading (built + origin) → IsReading (arrived + origin') →
    let datagram := sender.beaconPayload endpoint (microseconds (built + origin))
    (arrived - built < 60 * 10 ^ 9 → receiver.acceptsDatagram (arrived + origin') datagram = true)
      ∧ (61 * 10 ^ 9 < arrived - built → receiver.acceptsDatagram (arrived + origin') datagram = false)

section Arithmetic

theorem microseconds_of_isReading {t : Int} (h : IsReading t) : microseconds t = t / 1000 := by
  unfold microseconds
  exact Int.tdiv_eq_ediv_of_nonneg h.1

theorem fresh_iff {t t' : Int} (h : IsReading t) (h' : IsReading t')
    : (!(60 < ((microseconds t' - microseconds t).bmod (2 ^ 64)).tdiv 1000000
          || ((microseconds t' - microseconds t).bmod (2 ^ 64)).tdiv 1000000 < -60)) = true
        ↔
      -61000000 < t' / 1000 - t / 1000 ∧ t' / 1000 - t / 1000 < 61000000 := by
  rw [microseconds_of_isReading h, microseconds_of_isReading h']
  obtain ⟨hnonneg, hlt⟩ := h
  obtain ⟨hnonneg', hlt'⟩ := h'
  have hmod : (t' / 1000 - t / 1000).bmod (2 ^ 64) = t' / 1000 - t / 1000 := by
    rw [Int.bmod_eq_of_le] <;> omega
  rw [hmod]
  generalize t' / 1000 - t / 1000 = d
  simp only [Bool.not_eq_true', Bool.or_eq_false_iff, decide_eq_false_iff_not]
  have hlate := le_tdiv_iff (w := 61) (k := 1000000) (d := d) (by decide) (by decide)
  have hearly := tdiv_le_neg_iff (w := 61) (k := 1000000) (d := d) (by decide) (by decide)
  omega

end Arithmetic

theorem acceptsDatagram_beaconPayload {sender receiver : MeshNode C} {endpoint : Endpoint} {t t' : Int}
    (hsender : sender.Presentable) (hother : sender.nodeId ≠ receiver.nodeId)
    (hsigned : ∀ data, C.verifyWith (C.getPubkeyFromPem sender.publicKeyPem) data
      (C.signPayload sender.privateKey data) = true)
    (hwire : endpoint.IsWire 0) (h : IsReading t) (h' : IsReading t')
    : receiver.acceptsDatagram t' (sender.beaconPayload endpoint (microseconds t)) = true
        ↔
      -61000000 < t' / 1000 - t / 1000 ∧ t' / 1000 - t / 1000 < 61000000 := by
  have hus : endpoint.IsWire (microseconds t) := by
    rw [microseconds_of_isReading h]
    obtain ⟨hnonneg, hlt⟩ := h
    exact ⟨hwire.tcpPort_ge, hwire.tcpPort_lt, hwire.tlsPort_ge, hwire.tlsPort_lt, by omega, by omega,
      hwire.fingerprint⟩
  unfold acceptsDatagram
  rw [splitString_beaconPayload hsender hus, parseBeacon_beaconFields hus, Option.any_some,
    acceptsBeacon_ownBeacon hsender hother, hsigned, Bool.true_and]
  exact fresh_iff h h'

section Readings

variable {sender receiver : MeshNode C} {endpoint : Endpoint} {origin origin' : Int}

theorem judgesAge_iff_forall_readings (hsender : sender.Presentable) (hother : sender.nodeId ≠ receiver.nodeId)
    (hsigned : ∀ data, C.verifyWith (C.getPubkeyFromPem sender.publicKeyPem) data
      (C.signPayload sender.privateKey data) = true)
    (hwire : endpoint.IsWire 0)
    : JudgesAge sender receiver endpoint origin origin'
        ↔
      ∀ t t' : Int, IsReading t → IsReading t' → 0 ≤ t' - t - (origin' - origin) →
        (t' - t - (origin' - origin) < 60 * 10 ^ 9 →
            -61000000 < t' / 1000 - t / 1000 ∧ t' / 1000 - t / 1000 < 61000000)
          ∧ (61 * 10 ^ 9 < t' - t - (origin' - origin) →
            ¬(-61000000 < t' / 1000 - t / 1000 ∧ t' / 1000 - t / 1000 < 61000000)) := by
  constructor
  . intro hjudges t t' ht ht' hdelay
    have hjudged := hjudges (t - origin) (t' - origin') (by omega)
    rw [Int.sub_add_cancel, Int.sub_add_cancel] at hjudged
    obtain ⟨hin, hout⟩ := hjudged ht ht'
    rw [acceptsDatagram_beaconPayload hsender hother hsigned hwire ht ht'] at hin
    rw [← Bool.not_eq_true, acceptsDatagram_beaconPayload hsender hother hsigned hwire ht ht'] at hout
    exact ⟨fun h => hin (by omega), fun h => hout (by omega)⟩
  . intro hreadings built arrived hle ht ht'
    obtain ⟨hin, hout⟩ := hreadings _ _ ht ht' (by omega)
    intro datagram
    rw [← Bool.not_eq_true, acceptsDatagram_beaconPayload hsender hother hsigned hwire ht ht']
    exact ⟨fun h => hin (by omega), fun h => hout (by omega)⟩

end Readings

theorem judgesAge_iff (sender receiver : MeshNode C) (endpoint : Endpoint) (origin origin' : Int)
    (hsender : sender.Presentable) (hother : sender.nodeId ≠ receiver.nodeId)
    (hsigned : ∀ data, C.verifyWith (C.getPubkeyFromPem sender.publicKeyPem) data
      (C.signPayload sender.privateKey data) = true)
    (hwire : endpoint.IsWire 0)
    (hcommon : ∃ t : Int, IsReading (t + origin) ∧ IsReading (t + origin'))
    : JudgesAge sender receiver endpoint origin origin'
        ↔
      -1 ≤ origin' - origin ∧ origin' - origin ≤ 10 ^ 9 - 999 := by
  rw [judgesAge_iff_forall_readings hsender hother hsigned hwire]
  obtain ⟨t, ⟨hnonneg, _⟩, ⟨_, hlt⟩⟩ := hcommon
  have hahead : origin' - origin < 2 ^ 63 := by omega
  clear hnonneg hlt
  generalize origin' - origin = ahead at *
  constructor
  . intro h
    constructor
    . -- A receiver that is behind accepts what is too old.
      rcases Int.lt_or_le ahead (-(61 * 10 ^ 9)) with hfar | hnear
      . have := (h 0 0 ⟨by omega, by omega⟩ ⟨by omega, by omega⟩ (by omega)).2
        omega
      . by_cases hbound : -1 ≤ ahead
        . exact hbound
        . have := (h 0 (61 * 10 ^ 9 + 1 + ahead) ⟨by omega, by omega⟩ ⟨by omega, by omega⟩ (by omega)).2
          omega
    . -- A receiver that is ahead rejects what has just been sent.
      rcases Int.lt_or_le ahead (61 * 10 ^ 9 + 1000) with hnear | hfar
      . by_cases hbound : ahead ≤ 10 ^ 9 - 999
        . exact hbound
        . have := (h 999 (60 * 10 ^ 9 + 998 + ahead) ⟨by omega, by omega⟩ ⟨by omega, by omega⟩ (by omega)).1
          omega
      . have := (h 0 ahead ⟨by omega, by omega⟩ ⟨by omega, by omega⟩ (by omega)).1
        omega
  . rintro ⟨hbehind, hbound⟩ t t' ht ht' hdelay
    constructor
    . omega
    . omega

theorem judgesAge_of_common_clock
    : JudgesAge framed (new .plain (bytes "A") (bytes "A") (bytes "A") {}) ⟨9999, 10000, bytes "ab", []⟩ 0 0 := by
  rw [judgesAge_iff _ _ _ _ _ presentable_framed (by decide) ?_ isWire_sample ⟨0, by decide, by decide⟩]
  . decide
  . intro data
    apply beq_self_eq_true

theorem not_judgesAge_of_boot
    : ¬JudgesAge framed (new .plain (bytes "A") (bytes "A") (bytes "A") {}) ⟨9999, 10000, bytes "ab", []⟩ 0
        (3600 * 10 ^ 9) := by
  intro hjudges
  have haccepts := (hjudges 0 0 (by decide) (by decide) (by decide)).1 (by decide)
  revert haccepts
  decide +kernel

end MeshNode
end NeuroMesh
