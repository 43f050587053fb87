import NeuroMesh.Enforcer.Lemmas.Calls

namespace NeuroMesh
namespace MitigationEngine

variable {p : Platform}

def statedPid (p : Platform) (evidenceJson : Bytes) : Option Int :=
  match (p.parse evidenceJson).bind (Json.get? · (bytes "pid")) with
  | some (.int z) => some z
  | _ => none

def KillsStated (p : Platform) (evidenceJson : Bytes) (kills : List Kill) : Prop :=
  ∀ kill ∈ kills, statedPid p evidenceJson = some kill.pid ∧ 1 < kill.pid ∧ kill.pid ≠ p.getpid

structure Signals (p : Platform) (evidenceJson : Bytes) (z : Int) : Prop where
  accepted : accepts p evidenceJson = true
  event : extractStr p evidenceJson (bytes "event") = bytes "privilege_escalation"
  stated : statedPid p evidenceJson = some z
  pos : 0 < z.bmod (2 ^ 64)
  gt_one : 1 < z % 2 ^ 32
  ne_self : z % 2 ^ 32 ≠ p.getpid

section Pid

theorem toNat_ofInt (i : Int) : ((UInt32.ofInt i).toNat : Int) = i % 2 ^ 32 := by
  unfold UInt32.ofInt
  rw [UInt32.toNat_ofNat']
  omega

theorem toNat_ofInt_bmod (z : Int) : ((UInt32.ofInt (z.bmod (2 ^ 64))).toNat : Int) = z % 2 ^ 32 := by
  have hdvd : z.bmod (2 ^ 64) % 2 ^ 32 = z % 2 ^ 32 := by
    have := Int.bmod_emod (x := z) (m := 2 ^ 64)
    omega
  rw [toNat_ofInt, hdvd]

theorem pidT_ofInt_bmod (z : Int) : pidT (UInt32.ofInt (z.bmod (2 ^ 64))) = z.bmod (2 ^ 32) := by
  unfold pidT int32
  rw [toNat_ofInt_bmod]
  exact Int.emod_bmod z (2 ^ 32)

theorem ofInt_bmod_le_one_iff (z : Int) : UInt32.ofInt (z.bmod (2 ^ 64)) ≤ 1 ↔ z % 2 ^ 32 ≤ 1 := by
  rw [UInt32.le_iff_toNat_le, ← toNat_ofInt_bmod]
  show _ ≤ 1 ↔ _
  omega

theorem ofInt_bmod_eq_iff (z : Int) {self : Int} (hpos : 0 < self) (hlt : self < 2 ^ 31)
    : UInt32.ofInt (z.bmod (2 ^ 64)) = UInt32.ofInt self ↔ z % 2 ^ 32 = self := by
  rw [← UInt32.toNat_inj, ← toNat_ofInt_bmod]
  have hself := toNat_ofInt self
  omega

end Pid

theorem extractInt_pid (p : Platform) (evidenceJson : Bytes)
    : extractInt p evidenceJson (bytes "pid")
        =
      match statedPid p evidenceJson with
      | some z => z.bmod (2 ^ 64)
      | none => -1 := by
  unfold extractInt statedPid
  cases (p.parse evidenceJson).bind (Json.get? · (bytes "pid")) with
  | none => rfl
  | some value => cases value <;> rfl

inductive Killing (p : Platform) (pid : UInt32) : List Kill → Prop where
  | refused (h : pid ≤ 1 ∨ pid = UInt32.ofInt p.getpid) : Killing p pid []
  | probed (hone : ¬pid ≤ 1) (hself : pid ≠ UInt32.ofInt p.getpid) :
    Killing p pid [⟨pidT pid, .probe⟩]
  | killed (hone : ¬pid ≤ 1) (hself : pid ≠ UInt32.ofInt p.getpid) :
    Killing p pid [⟨pidT pid, .probe⟩, ⟨pidT pid, .sigkill⟩]

theorem killing_terminateProcess (p : Platform) (pid : UInt32) : Killing p pid (terminateProcess p pid).2 := by
  unfold terminateProcess validatePid
  by_cases hone : pid ≤ 1
  . rw [if_pos hone]
    exact .refused (.inl hone)
  . rw [if_neg hone]
    by_cases hself : pid = UInt32.ofInt p.getpid
    . rw [if_pos hself]
      exact .refused (.inr hself)
    . rw [if_neg hself]
      dsimp only
      cases decide (p.kill ⟨pidT pid, .probe⟩ = .delivered) with
      | false => exact .probed hone hself
      | true => exact .killed hone hself

inductive Outcome (p : Platform) (evidenceJson : Bytes) : List Kill → Prop where
  | silent (h : ∀ z, ¬Signals p evidenceJson z) : Outcome p evidenceJson []
  | signals (z : Int) (h : Signals p evidenceJson z) (kill : Kill) (kills : List Kill)
      (hpid : ∀ other ∈ kill :: kills, other.pid = z.bmod (2 ^ 32)) :
    Outcome p evidenceJson (kill :: kills)

theorem outcome_terminate {evidenceJson : Bytes} (hpos : 0 < p.getpid) (hlt : p.getpid < 2 ^ 31)
    (haccepts : accepts p evidenceJson = true)
    : Outcome p evidenceJson (terminate p evidenceJson).2 := by
  unfold terminate
  dsimp only
  rw [extractInt_pid]
  by_cases hguard : extractStr p evidenceJson (bytes "event") = bytes "privilege_escalation" ∧
      0 < extractInt p evidenceJson (bytes "pid")
  . rw [extractInt_pid] at hguard
    rw [if_pos hguard]
    cases hstated : statedPid p evidenceJson with
    | none =>
      rw [hstated] at hguard
      exact absurd hguard.2 (by decide)
    | some z =>
      rw [hstated] at hguard
      dsimp only at hguard
      have hone := ofInt_bmod_le_one_iff z
      have hself := ofInt_bmod_eq_iff z hpos hlt
      have hpid := pidT_ofInt_bmod z
      have hkilling := killing_terminateProcess p (UInt32.ofInt (z.bmod (2 ^ 64)))
      generalize (terminateProcess p (UInt32.ofInt (z.bmod (2 ^ 64)))).2 = kills at *
      generalize UInt32.ofInt (z.bmod (2 ^ 64)) = pid at *
      have hsignals : ¬pid ≤ 1 → pid ≠ UInt32.ofInt p.getpid → Signals p evidenceJson z := by
        intro hone' hself'
        rw [hone] at hone'
        rw [Ne, hself] at hself'
        exact ⟨haccepts, hguard.1, hstated, hguard.2, by omega, hself'⟩
      cases hkilling with
      | refused h =>
        apply Outcome.silent
        intro z' hz'
        have heq := hz'.stated
        rw [hstated] at heq
        cases heq
        rcases h with h | h
        . have := hz'.gt_one
          rw [hone] at h
          omega
        . exact hz'.ne_self (hself.mp h)
      | probed hone' hself' =>
        apply Outcome.signals z (hsignals hone' hself')
        simp only [List.forall_mem_cons, hpid, List.not_mem_nil, false_implies, implies_true, and_self]
      | killed hone' hself' =>
        apply Outcome.signals z (hsignals hone' hself')
        simp only [List.forall_mem_cons, hpid, List.not_mem_nil, false_implies, implies_true, and_self]
  . rw [extractInt_pid] at hguard
    rw [if_neg hguard]
    apply Outcome.silent
    intro z hz
    apply hguard
    rw [hz.stated]
    exact ⟨hz.event, hz.pos⟩

theorem outcome_executeResponse (e : PolicyEnforcer) (evidenceJson targetId : Bytes) (hpos : 0 < p.getpid)
    (hlt : p.getpid < 2 ^ 31)
    : Outcome p evidenceJson (executeResponse p e evidenceJson targetId).2.1 := by
  unfold executeResponse
  split
  . next haccepts => exact outcome_terminate hpos hlt haccepts
  . next hrejects => exact .silent fun z hz => hrejects hz.accepted

theorem killsStated_iff (p : Platform) (e : PolicyEnforcer) (evidenceJson targetId : Bytes)
    (hpos : 0 < p.getpid) (hlt : p.getpid < 2 ^ 31)
    : KillsStated p evidenceJson (executeResponse p e evidenceJson targetId).2.1
        ↔
      ∀ z, Signals p evidenceJson z → 0 ≤ z ∧ z < 2 ^ 31 := by
  have houtcome := outcome_executeResponse e evidenceJson targetId hpos hlt
  generalize (executeResponse p e evidenceJson targetId).2.1 = kills at *
  cases houtcome with
  | silent h =>
    constructor
    . intro _ z hz
      exact absurd hz (h z)
    . intro _ kill hkill
      contradiction
  | signals z h kill kills hpid =>
    constructor
    . intro hstated z' hz'
      have heq := hz'.stated.symm.trans h.stated
      cases heq
      have hkill := hstated kill List.mem_cons_self
      have hsame := hkill.1.symm.trans h.stated
      rw [Option.some.injEq, hpid kill List.mem_cons_self] at hsame
      have hupper : z.bmod (2 ^ 32) < 2 ^ 31 := by
        have := @Int.bmod_lt z (2 ^ 32) (by decide)
        omega
      rw [hpid kill List.mem_cons_self] at hkill
      omega
    . intro hbound other hother
      obtain ⟨hnonneg, hbound⟩ := hbound z h
      have hsame : z.bmod (2 ^ 32) = z := by
        rw [Int.bmod_eq_of_le] <;> omega
      have hone := h.gt_one
      have hself := h.ne_self
      have hmod : z % 2 ^ 32 = z := by omega
      rw [hmod] at hone hself
      rw [hpid other hother, hsame]
      exact ⟨h.stated, hone, hself⟩

section Sample

def escalation (pid : String) : Bytes :=
  bytes "\x7b\"event\":\"privilege_escalation\",\"pid\":" ++ bytes pid ++ bytes "\x7d"

theorem killsStated_escalation
    : (executeResponse (samplePlatform 0) sampleEnforcer (escalation "1234") []).2.1
        = [⟨1234, .probe⟩, ⟨1234, .sigkill⟩]
        ∧
      (KillsStated (samplePlatform 0) (escalation "1234")
          (executeResponse (samplePlatform 0) sampleEnforcer (escalation "1234") []).2.1
        ↔
      ∀ z, Signals (samplePlatform 0) (escalation "1234") z → 0 ≤ z ∧ z < 2 ^ 31) :=
  ⟨by decide +kernel, killsStated_iff _ _ _ _ (by decide) (by decide)⟩

-- `kill(-1, SIGKILL)` is for every process
theorem not_killsStated_escalation
    : (executeResponse (samplePlatform 0) sampleEnforcer (escalation "4294967295") []).2.1
        = [⟨-1, .probe⟩, ⟨-1, .sigkill⟩]
        ∧
      ¬KillsStated (samplePlatform 0) (escalation "4294967295")
          (executeResponse (samplePlatform 0) sampleEnforcer (escalation "4294967295") []).2.1 := by
  have hkills : (executeResponse (samplePlatform 0) sampleEnforcer (escalation "4294967295") []).2.1
      = [⟨-1, .probe⟩, ⟨-1, .sigkill⟩] := by decide +kernel
  rw [hkills]
  refine ⟨rfl, fun hstated => ?_⟩
  have hone := (hstated _ List.mem_cons_self).2.1
  exact absurd hone (by decide)

end Sample

end MitigationEngine
end NeuroMesh
