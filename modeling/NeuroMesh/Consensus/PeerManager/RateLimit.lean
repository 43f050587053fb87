import NeuroMesh.Common.Duration
import NeuroMesh.Consensus.PeerManager
import NeuroMesh.Data.Run

namespace NeuroMesh

namespace PeerManager

section Evict

variable (limits : Map Bytes RateLimitState) (a : Ambient)

def unstale (now : Time) : Map Bytes RateLimitState :=
  limits.filter fun _ rl => !(rateLimitEvictSec < seconds (now - rl.windowStart))

def startOf (ip : Bytes) : Int :=
  (limits.getD ip {}).windowStart

theorem foldl_oldest (start : Bytes → Int) (ip : Bytes) (ips : List Bytes)
    : let oldest := ips.foldl (fun oldest ip => if start ip < start oldest then ip else oldest) ip
      oldest ∈ ip :: ips ∧ ∀ other ∈ ip :: ips, start oldest ≤ start other := by
  induction ips generalizing ip with
  | nil => simp
  | cons next ips ih =>
    obtain ⟨hmem, hle⟩ := ih (if start next < start ip then next else ip)
    rw [List.foldl_cons]
    have hhead := hle _ List.mem_cons_self
    refine ⟨?_, ?_⟩
    . grind
    . intro other hother
      simp only [List.mem_cons] at hother hle
      split at hhead <;> grind

inductive Eviction : Map Bytes RateLimitState → Prop where
  | none (h : limits.size ≤ rateLimitMapCap) : Eviction limits
  | stale (h : (unstale limits a.now).size ≤ rateLimitMapCap) : Eviction (unstale limits a.now)
  | oldest (h : rateLimitMapCap < (unstale limits a.now).size) (ip : Bytes)
    (hmem : ip ∈ unstale limits a.now)
    (hle : ∀ other ∈ unstale limits a.now,
      startOf (unstale limits a.now) ip ≤ startOf (unstale limits a.now) other)
    : Eviction ((unstale limits a.now).erase ip)

theorem evictRateLimits_cases : Eviction limits a (evictRateLimits limits a) := by
  have hfold : limits.filter (fun _ rl => !(rateLimitEvictSec < seconds (a.now - rl.windowStart)))
      = unstale limits a.now := rfl
  unfold evictRateLimits
  split
  . dsimp only
    rw [hfold]
    split
    . next hsize =>
      have hperm := a.bucketOrder_perm (unstale limits a.now).keys
      split
      . next heq =>
        -- the table is not empty
        have hlength := hperm.length_eq
        rw [heq, Std.ExtTreeMap.length_keys] at hlength
        simp at hlength
        omega
      . next ip ips heq =>
        have holdest := foldl_oldest (startOf (unstale limits a.now)) ip ips
        have hkeys : ∀ other, other ∈ ip :: ips ↔ other ∈ unstale limits a.now := by
          intro other
          rw [← heq, hperm.mem_iff, Std.ExtTreeMap.mem_keys]
        apply Eviction.oldest hsize
        . exact (hkeys _).mp holdest.1
        . intro other hother
          exact holdest.2 other ((hkeys other).mpr hother)
    . next hsize => exact .stale (by omega)
  . next hsize => exact .none (by omega)

variable {limits a}

theorem evictRateLimits_of_oldest {victim : Bytes} {old : RateLimitState} (hsize : rateLimitMapCap < limits.size)
    (hyoung : unstale limits a.now = limits) (hvictim : limits[victim]? = some old)
    (hold : ∀ (ip : Bytes) (rl : RateLimitState), ip ≠ victim → limits[ip]? = some rl →
      old.windowStart < rl.windowStart)
    : evictRateLimits limits a = limits.erase victim := by
  have hcases := evictRateLimits_cases limits a
  generalize evictRateLimits limits a = evicted at *
  cases hcases with
  | none hroom => omega
  | stale hroom =>
    rw [hyoung] at hroom
    omega
  | oldest hfull ip hmem hle =>
    rw [hyoung] at hmem hle ⊢
    have hip : ip = victim := by
      by_contra hip
      obtain ⟨rl, hrl⟩ := Option.isSome_iff_exists.mp (Std.ExtTreeMap.mem_iff_isSome_getElem?.mp hmem)
      have hle := hle victim (by simp [Std.ExtTreeMap.mem_iff_isSome_getElem?, hvictim])
      simp only [startOf, Std.ExtTreeMap.getD_eq_getD_getElem?, hrl, hvictim, Option.getD_some] at hle
      exact absurd hle (hold ip rl hip hrl).not_ge
    rw [hip]

variable (limits a)

theorem size_evictRateLimits_le_size : (evictRateLimits limits a).size ≤ limits.size := by
  have hunstale : (unstale limits a.now).size ≤ limits.size := Std.ExtTreeMap.size_filter_le_size
  have hcases := evictRateLimits_cases limits a
  generalize evictRateLimits limits a = evicted at *
  cases hcases with
  | none => exact le_rfl
  | stale => exact hunstale
  | oldest hsize ip => exact Std.ExtTreeMap.size_erase_le.trans hunstale

theorem size_evictRateLimits_le (h : limits.size ≤ rateLimitMapCap + 1)
    : (evictRateLimits limits a).size ≤ rateLimitMapCap := by
  have hunstale : (unstale limits a.now).size ≤ limits.size := Std.ExtTreeMap.size_filter_le_size
  have hcases := evictRateLimits_cases limits a
  generalize evictRateLimits limits a = evicted at *
  cases hcases with
  | none hsize => exact hsize
  | stale hsize => exact hsize
  | oldest hsize ip hmem hle =>
    rw [Std.ExtTreeMap.size_erase, if_pos (Std.ExtTreeMap.contains_iff_mem.mpr hmem)]
    omega

end Evict

def counted (m : PeerManager) (now : Time) (ip : Bytes) : RateLimitState :=
  let rl := m.rateLimits.getD ip {}
  let rl : RateLimitState := if 1000 ≤ milliseconds (now - rl.windowStart) then ⟨0, now⟩ else rl
  { rl with count := rl.count + 1 }

theorem checkRateLimit_eq (m : PeerManager) (a : Ambient) (ip : Bytes)
    : m.checkRateLimit a ip
        =
      let limits := m.rateLimits.insert ip (m.counted a.now ip)
      if rateLimitPerSec < (m.counted a.now ip).count then
        (false, { m with rateLimits := limits })
      else
        (true, { m with rateLimits := evictRateLimits limits a }) := by
  rfl

theorem fst_checkRateLimit (m : PeerManager) (a : Ambient) (ip : Bytes)
    : (m.checkRateLimit a ip).1 = decide ((m.counted a.now ip).count ≤ 100) := by
  rw [checkRateLimit_eq]
  unfold rateLimitPerSec
  split <;> simp <;> omega

theorem count_counted_of_notMem {m : PeerManager} {ip : Bytes} (now : Time) (h : ip ∉ m.rateLimits)
    : (m.counted now ip).count = 1 := by
  unfold counted
  rw [Std.ExtTreeMap.getD_eq_fallback h]
  dsimp only
  split <;> rfl

inductive RateCall where
  | checkRateLimit (a : Ambient) (ip : Bytes)
  | resetRateLimit (ip : Bytes)

def rateStep (m : PeerManager) (call : RateCall) : PeerManager :=
  match call with
  | .checkRateLimit a ip => (m.checkRateLimit a ip).2
  | .resetRateLimit ip => m.resetRateLimit ip

theorem size_rateLimits_checkRateLimit {m : PeerManager} (a : Ambient) (ip : Bytes)
    (h : m.rateLimits.size ≤ rateLimitMapCap)
    : (m.checkRateLimit a ip).2.rateLimits.size ≤ rateLimitMapCap := by
  rw [checkRateLimit_eq]
  dsimp only
  split
  . next hrefused =>
    have hmem : ip ∈ m.rateLimits := by
      apply Decidable.byContradiction
      intro hnew
      rw [count_counted_of_notMem a.now hnew] at hrefused
      exact absurd hrefused (by decide)
    dsimp only
    rw [Std.ExtTreeMap.size_insert, if_pos (Std.ExtTreeMap.contains_iff_mem.mpr hmem)]
    exact h
  . apply size_evictRateLimits_le
    have := Std.ExtTreeMap.size_insert_le (t := m.rateLimits) (k := ip) (v := m.counted a.now ip)
    omega

theorem size_rateLimits_checkRateLimit_le (m : PeerManager) (a : Ambient) (ip : Bytes)
    : (m.checkRateLimit a ip).2.rateLimits.size ≤ m.rateLimits.size + 1 := by
  have hinsert := Std.ExtTreeMap.size_insert_le (t := m.rateLimits) (k := ip) (v := m.counted a.now ip)
  rw [checkRateLimit_eq]
  dsimp only
  split
  . exact hinsert
  . exact (size_evictRateLimits_le_size _ a).trans hinsert

theorem always_size_rateLimits_le (m : PeerManager) (calls : List RateCall)
    : Run.Always rateStep (fun m => m.rateLimits.size ≤ rateLimitMapCap) { m with rateLimits := ∅ } calls := by
  apply Run.always_of_step
  . intro m call h
    cases call with
    | checkRateLimit a ip => exact size_rateLimits_checkRateLimit a ip h
    | resetRateLimit ip =>
      have := Std.ExtTreeMap.size_erase_le (t := m.rateLimits) (k := ip)
      exact this.trans h
  . exact Nat.zero_le rateLimitMapCap

def Over (limits : Map Bytes RateLimitState) (now : Int) (ip : Bytes) : Prop :=
  ∃ rl : RateLimitState, limits[ip]? = some rl ∧ 1000000000 ≤ now - rl.windowStart

section Evict

variable {limits : Map Bytes RateLimitState} {a : Ambient}

theorem getElem?_unstale (limits : Map Bytes RateLimitState) (now : Int) (ip : Bytes)
    : (unstale limits now)[ip]? = limits[ip]?
        ∨
      (unstale limits now)[ip]? = none ∧ Over limits now ip := by
  unfold unstale Over
  rw [Std.ExtTreeMap.getElem?_filter']
  cases limits[ip]? with
  | none => exact .inl rfl
  | some rl =>
    rw [Option.filter_some]
    split
    . exact .inl rfl
    . next hstale =>
      refine .inr ⟨rfl, rl, rfl, ?_⟩
      simp only [Bool.not_eq_true', decide_eq_false_iff_not, not_not] at hstale
      have hold : 31 ≤ seconds (now - rl.windowStart) := hstale
      rw [le_seconds_iff (by decide)] at hold
      omega

theorem unstale_eq_self_of_young {now : Int}
    (h : ∀ (ip : Bytes) (rl : RateLimitState), limits[ip]? = some rl → now - rl.windowStart < 31000000000)
    : unstale limits now = limits := by
  apply Std.ExtTreeMap.ext_getElem?
  intro ip
  unfold unstale
  rw [Std.ExtTreeMap.getElem?_filter']
  cases hrl : limits[ip]? with
  | none => rfl
  | some rl =>
    have hold := le_seconds_iff (w := 31) (d := now - rl.windowStart) (by decide)
    have hyoung := h ip rl hrl
    have hkept : ¬ rateLimitEvictSec < seconds (now - rl.windowStart) := by
      intro hstale
      have := hold.mp hstale
      omega
    simp [hkept]

theorem unstale_eq_self {now : Int} (hsize : limits.size ≤ rateLimitMapCap + 1)
    (hfull : rateLimitMapCap < (unstale limits now).size)
    : unstale limits now = limits := by
  have hle : (unstale limits now).size ≤ limits.size := Std.ExtTreeMap.size_filter_le_size
  have hsame : (unstale limits now).size = limits.size := by omega
  exact Std.ExtTreeMap.filter_eq_self_iff.mpr (Std.ExtTreeMap.size_filter_eq_size_iff.mp hsame)

theorem getElem?_evictRateLimits (hsize : limits.size ≤ rateLimitMapCap + 1)
    (hover : rateLimitMapCap < limits.size → ∃ ip, Over limits a.now ip) (ip : Bytes)
    : (evictRateLimits limits a)[ip]? = limits[ip]?
        ∨
      (evictRateLimits limits a)[ip]? = none ∧ Over limits a.now ip := by
  have hcases := evictRateLimits_cases limits a
  generalize evictRateLimits limits a = evicted at *
  cases hcases with
  | none => exact .inl rfl
  | stale => exact getElem?_unstale limits a.now ip
  | oldest hfull oldest hmem hle =>
    have hself := unstale_eq_self hsize hfull
    rw [hself] at hfull hmem hle ⊢
    rw [Std.ExtTreeMap.getElem?_erase]
    simp only [Std.compare_eq_iff_eq]
    by_cases heq : oldest = ip
    . rw [if_pos heq]
      subst heq
      -- it is at least as old as the one that is over
      obtain ⟨other, rl, hother, hstart⟩ := hover hfull
      have hold := hle other (by simp [Std.ExtTreeMap.mem_iff_isSome_getElem?, hother])
      obtain ⟨rl', hrl'⟩ := Option.isSome_iff_exists.mp (Std.ExtTreeMap.mem_iff_isSome_getElem?.mp hmem)
      simp only [startOf, Std.ExtTreeMap.getD_eq_getD_getElem?, hother, hrl', Option.getD_some] at hold
      exact .inr ⟨rfl, rl', hrl', by omega⟩
    . rw [if_neg heq]
      exact .inl rfl

end Evict

end PeerManager
end NeuroMesh
