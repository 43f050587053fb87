import NeuroMesh.Common.Text
import NeuroMesh.Consensus.PeerManager.RateLimit
import NeuroMesh.Data.FixedWindow

namespace NeuroMesh

def RateLimitState.toCounter (rl : RateLimitState) : FixedWindow.Counter :=
  ⟨rl.count, rl.windowStart⟩

namespace PeerManager

theorem toCounter_counted (m : PeerManager) (now : Int) (ip : Bytes)
    : (m.counted now ip).toCounter
        =
      FixedWindow.bump
        (FixedWindow.current 1000000000 (m.rateLimits[ip]?.map RateLimitState.toCounter) now) := by
  have hget : (m.rateLimits[ip]?.map RateLimitState.toCounter).getD ⟨0, 0⟩
      = (m.rateLimits.getD ip {}).toCounter := by
    rw [Std.ExtTreeMap.getD_eq_getD_getElem?]
    cases m.rateLimits[ip]? <;> rfl
  unfold counted FixedWindow.bump FixedWindow.current
  rw [hget]
  generalize m.rateLimits.getD ip {} = rl
  have hms : 1000 ≤ milliseconds (now - rl.windowStart) ↔ 1000000000 ≤ now - rl.toCounter.start :=
    le_milliseconds_iff (by decide)
  by_cases hover : 1000000000 ≤ now - rl.toCounter.start
  . simp only [if_pos hover, if_pos (hms.mpr hover)]
    rfl
  . simp only [if_neg hover, if_neg (hms.not.mpr hover)]
    rfl

structure Gauged where
  manager : PeerManager
  windows : List (Bytes × Int) := []
  passed : List (Bytes × Int) := []

namespace Gauged

def check (g : Gauged) (call : Ambient × Bytes) : Gauged :=
  {
    manager := (g.manager.checkRateLimit call.1 call.2).2
    windows := (call.2, (g.manager.counted call.1.now call.2).windowStart) :: g.windows
    passed :=
      if (g.manager.checkRateLimit call.1 call.2).1 then (call.2, call.1.now) :: g.passed else g.passed
  }

def windowsOf (g : Gauged) (ip : Bytes) : List Int :=
  (g.windows.filter (·.1 = ip)).map Prod.snd

def passedBy (g : Gauged) (ip : Bytes) : List Int :=
  (g.passed.filter (·.1 = ip)).map Prod.snd

def Limited (g : Gauged) : Prop :=
  ∀ ip, ∀ start ∈ g.windowsOf ip,
    (FixedWindow.inWindow 1000000000 start (g.passedBy ip) : Int) ≤ rateLimitPerSec

def Roomy (g : Gauged) (call : Ambient × Bytes) : Prop :=
  rateLimitMapCap ≤ g.manager.rateLimits.size →
    call.2 ∈ g.manager.rateLimits ∨ ∃ ip, Over g.manager.rateLimits call.1.now ip

structure Sound (g : Gauged) (now : Int) : Prop where
  size_le : g.manager.rateLimits.size ≤ rateLimitMapCap
  address : ∀ ip, FixedWindow.Sound 1000000000 100 now
    (g.manager.rateLimits[ip]?.map RateLimitState.toCounter) (g.windowsOf ip) (g.passedBy ip)

variable {g : Gauged} {now : Int} {call : Ambient × Bytes}

theorem Sound.limited (h : g.Sound now) : g.Limited := by
  intro ip start hstart
  have hle := (h.address ip).limit start hstart
  change _ ≤ (100 : Int)
  omega

theorem not_over_counted (m : PeerManager) (now : Int) (ip : Bytes)
    : ¬ 1000000000 ≤ now - (m.counted now ip).windowStart := by
  have hms := le_milliseconds_iff (w := 1000) (d := now - (m.rateLimits.getD ip {}).windowStart) (by decide)
  unfold counted
  dsimp only
  split
  . dsimp only
    omega
  . omega

theorem Sound.counters (h : g.Sound now) (hroomy : g.Roomy call) (ip : Bytes)
    : (g.check call).manager.rateLimits[ip]?
          = (if call.2 = ip then some (g.manager.counted call.1.now call.2) else g.manager.rateLimits[ip]?)
        ∨
      call.2 ≠ ip ∧ (g.check call).manager.rateLimits[ip]? = none
        ∧ Over g.manager.rateLimits call.1.now ip := by
  obtain ⟨a, caller⟩ := call
  dsimp only at *
  have hinsert : ∀ ip, (g.manager.rateLimits.insert caller (g.manager.counted a.now caller))[ip]?
      = if caller = ip then some (g.manager.counted a.now caller) else g.manager.rateLimits[ip]? := by
    intro ip
    rw [Std.ExtTreeMap.getElem?_insert]
    simp only [Std.compare_eq_iff_eq]
  have hover : ∀ ip, Over (g.manager.rateLimits.insert caller (g.manager.counted a.now caller)) a.now ip
      ↔ caller ≠ ip ∧ Over g.manager.rateLimits a.now ip := by
    intro ip
    unfold Over
    rw [hinsert]
    by_cases heq : caller = ip
    . simpa [heq] using not_over_counted g.manager a.now ip
    . simp [heq]
  unfold check
  dsimp only
  rw [checkRateLimit_eq]
  dsimp only
  split
  . exact .inl (hinsert ip)
  . dsimp only
    have hsize := h.size_le
    rw [← hinsert]
    refine (getElem?_evictRateLimits ?_ ?_ ip).imp id fun hevicted => ?_
    . have := Std.ExtTreeMap.size_insert_le (t := g.manager.rateLimits) (k := caller)
        (v := g.manager.counted a.now caller)
      omega
    . intro hfull
      rw [Std.ExtTreeMap.size_insert] at hfull
      split at hfull
      . omega
      . next hnew =>
        rcases hroomy (by omega) with hmem | ⟨other, hother⟩
        . exact absurd (Std.ExtTreeMap.contains_iff_mem.mpr hmem) hnew
        . refine ⟨other, (hover other).mpr ⟨?_, hother⟩⟩
          rintro rfl
          obtain ⟨rl, hrl, -⟩ := hother
          simp [Std.ExtTreeMap.contains_eq_isSome_getElem?, hrl] at hnew
    . have := (hover ip).mp hevicted.2
      exact ⟨this.1, hevicted.1, this.2⟩

theorem windowsOf_check (g : Gauged) (call : Ambient × Bytes) (ip : Bytes)
    : (g.check call).windowsOf ip
        =
      if call.2 = ip then
        (g.manager.counted call.1.now call.2).toCounter.start :: g.windowsOf ip
      else
        g.windowsOf ip := by
  unfold windowsOf check
  rw [List.filter_cons]
  split <;> simp_all [RateLimitState.toCounter]

theorem passedBy_check (g : Gauged) (call : Ambient × Bytes) (ip : Bytes)
    : (g.check call).passedBy ip
        =
      if call.2 = ip ∧ (g.manager.counted call.1.now call.2).toCounter.count ≤ (100 : Nat) then
        call.1.now :: g.passedBy ip
      else
        g.passedBy ip := by
  have hcount : (g.manager.counted call.1.now call.2).toCounter.count
      = (g.manager.counted call.1.now call.2).count := rfl
  unfold passedBy check
  dsimp only
  rw [fst_checkRateLimit, hcount]
  by_cases hpasses : (g.manager.counted call.1.now call.2).count ≤ 100
  . by_cases hcaller : call.2 = ip
    . subst hcaller
      simp [hpasses]
    . simp [hpasses, hcaller]
  . simp [hpasses]

theorem Sound.check (h : g.Sound now) (hle : now ≤ call.1.now) (hroomy : g.Roomy call)
    : (g.check call).Sound call.1.now := by
  constructor
  . exact size_rateLimits_checkRateLimit call.1 call.2 h.size_le
  . intro ip
    have haddress := h.address ip
    have hcounters := h.counters hroomy ip
    rw [windowsOf_check, passedBy_check]
    by_cases hcaller : call.2 = ip
    . subst hcaller
      rw [if_pos rfl] at hcounters
      rw [hcounters.resolve_right (by simp)]
      have hnext := haddress.next hle (by decide)
      rw [← toCounter_counted] at hnext
      simpa using hnext
    . rw [if_neg hcaller] at hcounters
      simp only [hcaller, if_false, false_and]
      rcases hcounters with hkept | ⟨-, hnone, rl, hrl, hover⟩
      . rw [hkept]
        exact haddress.mono hle
      . rw [hrl] at haddress
        rw [hnone]
        apply (haddress.mono hle).forget (by decide)
        have hstart : rl.toCounter.start = rl.windowStart := rfl
        omega

theorem Sound.run (h : g.Sound now) (calls : List (Ambient × Bytes))
    (horder : (now :: calls.map (·.1.now)).IsChain (· ≤ ·)) (hroomy : Run.Along Gauged.check Roomy g calls)
    : Run.Always Gauged.check Limited g calls := by
  induction calls generalizing g now with
  | nil => exact h.limited
  | cons call calls ih =>
    rw [List.map_cons, List.isChain_cons_cons] at horder
    exact ⟨h.limited, ih (h.check horder.1 hroomy.1) horder.2 hroomy.2⟩

/--
The limit of an address survives the evictions of the others as long as no new address finds the table full of
windows that are all younger than 1000 ms.
-/
theorem always_limited (m : PeerManager) (calls : List (Ambient × Bytes))
    (horder : (calls.map (·.1.now)).IsChain (· ≤ ·))
    (hroomy : Run.Along Gauged.check Roomy { manager := { m with rateLimits := ∅ } } calls)
    : Run.Always Gauged.check Limited { manager := { m with rateLimits := ∅ } } calls := by
  have hsound : ∀ now, Sound { manager := { m with rateLimits := ∅ } } now := by
    intro now
    refine ⟨Nat.zero_le rateLimitMapCap, ?_⟩
    intro ip
    apply FixedWindow.sound_nil
  cases calls with
  | nil => exact (hsound 0).limited
  | cons call calls =>
    refine (hsound call.1.now).run _ ?_ hroomy
    rw [List.map_cons, List.isChain_cons_cons]
    exact ⟨le_rfl, horder⟩

def clock (now : Int) : Ambient :=
  ⟨now, id, List.Perm.refl⟩

section Flood

def flood (m n : Nat) (last : List (Ambient × Bytes)) : List (Ambient × Bytes) :=
  List.replicate m (clock 1000000000, bytes "A")
    ++ ((List.range n).map (fun i => (clock 1000000001, toDecimal i)) ++ last)

theorem isChain_flood (m n : Nat) (last : List (Ambient × Bytes))
    (h : ((1000000001 : Int) :: last.map (·.1.now)).Pairwise (· ≤ ·))
    : ((flood m n last).map (·.1.now)).IsChain (· ≤ ·) := by
  have htimes : (flood m n last).map (·.1.now)
      = List.replicate m (1000000000 : Int)
        ++ (List.replicate n (1000000001 : Int) ++ last.map (·.1.now)) := by
    unfold flood
    simp [clock, Function.comp_def]
  obtain ⟨hle, hlast⟩ := List.pairwise_cons.mp h
  rw [htimes]
  apply List.Pairwise.isChain
  simp only [List.pairwise_append, List.pairwise_replicate, List.mem_append, List.mem_replicate]
  refine ⟨by simp, ⟨by simp, hlast, ?_⟩, ?_⟩
  . rintro _ ⟨-, rfl⟩ time htime
    exact hle time htime
  . rintro _ ⟨-, rfl⟩ time (⟨-, rfl⟩ | htime)
    . decide
    . exact le_trans (by decide) (hle time htime)

variable {g : Gauged} {n : Nat}

theorem rateLimits_check_of_room (call : Ambient × Bytes)
    (hcount : (g.manager.counted call.1.now call.2).count ≤ 100)
    (hroom : (g.manager.rateLimits.insert call.2 (g.manager.counted call.1.now call.2)).size ≤ rateLimitMapCap)
    : (g.check call).manager.rateLimits
        =
      g.manager.rateLimits.insert call.2 (g.manager.counted call.1.now call.2) := by
  unfold check
  rw [checkRateLimit_eq, if_neg (by unfold rateLimitPerSec; omega)]
  dsimp only
  unfold evictRateLimits
  rw [if_neg (by omega)]

structure Flooded (n k : Nat) (g : Gauged) : Prop where
  size_eq : g.manager.rateLimits.size = k + 1
  victim : g.manager.rateLimits[bytes "A"]? = some ⟨n, 1000000000⟩
  others : ∀ (ip : Bytes) (rl : RateLimitState),
    ip ≠ bytes "A" → g.manager.rateLimits[ip]? = some rl → rl.windowStart = 1000000001
  unused : ∀ i, k ≤ i → toDecimal i ∉ g.manager.rateLimits
  inWindow_eq : FixedWindow.inWindow 1000000000 1000000000 (g.passedBy (bytes "A")) = n
  window_mem : 1000000000 ∈ g.windowsOf (bytes "A")

theorem toDecimal_ne_victim (i : Nat) : toDecimal i ≠ bytes "A" := by
  intro heq
  have hdigit : isDigit 0x41 = true := by
    apply isDigit_of_mem_toDecimal (n := i)
    rw [heq]
    decide
  exact absurd hdigit (by decide)

theorem counted_of_notMem {m : PeerManager} {ip : Bytes} {now : Int} (hnow : 1000000000 ≤ now)
    (h : ip ∉ m.rateLimits)
    : m.counted now ip = ⟨1, now⟩ := by
  have hms := le_milliseconds_iff (w := 1000) (d := now - 0) (by decide)
  unfold counted
  rw [Std.ExtTreeMap.getD_eq_fallback h]
  dsimp only
  rw [if_pos (hms.mpr (by omega))]
  rfl

theorem flooded_first : Flooded 1 0 (check { manager := {} } (clock 1000000000, bytes "A")) := by
  have hcounted : counted {} (clock 1000000000).now (bytes "A") = ⟨1, 1000000000⟩ := by
    exact counted_of_notMem (by decide) (by simp)
  have hlimits := rateLimits_check_of_room (g := { manager := {} }) (clock 1000000000, bytes "A")
    (by decide) (by decide)
  dsimp only at hlimits
  rw [hcounted] at hlimits
  refine ⟨?_, ?_, ?_, ?_, by decide, by decide⟩
  . rw [hlimits]
    rfl
  . rw [hlimits, Std.ExtTreeMap.getElem?_insert_self]
    rfl
  . intro ip rl hip hrl
    rw [hlimits, Std.ExtTreeMap.getElem?_insert] at hrl
    simp [Ne.symm hip] at hrl
  . intro i _
    rw [hlimits, Std.ExtTreeMap.mem_insert]
    simp [Ne.symm (toDecimal_ne_victim i)]

theorem Flooded.again (h : Flooded n 0 g) (hn : n < 100)
    : Flooded (n + 1) 0 (g.check (clock 1000000000, bytes "A")) := by
  have hmem : bytes "A" ∈ g.manager.rateLimits := by
    simp [Std.ExtTreeMap.mem_iff_isSome_getElem?, h.victim]
  have hcounted : g.manager.counted (clock 1000000000).now (bytes "A") = ⟨n + 1, 1000000000⟩ := by
    unfold counted
    rw [Std.ExtTreeMap.getD_eq_getD_getElem?, h.victim]
    rfl
  have hsize : ∀ rl, (g.manager.rateLimits.insert (bytes "A") rl).size = 1 := by
    intro rl
    rw [Std.ExtTreeMap.size_insert, if_pos (Std.ExtTreeMap.contains_iff_mem.mpr hmem), h.size_eq]
  have hlimits := rateLimits_check_of_room (g := g) (clock 1000000000, bytes "A")
    (by rw [hcounted]; dsimp only; omega) (by rw [hsize]; decide)
  dsimp only at hlimits
  rw [hcounted] at hlimits
  constructor
  . rw [hlimits, hsize]
  . rw [hlimits, Std.ExtTreeMap.getElem?_insert_self]
    rfl
  . intro ip rl hip hrl
    rw [hlimits, Std.ExtTreeMap.getElem?_insert] at hrl
    simp only [Std.compare_eq_iff_eq, if_neg (Ne.symm hip)] at hrl
    exact h.others ip rl hip hrl
  . intro i hi
    rw [hlimits, Std.ExtTreeMap.mem_insert]
    simpa [Ne.symm (toDecimal_ne_victim i)] using h.unused i hi
  . rw [passedBy_check, if_pos, FixedWindow.inWindow_cons, h.inWindow_eq]
    . rfl
    . rw [hcounted]
      refine ⟨rfl, ?_⟩
      change (n : Int) + 1 ≤ 100
      omega
  . rw [windowsOf_check, if_pos rfl, hcounted]
    exact List.mem_cons_self

theorem Flooded.other {k : Nat} (h : Flooded n k g) (hk : k + 1 < rateLimitMapCap)
    : Flooded n (k + 1) (g.check (clock 1000000001, toDecimal k)) := by
  have hnew := h.unused k le_rfl
  have hne := toDecimal_ne_victim k
  have hcounted : g.manager.counted (clock 1000000001).now (toDecimal k) = ⟨1, 1000000001⟩ :=
    counted_of_notMem (by decide) hnew
  have hsize : ∀ rl, (g.manager.rateLimits.insert (toDecimal k) rl).size = k + 1 + 1 := by
    intro rl
    rw [Std.ExtTreeMap.size_insert, if_neg (by simpa using hnew), h.size_eq]
  have hlimits := rateLimits_check_of_room (g := g) (clock 1000000001, toDecimal k)
    (by rw [hcounted]; decide) (by rw [hsize]; omega)
  dsimp only at hlimits
  rw [hcounted] at hlimits
  constructor
  . rw [hlimits, hsize]
  . rw [hlimits, Std.ExtTreeMap.getElem?_insert]
    simpa only [Std.compare_eq_iff_eq, if_neg hne] using h.victim
  . intro ip rl hip hrl
    rw [hlimits, Std.ExtTreeMap.getElem?_insert] at hrl
    simp only [Std.compare_eq_iff_eq] at hrl
    split at hrl
    . cases hrl
      rfl
    . exact h.others ip rl hip hrl
  . intro i hi
    rw [hlimits, Std.ExtTreeMap.mem_insert]
    have hik : toDecimal k ≠ toDecimal i := by
      intro heq
      have := toDecimal_injective heq
      omega
    simpa [hik] using h.unused i (by omega)
  . rw [passedBy_check, if_neg (fun hand => hne hand.1)]
    exact h.inWindow_eq
  . rw [windowsOf_check, if_neg hne]
    exact h.window_mem

theorem Flooded.evict {k : Nat} (h : Flooded n k g) (hk : k + 1 = rateLimitMapCap) (now : Int)
    (hnow : 1000000001 ≤ now) (hyoung : now < 32000000000)
    : (g.check (clock now, toDecimal k)).manager.rateLimits
        =
      (g.manager.rateLimits.insert (toDecimal k) ⟨1, now⟩).erase (bytes "A") := by
  have hnew := h.unused k le_rfl
  have hne := toDecimal_ne_victim k
  have hcounted : g.manager.counted (clock now).now (toDecimal k) = ⟨1, now⟩ :=
    counted_of_notMem (by change _ ≤ now; omega) hnew
  unfold check
  rw [checkRateLimit_eq]
  dsimp only
  rw [hcounted, if_neg (by change ¬ (100 : Int) < 1; decide)]
  dsimp only
  generalize hlimits : g.manager.rateLimits.insert (toDecimal k) ⟨1, now⟩ = limits
  have hget : ∀ ip, limits[ip]? = if toDecimal k = ip then some ⟨1, now⟩ else g.manager.rateLimits[ip]? := by
    intro ip
    rw [← hlimits, Std.ExtTreeMap.getElem?_insert]
    simp only [Std.compare_eq_iff_eq]
  have hvictim : limits[bytes "A"]? = some ⟨n, 1000000000⟩ := by
    rw [hget, if_neg hne, h.victim]
  have hstart : ∀ (ip : Bytes) (rl : RateLimitState), ip ≠ bytes "A" → limits[ip]? = some rl →
      (1000000001 : Int) ≤ rl.windowStart := by
    intro ip rl hip hrl
    rw [hget] at hrl
    split at hrl
    . cases hrl
      exact hnow
    . rw [h.others ip rl hip hrl]
  have hsize : limits.size = rateLimitMapCap + 1 := by
    rw [← hlimits, Std.ExtTreeMap.size_insert, if_neg (by simpa using hnew), h.size_eq, hk]
  have hunstale : unstale limits now = limits := by
    apply unstale_eq_self_of_young
    intro ip rl hrl
    by_cases hip : ip = bytes "A"
    . rw [hip, hvictim] at hrl
      cases hrl
      dsimp only
      omega
    . have := hstart ip rl hip hrl
      omega
  apply evictRateLimits_of_oldest (a := clock now) (by omega) hunstale hvictim
  intro ip rl hip hrl
  have := hstart ip rl hip hrl
  change (1000000000 : Int) < rl.windowStart
  omega

theorem flooded_replicate (hn : n < 100)
    : Flooded (n + 1) 0
        ((List.replicate (n + 1) (clock 1000000000, bytes "A")).foldl check { manager := {} }) := by
  induction n with
  | zero => exact flooded_first
  | succ n ih =>
    rw [List.replicate_succ', List.foldl_append]
    exact (ih (by omega)).again hn

theorem flooded_range {k : Nat} (h : Flooded n 0 g) (hk : k < rateLimitMapCap)
    : Flooded n k
        (((List.range k).map (fun i => (clock 1000000001, toDecimal i))).foldl check g) := by
  induction k with
  | zero => exact h
  | succ k ih =>
    rw [List.range_succ, List.map_append, List.foldl_append]
    exact (ih (by omega)).other hk

theorem flooded_flood : Flooded 100 4095 ((flood 100 4095 []).foldl check { manager := {} }) := by
  unfold flood
  rw [List.append_nil, List.foldl_append]
  exact flooded_range (flooded_replicate (by decide)) (by decide)

theorem foldl_flood (m n : Nat) (last : List (Ambient × Bytes))
    : (flood m n last).foldl check { manager := {} }
        =
      last.foldl check ((flood m n []).foldl check { manager := {} }) := by
  unfold flood
  rw [← List.foldl_append, List.append_nil, List.append_assoc]

theorem along_roomy_of_length (calls : List (Ambient × Bytes))
    (h : g.manager.rateLimits.size + calls.length ≤ rateLimitMapCap)
    : Run.Along check Roomy g calls := by
  induction calls generalizing g with
  | nil => trivial
  | cons call calls ih =>
    rw [List.length_cons] at h
    refine ⟨fun hfull => by omega, ih ?_⟩
    have hsize := size_rateLimits_checkRateLimit_le g.manager call.1 call.2
    change (g.manager.checkRateLimit call.1 call.2).2.rateLimits.size + _ ≤ _
    omega

theorem along_roomy_flood {m : Nat} (hm : m < 100) (hn : n < rateLimitMapCap) {last : List (Ambient × Bytes)}
    (h : Run.Along check Roomy ((flood (m + 1) n []).foldl check { manager := {} }) last)
    : Run.Along check Roomy { manager := {} } (flood (m + 1) n last) := by
  unfold flood at h ⊢
  rw [List.append_nil, List.foldl_append] at h
  rw [Run.along_append, Run.along_append]
  refine ⟨along_roomy_of_length _ ?_, along_roomy_of_length _ ?_, h⟩
  . rw [List.length_replicate]
    exact le_trans (Nat.add_le_add_left hm _) (by decide)
  . rw [(flooded_replicate hm).size_eq, List.length_map, List.length_range]
    omega

/--
The window of the first address is 1000 ms old when it is evicted, and so is the next one.
-/
theorem always_limited_flood
    : bytes "A" ∉ ((flood 100 4095 [(clock 2000000000, toDecimal 4095)]).foldl check { manager := {} }).manager.rateLimits
        ∧
      Run.Always Gauged.check Limited { manager := {} }
        (flood 100 4095 [(clock 2000000000, toDecimal 4095), (clock 3000000000, bytes "A")]) := by
  have hflooded := flooded_flood
  have hevicted := hflooded.evict rfl 2000000000 (by decide) (by decide)
  constructor
  . rw [foldl_flood]
    change bytes "A" ∉ (check _ _).manager.rateLimits
    rw [hevicted]
    simp
  . have hlast : Run.Along check Roomy ((flood 100 4095 []).foldl check { manager := {} })
        [(clock 2000000000, toDecimal 4095), (clock 3000000000, bytes "A")] := by
      refine ⟨fun _ => .inr ⟨bytes "A", _, hflooded.victim, by decide⟩, fun _ => .inr ?_, trivial⟩
      rw [hevicted]
      refine ⟨toDecimal 4095, ⟨1, 2000000000⟩, ?_, by decide⟩
      rw [Std.ExtTreeMap.getElem?_erase, if_neg, Std.ExtTreeMap.getElem?_insert_self]
      simpa using (toDecimal_ne_victim 4095).symm
    have hroomy := along_roomy_flood (m := 99) (by decide) (by decide) hlast
    exact always_limited {} _ (isChain_flood 100 4095 _ (by decide)) hroomy

/--
The first address gets 100 calls through, is evicted by the other ones and gets another call through in the same
window.
-/
theorem not_forall_always_limited
    : ¬ ∀ calls : List (Ambient × Bytes), (calls.map (·.1.now)).IsChain (· ≤ ·) →
        Run.Always Gauged.check Limited { manager := {} } calls := by
  intro h
  have hlimited := Run.foldl_of_always (h _ (isChain_flood 100 4095
    [(clock 1000000001, toDecimal 4095), (clock 1000000002, bytes "A")] (by decide)))
  rw [foldl_flood] at hlimited
  have hflooded := flooded_flood
  generalize (flood 100 4095 []).foldl check _ = g at *
  have hevicted : bytes "A" ∉ (g.check (clock 1000000001, toDecimal 4095)).manager.rateLimits := by
    rw [hflooded.evict rfl _ (by decide) (by decide)]
    simp
  have hne := toDecimal_ne_victim 4095
  have hwindow : 1000000000 ∈ (g.check (clock 1000000001, toDecimal 4095)).windowsOf (bytes "A") := by
    rw [windowsOf_check, if_neg hne]
    exact hflooded.window_mem
  have hpassed : FixedWindow.inWindow 1000000000 1000000000
      ((g.check (clock 1000000001, toDecimal 4095)).passedBy (bytes "A")) = 100 := by
    rw [passedBy_check, if_neg (fun hand => hne hand.1)]
    exact hflooded.inWindow_eq
  change Limited ((g.check (clock 1000000001, toDecimal 4095)).check (clock 1000000002, bytes "A")) at hlimited
  generalize g.check (clock 1000000001, toDecimal 4095) = g at *
  have hcounted : g.manager.counted (clock 1000000002).now (bytes "A") = ⟨1, 1000000002⟩ :=
    counted_of_notMem (by decide) hevicted
  have hle := hlimited (bytes "A") 1000000000 (by
    rw [windowsOf_check, if_pos rfl]
    exact List.mem_cons_of_mem _ hwindow)
  rw [passedBy_check, hcounted, if_pos ⟨rfl, by decide⟩, FixedWindow.inWindow_cons, hpassed] at hle
  exact absurd hle (by decide)

end Flood

end Gauged
end PeerManager
end NeuroMesh
