import NeuroMesh.Common.Duration
import NeuroMesh.Consensus.PBFT.Lemmas.Advance
import NeuroMesh.Data.Run
import NeuroMesh.Data.SlidingWindow

/-!
This module contains the analysis of the rate limit of `advance_state` as a sliding window: what `m_rate_limits`
has for a sender are the times of the calls that passed in the window, although they are only compared in whole
seconds and only removed by the next call.
-/

namespace NeuroMesh

namespace PBFTConsensus

variable {C : IdentityCore}

def rateWindow (s : PBFTConsensus C) : Int :=
  s.rateWindowSec * 1000000000

structure Limits (s : PBFTConsensus C) : Prop where
  max_pos : 1 ≤ s.rateMax
  max_lt : s.rateMax < 2 ^ 31
  window_pos : 1 ≤ s.rateWindowSec

section Check

variable {s : PBFTConsensus C}

theorem Limits.sizeT_rateMax (h : s.Limits) : sizeT s.rateMax = s.rateMax.toNat := by
  obtain ⟨hpos, hlt, -⟩ := h
  unfold sizeT
  rw [Int.emod_eq_of_lt] <;> omega

theorem recentMessages_eq (h : s.Limits) (now : Time) (senderId : Bytes)
    : s.recentMessages now senderId
        =
      SlidingWindow.recent s.rateWindow now (s.rateLimits.getD senderId []) := by
  unfold recentMessages SlidingWindow.recent rateWindow
  apply List.filter_congr
  intro ts _
  have hiff := le_seconds_iff (d := now - ts) (Int.lt_of_lt_of_le Int.zero_lt_one h.window_pos)
  simp only [← decide_not, decide_eq_decide]
  omega

theorem checkRateLimit_eq (h : s.Limits) (now : Time) (senderId : Bytes)
    : s.checkRateLimit now senderId
        =
      let res := SlidingWindow.check s.rateWindow s.rateMax.toNat (s.rateLimits.getD senderId []) now
      (res.1, { s with rateLimits := s.rateLimits.insert senderId res.2 }) := by
  have hrecent := recentMessages_eq h now senderId
  unfold recentMessages at hrecent
  unfold checkRateLimit SlidingWindow.check
  simp only [hrecent, h.sizeT_rateMax]
  split <;> rfl

end Check

structure Metered (C : IdentityCore) where
  pbft : PBFTConsensus C
  passed : List (Bytes × Int) := []

namespace Metered

def check (l : Metered C) (call : Bytes × Int) : Metered C :=
  let (passes, pbft) := l.pbft.checkRateLimit call.2 call.1
  { pbft, passed := l.passed ++ if passes then [call] else [] }

def passedBy (l : Metered C) (senderId : Bytes) : List Int :=
  (l.passed.filter (·.1 = senderId)).map Prod.snd

def passesUpTo (l : Metered C) (senderId : Bytes) (start stop : Int) : Nat :=
  (l.passedBy senderId).countP fun t => start < t ∧ t ≤ stop

def passesBefore (l : Metered C) (senderId : Bytes) (start stop : Int) : Nat :=
  (l.passedBy senderId).countP fun t => start ≤ t ∧ t < stop

def Decides (l : Metered C) (call : Bytes × Int) : Prop :=
  (l.pbft.checkRateLimit call.2 call.1).1 = true
    ↔ l.passesUpTo call.1 (call.2 - l.pbft.rateWindow) call.2 < l.pbft.rateMax

structure Within (l : Metered C) : Prop where
  openClosed : ∀ (senderId : Bytes) (start : Int), l.passesUpTo senderId start (start + l.pbft.rateWindow) ≤ l.pbft.rateMax
  closedOpen : ∀ (senderId : Bytes) (start : Int), l.passesBefore senderId start (start + l.pbft.rateWindow) ≤ l.pbft.rateMax
  stored : ∀ senderId, (l.pbft.rateLimits.getD senderId []).length ≤ l.pbft.rateMax

structure Sound (l : Metered C) (now : Int) : Prop where
  limits : l.pbft.Limits
  sender : ∀ senderId, SlidingWindow.Sound l.pbft.rateWindow l.pbft.rateMax.toNat now
    (l.pbft.rateLimits.getD senderId []) (l.passedBy senderId)

variable {l : Metered C} {now : Int} {call : Bytes × Int}

theorem Sound.within (h : l.Sound now) : l.Within := by
  have hpos := h.limits.max_pos
  constructor
  . intro senderId start
    have hle := (h.sender senderId).window_le (fun t => start < t ∧ t ≤ start + l.pbft.rateWindow) (by
      simp only [decide_eq_true_eq]
      omega)
    unfold passesUpTo
    omega
  . intro senderId start
    have hle := (h.sender senderId).window_le (fun t => start ≤ t ∧ t < start + l.pbft.rateWindow) (by
      simp only [decide_eq_true_eq]
      omega)
    unfold passesBefore
    omega
  . intro senderId
    have hle := (h.sender senderId).length_le
    omega

theorem Sound.decides (h : l.Sound now) (hle : now ≤ call.2) : l.Decides call := by
  have hpos := h.limits.max_pos
  have hsender := h.sender call.1
  have hcount : l.passesUpTo call.1 (call.2 - l.pbft.rateWindow) call.2
      = (SlidingWindow.recent l.pbft.rateWindow call.2 (l.passedBy call.1)).length := by
    unfold passesUpTo SlidingWindow.recent
    rw [← List.countP_eq_length_filter]
    apply List.countP_congr
    intro t ht
    have := hsender.past t ht
    simp only [decide_eq_true_eq]
    omega
  unfold Decides
  rw [checkRateLimit_eq h.limits, hcount]
  dsimp only
  rw [hsender.check_eq_true_iff hle]
  omega

theorem passedBy_check (l : Metered C) (call : Bytes × Int) (senderId : Bytes)
    : (l.check call).passedBy senderId
        =
      l.passedBy senderId
        ++ if call.1 = senderId ∧ (l.pbft.checkRateLimit call.2 call.1).1 = true then [call.2] else [] := by
  unfold check passedBy
  dsimp only
  rw [List.filter_append, List.map_append]
  congr 1
  by_cases hsender : call.1 = senderId
  . split <;> simp_all
  . split <;> simp_all

theorem Sound.check (h : l.Sound now) (hle : now ≤ call.2) : (l.check call).Sound call.2 := by
  have heq := checkRateLimit_eq h.limits call.2 call.1
  have hpbft : (l.check call).pbft = (l.pbft.checkRateLimit call.2 call.1).2 := rfl
  rw [heq] at hpbft
  dsimp only at hpbft
  constructor
  . rw [hpbft]
    exact ⟨h.limits.max_pos, h.limits.max_lt, h.limits.window_pos⟩
  . intro senderId
    have hsender := h.sender senderId
    have hwindow : (l.check call).pbft.rateWindow = l.pbft.rateWindow := by
      rw [hpbft]
      rfl
    rw [passedBy_check, heq, hwindow, hpbft]
    dsimp only
    rw [Std.ExtTreeMap.getD_insert]
    simp only [Std.compare_eq_iff_eq]
    by_cases hsame : call.1 = senderId
    . subst hsame
      simpa using hsender.next hle
    . simpa [hsame] using hsender.mono hle

theorem Sound.run (h : l.Sound now) (calls : List (Bytes × Int))
    (horder : (now :: calls.map Prod.snd).IsChain (· ≤ ·))
    : Run.Along Metered.check Decides l calls ∧ Run.Always Metered.check Within l calls := by
  induction calls generalizing l now with
  | nil => exact ⟨trivial, h.within⟩
  | cons call calls ih =>
    rw [List.map_cons, List.isChain_cons_cons] at horder
    have hrest := ih (h.check horder.1) horder.2
    exact ⟨⟨h.decides horder.1, hrest.1⟩, h.within, hrest.2⟩

theorem rate_window (s : PBFTConsensus C) (hlimits : s.Limits) (hnew : s.rateLimits = ∅)
    (calls : List (Bytes × Int)) (horder : (calls.map Prod.snd).IsChain (· ≤ ·))
    : Run.Along Metered.check Decides { pbft := s } calls
        ∧
      Run.Always Metered.check Within { pbft := s } calls := by
  have hsound : ∀ now, Sound { pbft := s } now := by
    intro now
    refine ⟨hlimits, ?_⟩
    intro senderId
    rw [hnew]
    apply SlidingWindow.sound_nil
  cases calls with
  | nil => exact ⟨trivial, (hsound 0).within⟩
  | cons call calls =>
    apply (hsound call.2).run
    rw [List.map_cons, List.isChain_cons_cons]
    exact ⟨le_rfl, horder⟩

def sampleCalls : List (Bytes × Int) :=
  [(bytes "B", 0), (bytes "C", 500000000), (bytes "B", 1999999999), (bytes "B", 2000000000)]

theorem rate_window_sample
    : Run.Along Metered.check Decides { pbft := new .plain 4 (some (bytes "2")) (some (bytes "1")) } sampleCalls
        ∧
      Run.Always Metered.check Within { pbft := new .plain 4 (some (bytes "2")) (some (bytes "1")) }
        sampleCalls := by
  apply rate_window
  . constructor <;> decide
  . rfl
  . decide

end Metered
end PBFTConsensus
end NeuroMesh
