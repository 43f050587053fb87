import NeuroMesh.Consensus.PBFT.Lemmas.Chain
import NeuroMesh.Consensus.PBFT.Lemmas.Follow
import NeuroMesh.Consensus.PBFT.Lemmas.Replay
import NeuroMesh.Consensus.PBFT.Lemmas.VoteRegistry

/-!
This module contains the analysis of the deduplication of messages. The set of the hashes that have been
seen is bounded, so the hashes that it has lost are recorded next to it.
-/

namespace NeuroMesh
namespace PBFTConsensus

variable {C : IdentityCore}

def recordedHash (s : PBFTConsensus C) (call : Call C) : Option Bytes :=
  match call.op with
  | .advanceState msg => if s.records call msg then some (computeMessageHash C msg) else none
  | _ => none

def erasedHashes (s : PBFTConsensus C) (call : Call C) : List Bytes :=
  match call.op with
  | .advanceState msg =>
    if (s.mayVote call.ambient msg).1 then
      (s.seenMessages.insert (computeMessageHash C msg)).toList.filter (· ∉ (s.step call).seenMessages)
    else
      []
  | _ => []

structure Watched (C : IdentityCore) where
  pbft : PBFTConsensus C
  voted : List Bytes := []
  erased : List Bytes := []

namespace Watched

def step (w : Watched C) (call : Call C) : Watched C :=
  {
    pbft := w.pbft.step call
    voted := (w.pbft.recordedHash call).toList ++ w.voted
    erased := w.pbft.erasedHashes call ++ w.erased
  }

def Remembers (w : Watched C) (call : Call C) : Prop :=
  ∀ msg, call.op = .advanceState msg → computeMessageHash C msg ∉ w.erased

structure Invariant (w : Watched C) : Prop where
  known : ∀ hash ∈ w.voted, hash ∈ w.pbft.seenMessages ∨ hash ∈ w.erased
  nodup : w.voted.Nodup

end Watched

section Seen

variable {s : PBFTConsensus C} {a : Ambient} {msg : P2PMessage} {call : Call C}

theorem mem_seenMessages_or_mem_erasedHashes {hash : Bytes} (h : hash ∈ s.seenMessages)
    : hash ∈ (s.step call).seenMessages ∨ hash ∈ s.erasedHashes call := by
  by_cases hop : ∀ msg, call.op ≠ .advanceState msg
  . rw [seenMessages_step_of_ne_advanceState hop]
    exact .inl h
  . push Not at hop
    obtain ⟨a, op⟩ := call
    obtain ⟨msg, rfl⟩ := hop
    by_cases hadmits : s.Admits a msg
    . by_cases hmem : hash ∈ (s.step ⟨a, .advanceState msg⟩).seenMessages
      . exact .inl hmem
      . right
        unfold erasedHashes
        simp [(s.mayVote_eq_true_iff a msg).mpr hadmits, hmem, h]
    . left
      change hash ∈ (s.advanceState a msg).2.seenMessages
      rwa [seenMessages_advanceState_of_not_admits hadmits]

theorem mem_seenMessages_or_mem_erasedHashes_of_admits (hadmits : s.Admits a msg)
    : computeMessageHash C msg ∈ (s.step ⟨a, .advanceState msg⟩).seenMessages
        ∨
      computeMessageHash C msg ∈ s.erasedHashes ⟨a, .advanceState msg⟩ := by
  by_cases hmem : computeMessageHash C msg ∈ (s.step ⟨a, .advanceState msg⟩).seenMessages
  . exact .inl hmem
  . right
    unfold erasedHashes
    simp [(s.mayVote_eq_true_iff a msg).mpr hadmits, hmem]

theorem admits_of_records (h : s.records ⟨a, .advanceState msg⟩ msg = true) : s.Admits a msg := by
  rw [← mayVote_eq_true_iff]
  unfold records at h
  rw [Bool.and_eq_true] at h
  exact h.1

theorem recordedHash_eq_some_iff {hash : Bytes}
    : s.recordedHash call = some hash
        ↔
      ∃ msg, call.op = .advanceState msg ∧ s.records call msg = true ∧ computeMessageHash C msg = hash := by
  obtain ⟨a, op⟩ := call
  cases op with
  | advanceState msg => simp [recordedHash]
  | _ => simp [recordedHash]

end Seen

namespace Watched

variable {w : Watched C} {call : Call C}

namespace Invariant

theorem known_step (h : w.Invariant) : ∀ hash ∈ (w.step call).voted,
    hash ∈ (w.step call).pbft.seenMessages ∨ hash ∈ (w.step call).erased := by
  intro hash hmem
  have hnow : hash ∈ (w.pbft.step call).seenMessages ∨ hash ∈ w.pbft.erasedHashes call ∨ hash ∈ w.erased := by
    rcases List.mem_append.mp hmem with hnew | hold
    . rw [Option.mem_toList, recordedHash_eq_some_iff] at hnew
      obtain ⟨msg, hop, hrecords, rfl⟩ := hnew
      obtain ⟨a, op⟩ := call
      cases hop
      rcases mem_seenMessages_or_mem_erasedHashes_of_admits (admits_of_records hrecords) with hseen | herased
      . exact .inl hseen
      . exact .inr (.inl herased)
    . rcases h.known hash hold with hseen | herased
      . have hnext : hash ∈ (w.pbft.step call).seenMessages ∨ hash ∈ w.pbft.erasedHashes call :=
          mem_seenMessages_or_mem_erasedHashes hseen
        rcases hnext with hseen | herased
        . exact .inl hseen
        . exact .inr (.inl herased)
      . exact .inr (.inr herased)
  rcases hnow with hseen | herased | herased
  . exact .inl hseen
  . exact .inr (List.mem_append_left _ herased)
  . exact .inr (List.mem_append_right _ herased)

theorem nodup_step (h : w.Invariant) (hremembers : w.Remembers call) : (w.step call).voted.Nodup := by
  change ((w.pbft.recordedHash call).toList ++ w.voted).Nodup
  cases hhash : w.pbft.recordedHash call with
  | none => exact h.nodup
  | some hash =>
    rw [recordedHash_eq_some_iff] at hhash
    obtain ⟨msg, hop, hrecords, rfl⟩ := hhash
    refine List.nodup_cons.mpr ⟨?_, h.nodup⟩
    intro hvoted
    rcases h.known _ hvoted with hseen | herased
    . obtain ⟨a, op⟩ := call
      cases hop
      exact (admits_of_records hrecords).unseen hseen
    . exact hremembers msg hop herased

end Invariant

theorem always_nodup_of_remembers (totalNodes : Int) (windowEnv maxEnv : Option Bytes) (calls : List (Call C))
    (h : Run.Along step Remembers { pbft := new C totalNodes windowEnv maxEnv } calls)
    : Run.Always step (fun w => w.voted.Nodup) { pbft := new C totalNodes windowEnv maxEnv } calls := by
  apply Run.always_of_invariant (I := Invariant) _ _ _ h
  . intro w call hinv hremembers
    exact ⟨hinv.known_step, hinv.nodup_step hremembers⟩
  . intro w hinv
    exact hinv.nodup
  . exact ⟨nofun, List.nodup_nil⟩

theorem always_nodup_decision
    : let calls := Traced.handing (Traced.decision ++ Traced.decision)
      let w : Watched .plain := { pbft := new .plain 4 none none }
      Run.Along step Remembers w calls ∧ Run.Always step (fun w => w.voted.Nodup) w calls := by
  intro calls w
  have hnone : Run.Along step (fun w _ => w.erased = []) w calls := by
    decide +kernel
  have h : Run.Along step Remembers w calls := by
    apply Run.along_mono _ hnone
    intro w call hnil msg _
    rw [hnil]
    exact List.not_mem_nil
  exact ⟨h, always_nodup_of_remembers _ _ _ _ h⟩

section Flood

/--
The bucket of `hash` is the first one, whenever the set has it.
-/
def startingAt (hash : Bytes) (now : Time) : Ambient where
  now := now
  bucketOrder keys := if hash ∈ keys then hash :: keys.erase hash else keys
  bucketOrder_perm keys := by
    split
    . next hmem => exact (List.perm_cons_erase hmem).symm
    . exact List.Perm.refl _

def handOver (hash : Bytes) (now : Time) (k : Nat) : List (Call .plain) :=
  [⟨startingAt hash now, .verifyMessage (sampleChain k)⟩, ⟨startingAt hash now, .advanceState (sampleChain k)⟩]

def flood (hash : Bytes) (n : Nat) : List (Call .plain) :=
  match n with
  | 0 => [⟨startingAt hash 0, .registerPeerKey (bytes "B") (bytes "B")⟩]
  | n + 1 => flood hash n ++ handOver hash 0 (n + 1)

def floodStart : Watched .plain :=
  { pbft := new .plain 4 none (some (bytes "1000000")) }

def HandsVerified (w : Watched C) (call : Call C) : Prop :=
  ∀ msg, call.op = .advanceState msg → (w.pbft.verifyMessage call.ambient.now msg).1 = true

structure Flooded (times : Set Time) (n : Nat) (w : Watched .plain) : Prop where
  tracks : sampleSender.Tracks (if n = 0 then none else some n) w.pbft
  rateMax_eq : w.pbft.rateMax = 1000000
  recent_le : (w.pbft.rateLimits.getD (bytes "B") []).length ≤ n
  tracked : w.pbft.Tracked fun _ time => time ∈ times

theorem mem_voteRegistry_of_mem_voters {s : PBFTConsensus C} {key stage voter : Bytes}
    (h : voter ∈ s.voters key stage)
    : key ∈ s.voteRegistry := by
  unfold voters at h
  simp only [Std.ExtTreeMap.getD_eq_getD_getElem?] at h
  rw [Std.ExtTreeMap.mem_iff_isSome_getElem?]
  cases hmap : s.voteRegistry[key]? with
  | none => simp [hmap] at h
  | some stageMap => rfl

theorem records_of_tracked {s : PBFTConsensus C} {a : Ambient} {msg : P2PMessage} {P : Time → Prop}
    (hadmits : s.Admits a msg) (htracked : s.Tracked fun _ => P)
    (hold : ∀ time, P time → roundTtlSec < seconds (a.now - time))
    : s.records ⟨a, .advanceState msg⟩ msg = true := by
  rw [records_iff hadmits, voters_mayVote hadmits]
  split
  . apply Finset.notMem_empty
  . next hexpired =>
    intro hmem
    obtain ⟨round, hround, htime⟩ := htracked.voted _ (mem_voteRegistry_of_mem_voters hmem)
    apply hexpired
    simp [hround, ConsensusRound.expired, hold _ htime]

namespace Flooded

variable {times : Set Time} {n : Nat} {w : Watched .plain} {msg : P2PMessage} {hash : Bytes} {now : Time}

theorem mono {times' : Set Time} (h : Flooded times n w) (hsubset : times ⊆ times') : Flooded times' n w := by
  refine ⟨h.tracks, h.rateMax_eq, h.recent_le, ?_, ?_⟩
  . intro key hkey
    obtain ⟨round, hround, htime⟩ := h.tracked.voted key hkey
    exact ⟨round, hround, hsubset htime⟩
  . intro key round hround hstate
    exact hsubset (h.tracked.started key round hround hstate)

theorem withinRate (h : Flooded times n w) (hn : n < 1000000) (now : Time)
    : (w.pbft.checkRateLimit now (bytes "B")).1 = true := by
  have hlength : (w.pbft.recentMessages now (bytes "B")).length ≤ _ := List.length_filter_le _ _
  have hle := h.recent_le
  rw [fst_checkRateLimit, h.rateMax_eq, decide_eq_true_eq]
  have hsize : sizeT 1000000 = 1000000 := by decide
  omega

theorem verifies (h : Flooded times n w) (hn : n < 1000000) : w.pbft.Verifies (sampleChain (n + 1)) := by
  have htracks := h.tracks
  split at htracks
  . next hzero => exact htracks.verifies_first (show 1 ≤ n + 1 by omega)
  . next hpos =>
    change w.pbft.Verifies (sampleSender.message (n + 1))
    rw [htracks.verifies_next_iff IdentityCore.plain_collisionFree IdentityCore.plain_hexDigest
      (show 1 ≤ n by omega) (by omega) (by omega)]
    omega

theorem admits (h : Flooded times n w) (hn : n < 1000000) (hash : Bytes) (now : Time)
    : (w.pbft.recordSuccess (bytes "B")).Admits (startingAt hash now) (sampleChain (n + 1)) := by
  have hvalid := h.verifies hn
  rw [admits_recordSuccess_iff]
  refine ⟨hvalid.notBanned, hvalid.known, h.withinRate hn _, ?_⟩
  apply h.tracks.unseen (n + 1) (show 1 ≤ n + 1 by omega) (by omega)
  intro i hi
  split at hi
  . contradiction
  . cases hi
    omega

theorem foldl_handOver {k : Nat} (h : w.pbft.Verifies (sampleChain (k + 1)))
    : (handOver hash now (k + 1)).foldl step w
        =
      ({ w with pbft := w.pbft.recordSuccess (bytes "B") } : Watched .plain).step
        ⟨startingAt hash now, .advanceState (sampleChain (k + 1))⟩ := by
  have hstep : w.step ⟨startingAt hash now, .verifyMessage (sampleChain (k + 1))⟩
      = { w with pbft := w.pbft.recordSuccess (bytes "B") } := by
    change ({ w with pbft := (w.pbft.verifyMessage now (sampleChain (k + 1))).2 } : Watched .plain) = _
    rw [verifyMessage_of_verifies h]
    rfl
  rw [handOver, List.foldl_cons, hstep]
  rfl

theorem along_handOver {k : Nat} (h : w.pbft.Verifies (sampleChain k))
    : Run.Along step HandsVerified w (handOver hash now k) := by
  refine ⟨nofun, ?_, trivial⟩
  rintro _ ⟨⟩
  change ((w.pbft.verifyMessage now (sampleChain k)).2.verifyMessage now (sampleChain k)).1 = true
  rw [verifyMessage_of_verifies h, verifyMessage_eq_true_iff]
  exact ⟨h.notBanned, h.known, h.signed, h.chained, h.continuous⟩

theorem next (h : Flooded times n w) (hn : n < 1000000) (hash : Bytes) (hnow : now ∈ times)
    : Flooded times (n + 1) ((handOver hash now (n + 1)).foldl step w) := by
  have hvalid : w.pbft.Verifies (sampleSender.message (n + 1)) := h.verifies hn
  have hadmits := h.admits hn hash now
  rw [foldl_handOver hvalid]
  constructor
  . rw [if_neg (by omega)]
    have hdeliver : sampleSender.Tracks (some (n + 1))
        (w.pbft.receive now (startingAt hash now) (sampleSender.message (n + 1))).2 := by
      apply h.tracks.deliver IdentityCore.plain_collisionFree _ _ hvalid
      . exact ⟨show 1 ≤ n + 1 by omega, by omega, h.withinRate hn _⟩
      . intro i hi
        split at hi
        . contradiction
        . cases hi
          omega
    rw [receive_of_verifies hvalid] at hdeliver
    exact hdeliver
  . exact (rate_advanceState hadmits).1.trans h.rateMax_eq
  . have hle := (rate_advanceState hadmits).2 (bytes "B")
    rw [if_pos (show (sampleChain (n + 1)).senderId = bytes "B" from rfl)] at hle
    exact hle.trans (Nat.add_le_add_right h.recent_le 1)
  . apply tracked_advanceState
    . exact ⟨h.tracked.voted, h.tracked.started⟩
    . exact hnow

theorem seenMessages_handOver (h : Flooded times n w) (hn : n < 1000000) (hash : Bytes) (now : Time)
    : ((handOver hash now (n + 1)).foldl step w).pbft.seenMessages
        =
      seenWith (startingAt hash now) w.pbft.seenMessages (computeMessageHash .plain (sampleChain (n + 1))) := by
  rw [foldl_handOver (h.verifies hn)]
  exact seenMessages_advanceState_of_admits (h.admits hn hash now)

theorem notMem_seenMessages (h : Flooded times n w) (hn : n < 1000000)
    : computeMessageHash .plain (sampleChain (n + 1)) ∉ w.pbft.seenMessages := by
  exact (h.admits hn [] 0).unseen

theorem getElem?_history_handOver (h : Flooded times n w) (hpos : 0 < n) (hn : n < 1000000) (hash : Bytes)
    (now : Time)
    : (((handOver hash now (n + 1)).foldl step w).pbft.historyOf (bytes "B"))[UInt64.ofNat n]?
        = some (computeMessageHash .plain (sampleChain n)) := by
  have htracks := h.tracks
  rw [if_neg (by omega)] at htracks
  have hends : EndsAt (w.pbft.historyOf (bytes "B")) (UInt64.ofNat n) _ := htracks.history
  rw [foldl_handOver (h.verifies hn)]
  change (((w.pbft.recordSuccess (bytes "B")).advanceState _ _).2.historyOf _)[_]? = _
  rw [historyOf_advanceState (h.admits hn hash now), if_pos (show (sampleChain (n + 1)).senderId = bytes "B" from rfl)]
  apply getElem?_evictHistory
  . -- only the new message comes after it
    have hnew : ∀ k ∈ (w.pbft.historyOf (bytes "B")).insert (UInt64.ofNat (n + 1))
        (computeMessageHash .plain (sampleChain (n + 1))), UInt64.ofNat n < k → k = UInt64.ofNat (n + 1) := by
      intro k hk hlt
      rcases Std.ExtTreeMap.mem_insert.mp hk with heq | hold
      . exact (Std.compare_eq_iff_eq.mp heq).symm
      . exact absurd hlt (UInt64.not_lt.mpr (hends.le_of_mem k hold))
    intro a ha b hb hlta hltb
    rw [hnew a ha hlta, hnew b hb hltb]
  . change ((w.pbft.historyOf (bytes "B")).insert (UInt64.ofNat (n + 1)) _)[_]? = _
    rw [Std.ExtTreeMap.getElem?_insert, if_neg (by simp)]
    exact hends.getElem?_eq

theorem verifies_again (h : Flooded times n w) (hpos : 0 < n) (hn : n < 1000000) (hash : Bytes)
    (hnow : now ∈ times)
    : ((handOver hash now (n + 1)).foldl step w).pbft.Verifies (sampleChain (n + 1)) := by
  have hprev := h.getElem?_history_handOver hpos hn hash now
  have htracks := (h.next hn hash hnow).tracks
  rw [if_neg (by omega)] at htracks
  refine (htracks.verifies_iff (show 1 ≤ n + 1 by omega)).mpr ⟨?_, ?_⟩
  . have hpred : UInt64.ofNat (n + 1) - 1 = UInt64.ofNat n := by
      apply UInt64.toNat.inj
      simp
    rw [← hpred] at hprev
    have hchained : verifyMessageChaining _ (sampleChain (n + 1)) = _ := verifyMessageChaining_of_getElem? hprev
    exact hchained.trans (beq_self_eq_true _)
  . rw [verifySequenceContinuity_of_endsAt htracks.history]
    have hlast : (UInt64.ofNat (n + 1)).toNat = n + 1 := by
      simp
      omega
    have hsum : (UInt64.ofNat (n + 1) + maxSequenceGap).toNat = n + 101 := by
      simp [maxSequenceGap]
      omega
    change (!decide (UInt64.ofNat (n + 1) + maxSequenceGap < UInt64.ofNat (n + 1))) = true
    simp only [UInt64.lt_iff_toNat_lt, hsum, hlast]
    simp

theorem recordedHash_of_old {k : Nat} (h : Flooded times n w)
    (hadmits : (w.pbft.recordSuccess (bytes "B")).Admits (startingAt hash now) (sampleChain k))
    (hold : ∀ time ∈ times, roundTtlSec < seconds (now - time))
    : (w.pbft.recordSuccess (bytes "B")).recordedHash ⟨startingAt hash now, .advanceState (sampleChain k)⟩
        = some (computeMessageHash .plain (sampleChain k)) := by
  rw [recordedHash_eq_some_iff]
  refine ⟨_, rfl, ?_, rfl⟩
  exact records_of_tracked hadmits ⟨h.tracked.voted, h.tracked.started⟩ hold

/--
Both times the rounds of the votes before have expired.
-/
theorem not_nodup_replay (h : Flooded {0} n w) (hpos : 0 < n) (hn : n + 1 < 1000000)
    (hunseen : computeMessageHash .plain (sampleChain (n + 1))
      ∉ ((handOver hash 121000000000 (n + 1)).foldl step w).pbft.seenMessages)
    : ¬((handOver hash 121000000000 (n + 1) ++ handOver hash 242000000000 (n + 1)).foldl step w).voted.Nodup := by
  have hlater : Flooded {0, 121000000000} n w := h.mono (by simp)
  have hnow : (121000000000 : Time) ∈ ({0, 121000000000} : Set Time) := by simp
  have hnext := hlater.next (by omega) hash hnow
  have hvalid := hlater.verifies_again hpos (by omega) hash hnow
  have hadmits : (((handOver hash 121000000000 (n + 1)).foldl step w).pbft.recordSuccess (bytes "B")).Admits
      (startingAt hash 242000000000) (sampleChain (n + 1)) := by
    rw [admits_recordSuccess_iff]
    exact ⟨hvalid.notBanned, hvalid.known, hnext.withinRate hn _, hunseen⟩
  have hfirst := h.recordedHash_of_old (h.admits (by omega) hash 121000000000) (by
    rintro _ rfl
    decide)
  have hsecond := hnext.recordedHash_of_old hadmits (by
    rintro _ (rfl | rfl)
    . decide
    . decide)
  rw [List.foldl_append, foldl_handOver hvalid]
  change ¬(Option.toList (recordedHash _ _) ++ ((handOver hash 121000000000 (n + 1)).foldl step w).voted).Nodup
  rw [hsecond, foldl_handOver (h.verifies (by omega))]
  change ¬(Option.toList (some _) ++ (Option.toList (recordedHash _ _) ++ w.voted)).Nodup
  rw [hfirst]
  simp

end Flooded

theorem flooded_flood (hash : Bytes) (n : Nat) (hn : n ≤ 1000000)
    : Flooded {0} n ((flood hash n).foldl step floodStart) := by
  induction n with
  | zero =>
    have hregister : (flood hash 0).foldl step floodStart
        = { floodStart with pbft := floodStart.pbft.registerPeerKey (bytes "B") (bytes "B") } := rfl
    rw [hregister]
    constructor
    . constructor
      . rfl
      . decide
      . rfl
      . rfl
      . intro k _ _ _ hseen
        simp [floodStart, registerPeerKey, new] at hseen
    . decide +kernel
    . decide +kernel
    . constructor
      . simp [floodStart, registerPeerKey, new]
      . simp [floodStart, registerPeerKey, new]
  | succ n ih =>
    rw [flood, List.foldl_append]
    exact (ih (by omega)).next (by omega) hash rfl

theorem along_flood (hash : Bytes) (n : Nat) (hn : n ≤ 1000000)
    : Run.Along step HandsVerified floodStart (flood hash n) := by
  induction n with
  | zero => exact ⟨nofun, trivial⟩
  | succ n ih =>
    rw [flood, Run.along_append]
    refine ⟨ih (by omega), ?_⟩
    apply Flooded.along_handOver
    exact (flooded_flood hash n (by omega)).verifies (by omega)

theorem size_insert_of_notMem {seen : KeySet} {hash : Bytes} (h : hash ∉ seen)
    : (seen.insert hash).size = seen.size + 1 := by
  simp [Std.ExtTreeSet.size_insert, h]

theorem size_seenMessages_flood (hash : Bytes) (n : Nat) (hn : n ≤ maxSeenMessages)
    : ((flood hash n).foldl step floodStart).pbft.seenMessages.size = n := by
  have hmax : maxSeenMessages = 100000 := rfl
  induction n with
  | zero => rfl
  | succ n ih =>
    have hflooded := flooded_flood hash n (by omega)
    have hunseen := hflooded.notMem_seenMessages (by omega)
    have hsize := size_insert_of_notMem hunseen
    rw [ih (by omega)] at hsize
    rw [flood, List.foldl_append, hflooded.seenMessages_handOver (by omega) hash 0, seenWith,
      if_neg (by omega), hsize]

theorem notMem_seenWith {seen : KeySet} {hash : Bytes} (hfull : maxSeenMessages < (seen.insert hash).size)
    (now : Time)
    : hash ∉ seenWith (startingAt hash now) seen hash := by
  have hmax : maxSeenMessages = 100000 := rfl
  unfold seenWith
  dsimp only
  rw [if_pos hfull]
  intro hmem
  obtain ⟨hinsert, hkept⟩ := Std.ExtTreeSet.mem_filter.mp hmem
  have horder : (startingAt hash now).bucketOrder (seen.insert hash).toList
      = hash :: (seen.insert hash).toList.erase hash := by
    apply if_pos
    simp
  rw [horder, ← Nat.sub_add_cancel (show 1 ≤ (seen.insert hash).size / 2 by omega)] at hkept
  simp at hkept

/--
The set overflows with a message and loses the hash of this very message, so it counts again once its round has
expired.
-/
theorem not_forall_always_nodup
    : ¬ ∀ calls : List (Call .plain),
        Run.Along step HandsVerified floodStart calls →
          Run.Always step (fun w => w.voted.Nodup) floodStart calls := by
  intro hall
  obtain ⟨n, hn⟩ : ∃ n, n = maxSeenMessages := ⟨_, rfl⟩
  have hbound : 0 < n ∧ n + 1 < 1000000 := by
    rw [hn]
    decide
  obtain ⟨hash, hhash⟩ : ∃ hash, hash = computeMessageHash .plain (sampleChain (n + 1)) := ⟨_, rfl⟩
  have hflooded := flooded_flood hash n (by omega)
  have hsize := size_insert_of_notMem (hflooded.notMem_seenMessages (by omega))
  rw [size_seenMessages_flood hash n (by omega), ← hhash] at hsize
  have hunseen := hflooded.seenMessages_handOver (by omega) hash 121000000000
  rw [← hhash] at hunseen
  have hlost := notMem_seenWith (show maxSeenMessages < _ by rw [hsize]; omega) 121000000000
  rw [← hunseen, hhash] at hlost
  have hlater : Flooded {0, 121000000000} n _ := hflooded.mono (by simp)
  have halong : Run.Along step HandsVerified floodStart (flood hash n
      ++ (handOver hash 121000000000 (n + 1) ++ handOver hash 242000000000 (n + 1))) := by
    rw [Run.along_append, Run.along_append]
    refine ⟨along_flood hash n (by omega), ?_, ?_⟩
    . exact Flooded.along_handOver (hflooded.verifies (by omega))
    . exact Flooded.along_handOver (hlater.verifies_again hbound.1 (by omega) hash (by simp))
  have hnodup := Run.foldl_of_always (hall _ halong)
  rw [List.foldl_append] at hnodup
  exact hflooded.not_nodup_replay hbound.1 hbound.2 (hhash ▸ hlost) hnodup

end Flood

end Watched
end PBFTConsensus
end NeuroMesh
