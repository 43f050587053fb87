import NeuroMesh.Consensus.PBFT.Impl.Advance

namespace NeuroMesh

structure EndsAt (history : Map UInt64 Bytes) (seq : UInt64) (hash : Bytes) : Prop where
  getElem?_eq : history[seq]? = some hash
  le_of_mem : ∀ k ∈ history, k ≤ seq

namespace EndsAt

variable {history : Map UInt64 Bytes} {seq : UInt64} {hash : Bytes}

theorem mem (h : EndsAt history seq hash) : seq ∈ history := by
  rw [Std.ExtTreeMap.mem_iff_isSome_getElem?, h.getElem?_eq]
  rfl

theorem maxKey?_eq (h : EndsAt history seq hash) : history.maxKey? = some seq := by
  rw [Std.ExtTreeMap.maxKey?_eq_some_iff_mem_and_forall]
  refine ⟨h.mem, ?_⟩
  intro k hk
  exact Std.isLE_compare.mpr (h.le_of_mem k hk)

theorem isEmpty_eq (h : EndsAt history seq hash) : history.isEmpty = false := by
  rw [← Std.ExtTreeMap.isNone_maxKey?_eq_isEmpty, h.maxKey?_eq]
  rfl

end EndsAt

namespace PBFTConsensus

theorem mem_of_mem_evictHistory {history : Map UInt64 Bytes} {k : UInt64}
    (h : k ∈ evictHistory history)
    : k ∈ history := by
  unfold evictHistory at h
  dsimp at h
  split at h
  . exact Std.ExtTreeMap.mem_of_mem_filter h
  . exact h

theorem getElem?_of_getElem?_evictHistory {history : Map UInt64 Bytes} {k : UInt64} {hash : Bytes}
    (h : (evictHistory history)[k]? = some hash)
    : history[k]? = some hash := by
  unfold evictHistory at h
  dsimp at h
  split at h
  . rw [Std.ExtTreeMap.getElem?_filter'] at h
    exact (Option.filter_eq_some_iff.mp h).1
  . exact h

theorem notMem_take_keys {history : Map UInt64 Bytes} {seq : UInt64}
    (hlast : ∀ a ∈ history, ∀ b ∈ history, seq < a → seq < b → a = b) {n : Nat} (hn : n + 1 < history.size)
    : seq ∉ history.keys.take n := by
  intro hmem
  have hordered := Std.ExtTreeMap.ordered_keys (t := history)
  rw [← List.take_append_drop n history.keys, List.pairwise_append] at hordered
  obtain ⟨-, htail, hbefore⟩ := hordered
  have hlength : (history.keys.drop n).length = history.size - n := by
    rw [List.length_drop, Std.ExtTreeMap.length_keys]
  have hkeys : ∀ k ∈ history.keys.drop n, k ∈ history ∧ seq < k := by
    intro k hk
    refine ⟨Std.ExtTreeMap.mem_keys.mp (List.mem_of_mem_drop hk), ?_⟩
    exact Std.compare_eq_lt.mp (hbefore seq hmem k hk)
  -- two of the keys that are kept would be above `seq`
  match hdrop : history.keys.drop n with
  | [] =>
    rw [hdrop, List.length_nil] at hlength
    omega
  | [_] =>
    rw [hdrop, List.length_singleton] at hlength
    omega
  | a :: b :: keys =>
    rw [hdrop] at htail hkeys
    have ha := hkeys a (by simp)
    have hb := hkeys b (by simp)
    have hlt := (List.pairwise_cons.mp htail).1 b (by simp)
    rw [hlast a ha.1 b hb.1 ha.2 hb.2] at hlt
    simp at hlt

theorem getElem?_evictHistory {history : Map UInt64 Bytes} {seq : UInt64} {hash : Bytes}
    (hlast : ∀ a ∈ history, ∀ b ∈ history, seq < a → seq < b → a = b) (h : history[seq]? = some hash)
    : (evictHistory history)[seq]? = some hash := by
  unfold evictHistory
  dsimp
  split
  . next hsize =>
    have hmax : 1 < maxMsgHistoryPerSender := by decide
    have hkeep := notMem_take_keys hlast (n := history.size - maxMsgHistoryPerSender) (by omega)
    rw [Std.ExtTreeMap.getElem?_filter', h]
    simp [hkeep, Option.filter]
  . exact h

theorem endsAt_evictHistory {history : Map UInt64 Bytes} {seq : UInt64} {hash : Bytes}
    (h : EndsAt history seq hash)
    : EndsAt (evictHistory history) seq hash := by
  constructor
  . apply getElem?_evictHistory _ h.getElem?_eq
    intro a ha _ _ hlt
    exact absurd hlt (UInt64.not_lt.mpr (h.le_of_mem a ha))
  . intro k hk
    exact h.le_of_mem k (mem_of_mem_evictHistory hk)

theorem endsAt_insert {history : Map UInt64 Bytes} {seq : UInt64} (hle : ∀ k ∈ history, k ≤ seq)
    (hash : Bytes)
    : EndsAt (history.insert seq hash) seq hash := by
  constructor
  . simp
  . intro k hk
    rw [Std.ExtTreeMap.mem_insert, Std.compare_eq_iff_eq] at hk
    cases hk with
    | inl heq => rw [heq]; exact UInt64.le_refl k
    | inr hmem => exact hle k hmem

variable {C : IdentityCore}

theorem historyOf_detectEquivocation (s : PBFTConsensus C) (now : Time) (msg : P2PMessage)
    (msgHash senderId : Bytes)
    : (s.detectEquivocation now msg msgHash).historyOf senderId
        =
      if msg.senderId = senderId then
        evictHistory ((s.historyOf senderId).insert msg.sequenceNumber msgHash)
      else
        s.historyOf senderId := by
  have hrest : ∀ history,
      (s.messageHistory.insert msg.senderId history).getD senderId ∅
        = if msg.senderId = senderId then history else s.historyOf senderId := by
    intro history
    rw [Std.ExtTreeMap.getD_insert]
    simp only [Std.compare_eq_iff_eq]
    rfl
  unfold detectEquivocation
  dsimp
  split
  . unfold historyOf
    dsimp
    rw [hrest]
    split
    . next h => rw [h]
    . rfl
  . split
    . unfold historyOf
      dsimp [recordEquivocation, setTrust]
      rw [hrest]
      split
      . next h => rw [h]
      . rfl
    . unfold historyOf
      dsimp
      rw [hrest]
      split
      . next h => rw [h]
      . rfl

section EndsAt

variable {s : PBFTConsensus C} {msg : P2PMessage} {senderId hash : Bytes} {seq : UInt64}

theorem pipe_notMem_getLastSentHash (hgenesis : pipe ∉ s.genesisHash)
    (hhistory : ∀ (seq : UInt64) (hash : Bytes), (s.historyOf senderId)[seq]? = some hash → pipe ∉ hash)
    : pipe ∉ s.getLastSentHash senderId := by
  unfold getLastSentHash
  dsimp only
  split
  . exact hgenesis
  . next seq _ =>
    rw [Std.ExtTreeMap.getD_eq_getD_getElem?]
    cases hentry : (s.historyOf senderId)[seq]? with
    | none => simp
    | some hash => exact hhistory seq hash hentry

theorem getLastSentHash_of_endsAt (h : EndsAt (s.historyOf senderId) seq hash)
    : s.getLastSentHash senderId = hash := by
  unfold getLastSentHash
  simp only [← Std.ExtTreeMap.maxKey?_eq_getLast?_keys, h.maxKey?_eq]
  rw [Std.ExtTreeMap.getD_eq_getD_getElem?, h.getElem?_eq]
  rfl

theorem foldl_max_eq (entries : List (UInt64 × Bytes)) (maxSeq : UInt64) (hle : maxSeq ≤ seq)
    (hall : ∀ entry ∈ entries, entry.1 ≤ seq) (hmem : maxSeq = seq ∨ ∃ entry ∈ entries, entry.1 = seq)
    : entries.foldl (fun maxSeq entry => if maxSeq < entry.1 then entry.1 else maxSeq) maxSeq
        =
      seq := by
  induction entries generalizing maxSeq with
  | nil => simpa using hmem
  | cons entry entries ih =>
    simp only [List.mem_cons, forall_eq_or_imp, exists_eq_or_imp] at hall hmem
    rw [List.foldl_cons]
    apply ih
    . split
      . exact hall.1
      . exact hle
    . exact hall.2
    . split
      . next hlt =>
        rcases hmem with rfl | hentry | hrest
        . exact absurd hlt (UInt64.not_lt.mpr hall.1)
        . exact .inl hentry
        . exact .inr hrest
      . next hlt =>
        rcases hmem with heq | rfl | hrest
        . exact .inl heq
        . exact .inl (UInt64.le_antisymm hle (UInt64.not_lt.mp hlt))
        . exact .inr hrest

theorem foldl_max_of_endsAt {history : Map UInt64 Bytes} (h : EndsAt history seq hash)
    : history.foldl (fun maxSeq seq _ => if maxSeq < seq then seq else maxSeq) 0 = seq := by
  rw [Std.ExtTreeMap.foldl_eq_foldl_toList]
  apply foldl_max_eq
  . exact UInt64.zero_le
  . intro entry hentry
    apply h.le_of_mem
    rw [Std.ExtTreeMap.mem_toList_iff_getElem?_eq_some] at hentry
    simp [Std.ExtTreeMap.mem_iff_isSome_getElem?, hentry]
  . refine .inr ⟨(seq, hash), ?_, rfl⟩
    rw [Std.ExtTreeMap.mem_toList_iff_getElem?_eq_some]
    exact h.getElem?_eq

theorem verifySequenceContinuity_of_endsAt (h : EndsAt (s.historyOf msg.senderId) seq hash)
    : s.verifySequenceContinuity msg = !(seq + maxSequenceGap < msg.sequenceNumber) := by
  unfold verifySequenceContinuity
  simp only [h.isEmpty_eq, foldl_max_of_endsAt h]
  simp

theorem verifyMessageChaining_of_getElem? (h : (s.historyOf msg.senderId)[msg.sequenceNumber - 1]? = some hash)
    : s.verifyMessageChaining msg = (hash == msg.prevMessageHash) := by
  unfold verifyMessageChaining
  dsimp only
  split
  . next hempty =>
    rw [Std.ExtTreeMap.isEmpty_iff.mp hempty] at h
    simp at h
  . rw [h]

theorem verifyMessageChaining_of_endsAt (h : EndsAt (s.historyOf msg.senderId) seq hash)
    (hseq : msg.sequenceNumber - 1 = seq)
    : s.verifyMessageChaining msg = (hash == msg.prevMessageHash) := by
  apply verifyMessageChaining_of_getElem?
  rw [hseq, h.getElem?_eq]

theorem verifyMessageChaining_of_lt (h : EndsAt (s.historyOf msg.senderId) seq hash)
    (hseq : seq < msg.sequenceNumber - 1)
    : s.verifyMessageChaining msg
        =
      (msg.prevMessageHash == [] || msg.prevMessageHash == s.genesisHash) := by
  have hnone : (s.historyOf msg.senderId)[msg.sequenceNumber - 1]? = none := by
    apply Std.ExtTreeMap.getElem?_eq_none
    intro hmem
    exact absurd hseq (UInt64.not_lt.mpr (h.le_of_mem _ hmem))
  unfold verifyMessageChaining
  simp only [h.isEmpty_eq, hnone]
  simp

end EndsAt

end PBFTConsensus
end NeuroMesh
