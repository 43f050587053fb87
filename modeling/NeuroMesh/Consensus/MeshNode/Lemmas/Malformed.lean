import NeuroMesh.Common.Inet
import NeuroMesh.Consensus.MeshNode.Lemmas.Freshness

namespace NeuroMesh
namespace MeshNode

variable {C : IdentityCore}

def tokenAt (tokens : List Bytes) (i : Nat) : OptionT (Except Nat) Bytes :=
  match tokens[i]? with
  | some token => pure token
  | none => OptionT.lift (throw i)

def parsed {α : Type} (val : Option α) : OptionT (Except Nat) α :=
  OptionT.mk (.ok val)

def readBeacon (tokens : List Bytes) : OptionT (Except Nat) Beacon :=
  readFields (tokenAt tokens) parsed tokens.length

theorem tokenAt_of_lt {tokens : List Bytes} {i : Nat} (h : i < tokens.length)
    : tokenAt tokens i = pure (tokens.getD i []) := by
  unfold tokenAt
  rw [List.getElem?_eq_getElem h, List.getD_eq_getElem _ _ h]

theorem parsed_bind {α β : Type} (val : Option α) (f : α → Option β)
    : parsed (val >>= f) = parsed val >>= fun a => parsed (f a) := by
  cases val <;> rfl

theorem parsed_some {α : Type} (a : α) : parsed (some a) = pure a := by
  rfl

theorem parsed_ite {α : Type} (p : Prop) [Decidable p] (val val' : Option α)
    : parsed (if p then val else val') = if p then parsed val else parsed val' := by
  split <;> rfl

theorem readBeacon_of_ne_nil {tokens : List Bytes} (h : tokens ≠ [])
    : readBeacon tokens = parsed (parseBeacon tokens) := by
  have hread : ∀ i, i < tokens.length → tokenAt tokens i = pure (tokens.getD i []) :=
    fun i hi => tokenAt_of_lt hi
  have hpos := List.length_pos_of_ne_nil h
  unfold readBeacon parseBeacon readFields
  simp only [parsed_bind, hread 0 hpos, pure_bind, Option.pure_def, parsed_ite, parsed_some, id_eq]
  congr 1
  funext _
  by_cases h6 : 6 ≤ tokens.length
  . simp only [hread 1 (by omega), hread 2 (by omega), pure_bind]
    by_cases h7 : 7 ≤ tokens.length
    . simp only [hread 3 (by omega), if_pos h7, hread 4 (by omega), hread 5 (by omega), hread 6 (by omega),
        pure_bind]
      by_cases h8 : 8 ≤ tokens.length
      . by_cases h9 : 9 ≤ tokens.length
        . simp only [if_pos h8, if_pos h9, hread 7 (by omega), hread 8 (by omega), pure_bind]
        . simp only [if_pos h8, if_neg h9, hread 7 (by omega), pure_bind]
      . simp only [if_neg h8, if_neg (show ¬ 9 ≤ tokens.length by omega)]
    . simp only [if_neg h7, if_neg (show ¬ 8 ≤ tokens.length by omega),
        if_neg (show ¬ 9 ≤ tokens.length by omega), hread 3 (by omega), hread 4 (by omega), pure_bind]
  . have hnone : (guard (6 ≤ tokens.length) : Option Unit) = none := by simp [guard, h6]
    rw [hnone]
    rfl

theorem run_readBeacon (tokens : List Bytes)
    : (readBeacon tokens).run = if tokens = [] then .error 0 else .ok (parseBeacon tokens) := by
  split
  . next h =>
    rw [h]
    rfl
  . next h =>
    rw [readBeacon_of_ne_nil h]
    rfl

def isSigned (node : MeshNode C) (beacon : Beacon) : Bool :=
  beacon.peerId ≠ node.nodeId
    && beacon.pem ≠ []
    && beacon.signature ≠ []
    && C.verifyWith (C.getPubkeyFromPem beacon.pem) beacon.signedBlob beacon.signature

def IsInt64 (i : Int) : Prop :=
  -(2 ^ 63) ≤ i ∧ i < 2 ^ 63

def datagramTokens (datagram : Bytes) : List Bytes :=
  splitString (cStr datagram) pipe

structure Harmless (node : MeshNode C) (now : Int) (datagram : Bytes) : Prop where
  inBounds : ∃ res, (readBeacon (datagramTokens datagram)).run = .ok res
  ignored : (readBeacon (datagramTokens datagram)).run = .ok none →
    ∀ env dial senderIp, node.processDiscoveryBeacon env dial (cStr datagram) senderIp = node
  age : ∀ beacon, (readBeacon (datagramTokens datagram)).run = .ok (some beacon) → node.isSigned beacon = true →
    (microseconds now - beacon.timestamp).bmod (2 ^ 64) = microseconds now - beacon.timestamp
      ∧ (node.acceptsBeacon now beacon = true ↔ |microseconds now - beacon.timestamp| < 61000000)

section Age

variable {node : MeshNode C} {beacon : Beacon} {now : Int}

theorem bmod_eq_self_iff {d : Int} : d.bmod (2 ^ 64) = d ↔ IsInt64 d := by
  unfold IsInt64
  constructor
  . intro h
    have hle := Int.le_bmod (x := d) (m := 2 ^ 64) (by decide)
    have hlt := Int.bmod_lt (x := d) (m := 2 ^ 64) (by decide)
    omega
  . intro h
    rw [Int.bmod_eq_of_le] <;> omega

theorem acceptsBeacon_of_isSigned (h : node.isSigned beacon = true)
    (hrange : (microseconds now - beacon.timestamp).bmod (2 ^ 64) = microseconds now - beacon.timestamp)
    : node.acceptsBeacon now beacon = true ↔ |microseconds now - beacon.timestamp| < 61000000 := by
  have heq : node.acceptsBeacon now beacon
      = (node.isSigned beacon
        && !(60 < (microseconds now - beacon.timestamp).tdiv 1000000
          || (microseconds now - beacon.timestamp).tdiv 1000000 < -60)) := by
    unfold acceptsBeacon isSigned
    rw [hrange]
  rw [heq, h]
  generalize microseconds now - beacon.timestamp = d
  have hlate := le_tdiv_iff (w := 61) (k := 1000000) (d := d) (by decide) (by decide)
  have hearly := tdiv_le_neg_iff (w := 61) (k := 1000000) (d := d) (by decide) (by decide)
  simp only [Bool.true_and, Bool.not_eq_true', Bool.or_eq_false_iff, decide_eq_false_iff_not, abs_lt]
  omega

end Age

theorem datagramTokens_eq_nil_iff {datagram : Bytes} (h : datagram ≠ [])
    : datagramTokens datagram = [] ↔ datagram.head? = some 0 := by
  obtain ⟨c, rest, rfl⟩ := List.exists_cons_of_ne_nil h
  unfold datagramTokens splitString
  rw [Delimited.split_eq_nil_iff]
  unfold cStr
  rw [List.takeWhile_cons]
  by_cases hc : c = 0 <;> simp [hc]

theorem harmless_iff (node : MeshNode C) (now : Int) (datagram : Bytes) (hreceived : datagram ≠ [])
    : node.Harmless now datagram
        ↔
      datagram.head? ≠ some 0
        ∧ ∀ beacon, parseBeacon (datagramTokens datagram) = some beacon → node.isSigned beacon = true →
            microseconds now - 2 ^ 63 < beacon.timestamp ∧ beacon.timestamp ≤ microseconds now + 2 ^ 63 := by
  have hrun := run_readBeacon (datagramTokens datagram)
  have hnil := datagramTokens_eq_nil_iff hreceived
  constructor
  . intro h
    have hne : datagram.head? ≠ some 0 := by
      intro hzero
      obtain ⟨res, hres⟩ := h.inBounds
      rw [hrun, if_pos (hnil.mpr hzero)] at hres
      contradiction
    refine ⟨hne, ?_⟩
    intro beacon hparse hsigned
    rw [if_neg (hnil.not.mpr hne), hparse] at hrun
    obtain ⟨hrange, -⟩ := h.age beacon hrun hsigned
    rw [bmod_eq_self_iff] at hrange
    unfold IsInt64 at hrange
    omega
  . rintro ⟨hne, hage⟩
    rw [if_neg (hnil.not.mpr hne)] at hrun
    constructor
    . exact ⟨_, hrun⟩
    . intro hnone env dial senderIp
      rw [hrun] at hnone
      simp only [Except.ok.injEq] at hnone
      have htokens : splitString (cStr datagram) pipe = datagramTokens datagram := rfl
      unfold processDiscoveryBeacon
      rw [htokens, hnone]
    . intro beacon hsome hsigned
      rw [hrun] at hsome
      simp only [Except.ok.injEq] at hsome
      have hbounds := hage beacon hsome hsigned
      have hrange : (microseconds now - beacon.timestamp).bmod (2 ^ 64) = microseconds now - beacon.timestamp := by
        rw [bmod_eq_self_iff]
        unfold IsInt64
        omega
      exact ⟨hrange, acceptsBeacon_of_isSigned hsigned hrange⟩

def timedBeacon (timestamp : Int) : Bytes :=
  let fields := [bytes "P", bytes "9000", bytes "9001", toDecimalInt timestamp]
  let signature := plainKey "1" ++ joinPipe (fields ++ [bytes "f"])
  joinPipe ([bytes "DISCOVERY"] ++ fields ++ [base64Encode (plainKey "1"), bytes "f", base64Encode signature])

def listeningNode : MeshNode .plain :=
  new .plain (bytes "A") (bytes "A") (bytes "A") {}

theorem harmless_timedBeacon : listeningNode.Harmless 5000 (timedBeacon 3) := by
  rw [harmless_iff _ _ _ (by decide)]
  refine ⟨by decide, ?_⟩
  intro beacon hparse _
  have htimestamp : (parseBeacon (datagramTokens (timedBeacon 3))).map (·.timestamp) = some 3 := by
    decide +kernel
  rw [hparse] at htimestamp
  simp only [Option.map_some, Option.some.injEq] at htimestamp
  rw [htimestamp]
  decide

/--
A datagram that starts with a zero byte has no token at all, and the smallest timestamp is too far from every clock
that does not show a negative time.
-/
theorem not_harmless
    : (¬ listeningNode.Harmless 5000 [0])
        ∧
      (¬ listeningNode.Harmless 5000 (timedBeacon (-(2 ^ 63)))) := by
  constructor
  . intro h
    obtain ⟨res, hres⟩ := h.inBounds
    rw [run_readBeacon, if_pos (by decide)] at hres
    contradiction
  . intro h
    obtain ⟨beacon, hparse⟩ : ∃ beacon, parseBeacon (datagramTokens (timedBeacon (-(2 ^ 63)))) = some beacon := by
      rw [← Option.isSome_iff_exists]
      decide +kernel
    have hrun := run_readBeacon (datagramTokens (timedBeacon (-(2 ^ 63))))
    rw [if_neg (by decide +kernel), hparse] at hrun
    have hfields : (parseBeacon (datagramTokens (timedBeacon (-(2 ^ 63))))).map
        (fun beacon => (beacon.timestamp, listeningNode.isSigned beacon)) = some (-(2 ^ 63), true) := by
      decide +kernel
    rw [hparse] at hfields
    simp only [Option.map_some, Option.some.injEq, Prod.mk.injEq] at hfields
    have hage := (h.age beacon hrun hfields.2).1
    rw [hfields.1] at hage
    exact absurd hage (by decide)

end MeshNode
end NeuroMesh
