import NeuroMesh.Consensus.MeshNode.Lemmas.Wire
import NeuroMesh.Data.Json.Literal

namespace NeuroMesh
namespace MeshNode

open PBFTConsensus (Triggers)

variable {C : IdentityCore}

/--
A literal and the text behind it are a member `"action":"ban"` without any white space or escape. The quotation
mark before `action` may be an escaped one.
-/
def SpellsBan (literal : Bytes × Bytes) : Prop :=
  (literal.1 = bytes "action" ∨ bytes "\"action" <:+ literal.1) ∧ bytes ":\"ban\"" <+: literal.2

instance (literal : Bytes × Bytes) : Decidable (SpellsBan literal) :=
  inferInstanceAs (Decidable (_ ∧ _))

theorem isBanRound_iff {half : Bool} {evidence : Bytes} {json : Json} (h : Json.parse half evidence = some json)
    : isBanRound evidence = true ↔ ∃ literal ∈ Json.literals evidence, SpellsBan literal := by
  have hword : Json.IsWord (bytes "action") := by
    unfold Json.IsWord
    decide +kernel
  have hpattern : bytes "\"action\":\"ban\""
      = Json.quote :: (bytes "action" ++ Json.quote :: bytes ":\"ban\"") := by
    decide
  unfold isBanRound
  rw [decide_eq_true_iff, hpattern, Json.quoted_isInfix_iff hword]
  . rfl
  . intro literal hmem hstarts
    -- the `a` would have to follow a literal
    have hclosed := Json.closed_of_parse h literal hmem 0x61
    obtain ⟨rest, hrest⟩ := hstarts
    rw [← hrest] at hclosed
    exact absurd (hclosed rfl) (by decide)

def TreatsAsBan (node : MeshNode C) (env : Env) (stageStr targetId evidence commitSig : Bytes) : Prop :=
  (node.dispatch dispatchFuel env (some .executed) stageStr targetId evidence commitSig).log
    = .journal (bytes "BAN_PEER_EXECUTED") targetId evidence :: node.log

theorem treatsAsBan_iff {node : MeshNode C} {env : Env} {stageStr targetId evidence commitSig : Bytes}
    (hstage : stageStr ≠ Stage.banPeer)
    : node.TreatsAsBan env stageStr targetId evidence commitSig ↔ isBanRound evidence = true := by
  show (node.onExecuted stageStr targetId evidence commitSig).log = _ ↔ _
  unfold onExecuted
  cases hban : isBanRound evidence with
  | true => simp [emit]
  | false =>
    rw [if_neg (by simp [hstage])]
    simp only [Bool.false_eq_true, iff_false]
    intro hlog
    have hlength := congrArg List.length hlog
    split at hlength
    . simp at hlength
    . simp [emit] at hlength
      omega

def TellsByMeaning (node : MeshNode C) (evidence : Bytes) (members : List (Bytes × Json)) : Prop :=
  ∀ env stageStr targetId commitSig, Triggers stageStr .executed →
    (node.TreatsAsBan env stageStr targetId evidence commitSig ↔ (bytes "action", .str (bytes "ban")) ∈ members)

theorem tellsByMeaning_iff (node : MeshNode C) {half : Bool} {evidence : Bytes} {members : List (Bytes × Json)}
    (h : Json.parse half evidence = some (.obj members))
    : node.TellsByMeaning evidence members
        ↔
      ((bytes "action", .str (bytes "ban")) ∈ members → ∃ literal ∈ Json.literals evidence, SpellsBan literal)
        ∧ ((bytes "action", .str (bytes "ban")) ∉ members → ∀ literal ∈ Json.literals evidence,
            ¬SpellsBan literal) := by
  have htreats : node.TellsByMeaning evidence members
      ↔ (isBanRound evidence = true ↔ (bytes "action", .str (bytes "ban")) ∈ members) := by
    have hcommit : Stage.commit ≠ Stage.banPeer := by decide
    constructor
    . intro htells
      rw [← htells quietEnv Stage.commit [] [] rfl, treatsAsBan_iff hcommit]
    . intro hiff env stageStr targetId commitSig hstage
      have hstage : stageStr = Stage.commit := hstage
      rw [hstage, treatsAsBan_iff hcommit, hiff]
  rw [htreats, isBanRound_iff h]
  by_cases hmem : (bytes "action", Json.str (bytes "ban")) ∈ members
  . simp [hmem]
  . simp [hmem]

def banObject (space : Bytes) : Bytes :=
  0x7b :: 0x22 :: (bytes "action" ++ 0x22 :: 0x3a :: (space ++ 0x22 :: (bytes "ban" ++ [0x22]) ++ [0x7d]))

theorem parse_banObject {space : Bytes} (hspace : ∀ c ∈ space, Json.isSpace c)
    (hvalid : Utf8.valid (banObject space)) (half : Bool)
    : Json.parse half (banObject space) = some (.obj [(bytes "action", .str (bytes "ban"))]) := by
  have hkey : Json.Plain (bytes "action") := by decide +kernel
  have hvalue : Json.Plain (bytes "ban") := by decide +kernel
  have hnone : ∀ c ∈ ([] : Bytes), Json.isSpace c := nofun
  have hban : Json.Reads half (space ++ 0x22 :: (bytes "ban" ++ [0x22])) (.str (bytes "ban")) :=
    (Json.reads_string hvalue).space hspace
  have hparse := (Json.reads_obj (Json.readsMembers_single hkey.names hnone hban hnone)).parse hnone
  rw [List.append_nil] at hparse
  exact hparse hvalid

theorem tellsByMeaning_banObject
    : framed.TellsByMeaning (banObject []) [(bytes "action", .str (bytes "ban"))] := by
  rw [tellsByMeaning_iff framed (parse_banObject (by simp) (by decide +kernel) false)]
  refine ⟨fun _ => by decide +kernel, ?_⟩
  intro hnone
  exact absurd List.mem_cons_self hnone

theorem not_forall_tellsByMeaning
    : ¬ ∀ (evidence : Bytes) (members : List (Bytes × Json)), Json.parse false evidence = some (.obj members) →
        framed.TellsByMeaning evidence members := by
  intro h
  have hspace : ∀ c ∈ [(0x20 : UInt8)], Json.isSpace c := by simp [Json.isSpace]
  have htells := h _ _ (parse_banObject hspace (by decide +kernel) false)
  have htreats := (htells quietEnv Stage.commit [] [] rfl).mpr List.mem_cons_self
  rw [treatsAsBan_iff (by decide)] at htreats
  revert htreats
  decide +kernel

end MeshNode
end NeuroMesh
