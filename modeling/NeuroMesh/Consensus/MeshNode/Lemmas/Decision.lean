import NeuroMesh.Consensus.MeshNode.Lemmas.Admit
import NeuroMesh.Consensus.MeshNode.Lemmas.Enforce
import NeuroMesh.Enforcer.Lemmas.Calls

namespace NeuroMesh

variable {C : IdentityCore}

namespace PolicyEnforcer

variable {e : PolicyEnforcer} {sys : System}

def Works (e : PolicyEnforcer) (sys : System) (addr : Ipv4) : Prop :=
  sys.succeeds (.bpfUpdate addr) = true
    ∨ (e.nftables = true ∧ sys.succeeds (.nftAdd { lo := false, saddr := addr, dport := none }) = true)
    ∨ (e.iptables = true ∧ sys.succeeds (.iptablesAppend addr) = true)

theorem fst_cascade_of_works {addr : Ipv4} (h : e.Works sys addr) : (e.cascade sys addr.ntop).1 = true := by
  have hread : readIpv4 addr.ntop = some addr := readIpv4_eq_some_iff.mpr rfl
  unfold cascade Firewall.applyEbpfDrop
  rw [hread]
  by_cases hbpf : sys.succeeds (.bpfUpdate addr) = true
  . simp [hbpf]
  . rcases h with h | ⟨hnft, h⟩ | ⟨hipt, h⟩
    . contradiction
    . simp [hbpf, hnft, Firewall.applyNftablesDrop, Firewall.addNftRule, hread, h]
    . simp only [hbpf, Bool.false_eq_true, if_false]
      generalize (if e.nftables = true then _ else _ : Bool × Firewall) = result
      obtain ⟨nft, fw⟩ := result
      cases nft with
      | true => rfl
      | false => simp [hipt, Firewall.applyIptablesDrop, hread, h]

def Rested (e : PolicyEnforcer) (now : Time) : Prop :=
  e.isolatedNodes = ∅ ∨ enforceCooldownSec ≤ seconds (now - e.lastEnforceTime)

theorem isolateTarget_of_rested {target : Bytes} (hrested : e.Rested sys.now) (hnot : target ∉ e.isolatedNodes)
    (hsafe : e.isSafe target = false) (hip : e.resolveTarget target ≠ [])
    (hlo : onLoopback (e.resolveTarget target) = false)
    : e.isolateTarget sys target = recordIsolation sys target (e.cascade sys (e.resolveTarget target)) := by
  have hcooling : ¬(seconds (sys.now - e.lastEnforceTime) < enforceCooldownSec ∧ e.isolatedNodes ≠ ∅) := by
    rintro ⟨hwithin, hne⟩
    rcases hrested with hempty | hlong
    . exact hne hempty
    . omega
  unfold isolateTarget
  rw [if_neg hcooling, if_neg hnot, hsafe]
  simp only [Bool.false_eq_true, if_false]
  rw [if_neg hip]
  unfold enforce
  unfold onLoopback at hlo
  rw [hlo]
  rfl

def Cut (e : PolicyEnforcer) (target ip : Bytes) (port : UInt16) : Prop :=
  target ∈ e.isolatedNodes ∧ e.firewall.Covers ip port

theorem cut_isolateTarget_of_rested {target : Bytes} {addr : Ipv4} (hrested : e.Rested sys.now)
    (hnot : target ∉ e.isolatedNodes) (hsafe : e.isSafe target = false)
    (hip : e.resolveTarget target ≠ []) (hlo : onLoopback (e.resolveTarget target) = false)
    (haddr : e.resolveTarget target = addr.ntop) (hworks : e.Works sys addr)
    : (e.isolateTarget sys target).2.Cut target (e.resolveTarget target) (e.resolvePort target) := by
  have hsuccess : (e.cascade sys (e.resolveTarget target)).1 = true := by
    rw [haddr]
    exact fst_cascade_of_works hworks
  have hcovers : (e.cascade sys (e.resolveTarget target)).2.firewall.Covers _ (e.resolvePort target) :=
    covers_cascade hlo hsuccess
  rw [isolateTarget_of_rested hrested hnot hsafe hip hlo]
  generalize e.cascade sys (e.resolveTarget target) = result at *
  obtain ⟨success, e'⟩ := result
  dsimp only at hsuccess
  subst hsuccess
  exact ⟨Finset.mem_insert_self _ _, hcovers⟩

theorem cut_isolateTarget_of_mem {target ip : Bytes} {port : UInt16} (h : e.Cut target ip port)
    : (e.isolateTarget sys target).2.Cut target ip port := by
  have hisolation := isolation_isolateTarget e sys target
  generalize e.isolateTarget sys target = result at *
  cases hisolation with
  | cooling => exact h
  | again => exact h
  | refused hnot => exact absurd h.1 hnot
  | failed hnot => exact absurd h.1 hnot
  | isolated hnot => exact absurd h.1 hnot

end PolicyEnforcer

namespace MeshNode

inductive Once (base node : MeshNode C) : Prop where
  | never (h : Passive base node)
  | last (start : MeshNode C) (h : Passive base start) (evidenceJson targetId : Bytes)
      (hlog : node.log = .executeResponse evidenceJson targetId :: start.log)

theorem Once.of_passive {base node node' : MeshNode C} (h : Once node node') (hbase : Passive base node)
    : Once base node' := by
  cases h with
  | never h => exact .never (hbase.trans h)
  | last start h evidenceJson targetId hlog => exact .last start (hbase.trans h) evidenceJson targetId hlog

section Once

variable {base node : MeshNode C} {env : Env} {next : Option PBFTStage}
  {stageStr targetId evidenceJson commitSig : Bytes}

theorem once_onExecuted (h : Passive base node)
    : Once base (node.onExecuted stageStr targetId evidenceJson commitSig) := by
  unfold onExecuted
  split
  . apply Once.never
    apply passive_emit
    . exact h.trans (passive_of_log_eq rfl)
    . intro _ _
      nofun
  . split
    . exact .never h
    . have hexecuted : Passive base (node.emit (.journal (bytes "EXECUTED") targetId evidenceJson)) :=
        passive_emit h (by simp)
      exact .last _ (passive_emit hexecuted (by simp)) evidenceJson targetId rfl

theorem once_dispatch (fuel : Nat) (h : Passive base node)
    : Once base (node.dispatch fuel env next stageStr targetId evidenceJson commitSig) := by
  apply dispatch_of_passive _ _ fuel h
  . intro node h
    exact .never h
  . intro node stageStr commitSig h
    exact once_onExecuted h

end Once

variable (node : MeshNode C) (env : Env)

theorem once_processVote (vote : P2PMessage) : Once node (node.processVote env vote) := by
  unfold processVote
  split
  . exact .never (passive_of_log_eq rfl)
  . apply once_dispatch
    apply passive_receive
    apply passive_of_log_eq
    split <;> rfl

theorem once_initiateConsensus (targetId evidenceJson : Bytes)
    : Once node (node.initiateConsensus env targetId evidenceJson) := by
  have hproposed : Passive node (node.emit (.proposed targetId evidenceJson)) :=
    passive_emit (passive_of_log_eq rfl) (by simp)
  unfold initiateConsensus
  dsimp only
  split
  . exact .never hproposed
  . apply once_dispatch
    apply passive_castOwnVote
    exact hproposed.trans (passive_of_log_eq rfl)

theorem once_act (step : Step) : Once node (node.act step) := by
  by_cases hupkeep : step.action.isUpkeep
  . exact .never (keptByUpkeep_quiet.act node step hupkeep).passive
  . obtain ⟨env, dial, action⟩ := step
    unfold act
    cases action with
    | message msg senderIp =>
      dsimp only
      refine processMessage_rule node env msg senderIp (fun _ => .never (passive_of_log_eq rfl)) ?_ ?_
      . intro peerManager tokens
        exact .never (keptByUpkeep_quiet.processAnnounce { node with peerManager } _ _ _).passive
      . intro peerManager vote _
        apply (once_processVote { node with peerManager } env.right vote).of_passive
        exact passive_of_log_eq rfl
    | proposeRecentBans => exact .never (passive_proposeRecentBans_go { node with pbft := _ } env.right _)
    | initiateConsensus targetId evidenceJson => exact node.once_initiateConsensus env targetId evidenceJson
    | proposeBan targetId reason => exact .never (node.passive_proposeBan env targetId reason)
    | _ => exact absurd trivial hupkeep

variable {node} {env} {step : Step}

theorem responses_eq_filterMap {events : List (Event C)} (h : (node.act step).log = events ++ node.log)
    : ∃ f, node.responses step = events.filterMap f
        ∧ (∀ evidenceJson targetId, f (.executeResponse evidenceJson targetId) = some (evidenceJson, targetId))
        ∧ ∀ event, (∀ evidenceJson targetId, event ≠ .executeResponse evidenceJson targetId) → f event = none := by
  unfold responses
  rw [h, List.length_append, Nat.add_sub_cancel, List.take_left]
  refine ⟨_, rfl, fun _ _ => rfl, ?_⟩
  intro event hne
  split
  . next evidenceJson targetId => exact absurd rfl (hne evidenceJson targetId)
  . rfl

theorem filterMap_eq_nil_of_passive {events : List (Event C)} {f : Event C → Option (Bytes × Bytes)}
    (h : ∀ evidenceJson targetId, .executeResponse evidenceJson targetId ∉ events)
    (hf : ∀ event, (∀ evidenceJson targetId, event ≠ .executeResponse evidenceJson targetId) → f event = none)
    : events.filterMap f = [] := by
  rw [List.filterMap_eq_nil_iff]
  intro event hmem
  apply hf
  rintro evidenceJson targetId rfl
  exact h evidenceJson targetId hmem

theorem responses_of_passive (h : Passive node (node.act step)) : node.responses step = [] := by
  obtain ⟨events, hlog, hnone⟩ := h
  obtain ⟨f, heq, -, hf⟩ := responses_eq_filterMap hlog
  rw [heq]
  exact filterMap_eq_nil_of_passive hnone hf

theorem responses_eq_singleton {evidenceJson targetId : Bytes} (h : (evidenceJson, targetId) ∈ node.responses step)
    : node.responses step = [(evidenceJson, targetId)] := by
  cases node.once_act step with
  | never hpassive =>
    rw [responses_of_passive hpassive] at h
    contradiction
  | last start hpassive evidenceJson' targetId' hlog =>
    obtain ⟨events, hstart, hnone⟩ := hpassive
    rw [hstart] at hlog
    rw [← List.cons_append] at hlog
    obtain ⟨f, heq, hresponse, hf⟩ := responses_eq_filterMap hlog
    rw [List.filterMap_cons_some (hresponse _ _), filterMap_eq_nil_of_passive hnone hf] at heq
    rw [heq, List.mem_singleton] at h
    rw [heq, h]

theorem registrations_eq_nil_or_passive (node : MeshNode C) (step : Step)
    : node.registrations step = [] ∨ Passive node (node.act step) := by
  obtain ⟨env, dial, action⟩ := step
  unfold registrations act
  cases action with
  | message msg senderIp =>
    by_cases hhead : (splitString msg pipe).head? = some (bytes "ANNOUNCE")
    . apply Or.inr
      dsimp only
      rw [processMessage_eq]
      have hlimited : Passive node (node.afterLimit env senderIp) := passive_of_log_eq rfl
      split
      . unfold readMessage
        dsimp only
        rw [if_pos hhead]
        split
        . exact hlimited
        . exact hlimited.trans (keptByUpkeep_quiet.processAnnounce _ _ _ _).passive
      . exact hlimited
    . apply Or.inl
      dsimp only
      split
      . rfl
      . rw [if_pos (.inr (.inr hhead))]
  | discovery msg senderIp => exact .inr (keptByUpkeep_quiet.processDiscovery node env dial msg senderIp).passive
  | _ => exact .inl rfl

end MeshNode

namespace Agent

open MeshNode (new stepAt)
open PolicyEnforcer (Rested)

variable {agent : Agent C}

theorem enforcer_act_of_mem_responses {p : Platform} {step : MeshNode.Step} {evidenceJson targetId : Bytes}
    (h : (evidenceJson, targetId) ∈ agent.node.responses step)
    : (agent.act (.node p step)).enforcer
        =
      (MitigationEngine.executeResponse p agent.enforcer evidenceJson targetId).2.2 := by
  have hregistrations : agent.node.registrations step = [] := by
    rcases agent.node.registrations_eq_nil_or_passive step with hnil | hpassive
    . exact hnil
    . rw [MeshNode.responses_of_passive hpassive] at h
      contradiction
  unfold act calls
  dsimp only
  rw [hregistrations, MeshNode.responses_eq_singleton h]
  rfl

def Named (agent : Agent C) : Prop :=
  agent.enforcer.peerIpMap[([] : Bytes)]? = none

theorem Named.act (h : agent.Named) (input : Input) : (agent.act input).Named := by
  rcases PolicyEnforcer.peerIpMap_foldl_step agent.enforcer (agent.calls input) [] with hsame | ⟨_, _, hne, _⟩
  . exact hsame.trans h
  . contradiction

theorem Named.ne_nil (h : agent.Named) {target : Bytes} (hip : agent.enforcer.resolveTarget target ≠ [])
    : target ≠ [] := by
  rintro rfl
  apply hip
  unfold PolicyEnforcer.resolveTarget
  have hvalid : isValidIp [] = false := by decide
  rw [hvalid, Std.ExtTreeMap.getD_eq_getD_getElem?, h]
  rfl

structure Due (e : PolicyEnforcer) (p : Platform) (evidenceJson targetId : Bytes) : Prop where
  backend : ∀ addr, e.Works p.isolate addr
  safe : e.isSafe targetId = false
  schema : MitigationEngine.validateEvidenceSchema p evidenceJson = true
  resolves : e.resolveTarget targetId ≠ []
  remote : onLoopback (e.resolveTarget targetId) = false

def Enforces (agent : Agent C) (input : Input) : Prop :=
  match input with
  | .node p step =>
    ∀ evidenceJson targetId, (evidenceJson, targetId) ∈ agent.node.responses step →
      Due agent.enforcer p evidenceJson targetId →
      (agent.act input).enforcer.Cut targetId (agent.enforcer.resolveTarget targetId)
        (agent.enforcer.resolvePort targetId)
  | _ => True

/--
What the enforcer needs in order to carry out a decision: it is not cooling down from another one, the address
is one that the backends can block, and a target that it takes for isolated is cut off from its current address.
-/
structure Ready (e : PolicyEnforcer) (p : Platform) (evidenceJson targetId : Bytes) : Prop where
  hashed : p.sha256Hex evidenceJson ≠ []
  isolated : targetId ∈ e.isolatedNodes →
    e.firewall.Covers (e.resolveTarget targetId) (e.resolvePort targetId)
  rested : targetId ∉ e.isolatedNodes → e.Rested p.isolate.now
  ipv4 : targetId ∉ e.isolatedNodes → isValidIpv4 (e.resolveTarget targetId) = true

def Unhindered (agent : Agent C) (input : Input) : Prop :=
  match input with
  | .node p step =>
    ∀ evidenceJson targetId, (evidenceJson, targetId) ∈ agent.node.responses step →
      Due agent.enforcer p evidenceJson targetId →
      Ready agent.enforcer p evidenceJson targetId
  | _ => True

theorem cut_executeResponse {e : PolicyEnforcer} {p : Platform} {evidenceJson targetId : Bytes}
    (hdue : Due e p evidenceJson targetId) (hready : Ready e p evidenceJson targetId) (hne : targetId ≠ [])
    : (MitigationEngine.executeResponse p e evidenceJson targetId).2.2.Cut targetId (e.resolveTarget targetId)
        (e.resolvePort targetId) := by
  have haccepts : MitigationEngine.accepts p evidenceJson = true := by
    unfold MitigationEngine.accepts
    rw [hdue.schema]
    exact decide_eq_true hready.hashed
  have hblock := MitigationEngine.attempted_blockSource p e evidenceJson
  unfold MitigationEngine.executeResponse
  rw [if_pos haccepts]
  dsimp only
  generalize MitigationEngine.blockSource p e evidenceJson = result at *
  obtain ⟨blocked, e'⟩ := result
  unfold MitigationEngine.isolateNode
  rw [if_pos hne]
  have hip := hblock.toKept.resolveTarget targetId
  have hport := hblock.toKept.resolvePort targetId
  by_cases hmem : targetId ∈ e.isolatedNodes
  . apply PolicyEnforcer.cut_isolateTarget_of_mem
    constructor
    . rw [hblock.isolatedNodes]
      exact hmem
    . exact hblock.firewall.covers (hready.isolated hmem)
  . obtain ⟨addr, haddr⟩ := Option.isSome_iff_exists.mp (hready.ipv4 hmem)
    rw [readIpv4_eq_some_iff] at haddr
    rw [← hip, ← hport]
    apply PolicyEnforcer.cut_isolateTarget_of_rested
    . have hrested := hready.rested hmem
      unfold Rested at hrested ⊢
      rw [hblock.isolatedNodes, hblock.lastEnforceTime]
      exact hrested
    . rw [hblock.isolatedNodes]
      exact hmem
    . rw [hblock.toKept.isSafe]
      exact hdue.safe
    . rw [hip]
      exact hdue.resolves
    . rw [hip]
      exact hdue.remote
    . rw [hip]
      exact haddr
    . have hworks := hdue.backend addr
      unfold PolicyEnforcer.Works at hworks ⊢
      rw [hblock.nftables, hblock.iptables]
      exact hworks

theorem enforces_of_unhindered {input : Input} (hnamed : agent.Named) (h : agent.Unhindered input)
    : agent.Enforces input := by
  cases input with
  | node p step =>
    intro evidenceJson targetId hmem hdue
    rw [enforcer_act_of_mem_responses hmem]
    exact cut_executeResponse hdue (h evidenceJson targetId hmem hdue) (hnamed.ne_nil hdue.resolves)
  | _ => trivial

theorem along_enforces_of_unhindered (node : MeshNode C) (nftables iptables : Bool) (inputs : List Input)
    (h : Run.Along act Unhindered { node, enforcer := { nftables, iptables } } inputs)
    : Run.Along act Enforces { node, enforcer := { nftables, iptables } } inputs := by
  apply Run.along_of_invariant (I := Named) _ _ h
  . intro agent input hnamed hunhindered
    exact ⟨enforces_of_unhindered hnamed hunhindered, hnamed.act input⟩
  . rfl

section Sample

def deciding : Agent .plain where
  node :=
    let settings := { peerKeys := some (bytes "B:-----BEGIN"), pbftRateMax := some (bytes "100") }
    (new .plain (bytes "A") (bytes "A") (bytes "A") settings).act
      (stepAt 0 (.pex (bytes "PEX|X|1|B:10.0.0.1:9000")))
  enforcer := sampleEnforcer

def scanned : Bytes := bytes "\x7b\"event\":\"scan\"\x7d"

def decides (now : Time) (target : String) : Input :=
  .node (samplePlatform now) (stepAt now (.initiateConsensus (bytes target) scanned))

theorem unhindered_of_responses {p : Platform} {step : MeshNode.Step} {evidenceJson targetId : Bytes}
    (h : agent.node.responses step = [(evidenceJson, targetId)])
    (hready : Ready agent.enforcer p evidenceJson targetId)
    : agent.Unhindered (.node p step) := by
  intro evidenceJson' targetId' hmem _
  rw [h, List.mem_singleton] at hmem
  cases hmem
  exact hready

theorem along_enforces_inTime
    : let inputs := [decides 10000000000 "10.0.0.2", decides 15000000000 "10.0.0.3"]
      Run.Along act Enforces deciding inputs
        ∧ (inputs.foldl act deciding).enforcer.isolatedNodes = {bytes "10.0.0.2", bytes "10.0.0.3"} := by
  intro inputs
  -- both of them in one evaluation
  have hrun : (deciding.act (decides 10000000000 "10.0.0.2")).node.responses
        (stepAt 15000000000 (.initiateConsensus (bytes "10.0.0.3") scanned)) = [(scanned, bytes "10.0.0.3")]
      ∧ (inputs.foldl act deciding).enforcer.isolatedNodes = {bytes "10.0.0.2", bytes "10.0.0.3"} := by
    decide +kernel
  refine ⟨?_, hrun.2⟩
  apply along_enforces_of_unhindered deciding.node true true inputs
  have hfirst : Ready deciding.enforcer (samplePlatform 10000000000) scanned (bytes "10.0.0.2") := by
    refine ⟨by decide +kernel, nofun, fun _ => .inl rfl, fun _ => ?_⟩
    decide +kernel
  have hsecond : Ready (deciding.act (decides 10000000000 "10.0.0.2")).enforcer (samplePlatform 15000000000)
      scanned (bytes "10.0.0.3") := by
    refine ⟨by decide +kernel, fun hmem => absurd hmem ?_, fun _ => .inr ?_, fun _ => ?_⟩
    . decide +kernel
    . decide +kernel
    . decide +kernel
  refine ⟨?_, ?_, trivial⟩
  . exact unhindered_of_responses (by decide +kernel) hfirst
  . exact unhindered_of_responses hrun.1 hsecond

/--
Every backend works, but none of them can block an address of IPv6.
-/
theorem not_along_enforces_ipv6
    : ¬ ∀ inputs, Run.Along act Enforces deciding inputs := by
  intro h
  have hrun := h [decides 10000000000 "2001:db8::2"]
  have hdue : Due deciding.enforcer (samplePlatform 10000000000) scanned (bytes "2001:db8::2") := by
    refine ⟨?_, by decide +kernel, by decide +kernel, by decide +kernel, by decide +kernel⟩
    intro addr
    exact .inl rfl
  have hlost : (scanned, bytes "2001:db8::2") ∈ deciding.node.responses
        (stepAt 10000000000 (.initiateConsensus (bytes "2001:db8::2") scanned))
      ∧ bytes "2001:db8::2" ∉ (deciding.act (decides 10000000000 "2001:db8::2")).enforcer.isolatedNodes := by
    decide +kernel
  exact hlost.2 (hrun.1 _ _ hlost.1 hdue).1

end Sample

end Agent
end NeuroMesh
