import NeuroMesh.Enforcer.Lemmas.Calls
import NeuroMesh.Enforcer.Lemmas.Listing

namespace NeuroMesh

namespace Firewall

variable {sys : System} {rules : List NftRule} {rule : NftRule} {ip : Bytes}

structure Found (sys : System) (matchSubstr : Bytes) (rules : List NftRule) (select : NftSpec → Prop)
    (rule : NftRule) : Prop where
  listed : sys.succeeds (.nftList matchSubstr) = true
  read : ∃ other, (rule.handle, other) ∈ shown (sys.counted matchSubstr) room rules ∧ select other.spec
  handle_lt : rule.handle < 2 ^ 31
  deleted : sys.succeeds (.nftDelete rule.handle) = true

instance (sys : System) (matchSubstr : Bytes) (rules : List NftRule) (select : NftSpec → Prop) [DecidablePred select]
    (rule : NftRule) : Decidable (Found sys matchSubstr rules select rule) :=
  decidable_of_iff
    (sys.succeeds (.nftList matchSubstr) = true
      ∧ (∃ line ∈ shown (sys.counted matchSubstr) room rules, line.1 = rule.handle ∧ select line.2.spec)
      ∧ rule.handle < 2 ^ 31 ∧ sys.succeeds (.nftDelete rule.handle) = true)
    ⟨fun ⟨hlisted, ⟨line, hmem, heq, hselect⟩, hlt, hdeleted⟩ =>
        ⟨hlisted, ⟨line.2, heq ▸ hmem, hselect⟩, hlt, hdeleted⟩,
      fun ⟨hlisted, ⟨other, hmem, hselect⟩, hlt, hdeleted⟩ =>
        ⟨hlisted, ⟨(rule.handle, other), hmem, rfl, hselect⟩, hlt, hdeleted⟩⟩

theorem deletes_iff_found {matchSubstr : Bytes} {select : NftSpec → Prop}
    (hmatch : bytes "ip saddr " <+: matchSubstr)
    (hselect : ∀ spec counted, matchSubstr <:+: NftSpec.front spec counted ↔ select spec)
    : Deletes sys matchSubstr rules rule ↔ Found sys matchSubstr rules select rule := by
  unfold Deletes
  rw [mem_findNftHandles_listing_iff hmatch]
  simp only [hselect]
  constructor
  . rintro ⟨hlisted, ⟨hlt, hread⟩, hdeleted⟩
    exact ⟨hlisted, hread, hlt, hdeleted⟩
  . intro h
    exact ⟨h.listed, ⟨h.handle_lt, h.read⟩, h.deleted⟩

def FoundByAddress (sys : System) (rules : List NftRule) (ip : Bytes) (rule : NftRule) : Prop :=
  Found sys (saddrMatch ip) rules (fun spec => ip <+: spec.saddr.ntop) rule

instance (sys : System) (rules : List NftRule) (ip : Bytes) : DecidablePred (FoundByAddress sys rules ip) :=
  fun _ => inferInstanceAs (Decidable (Found _ _ _ _ _))

def StartsWithPort (ip : Bytes) (transport : Transport) (port : UInt16) (spec : NftSpec) : Prop :=
  ip = spec.saddr.ntop
    ∧ ∃ port' : UInt16, spec.dport = some (transport, port') ∧ toDecimal port.toNat <+: toDecimal port'.toNat

instance (ip : Bytes) (transport : Transport) (port : UInt16) : DecidablePred (StartsWithPort ip transport port) :=
  fun spec =>
    match hdport : spec.dport with
    | none => isFalse fun ⟨_, port', heq, _⟩ => by
      rw [hdport] at heq
      contradiction
    | some (transport', port') =>
      decidable_of_iff
        (ip = spec.saddr.ntop ∧ transport' = transport ∧ toDecimal port.toNat <+: toDecimal port'.toNat)
        ⟨fun ⟨hip, htransport, hport⟩ => ⟨hip, port', htransport ▸ hdport, hport⟩,
          fun ⟨hip, port'', heq, hport⟩ => by
            rw [hdport, Option.some.injEq, Prod.mk.injEq] at heq
            obtain ⟨rfl, rfl⟩ := heq
            exact ⟨hip, rfl, hport⟩⟩

def FoundByPort (sys : System) (rules : List NftRule) (ip : Bytes) (transport : Transport) (port : UInt16)
    (rule : NftRule) : Prop :=
  Found sys (dportMatch ip transport port) rules (StartsWithPort ip transport port) rule

instance (sys : System) (rules : List NftRule) (ip : Bytes) (transport : Transport) (port : UInt16) :
    DecidablePred (FoundByPort sys rules ip transport port) :=
  fun _ => inferInstanceAs (Decidable (Found _ _ _ _ _))

theorem deletes_saddrMatch_iff (h : isValidIp ip = true)
    : Deletes sys (saddrMatch ip) rules rule ↔ FoundByAddress sys rules ip rule := by
  apply deletes_iff_found
  . exact List.prefix_append _ _
  . intro spec counted
    exact saddrMatch_iff spec counted h

theorem deletes_dportMatch_iff (h : isValidIp ip = true) (transport : Transport) (port : UInt16)
    : Deletes sys (dportMatch ip transport port) rules rule ↔ FoundByPort sys rules ip transport port rule := by
  apply deletes_iff_found
  . unfold dportMatch saddrMatch
    simp only [List.append_assoc]
    exact List.prefix_append _ _
  . intro spec counted
    exact dportMatch_iff spec counted h transport port

end Firewall

namespace PolicyEnforcer

open Firewall

variable {e : PolicyEnforcer} {sys : System} {target : Bytes}

def Hit (e : PolicyEnforcer) (sys : System) (target : Bytes) (rule : NftRule) : Prop :=
  let ip := e.resolveTarget target
  let port := e.resolvePort target
  let rules := e.firewall.rules
  ip ≠ []
    ∧
  if onLoopback ip then
    port ≠ 0
      ∧ (FoundByPort sys rules ip .tcp port rule
        ∨ FoundByPort sys (rules.filter (¬FoundByPort sys rules ip .tcp port ·)) ip .udp port rule)
  else
    FoundByAddress sys rules ip rule

instance (e : PolicyEnforcer) (sys : System) (target : Bytes) : DecidablePred (e.Hit sys target) :=
  fun _ => inferInstanceAs (Decidable (_ ∧ ite _ _ _))

theorem rules_removeNftablesPortDrop (fw : Firewall) {ip : Bytes} (hvalid : isValidIp ip = true) {port : UInt16}
    (hport : port ≠ 0)
    : (fw.removeNftablesPortDrop sys ip port).2.rules
        =
      fw.rules.filter fun rule =>
        ¬(FoundByPort sys fw.rules ip .tcp port rule
          ∨ FoundByPort sys (fw.rules.filter (¬FoundByPort sys fw.rules ip .tcp port ·)) ip .udp port rule) := by
  unfold removeNftablesPortDrop
  rw [if_neg hport]
  dsimp only
  rw [snd_removeNftablesRulesMatching, snd_removeNftablesRulesMatching]
  simp only [deletes_dportMatch_iff hvalid]
  rw [List.filter_filter]
  congr 1
  funext rule
  rw [← Bool.decide_and, decide_eq_decide, not_or, and_comm]

theorem rules_releaseTarget (hsound : e.Sound) (hmem : target ∈ e.isolatedNodes)
    : (e.releaseTarget sys target).firewall.rules = e.firewall.rules.filter (¬e.Hit sys target ·) := by
  rw [releaseTarget_of_mem hmem]
  unfold releasedFirewall Hit
  dsimp only
  rcases hsound.resolveTarget target with hnil | hvalid
  . simp [hnil]
  . have hne : e.resolveTarget target ≠ [] := by
      intro hnil
      rw [hnil] at hvalid
      exact absurd hvalid (by decide +kernel)
    rw [if_neg hne]
    simp only [ne_eq, hne, not_false_eq_true, true_and]
    split
    . by_cases hport : e.resolvePort target = 0
      . unfold removeNftablesPortDrop
        simp [hport]
      . rw [rules_removeNftablesPortDrop _ hvalid hport]
        simp only [hport, not_false_eq_true, true_and]
    . rw [rules_removeIptablesDrop, removeNftablesDrop, snd_removeNftablesRulesMatching]
      simp only [rules_removeEbpfDrop, deletes_saddrMatch_iff hvalid]

section Exactly

def OfTarget (e : PolicyEnforcer) (target : Bytes) (rule : NftRule) : Prop :=
  rule.spec.saddr.ntop = e.resolveTarget target
    ∧ (onLoopback (e.resolveTarget target) = true →
      rule.spec.dport.map Prod.snd = some (e.resolvePort target))

instance (e : PolicyEnforcer) (target : Bytes) : DecidablePred (e.OfTarget target) :=
  fun _ => inferInstanceAs (Decidable (_ ∧ _))

def ReleasesExactly (e : PolicyEnforcer) (sys : System) (target : Bytes) : Prop :=
  (e.releaseTarget sys target).firewall.rules = e.firewall.rules.filter (¬e.OfTarget target ·)

instance (e : PolicyEnforcer) (sys : System) (target : Bytes) : Decidable (e.ReleasesExactly sys target) :=
  inferInstanceAs (Decidable (_ = _))

structure Selective (e : PolicyEnforcer) (sys : System) (target : Bytes) : Prop where
  finds : ∀ rule ∈ e.firewall.rules, e.OfTarget target rule → e.Hit sys target rule
  spares : ∀ rule ∈ e.firewall.rules, e.Hit sys target rule → e.OfTarget target rule

theorem releasesExactly_iff (e : PolicyEnforcer) (hsound : e.Sound) (sys : System) (target : Bytes)
    (hmem : target ∈ e.isolatedNodes)
    : e.ReleasesExactly sys target ↔ e.Selective sys target := by
  unfold ReleasesExactly
  rw [rules_releaseTarget hsound hmem]
  constructor
  . intro h
    have hiff : ∀ rule ∈ e.firewall.rules, e.Hit sys target rule ↔ e.OfTarget target rule := by
      intro rule hrule
      have hmem := congrArg (rule ∈ ·) h
      simpa [List.mem_filter, hrule, not_iff_not] using hmem
    exact ⟨fun rule hrule => (hiff rule hrule).mpr, fun rule hrule => (hiff rule hrule).mp⟩
  . intro h
    apply List.filter_congr
    intro rule hrule
    rw [decide_eq_decide, not_iff_not]
    exact ⟨h.spares rule hrule, h.finds rule hrule⟩

def nftSystem (now : Time) : System where
  now
  doneAt := now
  succeeds command :=
    match command with
    | .bpfUpdate _ => false
    | .bpfDelete _ => false
    | _ => true
  counted _ _ := (0, 0)

def isolating (first second : String) : List Call :=
  [
    .isolateTarget (nftSystem 0) (bytes first),
    .isolateTarget (nftSystem (10 * 10 ^ 9)) (bytes second)
  ]

theorem sound_isolating (first second : String) : ((isolating first second).foldl step sampleEnforcer).Sound :=
  sound_foldl_step true true _

theorem releasesExactly_iff_isolating
    : let e := (isolating "10.0.0.1" "10.0.0.2").foldl step sampleEnforcer
      e.ReleasesExactly (nftSystem 0) (bytes "10.0.0.1")
        ∧
      (e.ReleasesExactly (nftSystem 0) (bytes "10.0.0.1") ↔ e.Selective (nftSystem 0) (bytes "10.0.0.1")) :=
  ⟨by decide +kernel, releasesExactly_iff _ (sound_isolating _ _) _ _ (by decide +kernel)⟩

-- the first address is how the second one starts
theorem not_releasesExactly_isolating
    : let e := (isolating "10.0.0.1" "10.0.0.10").foldl step sampleEnforcer
      bytes "10.0.0.10" ∈ e.isolatedNodes
        ∧ (e.releaseTarget (nftSystem 0) (bytes "10.0.0.1")).firewall.rules = []
        ∧ ¬e.ReleasesExactly (nftSystem 0) (bytes "10.0.0.1") := by
  decide +kernel

end Exactly

section Undoes

variable {rule : DropRule}

def Undone (e : PolicyEnforcer) (sys : System) (target : Bytes) (rule : DropRule) : Prop :=
  match rule with
  | .ebpf addr => e.resolveTarget target = addr.ntop ∧ sys.succeeds (.bpfDelete addr) = true
  | .nft rule => e.Hit sys target rule
  | .ipt rule =>
    e.resolveTarget target = rule.saddr.ntop
      ∧ sys.succeeds (.iptablesDelete rule.saddr) = true
      -- of the rules that look the same the first one is deleted
      ∧ e.firewall.input.find? (fun other => other.saddr = rule.saddr) = some rule

theorem inForce_ebpf_releaseTarget_iff {addr : Ipv4} (hmem : target ∈ e.isolatedNodes)
    (hlo : onLoopback addr.ntop = false) (hforce : e.firewall.InForce (.ebpf addr))
    : (e.releaseTarget sys target).firewall.InForce (.ebpf addr) ↔ ¬e.Undone sys target (.ebpf addr) := by
  have hforce : e.firewall.blacklist[addr.key]? = some 1 := hforce
  show (e.releaseTarget sys target).firewall.blacklist[addr.key]? = some 1
    ↔ ¬(e.resolveTarget target = addr.ntop ∧ sys.succeeds (.bpfDelete addr) = true)
  cases hloop : onLoopback (e.resolveTarget target) with
  | true =>
    obtain ⟨rules, hfirewall⟩ := releaseTarget_of_onLoopback sys hloop
    rw [hfirewall, iff_true_left hforce]
    rintro ⟨heq, _⟩
    rw [heq, hlo] at hloop
    contradiction
  | false =>
    rw [blacklist_releaseTarget_of_mem hmem hloop]
    cases hread : readIpv4 (e.resolveTarget target) with
    | none =>
      rw [removeEbpfDrop_of_readIpv4_eq_none hread, iff_true_left hforce]
      rintro ⟨heq, _⟩
      rw [readIpv4_eq_some_iff.mpr heq] at hread
      contradiction
    | some addr' =>
      have hip := readIpv4_eq_some_iff.mp hread
      rw [hip, Ipv4.ntop_injective.eq_iff]
      rw [getElem?_removeEbpfDrop rfl]
      simp only [Ipv4.key_injective.eq_iff]
      split
      . next h =>
        obtain ⟨hdelete, rfl⟩ := h
        simp [hdelete]
      . next h =>
        rw [iff_true_left hforce]
        rintro ⟨rfl, hdelete⟩
        exact h ⟨hdelete, rfl⟩

theorem mem_eraseP_iff_find? {α : Type} {p : α → Bool} {l : List α} {a : α} (hnodup : l.Nodup) (ha : a ∈ l)
    : a ∈ l.eraseP p ↔ l.find? p ≠ some a := by
  induction l with
  | nil => contradiction
  | cons b l ih =>
    rw [List.nodup_cons] at hnodup
    cases hp : p b with
    | true =>
      rw [List.eraseP_cons_of_pos hp, List.find?_cons_of_pos hp, Ne, Option.some.injEq]
      constructor
      . rintro hmem rfl
        exact hnodup.1 hmem
      . intro hne
        exact (List.mem_cons.mp ha).resolve_left (Ne.symm hne)
    | false =>
      have hp : ¬p b = true := Bool.not_eq_true _ ▸ hp
      rw [List.eraseP_cons_of_neg hp, List.find?_cons_of_neg hp, List.mem_cons]
      rcases List.mem_cons.mp ha with rfl | hmem
      . simp only [true_or, true_iff]
        intro hfind
        exact hnodup.1 (List.mem_of_find?_eq_some hfind)
      . rw [ih hnodup.2 hmem, or_iff_right]
        rintro rfl
        exact hnodup.1 hmem

theorem inForce_ipt_releaseTarget_iff {rule : IptRule} (hsound : e.Sound) (hmem : target ∈ e.isolatedNodes)
    (hlo : onLoopback rule.saddr.ntop = false) (hforce : e.firewall.InForce (.ipt rule))
    : (e.releaseTarget sys target).firewall.InForce (.ipt rule) ↔ ¬e.Undone sys target (.ipt rule) := by
  have hforce : rule ∈ e.firewall.input := hforce
  show rule ∈ (e.releaseTarget sys target).firewall.input
    ↔ ¬(e.resolveTarget target = rule.saddr.ntop ∧ sys.succeeds (.iptablesDelete rule.saddr) = true
      ∧ e.firewall.input.find? (fun other => other.saddr = rule.saddr) = some rule)
  cases hloop : onLoopback (e.resolveTarget target) with
  | true =>
    obtain ⟨rules, hfirewall⟩ := releaseTarget_of_onLoopback sys hloop
    rw [hfirewall, iff_true_left hforce]
    rintro ⟨heq, _⟩
    rw [heq, hlo] at hloop
    contradiction
  | false =>
    obtain ⟨fw, hfw, hinput⟩ : ∃ fw : Firewall, fw.input = e.firewall.input
        ∧ (e.releaseTarget sys target).firewall.input
          = (fw.removeIptablesDrop sys (e.resolveTarget target)).2.input :=
      input_releaseTarget_of_mem hmem hloop
    rw [hinput]
    cases hread : readIpv4 (e.resolveTarget target) with
    | none =>
      rw [removeIptablesDrop_of_readIpv4_eq_none hread, hfw, iff_true_left hforce]
      rintro ⟨heq, _⟩
      rw [readIpv4_eq_some_iff.mpr heq] at hread
      contradiction
    | some saddr =>
      have hip := readIpv4_eq_some_iff.mp hread
      rw [input_removeIptablesDrop _ hip, hfw, hip, Ipv4.ntop_injective.eq_iff]
      split
      . next hdelete =>
        by_cases heq : saddr = rule.saddr
        . subst heq
          rw [mem_eraseP_iff_find? (List.Nodup.of_map _ hsound.numbered.numbers) hforce]
          simp [hdelete]
        . rw [List.mem_eraseP_of_neg (by simpa using Ne.symm heq), iff_true_left hforce]
          exact fun h => heq h.1
      . next hdelete =>
        rw [iff_true_left hforce]
        rintro ⟨rfl, htrue, _⟩
        exact hdelete htrue

theorem inForce_releaseTarget_iff (hsound : e.Sound) (hmem : target ∈ e.isolatedNodes)
    (hlo : onLoopback rule.saddr.ntop = true → rule.dport ≠ none) (hforce : e.firewall.InForce rule)
    : (e.releaseTarget sys target).firewall.InForce rule ↔ ¬e.Undone sys target rule := by
  cases rule with
  | ebpf addr =>
    apply inForce_ebpf_releaseTarget_iff hmem _ hforce
    exact Bool.eq_false_of_not_eq_true fun htrue => hlo htrue rfl
  | nft rule =>
    have hforce : rule ∈ e.firewall.rules := hforce
    show rule ∈ (e.releaseTarget sys target).firewall.rules ↔ ¬e.Hit sys target rule
    rw [rules_releaseTarget hsound hmem, List.mem_filter]
    simp [hforce]
  | ipt rule =>
    apply inForce_ipt_releaseTarget_iff hsound hmem _ hforce
    exact Bool.eq_false_of_not_eq_true fun htrue => hlo htrue rfl

def installedSince (e e' : PolicyEnforcer) : List DropRule :=
  e'.firewall.installed.take (e'.firewall.installed.length - e.firewall.installed.length)

/--
What may happen while the target is isolated: other targets are isolated, addresses are blocked, and everybody
is registered anew.
-/
def Meanwhile (target : Bytes) (call : Call) : Prop :=
  match call with
  | .registerPeerIp _ _ => True
  | .registerPeerPort _ _ => True
  | .blockIpAddress _ _ => True
  | .isolateTarget _ other => other ≠ target
  | _ => False

theorem inForce_step_of_meanwhile {call : Call} (h : Meanwhile target call) (hforce : e.firewall.InForce rule)
    : (e.step call).firewall.InForce rule := by
  cases call with
  | registerPeerIp nodeId ip =>
    rw [step, registerPeerIp]
    split <;> exact hforce
  | registerPeerPort nodeId port =>
    rw [step, registerPeerPort]
    split <;> exact hforce
  | blockIpAddress sys ip => exact (attempted_blockIpAddress e sys ip).firewall.inForce hforce
  | isolateTarget sys other => exact (grows_isolateTarget e sys other).inForce hforce
  | _ => contradiction

theorem inForce_foldl_step_of_meanwhile {later : List Call} (h : ∀ call ∈ later, Meanwhile target call)
    (hforce : e.firewall.InForce rule)
    : (later.foldl step e).firewall.InForce rule := by
  induction later generalizing e with
  | nil => exact hforce
  | cons call later ih =>
    rw [List.forall_mem_cons] at h
    exact ih h.2 (inForce_step_of_meanwhile h.1 hforce)

theorem dport_ne_none_of_forTarget (h : ForTarget e target rule) (hlo : onLoopback rule.saddr.ntop = true)
    : rule.dport ≠ none := by
  rw [h.saddr] at hlo
  rw [forTarget_of_onLoopback hlo] at h
  obtain ⟨_, transport, hdport⟩ := h
  rw [hdport]
  exact Option.some_ne_none _

theorem mem_installedSince_isolateTarget (h : rule ∈ e.installedSince (e.isolateTarget sys target).2)
    : ForTarget e target rule ∧ (e.isolateTarget sys target).2.firewall.InForce rule := by
  obtain ⟨new, hnew, hall⟩ := (grows_isolateTarget e sys target).installed
  unfold installedSince at h
  rw [hnew, List.length_append, Nat.add_sub_cancel, List.take_left] at h
  exact ⟨(hall rule h).1.1, (hall rule h).2⟩

theorem undoes_iff (nftables iptables : Bool) (before later : List Call) (sys sys' : System) (target : Bytes)
    (hlater : ∀ call ∈ later, Meanwhile target call)
    : let e₁ := before.foldl step { nftables, iptables }
      let e₂ := (e₁.isolateTarget sys target).2
      let e₃ := later.foldl step e₂
      (e₁.isolateTarget sys target).1 = true → target ∈ e₃.isolatedNodes →
        ((∀ rule ∈ e₁.installedSince e₂, ¬(e₃.releaseTarget sys' target).firewall.InForce rule)
          ↔
        ∀ rule ∈ e₁.installedSince e₂, e₃.Undone sys' target rule) := by
  intro e₁ e₂ e₃ _ hmem
  have hsound : e₃.Sound := by
    have h := sound_foldl_step nftables iptables (before ++ .isolateTarget sys target :: later)
    rwa [List.foldl_append, List.foldl_cons] at h
  have hiff : ∀ rule ∈ e₁.installedSince e₂,
      (e₃.releaseTarget sys' target).firewall.InForce rule ↔ ¬e₃.Undone sys' target rule := by
    intro rule hrule
    obtain ⟨htarget, hforce⟩ := mem_installedSince_isolateTarget hrule
    exact inForce_releaseTarget_iff hsound hmem (dport_ne_none_of_forTarget htarget)
      (inForce_foldl_step_of_meanwhile hlater hforce)
  constructor
  . intro h rule hrule
    have hgone := h rule hrule
    rwa [hiff rule hrule, not_not] at hgone
  . intro h rule hrule
    rw [hiff rule hrule, not_not]
    exact h rule hrule

def joining (nodeId ip : String) : Call :=
  .registerPeerIp (bytes nodeId) (bytes ip)

theorem undoes_iff_joining
    : let e₁ := [joining "NODE2" "10.0.0.1"].foldl step sampleEnforcer
      let e₂ := (e₁.isolateTarget (workingSystem 0) (bytes "NODE2")).2
      let e₃ := [joining "NODE3" "10.0.0.2"].foldl step e₂
      e₁.installedSince e₂ = [.ebpf ⟨10, 0, 0, 1⟩]
        ∧
      ((∀ rule ∈ e₁.installedSince e₂, ¬(e₃.releaseTarget (workingSystem 0) (bytes "NODE2")).firewall.InForce rule)
        ↔
      ∀ rule ∈ e₁.installedSince e₂, e₃.Undone (workingSystem 0) (bytes "NODE2") rule) :=
  ⟨by decide +kernel,
    undoes_iff true true [joining "NODE2" "10.0.0.1"] [joining "NODE3" "10.0.0.2"] (workingSystem 0) (workingSystem 0)
      (bytes "NODE2") (List.forall_mem_singleton.mpr trivial) (by decide +kernel) (by decide +kernel)⟩

-- the node has got another address when it is released
theorem not_undoes_joining
    : let e₁ := [joining "NODE2" "10.0.0.1"].foldl step sampleEnforcer
      let e₂ := (e₁.isolateTarget (workingSystem 0) (bytes "NODE2")).2
      let e₃ := [joining "NODE2" "10.0.0.2"].foldl step e₂
      (e₁.isolateTarget (workingSystem 0) (bytes "NODE2")).1 = true
        ∧ bytes "NODE2" ∈ e₃.isolatedNodes
        ∧ ¬∀ rule ∈ e₁.installedSince e₂,
          ¬(e₃.releaseTarget (workingSystem 0) (bytes "NODE2")).firewall.InForce rule := by
  decide +kernel

end Undoes

end PolicyEnforcer
end NeuroMesh
