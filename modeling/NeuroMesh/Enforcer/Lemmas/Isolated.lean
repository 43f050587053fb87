import NeuroMesh.Enforcer.Lemmas.Release
import NeuroMesh.Enforcer.Lemmas.SafeList

namespace NeuroMesh

namespace Firewall

variable {sys : System} {rules : List NftRule} {rule : NftRule} {ip : Bytes}

def Fits (sys : System) (rules : List NftRule) : Prop :=
  ∀ matchSubstr, (listing rules (sys.counted matchSubstr)).length ≤ captureBytes

theorem length_listing (rules : List NftRule) (counted : Nat → Nat × Nat)
    : (listing rules counted).length
        =
      header.length + (rules.map fun rule => (rule.line (counted rule.handle)).length + 1).sum + footer.length := by
  rw [listing_eq, List.length_append, List.length_append, List.length_flatMap]
  simp only [List.length_append, List.length_singleton]
  omega

theorem Fits.sublist {rules' : List NftRule} (h : Fits sys rules) (hsub : rules'.Sublist rules) : Fits sys rules' := by
  intro matchSubstr
  have hfits := h matchSubstr
  have hsum : (rules'.map fun rule => (rule.line (sys.counted matchSubstr rule.handle)).length + 1).sum
      ≤ (rules.map fun rule => (rule.line (sys.counted matchSubstr rule.handle)).length + 1).sum :=
    (hsub.map _).sum_le_sum fun _ _ => Nat.zero_le _
  rw [length_listing] at *
  omega

theorem shown_of_fits (counted : Nat → Nat × Nat) (room : Nat) (rules : List NftRule)
    (h : (rules.map fun rule => (rule.line (counted rule.handle)).length + 1).sum ≤ room)
    : shown counted room rules = rules.map fun rule => (rule.handle, rule) := by
  induction rules generalizing room with
  | nil => rfl
  | cons rule rules ih =>
    rw [List.map_cons, List.sum_cons] at h
    rw [shown, List.map_cons, if_pos (by omega), ih]
    omega

theorem Found.select {matchSubstr : Bytes} {select : NftSpec → Prop}
    (h : Found sys matchSubstr rules select rule) (hfits : Fits sys rules)
    (hnodup : (rules.map NftRule.handle).Nodup) (hmem : rule ∈ rules)
    : select rule.spec := by
  obtain ⟨other, hshown, hselect⟩ := h.read
  have hlength := hfits matchSubstr
  rw [length_listing] at hlength
  rw [shown_of_fits _ _ _ (by unfold room; omega), List.mem_map] at hshown
  obtain ⟨other', hother, heq⟩ := hshown
  rw [Prod.mk.injEq] at heq
  have hsame := List.inj_on_of_nodup_map hnodup hother hmem heq.1
  rw [← hsame, heq.2]
  exact hselect

end Firewall

namespace PolicyEnforcer

open Firewall

variable {e e' : PolicyEnforcer} {call : Call} {sys : System} {target : Bytes}

def Reports (e : PolicyEnforcer) (call : Call) : Prop :=
  ∀ sys target, call = .isolateTarget sys target → (e.isolateTarget sys target).1 = true →
    let e' := (e.isolateTarget sys target).2
    e'.firewall.Covers (e'.resolveTarget target) (e'.resolvePort target)

def Apart (e : PolicyEnforcer) (target other : Bytes) : Prop :=
  if onLoopback (e.resolveTarget target) then
    e.resolveTarget other = e.resolveTarget target →
      ¬toDecimal (e.resolvePort target).toNat <+: toDecimal (e.resolvePort other).toNat
  else
    ¬e.resolveTarget target <+: e.resolveTarget other

/--
An isolated target keeps its address, and its port on the loopback interface; and a target is released only
if all of the other isolated ones are apart from it, and only while the listing is not too long.
-/
structure Settled (e : PolicyEnforcer) (call : Call) : Prop where
  address : ∀ nodeId ip, call = .registerPeerIp nodeId ip → nodeId ∈ e.isolatedNodes →
    isValidIp nodeId = false → isValidIp ip = true → e.resolveTarget nodeId = ip
  port : ∀ nodeId port, call = .registerPeerPort nodeId port → nodeId ∈ e.isolatedNodes →
    onLoopback (e.resolveTarget nodeId) = true → port ≠ 0 → e.resolvePort nodeId = port
  apart : ∀ sys target, call = .releaseTarget sys target → ∀ other ∈ e.isolatedNodes, other ≠ target →
    e.Apart target other
  fits : ∀ sys target, call = .releaseTarget sys target → Fits sys e.firewall.rules

structure Enforced (e : PolicyEnforcer) : Prop where
  sound : e.Sound
  covers : ∀ target ∈ e.isolatedNodes, e.firewall.Covers (e.resolveTarget target) (e.resolvePort target)

theorem covers_congr_port {fw : Firewall} {ip : Bytes} {port port' : UInt16} (hlo : onLoopback ip = false)
    (h : fw.Covers ip port)
    : fw.Covers ip port' := by
  obtain ⟨rule, hforce, hsaddr, hdrops⟩ := h
  refine ⟨rule, hforce, hsaddr, ?_⟩
  rw [hlo] at hdrops ⊢
  exact hdrops

theorem Enforced.attempted {P : DropRule → Prop} (h : e.Enforced) (hattempted : Attempted P e e') : e'.Enforced where
  sound := h.sound.kept hattempted.toKept (h.sound.numbered.grows hattempted.firewall)
  covers other hother := by
    rw [hattempted.isolatedNodes] at hother
    rw [hattempted.toKept.resolveTarget, hattempted.toKept.resolvePort]
    exact hattempted.firewall.covers (h.covers other hother)

theorem Enforced.isolateTarget (h : e.Enforced) (sys : System) (target : Bytes)
    : (e.isolateTarget sys target).2.Enforced := by
  have hsound := h.sound.step (.isolateTarget sys target)
  have hisolation := isolation_isolateTarget e sys target
  rw [step] at hsound
  generalize e.isolateTarget sys target = result at *
  cases hisolation with
  | cooling => exact h
  | again => exact ⟨hsound, h.covers⟩
  | refused => exact h
  | failed _ _ e' hattempted => exact h.attempted hattempted
  | isolated _ _ e' hattempted hcovers =>
    have h' := h.attempted hattempted
    refine ⟨hsound, ?_⟩
    intro other hother
    rcases Finset.mem_insert.mp hother with rfl | hother
    . rw [← hattempted.toKept.resolveTarget, ← hattempted.toKept.resolvePort] at hcovers
      exact hcovers
    . exact h'.covers other hother

theorem Enforced.reports (h : e.Enforced) (call : Call) : e.Reports call := by
  rintro sys target - htrue
  have hisolation := isolation_isolateTarget e sys target
  have h' := h.isolateTarget sys target
  generalize e.isolateTarget sys target = result at *
  apply h'.covers
  cases hisolation with
  | again hmem => exact hmem
  | isolated => exact Finset.mem_insert_self _ _
  | cooling => contradiction
  | refused => contradiction
  | failed => contradiction

theorem resolveTarget_eq_of_getElem? (h : e'.peerIpMap[target]? = e.peerIpMap[target]?)
    : e'.resolveTarget target = e.resolveTarget target := by
  unfold resolveTarget
  rw [Std.ExtTreeMap.getD_eq_getD_getElem?, Std.ExtTreeMap.getD_eq_getD_getElem?, h]

theorem resolvePort_eq_of_getElem? (h : e'.peerPortMap[target]? = e.peerPortMap[target]?)
    : e'.resolvePort target = e.resolvePort target := by
  unfold resolvePort
  rw [Std.ExtTreeMap.getD_eq_getD_getElem?, Std.ExtTreeMap.getD_eq_getD_getElem?, h]

theorem resolveTarget_registerPeerIp {nodeId ip : Bytes}
    (h : nodeId = target → isValidIp target = false → isValidIp ip = true → e.resolveTarget target = ip)
    : (e.registerPeerIp nodeId ip).resolveTarget target = e.resolveTarget target := by
  by_cases heq : nodeId = target
  . subst heq
    by_cases hregisters : nodeId = [] ∨ !isValidIp ip
    . rw [registerPeerIp, if_pos hregisters]
    . have hne : nodeId ≠ [] := fun hnil => hregisters (.inl hnil)
      have hvalid : isValidIp ip = true := by
        by_contra hinvalid
        exact hregisters (.inr (by simp [hinvalid]))
      cases hliteral : isValidIp nodeId with
      | true =>
        unfold resolveTarget
        rw [hliteral]
        rfl
      | false =>
        rw [h rfl hliteral hvalid]
        unfold resolveTarget
        rw [hliteral, Std.ExtTreeMap.getD_eq_getD_getElem?, getElem?_registerPeerIp_self hne hvalid]
        rfl
  . exact resolveTarget_eq_of_getElem? (getElem?_registerPeerIp_of_ne heq)

theorem Enforced.registerPeerIp (h : e.Enforced) {nodeId ip : Bytes}
    (hsettled : e.Settled (.registerPeerIp nodeId ip))
    : (e.registerPeerIp nodeId ip).Enforced := by
  refine ⟨h.sound.step (.registerPeerIp nodeId ip), ?_⟩
  have hframe : (e.registerPeerIp nodeId ip).isolatedNodes = e.isolatedNodes
      ∧ (e.registerPeerIp nodeId ip).peerPortMap = e.peerPortMap
      ∧ (e.registerPeerIp nodeId ip).firewall = e.firewall := by
    unfold PolicyEnforcer.registerPeerIp
    split <;> exact ⟨rfl, rfl, rfl⟩
  intro target htarget
  rw [hframe.1] at htarget
  rw [hframe.2.2, resolvePort_eq_of_getElem? (congrArg (·[target]?) hframe.2.1),
    resolveTarget_registerPeerIp]
  . exact h.covers target htarget
  . rintro rfl hliteral hvalid
    exact hsettled.address nodeId ip rfl htarget hliteral hvalid

theorem getElem?_registerPeerPort_of_ne {nodeId : Bytes} {port : UInt16} (hne : nodeId ≠ target)
    : (e.registerPeerPort nodeId port).peerPortMap[target]? = e.peerPortMap[target]? := by
  unfold registerPeerPort
  split
  . rfl
  . show (Std.ExtTreeMap.insert _ _ _)[target]? = _
    rw [Std.ExtTreeMap.getElem?_insert, if_neg]
    rwa [Std.LawfulEqOrd.compare_eq_iff_eq]

theorem Enforced.registerPeerPort (h : e.Enforced) {nodeId : Bytes} {port : UInt16}
    (hsettled : e.Settled (.registerPeerPort nodeId port))
    : (e.registerPeerPort nodeId port).Enforced := by
  refine ⟨h.sound.step (.registerPeerPort nodeId port), ?_⟩
  have hframe : (e.registerPeerPort nodeId port).isolatedNodes = e.isolatedNodes
      ∧ (e.registerPeerPort nodeId port).peerIpMap = e.peerIpMap
      ∧ (e.registerPeerPort nodeId port).firewall = e.firewall := by
    unfold PolicyEnforcer.registerPeerPort
    split <;> exact ⟨rfl, rfl, rfl⟩
  intro target htarget
  rw [hframe.1] at htarget
  have hcovers := h.covers target htarget
  rw [hframe.2.2, resolveTarget_eq_of_getElem? (congrArg (·[target]?) hframe.2.1)]
  by_cases heq : nodeId = target
  . subst heq
    cases hlo : onLoopback (e.resolveTarget nodeId) with
    | false => exact covers_congr_port hlo hcovers
    | true =>
      have hport : (e.registerPeerPort nodeId port).resolvePort nodeId = e.resolvePort nodeId := by
        by_cases hregisters : nodeId = [] ∨ port = 0
        . rw [PolicyEnforcer.registerPeerPort, if_pos hregisters]
        . rw [not_or] at hregisters
          rw [hsettled.port nodeId port rfl htarget hlo hregisters.2]
          rw [PolicyEnforcer.registerPeerPort, if_neg (by simp [hregisters]), resolvePort,
            Std.ExtTreeMap.getD_eq_getD_getElem?, Std.ExtTreeMap.getElem?_insert_self]
          rfl
      rwa [hport]
  . rwa [resolvePort_eq_of_getElem? (getElem?_registerPeerPort_of_ne heq)]

theorem not_undone_of_apart (h : e.Sound) (hfits : Fits sys e.firewall.rules) {other : Bytes} {rule : DropRule}
    (hapart : e.Apart target other) (hforce : e.firewall.InForce rule)
    (hdrops : rule.Drops (e.resolveTarget other) (e.resolvePort other))
    : ¬e.Undone sys target rule := by
  have hsaddr := hdrops.1
  have hnodup := h.numbered.handles
  cases hlo : onLoopback (e.resolveTarget target) with
  | false =>
    unfold Apart at hapart
    rw [hlo] at hapart
    cases rule with
    | ebpf addr =>
      rintro ⟨heq, _⟩
      apply hapart
      rw [heq, ← hsaddr]
      exact List.prefix_refl _
    | ipt rule =>
      rintro ⟨heq, _⟩
      apply hapart
      rw [heq, ← hsaddr]
      exact List.prefix_refl _
    | nft rule =>
      rintro ⟨_, hfound⟩
      rw [hlo] at hfound
      have hstarts : e.resolveTarget target <+: rule.spec.saddr.ntop := Found.select hfound hfits hnodup hforce
      apply hapart
      rwa [← hsaddr]
  | true =>
    unfold Apart at hapart
    rw [hlo, if_pos rfl] at hapart
    have hother : e.resolveTarget other = e.resolveTarget target →
        ∃ transport, rule.dport = some (transport, e.resolvePort other) := by
      intro heq
      have hport := hdrops.2
      rwa [heq, hlo, if_pos rfl] at hport
    -- a rule for a port has to be for the same address
    have hnot : ∀ transport rule', DropRule.nft rule' = rule →
        ¬StartsWithPort (e.resolveTarget target) transport (e.resolvePort target) rule'.spec := by
      rintro transport rule' rfl ⟨heq, port', hdport, hstarts⟩
      have heq : e.resolveTarget other = e.resolveTarget target := hsaddr.symm.trans heq.symm
      obtain ⟨transport', hdport'⟩ := hother heq
      have hsame : some (transport, port') = some (transport', e.resolvePort other) := hdport.symm.trans hdport'
      rw [Option.some.injEq, Prod.mk.injEq] at hsame
      rw [hsame.2] at hstarts
      exact hapart heq hstarts
    cases rule with
    | ebpf addr =>
      rintro ⟨heq, _⟩
      obtain ⟨transport, hdport⟩ := hother (hsaddr.symm.trans heq.symm)
      contradiction
    | ipt rule =>
      rintro ⟨heq, _⟩
      obtain ⟨transport, hdport⟩ := hother (hsaddr.symm.trans heq.symm)
      contradiction
    | nft rule =>
      have hforce : rule ∈ e.firewall.rules := hforce
      rintro ⟨_, hfound⟩
      rw [hlo, if_pos rfl] at hfound
      rcases hfound.2 with htcp | hudp
      . exact hnot .tcp rule rfl (Found.select htcp hfits hnodup hforce)
      . by_cases htcp : FoundByPort sys e.firewall.rules (e.resolveTarget target) .tcp (e.resolvePort target) rule
        . exact hnot .tcp rule rfl (Found.select htcp hfits hnodup hforce)
        . apply hnot .udp rule rfl
          apply Found.select hudp (hfits.sublist List.filter_sublist)
          . exact hnodup.sublist (List.filter_sublist.map _)
          . rw [List.mem_filter]
            exact ⟨hforce, decide_eq_true htcp⟩

theorem Enforced.releaseTarget (h : e.Enforced) (hsettled : e.Settled (.releaseTarget sys target))
    : (e.releaseTarget sys target).Enforced := by
  refine ⟨h.sound.step (.releaseTarget sys target), ?_⟩
  intro other hother
  have hkept := kept_releaseTarget e sys target
  rw [hkept.resolveTarget, hkept.resolvePort]
  by_cases hmem : target ∈ e.isolatedNodes
  . have hnodes : (e.releaseTarget sys target).isolatedNodes = e.isolatedNodes.erase target := by
      rw [releaseTarget_of_mem hmem]
    rw [hnodes, Finset.mem_erase] at hother
    obtain ⟨rule, hforce, hdrops⟩ := h.covers other hother.2
    refine ⟨rule, ?_, hdrops⟩
    rw [inForce_releaseTarget_iff h.sound hmem _ hforce]
    . exact not_undone_of_apart h.sound (hsettled.fits sys target rfl)
        (hsettled.apart sys target rfl other hother.2 hother.1) hforce hdrops
    . intro hlo
      have hport := hdrops.2
      rw [hdrops.1] at hlo
      rw [hlo, if_pos rfl] at hport
      obtain ⟨transport, hdport⟩ := hport
      rw [hdport]
      exact Option.some_ne_none _
  . rw [releaseTarget_of_not_mem hmem] at hother ⊢
    exact h.covers other hother

theorem Enforced.executeResponse (h : e.Enforced) (p : Platform) (evidenceJson targetId : Bytes)
    : (MitigationEngine.executeResponse p e evidenceJson targetId).2.2.Enforced := by
  have hblock := h.attempted (MitigationEngine.attempted_blockSource p e evidenceJson)
  unfold MitigationEngine.executeResponse
  split
  . dsimp only
    unfold MitigationEngine.isolateNode
    split
    . exact hblock.isolateTarget p.isolate targetId
    . exact hblock
  . exact h

theorem Enforced.step (h : e.Enforced) (hsettled : e.Settled call) : (e.step call).Enforced := by
  cases call with
  | addSafeNode nodeId => exact ⟨h.sound.step (.addSafeNode nodeId), h.covers⟩
  | registerPeerIp nodeId ip => exact h.registerPeerIp hsettled
  | registerPeerPort nodeId port => exact h.registerPeerPort hsettled
  | executeResponse p evidenceJson targetId => exact h.executeResponse p evidenceJson targetId
  | isolateTarget sys target => exact h.isolateTarget sys target
  | blockIpAddress sys ip => exact h.attempted (attempted_blockIpAddress e sys ip)
  | releaseTarget sys target => exact h.releaseTarget hsettled

theorem along_reports_of_settled (nftables iptables : Bool) (calls : List Call)
    (h : Run.Along step Settled { nftables, iptables } calls)
    : Run.Along step Reports { nftables, iptables } calls := by
  apply Run.along_of_invariant (I := Enforced) _ _ h
  . intro e call henforced hsettled
    exact ⟨henforced.reports call, henforced.step hsettled⟩
  . exact ⟨sound_start nftables iptables, nofun⟩

section Sample

def returning (ip ip' : String) : List Call :=
  [
    joining "NODE2" ip,
    .isolateTarget (workingSystem 0) (bytes "NODE2"),
    joining "NODE2" ip',
    .isolateTarget (workingSystem (10 * 10 ^ 9)) (bytes "NODE2")
  ]

theorem settled_isolateTarget (e : PolicyEnforcer) (sys : System) (target : Bytes)
    : e.Settled (.isolateTarget sys target) :=
  ⟨nofun, nofun, nofun, nofun⟩

theorem settled_registerPeerIp {nodeId ip : Bytes} (h : nodeId ∈ e.isolatedNodes → e.resolveTarget nodeId = ip)
    : e.Settled (.registerPeerIp nodeId ip) where
  address := by
    rintro _ _ ⟨⟩ hmem - -
    exact h hmem
  port := nofun
  apart := nofun
  fits := nofun

theorem along_settled_returning : Run.Along step Settled sampleEnforcer (returning "10.0.0.1" "10.0.0.1") := by
  refine ⟨settled_registerPeerIp ?_, settled_isolateTarget _ _ _, settled_registerPeerIp ?_,
    settled_isolateTarget _ _ _, trivial⟩
  . intro hmem
    contradiction
  . intro _
    decide +kernel

theorem along_reports_returning
    : Run.Along step Settled sampleEnforcer (returning "10.0.0.1" "10.0.0.1")
        ∧
      Run.Along step Reports sampleEnforcer (returning "10.0.0.1" "10.0.0.1") :=
  ⟨along_settled_returning, along_reports_of_settled true true _ along_settled_returning⟩

-- what is in force is for the old address
theorem not_along_reports_returning : ¬Run.Along step Reports sampleEnforcer (returning "10.0.0.1" "10.0.0.2") := by
  rintro ⟨_, _, _, h, _⟩
  obtain ⟨rule, hforce, hsaddr, _⟩ := h _ _ rfl (by decide +kernel)
  have hip : rule.saddr.ntop = Ipv4.ntop ⟨10, 0, 0, 2⟩ := hsaddr.trans (by decide +kernel)
  cases rule with
  | ebpf addr =>
    have heq : addr = ⟨10, 0, 0, 2⟩ := Ipv4.ntop_injective hip
    rw [heq] at hforce
    exact absurd hforce (by decide +kernel)
  | nft rule => exact absurd (hforce : rule ∈ []) List.not_mem_nil
  | ipt rule => exact absurd (hforce : rule ∈ []) List.not_mem_nil

end Sample

end PolicyEnforcer
end NeuroMesh
