import NeuroMesh.Enforcer.Lemmas.Calls

namespace NeuroMesh
namespace PolicyEnforcer

variable {e : PolicyEnforcer} {call : Call} {nodeId ip : Bytes}

theorem getElem?_registerPeerIp_self (hne : nodeId ≠ []) (hvalid : isValidIp ip = true)
    : (e.registerPeerIp nodeId ip).peerIpMap[nodeId]? = some ip := by
  unfold registerPeerIp
  rw [if_neg (by simp [hne, hvalid])]
  exact Std.ExtTreeMap.getElem?_insert_self

theorem getElem?_registerPeerIp_of_ne {other : Bytes} (hne : nodeId ≠ other)
    : (e.registerPeerIp nodeId ip).peerIpMap[other]? = e.peerIpMap[other]? := by
  unfold registerPeerIp
  split
  . rfl
  . show (Std.ExtTreeMap.insert _ _ _)[other]? = _
    rw [Std.ExtTreeMap.getElem?_insert, if_neg]
    rwa [Std.LawfulEqOrd.compare_eq_iff_eq]

theorem getElem?_step (h : ∀ ip, call ≠ .registerPeerIp nodeId ip)
    : (e.step call).peerIpMap[nodeId]? = e.peerIpMap[nodeId]? := by
  cases call with
  | addSafeNode => rfl
  | registerPeerIp other ip =>
    apply getElem?_registerPeerIp_of_ne
    rintro rfl
    exact h ip rfl
  | registerPeerPort other port =>
    show (e.registerPeerPort other port).peerIpMap[nodeId]? = _
    unfold registerPeerPort
    split <;> rfl
  | executeResponse p evidenceJson targetId =>
    exact congrArg (·[nodeId]?) (MitigationEngine.kept_executeResponse p e evidenceJson targetId).peerIpMap
  | isolateTarget sys target => exact congrArg (·[nodeId]?) (kept_isolateTarget e sys target).peerIpMap
  | blockIpAddress sys ip => exact congrArg (·[nodeId]?) (attempted_blockIpAddress e sys ip).peerIpMap
  | releaseTarget sys target => exact congrArg (·[nodeId]?) (kept_releaseTarget e sys target).peerIpMap

theorem isIpSafe_eq_true_iff
    : e.isIpSafe ip = true
        ↔
      isValidIp ip = true ∧ ∃ nodeId ∈ e.safeList, e.peerIpMap[nodeId]? = some ip := by
  unfold isIpSafe
  rw [Bool.and_eq_true, decide_eq_true_eq]

section Views

def ViewsAgree (nodeId ip : Bytes) : Prop :=
  ∀ (nftables iptables : Bool) (safe : Bytes) (before after : List Call),
    Call.addSafeNode safe ∈ before ++ after →
    (∀ other, Call.registerPeerIp nodeId other ∉ after) →
    let e := (before ++ Call.registerPeerIp nodeId ip :: after).foldl step { nftables, iptables }
    e.isSafe nodeId = true → e.isIpSafe ip = true

theorem getElem?_foldl_step {calls : List Call} (h : ∀ ip, Call.registerPeerIp nodeId ip ∉ calls)
    : (calls.foldl step e).peerIpMap[nodeId]? = e.peerIpMap[nodeId]? := by
  induction calls generalizing e with
  | nil => rfl
  | cons call calls ih =>
    have hcall : ∀ ip, call ≠ .registerPeerIp nodeId ip := by
      rintro ip rfl
      exact h ip List.mem_cons_self
    rw [List.foldl_cons, ih fun ip hmem => h ip (List.mem_cons_of_mem _ hmem), getElem?_step hcall]

theorem viewsAgree_iff (nodeId ip : Bytes) (hvalid : isValidIp ip = true)
    : ViewsAgree nodeId ip ↔ nodeId ≠ [] ∧ toUpper nodeId = nodeId := by
  constructor
  . intro hagree
    -- nothing else happens in the shortest run
    have hsafe := hagree true true nodeId [.addSafeNode nodeId] [] List.mem_cons_self
      (fun _ => List.not_mem_nil) (by simp [step, addSafeNode, registerPeerIp, isSafe, apply_ite])
    obtain ⟨_, safe, hmem, hip⟩ := isIpSafe_eq_true_iff.mp hsafe
    have hlist : safe = toUpper nodeId := by
      simpa [step, addSafeNode, registerPeerIp, apply_ite] using hmem
    have hip : (registerPeerIp (addSafeNode { nftables := true, iptables := true } nodeId) nodeId
        ip).peerIpMap[toUpper nodeId]? = some ip := hlist ▸ hip
    by_cases hnil : nodeId = []
    . subst hnil
      contradiction
    . refine ⟨hnil, ?_⟩
      by_contra hne
      rw [getElem?_registerPeerIp_of_ne (Ne.symm hne)] at hip
      contradiction
  . rintro ⟨hne, hupper⟩ nftables iptables safe before after _ hafter e hsafe
    rw [isIpSafe_eq_true_iff]
    refine ⟨hvalid, nodeId, ?_, ?_⟩
    . unfold isSafe at hsafe
      rwa [decide_eq_true_eq, hupper] at hsafe
    . show (List.foldl step _ _).peerIpMap[nodeId]? = _
      rw [List.foldl_append, List.foldl_cons, getElem?_foldl_step hafter]
      exact getElem?_registerPeerIp_self hne hvalid

theorem viewsAgree_upper
    : isValidIp (bytes "10.0.0.1") = true
        ∧
      (ViewsAgree (bytes "NODE1") (bytes "10.0.0.1")
        ↔
      bytes "NODE1" ≠ [] ∧ toUpper (bytes "NODE1") = bytes "NODE1") :=
  ⟨by decide +kernel, viewsAgree_iff _ _ (by decide +kernel)⟩

theorem not_viewsAgree_lower : ¬ViewsAgree (bytes "node1") (bytes "10.0.0.1") := by
  intro hagree
  have hsafe := hagree true true (bytes "node1") [.addSafeNode (bytes "node1")] [] List.mem_cons_self
    (fun _ => List.not_mem_nil) (by decide +kernel)
  exact absurd hsafe (by decide +kernel)

end Views

section Spares

def RegisteredSafe (e : PolicyEnforcer) (ip : Bytes) : Prop :=
  ∃ nodeId, e.isSafe nodeId = true ∧ e.peerIpMap[nodeId]? = some ip

def Spares (e : PolicyEnforcer) (call : Call) : Prop :=
  ∀ new, (e.step call).firewall.installed = new ++ e.firewall.installed →
    ∀ rule ∈ new, ¬e.RegisteredSafe rule.saddr.ntop

def Call.target (call : Call) : Option Bytes :=
  match call with
  | .executeResponse _ _ targetId => some targetId
  | .isolateTarget _ target => some target
  | _ => none

structure Careful (e : PolicyEnforcer) (call : Call) : Prop where
  spelled : ∀ nodeId ip, e.isSafe nodeId = true → e.peerIpMap[nodeId]? = some ip → toUpper nodeId = nodeId
  target : ∀ target, call.target = some target → e.isSafe target = false → target ∉ e.isolatedNodes →
    e.isIpSafe (e.resolveTarget target) = false
  address : ∀ sys ip, call = .blockIpAddress sys ip → e.isIpSafe ip = false

theorem not_registeredSafe (hspelled : ∀ nodeId ip, e.isSafe nodeId = true → e.peerIpMap[nodeId]? = some ip →
      toUpper nodeId = nodeId) {addr : Ipv4} (h : e.isIpSafe addr.ntop = false)
    : ¬e.RegisteredSafe addr.ntop := by
  rintro ⟨nodeId, hsafe, hip⟩
  have hupper := hspelled nodeId _ hsafe hip
  have htrue : e.isIpSafe addr.ntop = true := by
    rw [isIpSafe_eq_true_iff]
    refine ⟨isValidIp_ntop addr, nodeId, ?_, hip⟩
    unfold isSafe at hsafe
    rwa [decide_eq_true_eq, hupper] at hsafe
  rw [h] at htrue
  contradiction

theorem spares_of_grows {call : Call} (hspelled : ∀ nodeId ip, e.isSafe nodeId = true →
      e.peerIpMap[nodeId]? = some ip → toUpper nodeId = nodeId)
    (h : Firewall.Grows (fun rule => e.isIpSafe rule.saddr.ntop = false) e.firewall (e.step call).firewall)
    : Spares e call := by
  intro new hnew rule hrule
  obtain ⟨new', hnew', hall⟩ := h.installed
  rw [hnew', List.append_left_inj] at hnew
  subst hnew
  exact not_registeredSafe hspelled (hall rule hrule).1

theorem grows_isIpSafe_isolateTarget {target : Bytes} (sys : System)
    (h : e.isSafe target = false → target ∉ e.isolatedNodes → e.isIpSafe (e.resolveTarget target) = false)
    : Firewall.Grows (fun rule => e.isIpSafe rule.saddr.ntop = false) e.firewall
        (e.isolateTarget sys target).2.firewall := by
  apply (grows_isolateTarget e sys target).mono
  intro rule hrule
  rw [hrule.1.saddr]
  exact h hrule.2.1 hrule.2.2

theorem grows_isIpSafe_executeResponse {p : Platform} {evidenceJson target : Bytes}
    (h : e.isSafe target = false → target ∉ e.isolatedNodes → e.isIpSafe (e.resolveTarget target) = false)
    : Firewall.Grows (fun rule => e.isIpSafe rule.saddr.ntop = false) e.firewall
        (MitigationEngine.executeResponse p e evidenceJson target).2.2.firewall := by
  have hblock := MitigationEngine.attempted_blockSource p e evidenceJson
  unfold MitigationEngine.executeResponse
  split
  . dsimp only
    unfold MitigationEngine.isolateNode
    generalize (MitigationEngine.blockSource p e evidenceJson).2 = e' at *
    split
    . have hkept := hblock.toKept
      apply hblock.firewall.trans
      rw [← hkept.isSafe, ← hkept.isIpSafe, ← hkept.resolveTarget, ← hblock.isolatedNodes] at h
      apply (grows_isIpSafe_isolateTarget p.isolate h).mono
      intro rule hrule
      rwa [hkept.isIpSafe] at hrule
    . exact hblock.firewall
  . exact .refl

theorem spares_of_installed (h : (e.step call).firewall.installed = e.firewall.installed) : Spares e call := by
  intro new hnew rule hrule
  rw [h, List.self_eq_append_left] at hnew
  rw [hnew] at hrule
  contradiction

theorem spares_of_careful (h : Careful e call) : Spares e call := by
  cases call with
  | addSafeNode => exact spares_of_installed rfl
  | registerPeerIp nodeId ip =>
    apply spares_of_installed
    rw [step, registerPeerIp]
    split <;> rfl
  | registerPeerPort nodeId port =>
    apply spares_of_installed
    rw [step, registerPeerPort]
    split <;> rfl
  | executeResponse p evidenceJson target =>
    exact spares_of_grows h.spelled (grows_isIpSafe_executeResponse (h.target target rfl))
  | isolateTarget sys target =>
    exact spares_of_grows h.spelled (grows_isIpSafe_isolateTarget sys (h.target target rfl))
  | blockIpAddress sys ip =>
    apply spares_of_grows h.spelled
    apply (attempted_blockIpAddress e sys ip).firewall.mono
    intro rule hrule
    rw [hrule.1]
    exact h.address sys ip rfl
  | releaseTarget sys target => exact spares_of_installed (shrinks_releaseTarget e sys target).installed

theorem along_spares_of_careful (e : PolicyEnforcer) (calls : List Call) (h : Run.Along step Careful e calls)
    : Run.Along step Spares e calls :=
  Run.along_mono (fun _ _ hcareful => spares_of_careful hcareful) h

def movement (ip : String) : Bytes :=
  bytes "\x7b\"event\":\"lateral_movement\",\"src_ip\":\"" ++ bytes ip ++ bytes "\"\x7d"

def protecting (nodeId ip src : String) : List Call :=
  [
    .addSafeNode (bytes nodeId),
    .registerPeerIp (bytes nodeId) (bytes ip),
    .executeResponse (samplePlatform 0) (movement src) []
  ]

theorem along_careful_protecting : Run.Along step Careful sampleEnforcer (protecting "NODE1" "10.0.0.1" "10.0.0.2") := by
  refine ⟨⟨?_, ?_, ?_⟩, ⟨?_, ?_, ?_⟩, ⟨?_, ?_, ?_⟩, trivial⟩
  . rintro nodeId ip - hip
    contradiction
  . rintro target htarget
    contradiction
  . rintro sys ip hcall
    contradiction
  . rintro nodeId ip - hip
    contradiction
  . rintro target htarget
    contradiction
  . rintro sys ip hcall
    contradiction
  . rintro nodeId ip - hip
    by_cases hne : bytes "NODE1" = nodeId
    . rw [← hne]
      decide +kernel
    . rw [step, step, getElem?_registerPeerIp_of_ne hne] at hip
      contradiction
  . rintro target htarget - -
    cases htarget
    decide +kernel
  . rintro sys ip hcall
    contradiction

theorem along_spares_protecting
    : Run.Along step Careful sampleEnforcer (protecting "NODE1" "10.0.0.1" "10.0.0.2")
        ∧
      ((protecting "NODE1" "10.0.0.1" "10.0.0.2").foldl step sampleEnforcer).firewall.installed
        = [.ebpf ⟨10, 0, 0, 2⟩]
        ∧
      Run.Along step Spares sampleEnforcer (protecting "NODE1" "10.0.0.1" "10.0.0.2") :=
  ⟨along_careful_protecting, by decide +kernel, along_spares_of_careful _ _ along_careful_protecting⟩

theorem not_along_spares_protecting
    : ¬Run.Along step Spares sampleEnforcer (protecting "node1" "10.0.0.1" "10.0.0.1") := by
  intro h
  refine h.2.2.1 [.ebpf ⟨10, 0, 0, 1⟩] ?_ (.ebpf ⟨10, 0, 0, 1⟩) List.mem_cons_self ?_
  . decide +kernel
  . exact ⟨bytes "node1", by decide +kernel, by decide +kernel⟩

end Spares

end PolicyEnforcer
end NeuroMesh
