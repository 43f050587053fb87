import NeuroMesh.Crypto.Plain
import NeuroMesh.Data.Run
import NeuroMesh.Enforcer.Lemmas.Firewall
import NeuroMesh.Enforcer.MitigationEngine

namespace NeuroMesh

namespace PolicyEnforcer

variable {e e' e'' : PolicyEnforcer} {sys : System}

structure Kept (e e' : PolicyEnforcer) : Prop where
  nftables : e'.nftables = e.nftables
  iptables : e'.iptables = e.iptables
  safeList : e'.safeList = e.safeList
  peerIpMap : e'.peerIpMap = e.peerIpMap
  peerPortMap : e'.peerPortMap = e.peerPortMap

namespace Kept

theorem refl (e : PolicyEnforcer) : Kept e e :=
  ⟨rfl, rfl, rfl, rfl, rfl⟩

theorem trans (h : Kept e e') (h' : Kept e' e'') : Kept e e'' where
  nftables := h'.nftables.trans h.nftables
  iptables := h'.iptables.trans h.iptables
  safeList := h'.safeList.trans h.safeList
  peerIpMap := h'.peerIpMap.trans h.peerIpMap
  peerPortMap := h'.peerPortMap.trans h.peerPortMap

theorem isSafe (h : Kept e e') (targetId : Bytes) : e'.isSafe targetId = e.isSafe targetId := by
  unfold PolicyEnforcer.isSafe
  rw [h.safeList]

theorem isIpSafe (h : Kept e e') (ip : Bytes) : e'.isIpSafe ip = e.isIpSafe ip := by
  unfold PolicyEnforcer.isIpSafe
  rw [h.safeList, h.peerIpMap]

theorem resolveTarget (h : Kept e e') (target : Bytes) : e'.resolveTarget target = e.resolveTarget target := by
  unfold PolicyEnforcer.resolveTarget
  rw [h.peerIpMap]

theorem resolvePort (h : Kept e e') (target : Bytes) : e'.resolvePort target = e.resolvePort target := by
  unfold PolicyEnforcer.resolvePort
  rw [h.peerPortMap]

end Kept

structure Attempted (P : DropRule → Prop) (e e' : PolicyEnforcer) : Prop extends Kept e e' where
  isolatedNodes : e'.isolatedNodes = e.isolatedNodes
  lastEnforceTime : e'.lastEnforceTime = e.lastEnforceTime
  firewall : Firewall.Grows P e.firewall e'.firewall

theorem attempted_of_grows {P : DropRule → Prop} {firewall : Firewall}
    (h : Firewall.Grows P e.firewall firewall)
    : Attempted P e { e with firewall } :=
  ⟨⟨rfl, rfl, rfl, rfl, rfl⟩, rfl, rfl, h⟩

theorem Attempted.refl (P : DropRule → Prop) (e : PolicyEnforcer) : Attempted P e e :=
  attempted_of_grows .refl

theorem adds_cascade (e : PolicyEnforcer) (sys : System) (ip : Bytes)
    : ∃ success firewall, Firewall.Adds (Firewall.ForAddress ip) false e.firewall (success, firewall)
        ∧ e.cascade sys ip = (success, { e with firewall }) := by
  have hebpf := Firewall.adds_applyEbpfDrop e.firewall sys ip
  unfold cascade
  generalize e.firewall.applyEbpfDrop sys ip = result at *
  obtain ⟨ebpf, fw⟩ := result
  cases ebpf with
  | true => exact ⟨true, fw, hebpf, rfl⟩
  | false =>
    have hnft : Firewall.Adds (Firewall.ForAddress ip) false fw
        (if e.nftables then fw.applyNftablesDrop sys ip else (false, fw)) := by
      split
      . exact Firewall.adds_applyNftablesDrop _ _ _
      . exact .refused _ _ _
    dsimp only [Bool.false_eq_true, if_false]
    generalize (if e.nftables then fw.applyNftablesDrop sys ip else (false, fw)) = result at *
    obtain ⟨nft, fw'⟩ := result
    have hnft := hnft.after hebpf.grows
    cases nft with
    | true => exact ⟨true, fw', hnft, rfl⟩
    | false =>
      simp only [Bool.false_eq_true, if_false]
      split
      . exact ⟨_, _, (Firewall.adds_applyIptablesDrop fw' sys ip).after hnft.grows, rfl⟩
      . exact ⟨false, fw', hnft, rfl⟩

theorem attempted_cascade (e : PolicyEnforcer) (sys : System) (ip : Bytes)
    : Attempted (Firewall.ForAddress ip) e (e.cascade sys ip).2 := by
  obtain ⟨success, firewall, hadds, hcascade⟩ := adds_cascade e sys ip
  rw [hcascade]
  exact attempted_of_grows hadds.grows

theorem covers_cascade {ip : Bytes} {port : UInt16} (hlo : onLoopback ip = false)
    (h : (e.cascade sys ip).1 = true)
    : (e.cascade sys ip).2.firewall.Covers ip port := by
  obtain ⟨success, firewall, hadds, hcascade⟩ := adds_cascade e sys ip
  rw [hcascade] at h ⊢
  exact hadds.covers_address hlo h

theorem attempted_blockIpAddress (e : PolicyEnforcer) (sys : System) (ip : Bytes)
    : Attempted (Firewall.ForAddress ip) e (e.blockIpAddress sys ip).2 := by
  unfold blockIpAddress
  split
  . exact .refl _ e
  . split
    . exact .refl _ e
    . exact attempted_cascade e sys ip

def ForTarget (e : PolicyEnforcer) (target : Bytes) (rule : DropRule) : Prop :=
  if onLoopback (e.resolveTarget target) then
    Firewall.ForPort (e.resolveTarget target) (e.resolvePort target) rule
  else
    Firewall.ForAddress (e.resolveTarget target) rule

theorem ForTarget.saddr {target : Bytes} {rule : DropRule} (h : ForTarget e target rule)
    : rule.saddr.ntop = e.resolveTarget target := by
  unfold ForTarget at h
  split at h
  . exact h.1
  . exact h.1

theorem forTarget_of_onLoopback {target : Bytes} (h : onLoopback (e.resolveTarget target) = true)
    : ForTarget e target = Firewall.ForPort (e.resolveTarget target) (e.resolvePort target) := by
  funext rule
  unfold ForTarget
  rw [h]
  rfl

theorem forTarget_of_not_onLoopback {target : Bytes} (h : onLoopback (e.resolveTarget target) = false)
    : ForTarget e target = Firewall.ForAddress (e.resolveTarget target) := by
  funext rule
  unfold ForTarget
  rw [h]
  rfl

inductive Isolation (sys : System) (e : PolicyEnforcer) (target : Bytes) : Bool × PolicyEnforcer → Prop where
  | cooling (hwithin : seconds (sys.now - e.lastEnforceTime) < enforceCooldownSec)
      (hne : e.isolatedNodes ≠ ∅) :
    Isolation sys e target (false, e)
  | again (h : target ∈ e.isolatedNodes) :
    Isolation sys e target (true, { e with lastEnforceTime := sys.now })
  | refused (hnot : target ∉ e.isolatedNodes) : Isolation sys e target (false, e)
  | failed (hnot : target ∉ e.isolatedNodes) (hsafe : e.isSafe target = false) (e' : PolicyEnforcer)
      (h : Attempted (ForTarget e target) e e') :
    Isolation sys e target (false, e')
  | isolated (hnot : target ∉ e.isolatedNodes) (hsafe : e.isSafe target = false) (e' : PolicyEnforcer)
      (h : Attempted (ForTarget e target) e e')
      (hcovers : e'.firewall.Covers (e.resolveTarget target) (e.resolvePort target)) :
    Isolation sys e target
      (true, { e' with isolatedNodes := insert target e'.isolatedNodes, lastEnforceTime := sys.doneAt })

theorem isolation_recordIsolation {target : Bytes} {result : Bool × PolicyEnforcer}
    (hnot : target ∉ e.isolatedNodes) (hsafe : e.isSafe target = false)
    (h : Attempted (ForTarget e target) e result.2)
    (hcovers : result.1 = true → result.2.firewall.Covers (e.resolveTarget target) (e.resolvePort target))
    : Isolation sys e target (recordIsolation sys target result) := by
  obtain ⟨success, e'⟩ := result
  cases success with
  | false => exact .failed hnot hsafe e' h
  | true => exact .isolated hnot hsafe e' h (hcovers rfl)

theorem isolation_enforce {target : Bytes} (hnot : target ∉ e.isolatedNodes) (hsafe : e.isSafe target = false)
    : Isolation sys e target (e.enforce sys target (e.resolveTarget target)) := by
  unfold enforce
  split
  . next hlo =>
    split
    . exact .refused hnot
    . split
      . apply isolation_recordIsolation hnot hsafe
        . rw [forTarget_of_onLoopback hlo]
          exact attempted_of_grows (Firewall.adds_applyNftablesPortDrop _ _ _ _).grows
        . exact (Firewall.adds_applyNftablesPortDrop _ _ _ _).covers_port hlo
      . exact .refused hnot
  . next hlo =>
    rw [Bool.not_eq_true] at hlo
    apply isolation_recordIsolation hnot hsafe
    . rw [forTarget_of_not_onLoopback hlo]
      exact attempted_cascade e sys _
    . exact covers_cascade hlo

theorem isolation_isolateTarget (e : PolicyEnforcer) (sys : System) (target : Bytes)
    : Isolation sys e target (e.isolateTarget sys target) := by
  unfold isolateTarget
  split
  . next hcooling => exact .cooling hcooling.1 hcooling.2
  . split
    . next hagain => exact .again hagain
    . next hnot =>
      split
      . exact .refused hnot
      . next hsafe =>
        dsimp only
        split
        . exact .refused hnot
        . exact isolation_enforce hnot (Bool.eq_false_of_not_eq_true hsafe)

theorem kept_isolateTarget (e : PolicyEnforcer) (sys : System) (target : Bytes)
    : Kept e (e.isolateTarget sys target).2 := by
  have hisolation := isolation_isolateTarget e sys target
  generalize e.isolateTarget sys target = result at *
  cases hisolation with
  | cooling => exact .refl e
  | again => exact ⟨rfl, rfl, rfl, rfl, rfl⟩
  | refused => exact .refl e
  | failed _ _ e' h => exact h.toKept
  | isolated _ _ e' h =>
    exact ⟨h.nftables, h.iptables, h.safeList, h.peerIpMap, h.peerPortMap⟩

theorem grows_isolateTarget (e : PolicyEnforcer) (sys : System) (target : Bytes)
    : Firewall.Grows (fun rule => ForTarget e target rule ∧ e.isSafe target = false ∧ target ∉ e.isolatedNodes)
        e.firewall (e.isolateTarget sys target).2.firewall := by
  have hisolation := isolation_isolateTarget e sys target
  generalize e.isolateTarget sys target = result at *
  cases hisolation with
  | cooling => exact .refl
  | again => exact .refl
  | refused => exact .refl
  | failed hnot hsafe e' h => exact h.firewall.mono fun rule hrule => ⟨hrule, hsafe, hnot⟩
  | isolated hnot hsafe e' h => exact h.firewall.mono fun rule hrule => ⟨hrule, hsafe, hnot⟩

def releasedFirewall (e : PolicyEnforcer) (sys : System) (target : Bytes) : Firewall :=
  let ip := e.resolveTarget target
  if ip = [] then
    e.firewall
  else if onLoopback ip then
    (e.firewall.removeNftablesPortDrop sys ip (e.resolvePort target)).2
  else
    (((e.firewall.removeEbpfDrop sys ip).2.removeNftablesDrop sys ip).2.removeIptablesDrop sys ip).2

theorem releaseTarget_of_not_mem {target : Bytes} (h : target ∉ e.isolatedNodes)
    : e.releaseTarget sys target = e :=
  if_pos h

theorem releaseTarget_of_mem {target : Bytes} (h : target ∈ e.isolatedNodes)
    : e.releaseTarget sys target
        =
      { e with
        isolatedNodes := e.isolatedNodes.erase target, firewall := e.releasedFirewall sys target } := by
  unfold releaseTarget releasedFirewall
  rw [if_neg (not_not_intro h)]
  have hip : ({ e with isolatedNodes := e.isolatedNodes.erase target } : PolicyEnforcer).resolveTarget target
      = e.resolveTarget target := rfl
  have hport : ({ e with isolatedNodes := e.isolatedNodes.erase target } : PolicyEnforcer).resolvePort target
      = e.resolvePort target := rfl
  dsimp only
  rw [hip, hport]
  split
  . rfl
  . unfold onLoopback
    split
    . split
      . rfl
      . next hzero =>
        have hzero : e.resolvePort target = 0 := by
          rw [UInt16.not_lt] at hzero
          exact UInt16.le_zero_iff.mp hzero
        rw [hzero]
        rfl
    . rfl

theorem releaseTarget_of_onLoopback (sys : System) {target : Bytes} (hlo : onLoopback (e.resolveTarget target) = true)
    : ∃ rules, (e.releaseTarget sys target).firewall = { e.firewall with rules } := by
  by_cases hmem : target ∈ e.isolatedNodes
  . rw [releaseTarget_of_mem hmem]
    unfold releasedFirewall Firewall.removeNftablesPortDrop
    dsimp only
    rw [hlo, if_pos rfl]
    split
    . exact ⟨_, rfl⟩
    . split
      . exact ⟨_, rfl⟩
      . simp only [Firewall.snd_removeNftablesRulesMatching]
        exact ⟨_, rfl⟩
  . rw [releaseTarget_of_not_mem hmem]
    exact ⟨_, rfl⟩

theorem blacklist_releaseTarget_of_mem {target : Bytes} (hmem : target ∈ e.isolatedNodes)
    (hlo : onLoopback (e.resolveTarget target) = false)
    : (e.releaseTarget sys target).firewall.blacklist
        =
      (e.firewall.removeEbpfDrop sys (e.resolveTarget target)).2.blacklist := by
  rw [releaseTarget_of_mem hmem]
  unfold releasedFirewall
  dsimp only
  rw [hlo]
  split
  . next hnil =>
    rw [hnil]
    rfl
  . simp [Firewall.removeNftablesDrop, Firewall.snd_removeNftablesRulesMatching]

theorem input_releaseTarget_of_mem {target : Bytes} (hmem : target ∈ e.isolatedNodes)
    (hlo : onLoopback (e.resolveTarget target) = false)
    : ∃ fw : Firewall, fw.input = e.firewall.input
        ∧
      (e.releaseTarget sys target).firewall.input = (fw.removeIptablesDrop sys (e.resolveTarget target)).2.input := by
  rw [releaseTarget_of_mem hmem]
  unfold releasedFirewall
  dsimp only
  rw [hlo]
  split
  . next hnil =>
    refine ⟨e.firewall, rfl, ?_⟩
    rw [hnil]
    rfl
  . exact ⟨_, by simp [Firewall.removeNftablesDrop, Firewall.snd_removeNftablesRulesMatching], rfl⟩

theorem kept_releaseTarget (e : PolicyEnforcer) (sys : System) (target : Bytes)
    : Kept e (e.releaseTarget sys target) := by
  by_cases h : target ∈ e.isolatedNodes
  . rw [releaseTarget_of_mem h]
    exact ⟨rfl, rfl, rfl, rfl, rfl⟩
  . rw [releaseTarget_of_not_mem h]
    exact .refl e

theorem shrinks_releaseTarget (e : PolicyEnforcer) (sys : System) (target : Bytes)
    : Firewall.Shrinks e.firewall (e.releaseTarget sys target).firewall := by
  by_cases h : target ∈ e.isolatedNodes
  . rw [releaseTarget_of_mem h]
    unfold releasedFirewall
    dsimp only
    split
    . exact .refl _
    . split
      . exact Firewall.shrinks_removeNftablesPortDrop _ _ _ _
      . exact ((Firewall.shrinks_removeEbpfDrop _ _ _).trans
          (Firewall.shrinks_removeNftablesRulesMatching _ _ _)).trans (Firewall.shrinks_removeIptablesDrop _ _ _)
  . rw [releaseTarget_of_not_mem h]
    exact .refl _

end PolicyEnforcer

namespace MitigationEngine

open PolicyEnforcer

variable {p : Platform} {e : PolicyEnforcer}

theorem attempted_blockSource (p : Platform) (e : PolicyEnforcer) (evidenceJson : Bytes)
    : Attempted (fun rule => e.isIpSafe rule.saddr.ntop = false) e (blockSource p e evidenceJson).2 := by
  unfold blockSource
  dsimp only
  split
  . split
    . exact .refl _ e
    . next hsafe =>
      have hattempted := attempted_blockIpAddress e p.block (extractStr p evidenceJson (bytes "src_ip"))
      refine { hattempted with firewall := hattempted.firewall.mono ?_ }
      intro rule hrule
      rw [hrule.1]
      exact Bool.eq_false_of_not_eq_true hsafe
  . exact .refl _ e

theorem kept_executeResponse (p : Platform) (e : PolicyEnforcer) (evidenceJson targetId : Bytes)
    : Kept e (executeResponse p e evidenceJson targetId).2.2 := by
  have hblock := attempted_blockSource p e evidenceJson
  unfold executeResponse
  split
  . dsimp only
    unfold isolateNode
    split
    . exact hblock.toKept.trans (kept_isolateTarget _ _ _)
    . exact hblock.toKept
  . exact .refl e

end MitigationEngine

namespace PolicyEnforcer

structure Sound (e : PolicyEnforcer) : Prop where
  addresses : ∀ (nodeId ip : Bytes), e.peerIpMap[nodeId]? = some ip → isValidIp ip = true
  numbered : e.firewall.Numbered

theorem sound_start (nftables iptables : Bool) : Sound { nftables, iptables } where
  addresses _ _ h := by contradiction
  numbered := ⟨List.nodup_nil, nofun, List.nodup_nil, nofun⟩

theorem Sound.kept (h : Sound e) (hkept : Kept e e') (hnumbered : e'.firewall.Numbered) : Sound e' where
  addresses nodeId ip hip := by
    rw [hkept.peerIpMap] at hip
    exact h.addresses nodeId ip hip
  numbered := hnumbered

theorem Sound.executeResponse (h : Sound e) (p : Platform) (evidenceJson targetId : Bytes)
    : Sound (MitigationEngine.executeResponse p e evidenceJson targetId).2.2 := by
  have hblock := MitigationEngine.attempted_blockSource p e evidenceJson
  apply h.kept (MitigationEngine.kept_executeResponse p e evidenceJson targetId)
  unfold MitigationEngine.executeResponse
  split
  . dsimp only
    unfold MitigationEngine.isolateNode
    split
    . exact (h.numbered.grows hblock.firewall).grows (grows_isolateTarget _ _ _)
    . exact h.numbered.grows hblock.firewall
  . exact h.numbered

theorem Sound.step (h : Sound e) (call : Call) : Sound (e.step call) := by
  cases call with
  | addSafeNode nodeId => exact ⟨h.addresses, h.numbered⟩
  | registerPeerIp nodeId ip =>
    rw [PolicyEnforcer.step, registerPeerIp]
    split
    . exact h
    . next hregisters =>
      refine ⟨?_, h.numbered⟩
      intro nodeId' ip' hip
      rw [Std.ExtTreeMap.getElem?_insert] at hip
      split at hip
      . cases hip
        by_contra hvalid
        exact hregisters (.inr (by simp [hvalid]))
      . exact h.addresses nodeId' ip' hip
  | registerPeerPort nodeId port =>
    rw [PolicyEnforcer.step, registerPeerPort]
    split
    . exact h
    . exact ⟨h.addresses, h.numbered⟩
  | executeResponse p evidenceJson targetId => exact h.executeResponse p evidenceJson targetId
  | isolateTarget sys target =>
    exact h.kept (kept_isolateTarget e sys target) (h.numbered.grows (grows_isolateTarget e sys target))
  | blockIpAddress sys ip =>
    have hattempted := attempted_blockIpAddress e sys ip
    exact h.kept hattempted.toKept (h.numbered.grows hattempted.firewall)
  | releaseTarget sys target =>
    exact h.kept (kept_releaseTarget e sys target) (h.numbered.shrinks (shrinks_releaseTarget e sys target))

theorem sound_foldl_step (nftables iptables : Bool) (calls : List Call)
    : Sound (calls.foldl PolicyEnforcer.step { nftables, iptables }) := by
  suffices h : ∀ e : PolicyEnforcer, Sound e → Sound (calls.foldl PolicyEnforcer.step e) from
    h _ (sound_start nftables iptables)
  induction calls with
  | nil => exact fun e h => h
  | cons call calls ih => exact fun e h => ih _ (h.step call)

theorem Sound.resolveTarget (h : Sound e) (target : Bytes)
    : e.resolveTarget target = [] ∨ isValidIp (e.resolveTarget target) = true := by
  unfold PolicyEnforcer.resolveTarget
  split
  . next hvalid => exact .inr hvalid
  . rw [Std.ExtTreeMap.getD_eq_getD_getElem?]
    cases hip : e.peerIpMap[target]? with
    | none => exact .inl rfl
    | some ip => exact .inr (h.addresses target ip hip)

theorem peerIpMap_step (e : PolicyEnforcer) (call : Call) (nodeId : Bytes)
    : (e.step call).peerIpMap[nodeId]? = e.peerIpMap[nodeId]?
        ∨
      ∃ ip, call = .registerPeerIp nodeId ip ∧ nodeId ≠ [] ∧ (e.step call).peerIpMap[nodeId]? = some ip := by
  unfold PolicyEnforcer.step
  cases call with
  | addSafeNode nodeId' => exact .inl rfl
  | registerPeerIp nodeId' ip =>
    dsimp only
    unfold registerPeerIp
    split
    . exact .inl rfl
    . next hregisters =>
      rw [Std.ExtTreeMap.getElem?_insert]
      split
      . next heq =>
        have heq : nodeId' = nodeId := Std.LawfulEqCmp.eq_of_compare heq
        subst heq
        exact .inr ⟨ip, rfl, fun hnil => hregisters (.inl hnil), rfl⟩
      . exact .inl rfl
  | registerPeerPort nodeId' port =>
    dsimp only
    unfold registerPeerPort
    split
    . exact .inl rfl
    . exact .inl rfl
  | executeResponse p evidenceJson targetId =>
    rw [(MitigationEngine.kept_executeResponse p e evidenceJson targetId).peerIpMap]
    exact .inl rfl
  | isolateTarget sys target =>
    rw [(kept_isolateTarget e sys target).peerIpMap]
    exact .inl rfl
  | blockIpAddress sys ip =>
    rw [(attempted_blockIpAddress e sys ip).peerIpMap]
    exact .inl rfl
  | releaseTarget sys target =>
    rw [(kept_releaseTarget e sys target).peerIpMap]
    exact .inl rfl

theorem peerIpMap_foldl_step (e : PolicyEnforcer) (calls : List Call) (nodeId : Bytes)
    : (calls.foldl PolicyEnforcer.step e).peerIpMap[nodeId]? = e.peerIpMap[nodeId]?
        ∨
      ∃ ip, .registerPeerIp nodeId ip ∈ calls ∧ nodeId ≠ []
        ∧ (calls.foldl PolicyEnforcer.step e).peerIpMap[nodeId]? = some ip := by
  induction calls generalizing e with
  | nil => exact .inl rfl
  | cons call calls ih =>
    rw [List.foldl_cons]
    rcases ih (e.step call) with hsame | ⟨ip, hmem, hne, hip⟩
    . rw [hsame]
      rcases peerIpMap_step e call nodeId with hsame | ⟨ip, rfl, hne, hip⟩
      . exact .inl hsame
      . exact .inr ⟨ip, List.mem_cons_self, hne, hip⟩
    . exact .inr ⟨ip, List.mem_cons_of_mem call hmem, hne, hip⟩

end PolicyEnforcer

section Sample

def workingSystem (now : Time) : System where
  now
  doneAt := now
  succeeds _ := true
  counted _ _ := (0, 0)

def samplePlatform (now : Time) : Platform where
  parse := Json.parse false
  sha256Hex := IdentityCore.plain.sha256Hex
  getpid := 4242
  kill _ := .delivered
  block := workingSystem now
  isolate := workingSystem now

def sampleEnforcer : PolicyEnforcer where
  nftables := true
  iptables := true

end Sample

end NeuroMesh
