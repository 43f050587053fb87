import NeuroMesh.Enforcer.Lemmas.Calls
import NeuroMesh.Kernel.Xdp

namespace NeuroMesh

namespace Ipv4

def limitedBroadcast : Ipv4 :=
  ⟨255, 255, 255, 255⟩

theorem key_limitedBroadcast : limitedBroadcast.key = Kernel.lockdownKey := by
  decide

end Ipv4

namespace Kernel

def ipv4Source (data : Bytes) : Option Ipv4 :=
  if ethhdrBytes + iphdrBytes ≤ data.length ∧ (data.drop 12).take 2 = [0x08, 0x00] then
    some (saddr (data.drop ethhdrBytes))
  else
    none

theorem xdpNeuroMeshDropper_eq_drop_iff {blacklist : Map UInt32 UInt8} {data : Bytes} {addr : Ipv4}
    (h : ipv4Source data = some addr)
    : xdpNeuroMeshDropper blacklist data = .drop
        ↔
      blacklist[addr.key]? = some 1 ∨ blacklist[lockdownKey]? = some 1 := by
  unfold ipv4Source at h
  split at h
  . next hframe =>
    cases h
    have hlength := hframe.1
    unfold ethhdrBytes iphdrBytes at hlength
    unfold xdpNeuroMeshDropper
    rw [if_neg (by unfold ethhdrBytes; omega), if_neg (by rw [hframe.2]; decide)]
    dsimp only
    rw [if_neg (by rw [List.length_drop]; unfold ethhdrBytes iphdrBytes; omega)]
    split
    . next hbanned => simp [hbanned]
    . next hbanned =>
      split
      . next hlockdown => simp [hlockdown]
      . next hlockdown => simp [hbanned, hlockdown]
  . contradiction

end Kernel

namespace PolicyEnforcer

variable {e : PolicyEnforcer} {sys : System} {ip target : Bytes}

def MapWorks (sys : System) : Prop :=
  ∀ addr, sys.succeeds (.bpfUpdate addr) = true ∧ sys.succeeds (.bpfDelete addr) = true

theorem applyEbpfDrop_of_mapWorks (h : MapWorks sys) {addr : Ipv4} (hip : ip = addr.ntop) (fw : Firewall)
    : fw.applyEbpfDrop sys ip
        =
      (true, { fw with blacklist := fw.blacklist.insert addr.key 1 }.install (.ebpf addr)) := by
  unfold Firewall.applyEbpfDrop
  rw [readIpv4_eq_some_iff.mpr hip]
  exact if_pos (h addr).1

theorem cascade_of_mapWorks (h : MapWorks sys) {addr : Ipv4} (hip : ip = addr.ntop)
    : (e.cascade sys ip).1 = true
        ∧
      (e.cascade sys ip).2.firewall.blacklist = e.firewall.blacklist.insert addr.key 1 := by
  unfold cascade
  rw [applyEbpfDrop_of_mapWorks h hip]
  exact ⟨rfl, rfl⟩

theorem cascade_of_readIpv4_eq_none (h : readIpv4 ip = none) : e.cascade sys ip = (false, e) := by
  have hnft : ∀ (fw : Firewall) lo dport, fw.addNftRule sys lo ip dport = (false, fw) := by
    intro fw lo dport
    rw [Firewall.addNftRule, h]
  unfold cascade Firewall.applyEbpfDrop Firewall.applyNftablesDrop Firewall.applyIptablesDrop
  rw [h]
  simp [hnft]

inductive Marks (e : PolicyEnforcer) (ip : Bytes) : Bool × PolicyEnforcer → Prop where
  | marked (addr : Ipv4) (hip : ip = addr.ntop) (hlo : onLoopback ip = false) (e' : PolicyEnforcer)
      (h : e'.firewall.blacklist = e.firewall.blacklist.insert addr.key 1) :
    Marks e ip (true, e')
  | unmarked (e' : PolicyEnforcer) (h : e'.firewall.blacklist = e.firewall.blacklist) :
    Marks e ip (false, e')

theorem marks_cascade (h : MapWorks sys) (hlo : onLoopback ip = false) : Marks e ip (e.cascade sys ip) := by
  cases hread : readIpv4 ip with
  | none =>
    rw [cascade_of_readIpv4_eq_none hread]
    exact .unmarked e rfl
  | some addr =>
    have hip := readIpv4_eq_some_iff.mp hread
    obtain ⟨hsuccess, hblacklist⟩ := cascade_of_mapWorks (e := e) h hip
    generalize e.cascade sys ip = result at *
    obtain ⟨success, e'⟩ := result
    cases hsuccess
    exact .marked addr hip hlo e' hblacklist

theorem marks_blockIpAddress (h : MapWorks sys) : Marks e ip (e.blockIpAddress sys ip) := by
  unfold blockIpAddress
  split
  . exact .unmarked e rfl
  . split
    . exact .unmarked e rfl
    . next hlo => exact marks_cascade h (Bool.eq_false_of_not_eq_true hlo)

theorem blacklist_applyNftablesPortDrop (fw : Firewall) (sys : System) (ip : Bytes) (port : UInt16)
    : (fw.applyNftablesPortDrop sys ip port).2.blacklist = fw.blacklist := by
  apply (Firewall.adds_applyNftablesPortDrop fw sys ip port).grows.blacklist_eq
  rintro addr ⟨_, transport, hdport⟩
  contradiction

inductive IsolationMarks (e : PolicyEnforcer) (target : Bytes) : Bool × PolicyEnforcer → Prop where
  | refused (e' : PolicyEnforcer) (h : e'.firewall.blacklist = e.firewall.blacklist)
      (hnodes : e'.isolatedNodes = e.isolatedNodes) :
    IsolationMarks e target (false, e')
  | unmarked (hmem : target ∈ e.isolatedNodes ∨ onLoopback (e.resolveTarget target) = true)
      (e' : PolicyEnforcer) (h : e'.firewall.blacklist = e.firewall.blacklist)
      (hnodes : e'.isolatedNodes = insert target e.isolatedNodes) :
    IsolationMarks e target (true, e')
  | marked (addr : Ipv4) (hip : e.resolveTarget target = addr.ntop)
      (hlo : onLoopback (e.resolveTarget target) = false) (e' : PolicyEnforcer)
      (h : e'.firewall.blacklist = e.firewall.blacklist.insert addr.key 1)
      (hnodes : e'.isolatedNodes = insert target e.isolatedNodes) :
    IsolationMarks e target (true, e')

theorem isolationMarks_enforce (h : MapWorks sys)
    : IsolationMarks e target (e.enforce sys target (e.resolveTarget target)) := by
  unfold enforce
  split
  . next hlo =>
    split
    . exact .refused e rfl rfl
    . split
      . have hblacklist := blacklist_applyNftablesPortDrop e.firewall sys (e.resolveTarget target)
          (e.resolvePort target)
        generalize e.firewall.applyNftablesPortDrop sys (e.resolveTarget target) (e.resolvePort target)
          = result at *
        obtain ⟨success, fw⟩ := result
        cases success with
        | false => exact .refused _ hblacklist rfl
        | true => exact .unmarked (.inr hlo) _ hblacklist rfl
      . exact .refused e rfl rfl
  . next hlo =>
    have hmarks := marks_cascade (e := e) h (Bool.eq_false_of_not_eq_true hlo)
    have hnodes := (attempted_cascade e sys (e.resolveTarget target)).isolatedNodes
    generalize e.cascade sys (e.resolveTarget target) = result at *
    cases hmarks with
    | marked addr hip hlo e' h => exact .marked addr hip hlo _ h (congrArg (insert target) hnodes)
    | unmarked e' h => exact .refused e' h hnodes

theorem isolationMarks_isolateTarget (h : MapWorks sys)
    : IsolationMarks e target (e.isolateTarget sys target) := by
  unfold isolateTarget
  split
  . exact .refused e rfl rfl
  . split
    . next hmem => exact .unmarked (.inl hmem) _ rfl (Finset.insert_eq_of_mem hmem).symm
    . split
      . exact .refused e rfl rfl
      . dsimp only
        split
        . exact .refused e rfl rfl
        . exact isolationMarks_enforce h

end PolicyEnforcer

/--
An enforcer together with what its callers know: the addresses that `block_ip_address` has reported as blocked,
and the targets that `isolate_target` has reported as isolated and that were not released since.
-/
structure Blockade where
  enforcer : PolicyEnforcer
  blocked : List Bytes := []
  isolated : Finset Bytes := ∅

namespace Blockade

open PolicyEnforcer

variable {b : Blockade} {call : Call} {addr : Ipv4}

def step (b : Blockade) (call : Call) : Blockade :=
  let enforcer := b.enforcer.step call
  match call with
  | .blockIpAddress sys ip =>
    if (b.enforcer.blockIpAddress sys ip).1 then
      { b with enforcer, blocked := ip :: b.blocked }
    else
      { b with enforcer }
  | .isolateTarget sys target =>
    if (b.enforcer.isolateTarget sys target).1 then
      { b with enforcer, isolated := insert target b.isolated }
    else
      { b with enforcer }
  | .releaseTarget _ target => { b with enforcer, isolated := b.isolated.erase target }
  | _ => { b with enforcer }

def Blocks (b : Blockade) (addr : Ipv4) : Prop :=
  addr.ntop ∈ b.blocked
    ∨
  onLoopback addr.ntop = false ∧ ∃ target ∈ b.isolated, b.enforcer.resolveTarget target = addr.ntop

instance (b : Blockade) (addr : Ipv4) : Decidable (b.Blocks addr) :=
  inferInstanceAs (Decidable (_ ∨ _ ∧ _))

def DropsBlocked (b : Blockade) : Prop :=
  ∀ data addr, Kernel.ipv4Source data = some addr →
    (Kernel.xdpNeuroMeshDropper b.enforcer.firewall.blacklist data = .drop ↔ b.Blocks addr)

def OnMap (call : Call) : Prop :=
  match call with
  | .blockIpAddress sys _ => MapWorks sys
  | .isolateTarget sys _ => MapWorks sys
  | .releaseTarget sys _ => MapWorks sys
  | _ => False

def addressOf (b : Blockade) (call : Call) : Option Bytes :=
  match call with
  | .blockIpAddress _ ip => some ip
  | .isolateTarget _ target => some (b.enforcer.resolveTarget target)
  | _ => none

structure PerAddress (b : Blockade) (call : Call) : Prop where
  reserved : b.addressOf call ≠ some Ipv4.limitedBroadcast.ntop
  release : ∀ sys target, call = .releaseTarget sys target → target ∈ b.isolated →
    onLoopback (b.enforcer.resolveTarget target) = false →
    b.enforcer.resolveTarget target ∉ b.blocked
      ∧ ∀ other ∈ b.isolated, b.enforcer.resolveTarget other = b.enforcer.resolveTarget target → other = target

structure Invariant (b : Blockade) : Prop where
  isolated : b.isolated = b.enforcer.isolatedNodes
  marked : ∀ addr : Ipv4, b.enforcer.firewall.blacklist[addr.key]? = some 1 ↔ b.Blocks addr
  reserved : ¬b.Blocks Ipv4.limitedBroadcast

theorem Invariant.dropsBlocked (h : b.Invariant) : b.DropsBlocked := by
  intro data addr hsource
  rw [Kernel.xdpNeuroMeshDropper_eq_drop_iff hsource, h.marked, ← Ipv4.key_limitedBroadcast, h.marked]
  simp [h.reserved]

theorem getElem?_insert_key (blacklist : Map UInt32 UInt8) (addr addr' : Ipv4)
    : (blacklist.insert addr.key 1)[addr'.key]? = some 1 ↔ blacklist[addr'.key]? = some 1 ∨ addr = addr' := by
  simp only [Std.ExtTreeMap.getElem?_insert, Std.LawfulEqOrd.compare_eq_iff_eq, Ipv4.key_injective.eq_iff]
  by_cases h : addr = addr'
  . simp [h]
  . simp [h]

theorem invariant_start {e : PolicyEnforcer} (hblacklist : e.firewall.blacklist = ∅)
    (hnodes : e.isolatedNodes = ∅)
    : Invariant { enforcer := e } where
  isolated := hnodes.symm
  marked addr := by
    rw [hblacklist]
    simp [Blocks]
  reserved := by simp [Blocks]

namespace Invariant

variable {b' : Blockade}

theorem keep (h : b.Invariant) (hisolated : b'.isolated = b'.enforcer.isolatedNodes)
    (hblacklist : b'.enforcer.firewall.blacklist = b.enforcer.firewall.blacklist)
    (hblocks : ∀ addr, b'.Blocks addr ↔ b.Blocks addr)
    : b'.Invariant where
  isolated := hisolated
  marked addr := by rw [hblacklist, h.marked, hblocks]
  reserved := by
    rw [hblocks]
    exact h.reserved

theorem mark (h : b.Invariant) (hisolated : b'.isolated = b'.enforcer.isolatedNodes)
    (hblacklist : b'.enforcer.firewall.blacklist = b.enforcer.firewall.blacklist.insert addr.key 1)
    (hblocks : ∀ addr', b'.Blocks addr' ↔ b.Blocks addr' ∨ addr = addr')
    (hne : addr ≠ Ipv4.limitedBroadcast)
    : b'.Invariant where
  isolated := hisolated
  marked addr' := by rw [hblacklist, getElem?_insert_key, h.marked, hblocks]
  reserved := by
    rw [hblocks, not_or]
    exact ⟨h.reserved, hne⟩

end Invariant

theorem blocks_of_kept {e : PolicyEnforcer} (hkept : Kept b.enforcer e) (addr : Ipv4)
    : Blocks { b with enforcer := e } addr ↔ b.Blocks addr := by
  unfold Blocks
  simp only [hkept.resolveTarget]

theorem blocks_insert {e : PolicyEnforcer} (hkept : Kept b.enforcer e) (target : Bytes) (addr : Ipv4)
    : Blocks { b with enforcer := e, isolated := insert target b.isolated } addr
        ↔
      b.Blocks addr ∨ onLoopback addr.ntop = false ∧ b.enforcer.resolveTarget target = addr.ntop := by
  unfold Blocks
  simp only [hkept.resolveTarget, Finset.mem_insert, exists_eq_or_imp, and_or_left, or_left_comm,
    or_comm]

theorem invariant_block {sys : System} {ip : Bytes} (h : b.Invariant) (hworks : MapWorks sys)
    (hreserved : ip ≠ Ipv4.limitedBroadcast.ntop)
    : (b.step (.blockIpAddress sys ip)).Invariant := by
  have hattempted := attempted_blockIpAddress b.enforcer sys ip
  have hkept := blocks_of_kept hattempted.toKept
  have hisolated := h.isolated.trans hattempted.isolatedNodes.symm
  have hmarks : Marks b.enforcer ip (b.enforcer.blockIpAddress sys ip) := marks_blockIpAddress hworks
  rw [step, PolicyEnforcer.step]
  generalize b.enforcer.blockIpAddress sys ip = result at *
  cases hmarks with
  | unmarked e' hblacklist => exact h.keep hisolated hblacklist hkept
  | marked addr hip hlo e' hblacklist =>
    rw [hip, Ne, Ipv4.ntop_injective.eq_iff] at hreserved
    refine h.mark hisolated hblacklist ?_ hreserved
    intro addr'
    rw [← hkept, hip]
    simp only [Blocks, if_true, List.mem_cons, Ipv4.ntop_injective.eq_iff, eq_comm (a := addr'), or_assoc, or_comm]

theorem invariant_isolate {sys : System} {target : Bytes} (h : b.Invariant) (hworks : MapWorks sys)
    (hreserved : b.enforcer.resolveTarget target ≠ Ipv4.limitedBroadcast.ntop)
    : (b.step (.isolateTarget sys target)).Invariant := by
  have hkept := kept_isolateTarget b.enforcer sys target
  have hmarks : IsolationMarks b.enforcer target (b.enforcer.isolateTarget sys target) :=
    isolationMarks_isolateTarget hworks
  rw [step, PolicyEnforcer.step]
  generalize b.enforcer.isolateTarget sys target = result at *
  cases hmarks with
  | refused e' hblacklist hnodes => exact h.keep (h.isolated.trans hnodes.symm) hblacklist (blocks_of_kept hkept)
  | unmarked hmem e' hblacklist hnodes =>
    refine h.keep ((congrArg _ h.isolated).trans hnodes.symm) hblacklist ?_
    intro addr
    rw [if_pos rfl, blocks_insert hkept, or_iff_left_iff_imp]
    rintro ⟨hlo, hip⟩
    rcases hmem with hmem | hlo'
    . rw [← h.isolated] at hmem
      exact .inr ⟨hlo, target, hmem, hip⟩
    . rw [hip, hlo] at hlo'
      contradiction
  | marked addr hip hlo e' hblacklist hnodes =>
    rw [hip, Ne, Ipv4.ntop_injective.eq_iff] at hreserved
    refine h.mark ((congrArg _ h.isolated).trans hnodes.symm) hblacklist ?_ hreserved
    intro addr'
    rw [if_pos rfl, blocks_insert hkept, hip, Ipv4.ntop_injective.eq_iff]
    rw [hip] at hlo
    constructor
    . rintro (hblocks | ⟨_, heq⟩)
      . exact .inl hblocks
      . exact .inr heq
    . rintro (hblocks | rfl)
      . exact .inl hblocks
      . exact .inr ⟨hlo, rfl⟩

theorem blocks_erase_of_ne {e : PolicyEnforcer} (hkept : Kept b.enforcer e) {target : Bytes}
    (hne : onLoopback addr.ntop = false → b.enforcer.resolveTarget target ≠ addr.ntop)
    : Blocks { b with enforcer := e, isolated := b.isolated.erase target } addr ↔ b.Blocks addr := by
  unfold Blocks
  simp only [hkept.resolveTarget, Finset.mem_erase]
  apply or_congr_right
  apply and_congr_right
  intro hlo
  constructor
  . rintro ⟨other, hmem, hip⟩
    exact ⟨other, hmem.2, hip⟩
  . rintro ⟨other, hmem, hip⟩
    refine ⟨other, ⟨?_, hmem⟩, hip⟩
    rintro rfl
    exact hne hlo hip

theorem not_blocks_erase {e : PolicyEnforcer} (hkept : Kept b.enforcer e) {target : Bytes}
    (hip : b.enforcer.resolveTarget target = addr.ntop) (hblocked : b.enforcer.resolveTarget target ∉ b.blocked)
    (hothers : ∀ other ∈ b.isolated,
      b.enforcer.resolveTarget other = b.enforcer.resolveTarget target → other = target)
    : ¬Blocks { b with enforcer := e, isolated := b.isolated.erase target } addr := by
  unfold Blocks
  simp only [hkept.resolveTarget, Finset.mem_erase]
  rintro (hmem | ⟨_, other, hmem, hother⟩)
  . rw [← hip] at hmem
    exact hblocked hmem
  . exact hmem.1 (hothers other hmem.2 (hother.trans hip.symm))

theorem invariant_release {sys : System} {target : Bytes} (h : b.Invariant) (hworks : MapWorks sys)
    (hrelease : target ∈ b.isolated → onLoopback (b.enforcer.resolveTarget target) = false →
      b.enforcer.resolveTarget target ∉ b.blocked
      ∧ ∀ other ∈ b.isolated, b.enforcer.resolveTarget other = b.enforcer.resolveTarget target → other = target)
    : (b.step (.releaseTarget sys target)).Invariant := by
  have hkept := kept_releaseTarget b.enforcer sys target
  have hnodes : b.isolated.erase target = (b.enforcer.releaseTarget sys target).isolatedNodes := by
    rw [h.isolated]
    by_cases hmem : target ∈ b.enforcer.isolatedNodes
    . rw [releaseTarget_of_mem hmem]
    . rw [releaseTarget_of_not_mem hmem, Finset.erase_eq_of_notMem hmem]
  rw [step, PolicyEnforcer.step]
  by_cases hmem : target ∈ b.isolated
  . cases hlo : onLoopback (b.enforcer.resolveTarget target) with
    | true =>
      obtain ⟨rules, hfirewall⟩ := releaseTarget_of_onLoopback sys hlo
      apply h.keep hnodes (by rw [hfirewall])
      intro addr
      apply blocks_erase_of_ne hkept
      intro hlo' hip
      rw [hip, hlo'] at hlo
      contradiction
    | false =>
      have hblacklist : (b.enforcer.releaseTarget sys target).firewall.blacklist
          = (b.enforcer.firewall.removeEbpfDrop sys (b.enforcer.resolveTarget target)).2.blacklist :=
        blacklist_releaseTarget_of_mem (h.isolated ▸ hmem) hlo
      cases hread : readIpv4 (b.enforcer.resolveTarget target) with
      | none =>
        apply h.keep hnodes
        . dsimp only
          rw [hblacklist]
          unfold Firewall.removeEbpfDrop
          rw [hread]
        . intro addr
          apply blocks_erase_of_ne hkept
          intro _ hip
          rw [readIpv4_eq_some_iff.mpr hip] at hread
          contradiction
      | some addr =>
        have hip := readIpv4_eq_some_iff.mp hread
        obtain ⟨hblocked, hothers⟩ := hrelease hmem hlo
        have hiff : ∀ addr', (b.enforcer.releaseTarget sys target).firewall.blacklist[addr'.key]? = some 1
            ↔ Blocks { b with
                enforcer := b.enforcer.releaseTarget sys target, isolated := b.isolated.erase target } addr' := by
          intro addr'
          rw [hblacklist, Firewall.getElem?_removeEbpfDrop hip, (hworks addr).2]
          simp only [true_and]
          split
          . next heq =>
            have heq := Ipv4.key_injective heq
            simp [not_blocks_erase hkept (heq ▸ hip) hblocked hothers]
          . next hne =>
            rw [h.marked, blocks_erase_of_ne hkept]
            intro _ heq
            rw [hip, Ipv4.ntop_injective.eq_iff] at heq
            exact hne (congrArg Ipv4.key heq.symm)
        refine ⟨hnodes, hiff, ?_⟩
        rw [← hiff, hblacklist, Firewall.getElem?_removeEbpfDrop hip]
        split
        . simp
        . rw [h.marked]
          exact h.reserved
  . have hmem' := h.isolated ▸ hmem
    rw [releaseTarget_of_not_mem hmem', Finset.erase_eq_of_notMem hmem]
    exact h

theorem invariant_step (h : b.Invariant) (honMap : OnMap call) (hper : b.PerAddress call) : (b.step call).Invariant := by
  cases call with
  | blockIpAddress sys ip =>
    apply invariant_block h honMap
    rintro rfl
    exact hper.reserved rfl
  | isolateTarget sys target =>
    apply invariant_isolate h honMap
    intro hip
    exact hper.reserved (congrArg some hip)
  | releaseTarget sys target => exact invariant_release h honMap (hper.release sys target rfl)
  | _ => contradiction

theorem always_dropsBlocked (e : PolicyEnforcer) (hblacklist : e.firewall.blacklist = ∅)
    (hnodes : e.isolatedNodes = ∅) (calls : List Call) (honMap : ∀ call ∈ calls, OnMap call)
    (hper : Run.Along step PerAddress { enforcer := e } calls)
    : Run.Always step DropsBlocked { enforcer := e } calls := by
  have hboth : Run.Along step (fun b call => OnMap call ∧ PerAddress b call) { enforcer := e } calls := by
    rw [Run.along_iff_forall] at *
    intro before call after heq
    exact ⟨honMap call (by simp [heq]), hper before call after heq⟩
  apply Run.always_of_invariant (I := Invariant) _ _ (invariant_start hblacklist hnodes) hboth
  . exact fun b call h hcall => invariant_step h hcall.1 hcall.2
  . exact fun b h => h.dropsBlocked

section Sample

theorem mapWorks_workingSystem (now : Time) : MapWorks (workingSystem now) :=
  fun _ => ⟨rfl, rfl⟩

def frame (addr : Ipv4) : Bytes :=
  List.replicate 12 0 ++ [0x08, 0x00] ++ List.replicate 12 0 ++ [addr.a, addr.b, addr.c, addr.d]
    ++ List.replicate 4 0

def blocking : List Call :=
  [
    .blockIpAddress (workingSystem 0) (bytes "10.0.0.1"),
    .isolateTarget (workingSystem 0) (bytes "10.0.0.2"),
    .releaseTarget (workingSystem 0) (bytes "10.0.0.2")
  ]

theorem onMap_of_mem_blocking : ∀ call ∈ blocking, OnMap call := by
  simp only [blocking, List.forall_mem_cons]
  exact ⟨mapWorks_workingSystem 0, mapWorks_workingSystem 0, mapWorks_workingSystem 0, List.forall_mem_nil _⟩

theorem along_perAddress_blocking : Run.Along step PerAddress { enforcer := sampleEnforcer } blocking := by
  refine ⟨⟨?_, ?_⟩, ⟨?_, ?_⟩, ⟨?_, ?_⟩, trivial⟩
  . decide +kernel
  . rintro sys target hcall
    contradiction
  . decide +kernel
  . rintro sys target hcall
    contradiction
  . decide +kernel
  . rintro sys target hcall
    cases hcall
    decide +kernel

theorem always_dropsBlocked_blocking
    : sampleEnforcer.firewall.blacklist = ∅
        ∧
      Run.Along step PerAddress { enforcer := sampleEnforcer } blocking
        ∧
      Run.Always step DropsBlocked { enforcer := sampleEnforcer } blocking :=
  ⟨rfl, along_perAddress_blocking,
    always_dropsBlocked sampleEnforcer rfl rfl blocking onMap_of_mem_blocking along_perAddress_blocking⟩

-- the key of this address is the one for the lockdown
theorem not_always_dropsBlocked
    : ¬Run.Always step DropsBlocked { enforcer := sampleEnforcer }
        [.blockIpAddress (workingSystem 0) (bytes "255.255.255.255")] := by
  intro h
  have hiff := h.2 (frame ⟨10, 0, 0, 1⟩) ⟨10, 0, 0, 1⟩ (by decide +kernel)
  exact absurd (hiff.mp (by decide +kernel)) (by decide +kernel)

end Sample

end Blockade
end NeuroMesh
