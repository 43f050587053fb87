import NeuroMesh.Common.Inet.Lemmas
import NeuroMesh.Enforcer.PolicyEnforcer

namespace NeuroMesh

theorem readIpv4_eq_some_iff {ip : Bytes} {addr : Ipv4} : readIpv4 ip = some addr ↔ ip = addr.ntop := by
  unfold readIpv4
  constructor
  . intro h
    cases hpton : inetPton ip with
    | none =>
      rw [hpton] at h
      contradiction
    | some addr' =>
      rw [hpton] at h
      dsimp only at h
      split at h
      . next heq =>
        cases h
        exact heq
      . contradiction
  . rintro rfl
    rw [Ipv4.inetPton_ntop]
    exact if_pos rfl

theorem isValidIp_ntop (addr : Ipv4) : isValidIp addr.ntop = true := by
  unfold isValidIp isValidIpv4
  rw [readIpv4_eq_some_iff.mpr rfl]
  rfl

theorem toNat_or_shiftLeft {n k : UInt32} {c : UInt8} (hk : k.toNat ≤ 24) (hn : n.toNat < 2 ^ k.toNat)
    : (n ||| c.toUInt32 <<< k).toNat = n.toNat + c.toNat * 2 ^ k.toNat := by
  have hc := c.toNat_lt
  have hpow : 2 ^ k.toNat ≤ 2 ^ 24 := Nat.pow_le_pow_right (by omega) hk
  have hlt : c.toNat * 2 ^ k.toNat < 2 ^ 32 := by
    calc c.toNat * 2 ^ k.toNat ≤ c.toNat * 2 ^ 24 := Nat.mul_le_mul_left _ hpow
      _ < 2 ^ 32 := by omega
  rw [UInt32.toNat_or, UInt32.toNat_shiftLeft, UInt8.toNat_toUInt32, Nat.mod_eq_of_lt (by omega : k.toNat < 32),
    Nat.mod_eq_of_lt (by rwa [Nat.shiftLeft_eq]), Nat.or_comm, ← Nat.shiftLeft_add_eq_or_of_lt hn,
    Nat.shiftLeft_eq, Nat.add_comm]

namespace Ipv4

theorem toNat_key (addr : Ipv4)
    : addr.key.toNat
        =
      addr.a.toNat + addr.b.toNat * 2 ^ 8 + addr.c.toNat * 2 ^ 16 + addr.d.toNat * 2 ^ 24 := by
  have ha := addr.a.toNat_lt
  have hb := addr.b.toNat_lt
  have hc := addr.c.toNat_lt
  have htwo : (addr.a.toUInt32 ||| addr.b.toUInt32 <<< 8).toNat = addr.a.toNat + addr.b.toNat * 2 ^ 8 :=
    toNat_or_shiftLeft (k := 8) (by decide) ha
  have hthree : (addr.a.toUInt32 ||| addr.b.toUInt32 <<< 8 ||| addr.c.toUInt32 <<< 16).toNat
      = addr.a.toNat + addr.b.toNat * 2 ^ 8 + addr.c.toNat * 2 ^ 16 := by
    rw [← htwo]
    apply toNat_or_shiftLeft (k := 16) (by decide)
    rw [htwo]
    show _ < 2 ^ 16
    omega
  unfold key
  rw [← hthree]
  apply toNat_or_shiftLeft (k := 24) (by decide)
  rw [hthree]
  show _ < 2 ^ 24
  omega

theorem key_injective : Function.Injective key := by
  intro addr addr' h
  have hnat := congrArg UInt32.toNat h
  rw [toNat_key, toNat_key] at hnat
  have ha := addr.a.toNat_lt
  have hb := addr.b.toNat_lt
  have hc := addr.c.toNat_lt
  have ha' := addr'.a.toNat_lt
  have hb' := addr'.b.toNat_lt
  have hc' := addr'.c.toNat_lt
  obtain ⟨a, b, c, d⟩ := addr
  obtain ⟨a', b', c', d'⟩ := addr'
  simp only [Ipv4.mk.injEq, ← UInt8.toNat_inj] at *
  omega

end Ipv4

def onLoopback (ip : Bytes) : Bool :=
  isLoopback ip || isLoopbackIpv6 ip

def DropRule.dport (rule : DropRule) : Option (Transport × UInt16) :=
  match rule with
  | .ebpf _ => none
  | .nft rule => rule.spec.dport
  | .ipt _ => none

def DropRule.lo (rule : DropRule) : Bool :=
  match rule with
  | .ebpf _ => false
  | .nft rule => rule.spec.lo
  | .ipt _ => false

def DropRule.Drops (rule : DropRule) (ip : Bytes) (port : UInt16) : Prop :=
  rule.saddr.ntop = ip
    ∧
  if onLoopback ip then
    ∃ transport, rule.dport = some (transport, port)
  else
    rule.dport = none ∧ rule.lo = false

namespace Firewall

variable {sys : System} {P Q : DropRule → Prop} {fw fw' fw'' : Firewall} {ip : Bytes} {port : UInt16}

inductive Grows (P : DropRule → Prop) (fw : Firewall) : Firewall → Prop where
  | refl : Grows P fw fw
  | ebpf {fw' : Firewall} (h : Grows P fw fw') (addr : Ipv4) (hP : P (.ebpf addr)) :
    Grows P fw ({ fw' with blacklist := fw'.blacklist.insert addr.key 1 }.install (.ebpf addr))
  | nft {fw' : Firewall} (h : Grows P fw fw') (spec : NftSpec) (hP : P (.nft ⟨fw'.nextHandle, spec⟩)) :
    Grows P fw
      ({ fw' with
          rules := fw'.rules ++ [NftRule.mk fw'.nextHandle spec], nextHandle := fw'.nextHandle + 1
        }.install (.nft ⟨fw'.nextHandle, spec⟩))
  | ipt {fw' : Firewall} (h : Grows P fw fw') (saddr : Ipv4) (hP : P (.ipt ⟨fw'.nextNumber, saddr⟩)) :
    Grows P fw
      ({ fw' with
          input := fw'.input ++ [IptRule.mk fw'.nextNumber saddr], nextNumber := fw'.nextNumber + 1
        }.install (.ipt ⟨fw'.nextNumber, saddr⟩))

theorem Grows.trans (h : Grows P fw fw') (h' : Grows P fw' fw'') : Grows P fw fw'' := by
  induction h' with
  | refl => exact h
  | ebpf _ addr hP ih => exact ih.ebpf addr hP
  | nft _ spec hP ih => exact ih.nft spec hP
  | ipt _ saddr hP ih => exact ih.ipt saddr hP

theorem Grows.mono (h : Grows P fw fw') (himp : ∀ rule, P rule → Q rule) : Grows Q fw fw' := by
  induction h with
  | refl => exact .refl
  | ebpf _ addr hP ih => exact ih.ebpf addr (himp _ hP)
  | nft _ spec hP ih => exact ih.nft spec (himp _ hP)
  | ipt _ saddr hP ih => exact ih.ipt saddr (himp _ hP)

def InForce (fw : Firewall) (rule : DropRule) : Prop :=
  match rule with
  | .ebpf addr => fw.blacklist[addr.key]? = some 1
  | .nft rule => rule ∈ fw.rules
  | .ipt rule => rule ∈ fw.input

instance (fw : Firewall) : DecidablePred fw.InForce :=
  fun rule =>
    match rule with
    | .ebpf addr => inferInstanceAs (Decidable (fw.blacklist[addr.key]? = some 1))
    | .nft rule => inferInstanceAs (Decidable (rule ∈ fw.rules))
    | .ipt rule => inferInstanceAs (Decidable (rule ∈ fw.input))

def Covers (fw : Firewall) (ip : Bytes) (port : UInt16) : Prop :=
  ∃ rule, fw.InForce rule ∧ rule.Drops ip port

theorem Grows.rules_subset (h : Grows P fw fw') : fw.rules ⊆ fw'.rules := by
  induction h with
  | refl => exact List.Subset.refl _
  | ebpf _ _ _ ih => exact ih
  | nft _ _ _ ih => exact fun rule hrule => List.mem_append_left _ (ih hrule)
  | ipt _ _ _ ih => exact ih

theorem Grows.input_subset (h : Grows P fw fw') : fw.input ⊆ fw'.input := by
  induction h with
  | refl => exact List.Subset.refl _
  | ebpf _ _ _ ih => exact ih
  | nft _ _ _ ih => exact ih
  | ipt _ _ _ ih => exact fun rule hrule => List.mem_append_left _ (ih hrule)

theorem Grows.blacklist (h : Grows P fw fw') {key : UInt32} (hkey : fw.blacklist[key]? = some 1)
    : fw'.blacklist[key]? = some 1 := by
  induction h with
  | refl => exact hkey
  | ebpf _ addr _ ih =>
    show (Std.ExtTreeMap.insert _ _ _)[key]? = _
    rw [Std.ExtTreeMap.getElem?_insert]
    split
    . rfl
    . exact ih
  | nft _ _ _ ih => exact ih
  | ipt _ _ _ ih => exact ih

theorem Grows.blacklist_eq (h : Grows P fw fw') (hP : ∀ addr, ¬P (.ebpf addr)) : fw'.blacklist = fw.blacklist := by
  induction h with
  | refl => rfl
  | ebpf _ addr hrule _ => exact absurd hrule (hP addr)
  | nft _ _ _ ih => exact ih
  | ipt _ _ _ ih => exact ih

theorem Grows.inForce (h : Grows P fw fw') {rule : DropRule} (hrule : fw.InForce rule) : fw'.InForce rule := by
  cases rule with
  | ebpf addr => exact h.blacklist hrule
  | nft rule => exact h.rules_subset hrule
  | ipt rule => exact h.input_subset hrule

theorem Grows.installed (h : Grows P fw fw')
    : ∃ new, fw'.installed = new ++ fw.installed ∧ ∀ rule ∈ new, P rule ∧ fw'.InForce rule := by
  induction h with
  | refl => exact ⟨[], rfl, List.forall_mem_nil _⟩
  | ebpf _ addr hP ih =>
    obtain ⟨new, hnew, hall⟩ := ih
    refine ⟨_ :: new, congrArg _ hnew, List.forall_mem_cons.mpr ⟨⟨hP, ?_⟩, ?_⟩⟩
    . exact Std.ExtTreeMap.getElem?_insert_self
    . intro rule hrule
      exact ⟨(hall rule hrule).1, (Grows.refl.ebpf addr hP).inForce (hall rule hrule).2⟩
  | nft _ spec hP ih =>
    obtain ⟨new, hnew, hall⟩ := ih
    refine ⟨_ :: new, congrArg _ hnew, List.forall_mem_cons.mpr ⟨⟨hP, ?_⟩, ?_⟩⟩
    . exact List.mem_append_right _ List.mem_cons_self
    . intro rule hrule
      exact ⟨(hall rule hrule).1, (Grows.refl.nft spec hP).inForce (hall rule hrule).2⟩
  | ipt _ saddr hP ih =>
    obtain ⟨new, hnew, hall⟩ := ih
    refine ⟨_ :: new, congrArg _ hnew, List.forall_mem_cons.mpr ⟨⟨hP, ?_⟩, ?_⟩⟩
    . exact List.mem_append_right _ List.mem_cons_self
    . intro rule hrule
      exact ⟨(hall rule hrule).1, (Grows.refl.ipt saddr hP).inForce (hall rule hrule).2⟩

theorem Grows.covers (h : Grows P fw fw') (hcovers : fw.Covers ip port) : fw'.Covers ip port := by
  obtain ⟨rule, hforce, hdrops⟩ := hcovers
  exact ⟨rule, h.inForce hforce, hdrops⟩

def ForAddress (ip : Bytes) (rule : DropRule) : Prop :=
  rule.saddr.ntop = ip ∧ rule.dport = none

def ForPort (ip : Bytes) (port : UInt16) (rule : DropRule) : Prop :=
  rule.saddr.ntop = ip ∧ ∃ transport, rule.dport = some (transport, port)

structure Adds (P : DropRule → Prop) (lo : Bool) (fw : Firewall) (result : Bool × Firewall) : Prop where
  grows : Grows P fw result.2
  inForce : result.1 = true → ∃ rule, result.2.InForce rule ∧ P rule ∧ rule.lo = lo

namespace Adds

variable {lo : Bool} {result : Bool × Firewall}

theorem refused (P : DropRule → Prop) (lo : Bool) (fw : Firewall) : Adds P lo fw (false, fw) :=
  ⟨.refl, nofun⟩

theorem mono (h : Adds P lo fw result) (himp : ∀ rule, P rule → Q rule) : Adds Q lo fw result where
  grows := h.grows.mono himp
  inForce htrue := by
    obtain ⟨rule, hforce, hP, hlo⟩ := h.inForce htrue
    exact ⟨rule, hforce, himp rule hP, hlo⟩

theorem before (h : Adds P lo fw result) (hgrows : Grows P result.2 fw') : Adds P lo fw (result.1, fw') where
  grows := h.grows.trans hgrows
  inForce htrue := by
    obtain ⟨rule, hforce, hrule⟩ := h.inForce htrue
    exact ⟨rule, hgrows.inForce hforce, hrule⟩

theorem after (h : Adds P lo fw' result) (hgrows : Grows P fw fw') : Adds P lo fw result :=
  ⟨hgrows.trans h.grows, h.inForce⟩

theorem covers_address (h : Adds (ForAddress ip) false fw result) (hlo : onLoopback ip = false)
    (htrue : result.1 = true)
    : result.2.Covers ip port := by
  obtain ⟨rule, hforce, ⟨hsaddr, hdport⟩, hrule⟩ := h.inForce htrue
  refine ⟨rule, hforce, hsaddr, ?_⟩
  rw [hlo]
  exact ⟨hdport, hrule⟩

theorem covers_port (h : Adds (ForPort ip port) true fw result) (hlo : onLoopback ip = true)
    (htrue : result.1 = true)
    : result.2.Covers ip port := by
  obtain ⟨rule, hforce, ⟨hsaddr, hdport⟩, _⟩ := h.inForce htrue
  refine ⟨rule, hforce, hsaddr, ?_⟩
  rw [hlo]
  exact hdport

end Adds

theorem adds_addNftRule (fw : Firewall) (sys : System) (lo : Bool) (ip : Bytes)
    (dport : Option (Transport × UInt16))
    : Adds (fun rule => rule.saddr.ntop = ip ∧ rule.dport = dport) lo fw (fw.addNftRule sys lo ip dport) := by
  unfold addNftRule
  cases hread : readIpv4 ip with
  | none => exact .refused _ _ _
  | some saddr =>
    have hrule := (readIpv4_eq_some_iff.mp hread).symm
    dsimp only
    split
    . refine ⟨.nft .refl _ ⟨hrule, rfl⟩, fun _ => ⟨.nft ⟨fw.nextHandle, ⟨lo, saddr, dport⟩⟩, ?_, ⟨hrule, rfl⟩, rfl⟩⟩
      exact List.mem_append_right _ List.mem_cons_self
    . exact .refused _ _ _

theorem adds_applyEbpfDrop (fw : Firewall) (sys : System) (ip : Bytes)
    : Adds (ForAddress ip) false fw (fw.applyEbpfDrop sys ip) := by
  unfold applyEbpfDrop
  cases hread : readIpv4 ip with
  | none => exact .refused _ _ _
  | some addr =>
    have hrule := (readIpv4_eq_some_iff.mp hread).symm
    dsimp only
    split
    . refine ⟨.ebpf .refl addr ⟨hrule, rfl⟩, fun _ => ⟨.ebpf addr, ?_, ⟨hrule, rfl⟩, rfl⟩⟩
      exact Std.ExtTreeMap.getElem?_insert_self
    . exact .refused _ _ _

theorem adds_applyIptablesDrop (fw : Firewall) (sys : System) (ip : Bytes)
    : Adds (ForAddress ip) false fw (fw.applyIptablesDrop sys ip) := by
  unfold applyIptablesDrop
  cases hread : readIpv4 ip with
  | none => exact .refused _ _ _
  | some saddr =>
    have hrule := (readIpv4_eq_some_iff.mp hread).symm
    dsimp only
    split
    . refine ⟨.ipt .refl saddr ⟨hrule, rfl⟩, fun _ => ⟨.ipt ⟨fw.nextNumber, saddr⟩, ?_, ⟨hrule, rfl⟩, rfl⟩⟩
      exact List.mem_append_right _ List.mem_cons_self
    . exact .refused _ _ _

theorem adds_applyNftablesDrop (fw : Firewall) (sys : System) (ip : Bytes)
    : Adds (ForAddress ip) false fw (fw.applyNftablesDrop sys ip) :=
  (adds_addNftRule _ _ _ _ _).before (adds_addNftRule _ _ _ _ _).grows

theorem adds_applyNftablesPortDrop (fw : Firewall) (sys : System) (ip : Bytes) (port : UInt16)
    : Adds (ForPort ip port) true fw (fw.applyNftablesPortDrop sys ip port) := by
  have hport : ∀ (fw : Firewall) (transport : Transport),
      Adds (ForPort ip port) true fw (fw.addNftRule sys true ip (some (transport, port))) := by
    intro fw transport
    apply (adds_addNftRule _ _ _ _ _).mono
    intro rule hrule
    exact ⟨hrule.1, transport, hrule.2⟩
  unfold applyNftablesPortDrop
  split
  . exact .refused _ _ _
  . have htcp := (hport fw .tcp).before (hport _ .udp).grows
    have hudp := (hport _ .udp).after (hport fw .tcp).grows
    refine ⟨hudp.grows, fun h => ?_⟩
    rcases Bool.or_eq_true_iff.mp h with h | h
    . exact htcp.inForce h
    . exact hudp.inForce h

structure Shrinks (fw fw' : Firewall) : Prop where
  installed : fw'.installed = fw.installed
  nextHandle : fw'.nextHandle = fw.nextHandle
  nextNumber : fw'.nextNumber = fw.nextNumber
  rules : fw'.rules.Sublist fw.rules
  input : fw'.input.Sublist fw.input
  blacklist : ∀ (key : UInt32) (value : UInt8), fw'.blacklist[key]? = some value → fw.blacklist[key]? = some value

namespace Shrinks

theorem refl (fw : Firewall) : Shrinks fw fw :=
  ⟨rfl, rfl, rfl, List.Sublist.refl _, List.Sublist.refl _, fun _ _ h => h⟩

theorem trans (h : Shrinks fw fw') (h' : Shrinks fw' fw'') : Shrinks fw fw'' where
  installed := h'.installed.trans h.installed
  nextHandle := h'.nextHandle.trans h.nextHandle
  nextNumber := h'.nextNumber.trans h.nextNumber
  rules := h'.rules.trans h.rules
  input := h'.input.trans h.input
  blacklist key value hvalue := h.blacklist key value (h'.blacklist key value hvalue)

end Shrinks

theorem snd_deleteNftHandle (fw : Firewall) (sys : System) (handle : Int)
    : (fw.deleteNftHandle sys handle).2
        =
      { fw with
        rules := fw.rules.filter fun rule => ¬((rule.handle : Int) = handle ∧ sys.succeeds (.nftDelete handle)) } := by
  unfold deleteNftHandle
  split
  . next hdeletes =>
    rw [Bool.and_eq_true] at hdeletes
    simp [hdeletes.1]
  . next hkeeps =>
    -- either the command fails or there is no such rule
    have hself : fw.rules.filter (fun rule =>
        ¬((rule.handle : Int) = handle ∧ sys.succeeds (.nftDelete handle))) = fw.rules := by
      rw [List.filter_eq_self]
      intro rule hrule
      rw [decide_eq_true_eq]
      rintro ⟨hhandle, hsucceeds⟩
      apply hkeeps
      rw [Bool.and_eq_true, List.any_eq_true]
      exact ⟨hsucceeds, rule, hrule, decide_eq_true hhandle⟩
    rw [hself]

theorem snd_foldl_deleteNftHandle (sys : System) (handles : List Int) (result : Bool × Firewall)
    : (handles.foldl
        (fun (anyDeleted, fw) handle =>
          let (deleted, fw) := deleteNftHandle fw sys handle
          (anyDeleted || deleted, fw))
        result).2
        =
      { result.2 with
        rules := result.2.rules.filter fun rule =>
          ¬((rule.handle : Int) ∈ handles ∧ sys.succeeds (.nftDelete rule.handle)) } := by
  induction handles generalizing result with
  | nil => simp
  | cons handle handles ih =>
    rw [List.foldl_cons, ih]
    dsimp only
    rw [snd_deleteNftHandle]
    dsimp only
    rw [List.filter_filter]
    congr 2
    funext rule
    rw [← Bool.decide_and, decide_eq_decide, List.mem_cons]
    constructor
    . rintro ⟨hothers, hthis⟩ ⟨heq | hmem, hsucceeds⟩
      . exact hthis ⟨heq, heq ▸ hsucceeds⟩
      . exact hothers ⟨hmem, hsucceeds⟩
    . intro h
      exact ⟨fun hmem => h ⟨.inr hmem.1, hmem.2⟩, fun heq => h ⟨.inl heq.1, heq.1 ▸ heq.2⟩⟩

structure Numbered (fw : Firewall) : Prop where
  handles : (fw.rules.map NftRule.handle).Nodup
  handle_lt : ∀ rule ∈ fw.rules, rule.handle < fw.nextHandle
  numbers : (fw.input.map IptRule.number).Nodup
  number_lt : ∀ rule ∈ fw.input, rule.number < fw.nextNumber

theorem nodup_map_concat {α : Type} {f : α → Nat} {l : List α} {a : α} (h : (l.map f).Nodup)
    (hlt : ∀ b ∈ l, f b < f a)
    : ((l ++ [a]).map f).Nodup := by
  rw [List.map_append, List.map_singleton, List.nodup_append]
  refine ⟨h, List.nodup_singleton _, ?_⟩
  intro n hn m hm
  obtain ⟨b, hb, rfl⟩ := List.mem_map.mp hn
  rw [List.mem_singleton.mp hm]
  exact (hlt b hb).ne

theorem Numbered.grows (hnumbered : fw.Numbered) (h : Grows P fw fw') : fw'.Numbered := by
  induction h with
  | refl => exact hnumbered
  | ebpf _ _ _ ih => exact ⟨ih.handles, ih.handle_lt, ih.numbers, ih.number_lt⟩
  | nft _ spec _ ih =>
    refine ⟨nodup_map_concat ih.handles ih.handle_lt, ?_, ih.numbers, ih.number_lt⟩
    intro rule hrule
    rcases List.mem_append.mp hrule with hold | hnew
    . exact (ih.handle_lt rule hold).trans (Nat.lt_succ_self _)
    . rw [List.mem_singleton.mp hnew]
      exact Nat.lt_succ_self _
  | ipt _ saddr _ ih =>
    refine ⟨ih.handles, ih.handle_lt, nodup_map_concat ih.numbers ih.number_lt, ?_⟩
    intro rule hrule
    rcases List.mem_append.mp hrule with hold | hnew
    . exact (ih.number_lt rule hold).trans (Nat.lt_succ_self _)
    . rw [List.mem_singleton.mp hnew]
      exact Nat.lt_succ_self _

theorem Numbered.shrinks (hnumbered : fw.Numbered) (h : Shrinks fw fw') : fw'.Numbered where
  handles := hnumbered.handles.sublist (h.rules.map _)
  handle_lt rule hrule := by
    rw [h.nextHandle]
    exact hnumbered.handle_lt rule (h.rules.mem hrule)
  numbers := hnumbered.numbers.sublist (h.input.map _)
  number_lt rule hrule := by
    rw [h.nextNumber]
    exact hnumbered.number_lt rule (h.input.mem hrule)

def Deletes (sys : System) (matchSubstr : Bytes) (rules : List NftRule) (rule : NftRule) : Prop :=
  sys.succeeds (.nftList matchSubstr) = true
    ∧ (rule.handle : Int) ∈ findNftHandles ((listing rules (sys.counted matchSubstr)).take captureBytes) matchSubstr
    ∧ sys.succeeds (.nftDelete rule.handle) = true

instance (sys : System) (matchSubstr : Bytes) (rules : List NftRule) (rule : NftRule) :
    Decidable (Deletes sys matchSubstr rules rule) :=
  inferInstanceAs (Decidable (_ ∧ _ ∧ _))

theorem snd_removeNftablesRulesMatching (fw : Firewall) (sys : System) (matchSubstr : Bytes)
    : (fw.removeNftablesRulesMatching sys matchSubstr).2
        =
      { fw with rules := fw.rules.filter fun rule => ¬Deletes sys matchSubstr fw.rules rule } := by
  have hnone : ∀ output, output = [] → findNftHandles output matchSubstr = [] := by
    rintro output rfl
    rfl
  unfold removeNftablesRulesMatching listNftablesRules Deletes
  by_cases hlist : sys.succeeds (.nftList matchSubstr) = true
  . simp only [hlist, if_true, true_and]
    split
    . next hempty => simp [hnone _ hempty]
    . rw [snd_foldl_deleteNftHandle]
  . simp [hlist]

theorem shrinks_removeNftablesRulesMatching (fw : Firewall) (sys : System) (matchSubstr : Bytes)
    : Shrinks fw (fw.removeNftablesRulesMatching sys matchSubstr).2 := by
  rw [snd_removeNftablesRulesMatching]
  exact { Shrinks.refl fw with rules := List.filter_sublist }

section Frames

variable (fw : Firewall) (sys : System) (ip : Bytes)

@[simp]
theorem rules_removeEbpfDrop : (fw.removeEbpfDrop sys ip).2.rules = fw.rules := by
  unfold removeEbpfDrop
  split
  . rfl
  . split <;> rfl

@[simp]
theorem input_removeEbpfDrop : (fw.removeEbpfDrop sys ip).2.input = fw.input := by
  unfold removeEbpfDrop
  split
  . rfl
  . split <;> rfl

@[simp]
theorem rules_removeIptablesDrop : (fw.removeIptablesDrop sys ip).2.rules = fw.rules := by
  unfold removeIptablesDrop
  split
  . rfl
  . split <;> rfl

@[simp]
theorem blacklist_removeIptablesDrop : (fw.removeIptablesDrop sys ip).2.blacklist = fw.blacklist := by
  unfold removeIptablesDrop
  split
  . rfl
  . split <;> rfl

end Frames

theorem getElem?_removeEbpfDrop {addr : Ipv4} (hip : ip = addr.ntop) (key : UInt32)
    : (fw.removeEbpfDrop sys ip).2.blacklist[key]?
        =
      if sys.succeeds (.bpfDelete addr) ∧ key = addr.key then none else fw.blacklist[key]? := by
  unfold removeEbpfDrop
  rw [readIpv4_eq_some_iff.mpr hip]
  dsimp only
  cases sys.succeeds (.bpfDelete addr) with
  | false => simp
  | true =>
    simp only [Bool.true_and, true_and]
    split
    . rw [Std.ExtTreeMap.getElem?_erase]
      simp only [Std.LawfulEqOrd.compare_eq_iff_eq, eq_comm (a := key)]
    . next hkey =>
      rw [decide_eq_true_eq] at hkey
      split
      . next heq =>
        rw [heq]
        exact Std.ExtTreeMap.getElem?_eq_none hkey
      . rfl

theorem removeEbpfDrop_of_readIpv4_eq_none (h : readIpv4 ip = none) : (fw.removeEbpfDrop sys ip).2 = fw := by
  unfold removeEbpfDrop
  rw [h]

theorem removeIptablesDrop_of_readIpv4_eq_none (h : readIpv4 ip = none)
    : (fw.removeIptablesDrop sys ip).2 = fw := by
  unfold removeIptablesDrop
  rw [h]

theorem input_removeIptablesDrop (fw : Firewall) {saddr : Ipv4} (hip : ip = saddr.ntop)
    : (fw.removeIptablesDrop sys ip).2.input
        =
      if sys.succeeds (.iptablesDelete saddr) then fw.input.eraseP (·.saddr = saddr) else fw.input := by
  unfold removeIptablesDrop
  rw [readIpv4_eq_some_iff.mpr hip]
  dsimp only
  cases sys.succeeds (.iptablesDelete saddr) with
  | false => rfl
  | true =>
    rw [Bool.true_and, if_pos rfl]
    split
    . rfl
    . next hany =>
      rw [List.eraseP_of_forall_not]
      intro rule hrule heq
      exact hany (List.any_eq_true.mpr ⟨rule, hrule, heq⟩)

theorem shrinks_removeNftablesPortDrop (fw : Firewall) (sys : System) (ip : Bytes) (port : UInt16)
    : Shrinks fw (fw.removeNftablesPortDrop sys ip port).2 := by
  unfold removeNftablesPortDrop
  split
  . exact .refl fw
  . exact (shrinks_removeNftablesRulesMatching _ _ _).trans (shrinks_removeNftablesRulesMatching _ _ _)

theorem shrinks_removeEbpfDrop (fw : Firewall) (sys : System) (ip : Bytes)
    : Shrinks fw (fw.removeEbpfDrop sys ip).2 := by
  unfold removeEbpfDrop
  split
  . exact .refl fw
  . split
    . refine { Shrinks.refl fw with blacklist := ?_ }
      intro key value hvalue
      rw [Std.ExtTreeMap.getElem?_erase] at hvalue
      split at hvalue
      . contradiction
      . exact hvalue
    . exact .refl fw

theorem shrinks_removeIptablesDrop (fw : Firewall) (sys : System) (ip : Bytes)
    : Shrinks fw (fw.removeIptablesDrop sys ip).2 := by
  unfold removeIptablesDrop
  split
  . exact .refl fw
  . split
    . exact { Shrinks.refl fw with input := List.eraseP_sublist }
    . exact .refl fw

end Firewall

end NeuroMesh
