import NeuroMesh.Common.Inet
import NeuroMesh.Common.Text

namespace NeuroMesh
namespace Ipv4

theorem pton_digits (digits rest : Bytes) (octets : List UInt8) (val : Nat) (hdigits : ∀ c ∈ digits, isDigit c)
    (hpos : 0 < val) (hle : digits.foldl (fun acc c => acc * 10 + (c.toNat - 0x30)) val ≤ 255)
    : pton (digits ++ rest) octets (some val)
        =
      pton rest octets (some (digits.foldl (fun acc c => acc * 10 + (c.toNat - 0x30)) val)) := by
  induction digits generalizing val with
  | nil => rfl
  | cons c cs ih =>
    rw [List.forall_mem_cons] at hdigits
    rw [List.foldl_cons] at hle ⊢
    -- the value only grows from here on
    have hmono : ∀ (cs : Bytes) (acc : Nat),
        acc ≤ cs.foldl (fun acc c => acc * 10 + (c.toNat - 0x30)) acc := by
      intro cs
      induction cs with
      | nil => exact fun acc => le_rfl
      | cons c cs ih =>
        intro acc
        have := ih (acc * 10 + (c.toNat - 0x30))
        rw [List.foldl_cons]
        omega
    have hbound := (hmono cs _).trans hle
    rw [List.cons_append, pton, if_pos hdigits.1, if_neg (by omega), if_neg (by omega)]
    apply ih
    . exact hdigits.2
    . omega
    . exact hle

theorem pton_toDecimal (n : UInt8) (rest : Bytes) (octets : List UInt8)
    : pton (toDecimal n.toNat ++ rest) octets none = pton rest octets (some n.toNat) := by
  obtain ⟨c, cs, hcons, hdigit⟩ := exists_toDecimal_eq_cons n.toNat
  have hvalue := foldl_toDecimal n.toNat
  have hlt := n.toNat_lt
  have hdigits : ∀ c ∈ cs, isDigit c := by
    intro c hc
    apply isDigit_of_mem_toDecimal (n := n.toNat)
    rw [hcons]
    exact List.mem_cons_of_mem _ hc
  rw [hcons, List.foldl_cons, Nat.zero_mul, Nat.zero_add] at hvalue
  rw [hcons, List.cons_append, pton, if_pos hdigit]
  by_cases hzero : c = 0x30
  . -- the only number that starts with a zero is zero
    have hn := eq_zero_of_head_toDecimal n.toNat (by rw [hcons, hzero]; rfl)
    have hnil : cs = [] := by
      rw [hn] at hcons
      exact (List.cons.inj hcons).2.symm
    rw [hnil] at hvalue ⊢
    rw [List.nil_append, ← hvalue]
    rfl
  . have hbounds := bounds_of_isDigit hdigit
    have hne : c.toNat ≠ 0x30 := fun h => hzero (UInt8.toNat.inj h)
    rw [pton_digits cs rest octets _ hdigits (by omega) (by omega), hvalue]

theorem isDigit_dot : isDigit dot = false := rfl

theorem pton_dot (rest : Bytes) (octets : List UInt8) (val : Nat) (h : octets.length ≠ 3)
    : pton (dot :: rest) octets (some val) = pton rest (octets ++ [UInt8.ofNat val]) none := by
  rw [pton, isDigit_dot]
  simp [h]

theorem pton_ntop (addr : Ipv4) : pton addr.ntop [] none = some addr := by
  have htext : addr.ntop = toDecimal addr.a.toNat ++ dot :: (toDecimal addr.b.toNat
      ++ dot :: (toDecimal addr.c.toNat ++ dot :: (toDecimal addr.d.toNat ++ []))) := by
    simp [ntop, List.intercalate, List.intersperse]
  rw [htext, pton_toDecimal, pton_dot _ _ _ (by simp), pton_toDecimal, pton_dot _ _ _ (by simp),
    pton_toDecimal, pton_dot _ _ _ (by simp), pton_toDecimal]
  simp [pton]

theorem mem_ntop {addr : Ipv4} {c : UInt8} (h : c ∈ addr.ntop) : isDigit c ∨ c = dot := by
  rcases Delimited.eq_or_mem_of_mem_intercalate h with hdot | ⟨field, hfield, hc⟩
  . exact .inr hdot
  . left
    simp only [List.mem_cons, List.not_mem_nil, or_false] at hfield
    rcases hfield with rfl | rfl | rfl | rfl
    all_goals exact isDigit_of_mem_toDecimal hc

theorem cStr_ntop (addr : Ipv4) : cStr addr.ntop = addr.ntop := by
  unfold cStr
  rw [List.takeWhile_eq_self_iff]
  intro c hc
  rcases mem_ntop hc with hdigit | rfl
  . have hbounds := bounds_of_isDigit hdigit
    rw [decide_eq_true_eq]
    rintro rfl
    simp at hbounds
  . rfl

theorem inetPton_ntop (addr : Ipv4) : inetPton addr.ntop = some addr := by
  unfold inetPton
  rw [cStr_ntop, pton_ntop]

theorem ntop_injective : Function.Injective ntop := by
  intro addr addr' h
  have hread := congrArg inetPton h
  rw [inetPton_ntop, inetPton_ntop] at hread
  exact Option.some.inj hread

end Ipv4

namespace Ipv6

theorem finish_eq_none {scan : Scan} (hwritten : scan.written.length ≤ 4) (hgap : scan.gap = none)
    : finish scan = none := by
  unfold finish
  rw [hgap]
  split
  . rfl
  . have hlength : (if 0 < scan.digits then scan.put.written else scan.written).length ≤ 6 := by
      split
      . rw [Scan.put, List.length_append, List.length_cons, List.length_singleton]
        omega
      . omega
    dsimp only
    rw [if_neg (by omega)]

theorem loop_eq_none {s : Bytes} {scan : Scan} (hcolon : colon ∉ s) (hwritten : scan.written = [])
    (hgap : scan.gap = none)
    : loop s scan = none := by
  induction s generalizing scan with
  | nil =>
    apply finish_eq_none _ hgap
    rw [hwritten]
    exact Nat.zero_le 4
  | cons ch rest ih =>
    rw [List.mem_cons, not_or] at hcolon
    unfold loop
    cases hexValue ch with
    | some digit =>
      dsimp only
      split
      . rfl
      . exact ih hcolon.2 hwritten hgap
    | none =>
      dsimp only
      rw [if_neg (Ne.symm hcolon.1)]
      split
      . cases Ipv4.pton scan.token [] none with
        | none => rfl
        | some addr =>
          apply finish_eq_none
          . rw [hwritten]
            exact le_rfl
          . exact hgap
      . rfl

end Ipv6

theorem mem_of_mem_cStr {s : Bytes} {c : UInt8} (h : c ∈ cStr s) : c ∈ s :=
  (List.takeWhile_sublist _).mem h

theorem colon_mem_of_inetPton6 {s addr : Bytes} (h : inetPton6 s = some addr) : Ipv6.colon ∈ s := by
  by_contra hcolon
  have hcStr : Ipv6.colon ∉ cStr s := fun hmem => hcolon (mem_of_mem_cStr hmem)
  unfold inetPton6 at h
  generalize cStr s = text at *
  cases text with
  | nil => contradiction
  | cons ch rest =>
    have hne : ch ≠ Ipv6.colon := by
      rintro rfl
      exact hcStr List.mem_cons_self
    dsimp only at h
    rw [if_neg hne, Ipv6.loop_eq_none hcStr rfl rfl] at h
    contradiction

end NeuroMesh
