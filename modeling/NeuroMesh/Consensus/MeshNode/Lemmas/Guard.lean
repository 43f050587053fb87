import NeuroMesh.Consensus.MeshNode.Impl.Webhook
import NeuroMesh.Data.Uri

namespace NeuroMesh
namespace Webhook

section Addresses

theorem and_shiftLeft_mask (n width shift : Nat)
    : n &&& ((2 ^ width - 1) <<< shift) = n / 2 ^ shift % 2 ^ width * 2 ^ shift := by
  rw [← Nat.and_two_pow_sub_one_eq_mod, ← Nat.shiftRight_eq_div_pow, ← Nat.shiftLeft_eq]
  apply Nat.eq_of_testBit_eq
  intro i
  simp only [Nat.testBit_and, Nat.testBit_shiftLeft, Nat.testBit_shiftRight]
  by_cases hi : shift ≤ i
  . simp [hi]
  . simp [hi]

theorem toNat_ntohl (addr : Ipv4)
    : (ntohl addr).toNat
        = ((addr.a.toNat * 256 + addr.b.toNat) * 256 + addr.c.toNat) * 256 + addr.d.toNat := by
  have ha := addr.a.toNat_lt
  have hb := addr.b.toNat_lt
  have hc := addr.c.toNat_lt
  have hd := addr.d.toNat_lt
  unfold ntohl
  rw [UInt32.toNat_ofNat']
  omega

theorem and_mask_eq_iff {ipv4 net : UInt32} (mask : UInt32) (width shift : Nat)
    (hmask : mask.toNat = (2 ^ width - 1) <<< shift)
    : ipv4 &&& mask = net ↔ ipv4.toNat / 2 ^ shift % 2 ^ width * 2 ^ shift = net.toNat := by
  rw [← UInt32.toNat_inj, UInt32.toNat_and, hmask, and_shiftLeft_mask]

theorem isBlocked_inet {addr : Ipv4} (h : Internal4 addr) : (Address.inet addr).isBlocked := by
  have ha := addr.a.toNat_lt
  have hb := addr.b.toNat_lt
  have hc := addr.c.toNat_lt
  have hd := addr.d.toNat_lt
  simp only [Address.isBlocked, Bool.or_eq_true, beq_iff_eq, and_mask_eq_iff 0xFF000000 8 24 rfl,
    and_mask_eq_iff 0xFFF00000 12 20 rfl, and_mask_eq_iff 0xFFFF0000 16 16 rfl,
    and_mask_eq_iff 0xFFC00000 10 22 rfl, toNat_ntohl, UInt32.reduceToNat]
  simp only [Internal4, ← UInt8.toNat_inj, UInt8.le_iff_toNat_le, UInt8.reduceToNat] at h
  omega

def Address.Maps (address : Address) : Prop :=
  match address with
  | .inet6 p => MapsInternal p
  | _ => False

theorem Address.Maps.internal {address : Address} (h : address.Maps) : address.Internal := by
  cases address with
  | inet6 p => exact .inr (.inr (.inr h))
  | _ => exact absurd h id

theorem isBlocked_of_internal {address : Address} (h : address.Internal) (hmaps : ¬address.Maps)
    : address.isBlocked := by
  cases address with
  | inet addr => exact isBlocked_inet h
  | inet6 p =>
    have hmask : ∀ c : UInt8, 0x80 ≤ c ∧ c ≤ 0xbf → c &&& 0xC0 = 0x80 := by
      exact Utf8.forall_byte (by decide +kernel)
    simp only [Address.isBlocked, Bool.or_eq_true, Bool.and_eq_true, beq_iff_eq]
    rcases h with hlocal | hloopback | hlink | hmapped
    . exact .inr hlocal
    . refine .inl (.inl ?_)
      simp [isLoopback6, hloopback]
    . exact .inl (.inr ⟨hlink.1, hmask _ hlink.2⟩)
    . exact absurd hmapped hmaps
  | other => exact absurd h id

end Addresses

section Host

variable {url : Bytes}

theorem idxOf?_getD (s : Bytes) (a : UInt8) : (s.idxOf? a).getD s.length = s.idxOf a := by
  induction s with
  | nil => rfl
  | cons c s ih =>
    rw [List.idxOf?_cons, List.idxOf_cons]
    cases hc : c == a with
    | true => simp
    | false =>
      cases hs : s.idxOf? a with
      | none => simpa [hs] using ih
      | some i => simpa [hs] using ih

theorem take_min_idxOf (s : Bytes) (a b : UInt8)
    : s.take (min (s.idxOf a) (s.idxOf b)) = s.takeWhile fun c => c ≠ a && c ≠ b := by
  induction s with
  | nil => rfl
  | cons c s ih =>
    by_cases ha : c = a
    . simp [ha]
    . by_cases hb : c = b
      . simp [hb]
      . rw [List.takeWhile_cons_of_pos (by simp [ha, hb]), ← ih, List.idxOf_cons_ne _ ha, List.idxOf_cons_ne _ hb,
          Nat.succ_min_succ, List.take_succ_cons]

theorem host_eq (url : Bytes)
    : host url = (url.drop (urlHostStart url)).takeWhile fun c => c ≠ 0x2f && c ≠ 0x3a := by
  rw [← take_min_idxOf, ← idxOf?_getD, ← idxOf?_getD, List.length_drop]
  unfold host find
  generalize urlHostStart url = start
  apply congrArg (fun n => (url.drop start).take n)
  have hlt (c : UInt8) (i : Nat) (h : (url.drop start).idxOf? c = some i) : i < url.length - start := by
    obtain ⟨hi, -⟩ := List.idxOf?_eq_some_iff.mp h
    rwa [List.length_drop] at hi
  cases hslash : (url.drop start).idxOf? 0x2f with
  | none =>
    cases hcolon : (url.drop start).idxOf? 0x3a with
    | none => simp
    | some colon =>
      have hcolon := hlt _ _ hcolon
      simp only [Option.map_none, Option.map_some, Option.getD_none, Option.getD_some]
      split <;> omega
  | some slash =>
    have hslash := hlt _ _ hslash
    cases hcolon : (url.drop start).idxOf? 0x3a with
    | none =>
      simp only [Option.map_none, Option.map_some, Option.getD_none, Option.getD_some]
      omega
    | some colon =>
      simp only [Option.map_some, Option.getD_some]
      split <;> omega

def scheme (url : Bytes) : Bytes :=
  if (bytes "https://").isPrefixOf url then bytes "https" else bytes "http"

theorem eq_scheme_append (h : isInvalid url = false)
    : url = scheme url ++ 0x3a :: 0x2f :: 0x2f :: url.drop (urlHostStart url) := by
  simp only [isInvalid, Bool.or_eq_false_iff, Bool.and_eq_false_iff, Bool.not_eq_false'] at h
  unfold scheme urlHostStart
  split
  . next hhttps =>
    obtain ⟨s, rfl⟩ := List.isPrefixOf_iff_prefix.mp hhttps
    rfl
  . next hhttps =>
    obtain ⟨s, rfl⟩ := List.isPrefixOf_iff_prefix.mp (h.2.resolve_right hhttps)
    rfl

theorem notMem_scheme (url : Bytes) : 0x3a ∉ scheme url ∧ 0 ∉ scheme url := by
  have hboth : (0x3a ∉ bytes "https" ∧ 0 ∉ bytes "https") ∧ 0x3a ∉ bytes "http" ∧ 0 ∉ bytes "http" := by
    decide +kernel
  unfold scheme
  split
  . exact hboth.1
  . exact hboth.2

theorem cStr_url (h : isInvalid url = false)
    : cStr url = scheme url ++ 0x3a :: 0x2f :: 0x2f :: cStr (url.drop (urlHostStart url)) := by
  have hzero : 0 ∉ scheme url ++ [0x3a, 0x2f, 0x2f] := by
    simp [(notMem_scheme url).2]
  have hurl := eq_scheme_append h
  conv_lhs => rw [hurl]
  have hcut : _ = _ ++ cStr (url.drop (urlHostStart url)) := cStr_append hzero
  simpa using hcut

theorem cStr_host (url : Bytes)
    : cStr (host url) = (cStr (url.drop (urlHostStart url))).takeWhile fun c => c ≠ 0x2f && c ≠ 0x3a := by
  rw [host_eq]
  unfold cStr
  rw [List.takeWhile_takeWhile, List.takeWhile_takeWhile]
  simp only [and_comm]

def Cut (uri : Uri) : Prop :=
  match uri.userinfo with
  | none => 0x3a ∉ uri.host ∧ (uri.port.isSome ∨ uri.rest = [] ∨ uri.rest.head? = some 0x2f)
  | some info => 0x3a ∈ info ∧ info.takeWhile (· ≠ 0x3a) = uri.host

theorem ne_slash_of_isEnd {c : UInt8} (h : Uri.isEnd c = false) : c ≠ 0x2f := by
  rintro rfl
  contradiction

theorem takeWhile_eq_nil_iff {s : Bytes} {p : UInt8 → Bool}
    : s.takeWhile p = [] ↔ ∀ c ∈ s.head?, p c = false := by
  cases s with
  | nil => simp
  | cons c s => cases hc : p c <;> simp [hc]

theorem head?_portText_append_iff (uri : Uri)
    : (∀ c ∈ (uri.portText ++ uri.rest).head?, (c ≠ 0x2f && c ≠ 0x3a) = false)
        ↔
      uri.port.isSome ∨ uri.rest = [] ∨ uri.rest.head? = some 0x2f := by
  unfold Uri.portText
  cases hport : uri.port with
  | some digits => simp
  | none =>
    cases hrest : uri.rest with
    | nil => simp
    | cons c rest =>
      have hc : Uri.isEnd c := uri.hrest c (by simp [hrest])
      have hne : c ≠ 0x3a := by
        rintro rfl
        contradiction
      simp [hne]

theorem takeWhile_eq_host_iff (uri : Uri)
    : ((uri.authority ++ uri.rest).takeWhile fun c => c ≠ 0x2f && c ≠ 0x3a) = uri.host ↔ Cut uri := by
  unfold Cut Uri.authority Uri.userinfoText
  cases hinfo : uri.userinfo with
  | none =>
    rw [List.nil_append, List.append_assoc]
    by_cases hcolon : 0x3a ∈ uri.host
    . refine iff_of_false ?_ (by simp [hcolon])
      intro heq
      rw [← heq] at hcolon
      exact absurd (List.mem_takeWhile_imp hcolon) (by decide)
    . rw [List.takeWhile_append_of_pos, List.append_right_eq_self, takeWhile_eq_nil_iff, head?_portText_append_iff]
      . simp [hcolon]
      . intro c hc
        have hne : c ≠ 0x3a := fun heq => hcolon (heq ▸ hc)
        simp [hne, ne_slash_of_isEnd (uri.ne_of_mem_host hc).1]
  | some info =>
    have hslash : ∀ c ∈ info, c ≠ 0x2f := by
      intro c hc
      exact ne_slash_of_isEnd (uri.ne_of_mem_userinfo hinfo hc).1
    simp only [List.append_assoc, List.cons_append, List.nil_append]
    by_cases hcolon : 0x3a ∈ info
    . obtain ⟨name, password, rfl, hname⟩ := List.eq_append_cons_of_mem hcolon
      have hcut : ∀ c ∈ name, (c ≠ 0x2f && c ≠ 0x3a) = true := by
        intro c hc
        have hne : c ≠ 0x3a := fun heq => hname (heq ▸ hc)
        simp [hne, hslash c (by simp [hc])]
      have hfirst : (name ++ 0x3a :: password).takeWhile (· ≠ 0x3a) = name := by
        rw [List.takeWhile_append_of_pos, List.takeWhile_cons_of_neg (by decide), List.append_nil]
        intro c hc
        have hne : c ≠ 0x3a := fun heq => hname (heq ▸ hc)
        simp [hne]
      rw [hfirst, List.append_assoc, List.takeWhile_append_of_pos hcut, List.cons_append,
        List.takeWhile_cons_of_neg (by decide), List.append_nil]
      simp
    . refine iff_of_false ?_ (by simp [hcolon])
      intro heq
      rw [List.takeWhile_append_of_pos, List.takeWhile_cons_of_pos (by decide)] at heq
      . have hmem : 0x40 ∈ uri.host := by
          rw [← heq]
          simp
        exact (uri.ne_of_mem_host hmem).2 rfl
      . intro c hc
        have hne : c ≠ 0x3a := fun heq => hcolon (heq ▸ hc)
        simp [hne, hslash c hc]

theorem cStr_host_iff {uri : Uri} (hvalid : isInvalid url = false) (htext : uri.text = cStr url)
    : cStr (host url) = uri.host ↔ Cut uri := by
  have hbehind := uri.dropWhile_text
  rw [htext, cStr_url hvalid, Uri.dropWhile_append_cons (notMem_scheme url).1] at hbehind
  rw [cStr_host, ← takeWhile_eq_host_iff, ← hbehind]
  rfl

end Host

section Guarded

variable {getaddrinfo : Bytes → Option (List Address)} {inetNtop6 : (Fin 16 → UInt8) → Bytes}
variable {dangling : Bytes → Option Bytes}
variable {url targetId evidenceJson : Bytes} {quorum timestampUs : Int} {args : List Bytes}

def Resolves (getaddrinfo : Bytes → Option (List Address)) (name : Bytes) : Prop :=
  ∃ addresses, getaddrinfo name = some addresses ∧ addresses ≠ [] ∧ ∀ address ∈ addresses, ¬address.Maps

def Guarded (getaddrinfo : Bytes → Option (List Address)) (outcome : Outcome) (args : List Bytes) : Prop :=
  ∃ uri : Uri, args.getLast? = some uri.text ∧ outcome.lookup = some uri.host
    ∧ ∃ addresses, getaddrinfo uri.host = some addresses ∧ addresses ≠ []
      ∧ ∀ address ∈ addresses, ¬address.Internal

theorem of_curl_eq_some
    (h : (notifyWebhook getaddrinfo inetNtop6 dangling url targetId evidenceJson quorum timestampUs).curl = some args)
    : isInvalid url = false
        ∧ args.getLast? = some (cStr url)
        ∧ (notifyWebhook getaddrinfo inetNtop6 dangling url targetId evidenceJson quorum timestampUs).lookup
          = some (cStr (host url))
        ∧ ∀ addresses, getaddrinfo (cStr (host url)) = some addresses →
          ∀ address ∈ addresses, address.Internal → address.Maps := by
  unfold notifyWebhook at h ⊢
  cases hinvalid : isInvalid url with
  | true => simp [hinvalid] at h
  | false =>
    simp only [hinvalid, Bool.false_eq_true, if_false, Option.bind_eq_some_iff] at h ⊢
    obtain ⟨ip, hip, hargs⟩ := h
    refine ⟨trivial, ?_, trivial, ?_⟩
    . obtain ⟨resolve, -, rfl⟩ := Option.map_eq_some_iff.mp hargs
      rw [List.getLast?_append]
      rfl
    . intro addresses haddresses address hmem hinternal
      apply Classical.byContradiction
      intro hmaps
      have hblocked : addresses.any Address.isBlocked := by
        exact List.any_eq_true.mpr ⟨address, hmem, isBlocked_of_internal hinternal hmaps⟩
      unfold resolvedIpForCurl at hip
      cases addresses with
      | nil => contradiction
      | cons first rest => simp [haddresses, hblocked] at hip

theorem guarded_iff
    (hcurl : (notifyWebhook getaddrinfo inetNtop6 dangling url targetId evidenceJson quorum timestampUs).curl
      = some args)
    : Guarded getaddrinfo
        (notifyWebhook getaddrinfo inetNtop6 dangling url targetId evidenceJson quorum timestampUs) args
        ↔
      ∃ uri : Uri, uri.text = cStr url ∧ Cut uri ∧ Resolves getaddrinfo uri.host := by
  obtain ⟨hvalid, hlast, hlookup, hsafe⟩ := of_curl_eq_some hcurl
  unfold Guarded
  rw [hlast, hlookup]
  constructor
  . rintro ⟨uri, htext, hhost, addresses, haddresses, hne, hnone⟩
    rw [Option.some.injEq] at htext hhost
    refine ⟨uri, htext.symm, (cStr_host_iff hvalid htext.symm).mp hhost, addresses, haddresses, hne, ?_⟩
    intro address hmem hmaps
    exact hnone address hmem hmaps.internal
  . rintro ⟨uri, htext, hcut, addresses, haddresses, hne, hnone⟩
    have hhost := (cStr_host_iff hvalid htext).mpr hcut
    refine ⟨uri, by rw [htext], by rw [hhost], addresses, haddresses, hne, ?_⟩
    intro address hmem hinternal
    exact hnone address hmem (hsafe addresses (by rw [hhost, haddresses]) address hmem hinternal)

instance (p : Fin 16 → UInt8) : Decidable (MapsInternal p) :=
  inferInstanceAs (Decidable (_ ∧ _ ∧ _ ∧ (_ ∨ _ ∨ _ ∨ _ ∨ _)))

/--
The addresses of a public server, the second one is mapped.
-/
def sampleAddresses : List Address :=
  [.inet ⟨93, 184, 216, 34⟩, .inet6 [0, 0, 0, 0, 0, 0, 0, 0, 0, 0, 255, 255, 93, 184, 216, 34].get]

def sampleAddrinfo (name : Bytes) : Option (List Address) :=
  if name = bytes "127.0.0.1" then some [.inet ⟨127, 0, 0, 1⟩] else some sampleAddresses

def sampleNotify (url : Bytes) : Outcome :=
  notifyWebhook sampleAddrinfo (fun _ => []) (fun _ => some []) url (bytes "T") (bytes "\x7b\x7d") 3 0

def sampleUri : Uri where
  scheme := bytes "http"
  userinfo := none
  host := bytes "hooks.example"
  port := some (bytes "8080")
  rest := bytes "/alert?x=1"
  hscheme := by decide +kernel
  huserinfo := nofun
  hhost := .inl (by decide +kernel)
  hport := by decide +kernel
  hrest := by decide +kernel

theorem guarded_sampleUri
    : ∃ args, (sampleNotify sampleUri.text).curl = some args
        ∧ Guarded sampleAddrinfo (sampleNotify sampleUri.text) args := by
  have hstarted : (sampleNotify sampleUri.text).curl.isSome := by decide +kernel
  obtain ⟨args, hargs⟩ := Option.isSome_iff_exists.mp hstarted
  refine ⟨args, hargs, ?_⟩
  unfold sampleNotify at hargs ⊢
  rw [guarded_iff hargs]
  have hmaps : ∀ address ∈ sampleAddresses, ¬address.Maps := by
    simp only [sampleAddresses, List.forall_mem_cons]
    exact ⟨id, show ¬MapsInternal _ by decide, nofun⟩
  refine ⟨sampleUri, by decide +kernel, ?_, sampleAddresses, rfl, List.cons_ne_nil _ _, hmaps⟩
  exact ⟨by decide +kernel, .inl rfl⟩

/--
The guard takes the user information for the host, and `curl` connects to the own machine.
-/
theorem not_forall_guarded
    : ¬ ∀ (getaddrinfo : Bytes → Option (List Address)) (inetNtop6 : (Fin 16 → UInt8) → Bytes)
        (dangling : Bytes → Option Bytes) (url targetId evidenceJson : Bytes) (quorum timestampUs : Int)
        (args : List Bytes),
          (notifyWebhook getaddrinfo inetNtop6 dangling url targetId evidenceJson quorum timestampUs).curl
              = some args →
            Guarded getaddrinfo
              (notifyWebhook getaddrinfo inetNtop6 dangling url targetId evidenceJson quorum timestampUs) args := by
  intro h
  have hstarted : (sampleNotify (bytes "http://hooks.example:80@127.0.0.1/")).curl.isSome := by decide +kernel
  obtain ⟨args, hargs⟩ := Option.isSome_iff_exists.mp hstarted
  obtain ⟨uri, htext, hhost, -⟩ := h _ _ _ _ _ _ _ _ _ hargs
  obtain ⟨-, hlast, hlookup, -⟩ := of_curl_eq_some hargs
  rw [hlast, Option.some.injEq] at htext
  rw [hlookup, Option.some.injEq, ← uri.hostOf_text, ← htext] at hhost
  revert hhost
  decide +kernel

end Guarded

end Webhook
end NeuroMesh
