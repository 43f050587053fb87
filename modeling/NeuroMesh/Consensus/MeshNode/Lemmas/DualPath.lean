import NeuroMesh.Consensus.MeshNode.Lemmas.Contact

namespace NeuroMesh

open PeerManager (IsPath dualConfirmed)

namespace Contact

structure Vouched (p : Bytes) (seen : List MeshNode.Introduction) (c : Contact) : Prop where
  paths : c.paths ∈ [0, pathBeacon, pathAnnounce, pathBeacon ||| pathAnnounce]
  settled : c.key = [] → c.paths ≠ pathBeacon ∧ c.paths ≠ pathAnnounce
  confirmed : c.key ≠ [] → c.paths ≠ 0
  seen : c.key ≠ [] → ∀ path, IsPath path → c.paths &&& path ≠ 0 → ⟨p, c.key, path⟩ ∈ seen

section Vouched

variable {p pem : Bytes} {seen : List MeshNode.Introduction} {c : Contact} {path : UInt8}

theorem Vouched.mono (h : Vouched p seen c) {seen' : List MeshNode.Introduction} (hsub : seen ⊆ seen')
    : Vouched p seen' c := by
  refine ⟨h.paths, h.settled, h.confirmed, ?_⟩
  intro hkey path hpath hset
  exact hsub (h.seen hkey path hpath hset)

theorem vouched_empty (p : Bytes) (seen : List MeshNode.Introduction) : Vouched p seen {} := by
  constructor
  . decide
  . intro _
    decide
  . intro h
    contradiction
  . intro h
    contradiction

theorem path_eq_of_and_ne_zero {path' : UInt8} (hpath : IsPath path) (hpath' : IsPath path')
    (h : path &&& path' ≠ 0)
    : path' = path := by
  rcases hpath with rfl | rfl <;> rcases hpath' with rfl | rfl <;> first | rfl | (exact absurd h (by decide))

theorem vouched_single (hpath : IsPath path) (hpem : pem ≠ []) (hkey : c.key = pem) (hc : c.paths = path)
    (hmem : ⟨p, pem, path⟩ ∈ seen)
    : Vouched p seen c := by
  have hcases : path = pathBeacon ∨ path = pathAnnounce := hpath
  constructor
  . rw [hc]
    rcases hpath with rfl | rfl <;> decide
  . intro hempty
    exact absurd (hkey.symm.trans hempty) hpem
  . intro _
    rw [hc]
    rcases hpath with rfl | rfl <;> decide
  . intro _ path' hpath' hset
    rw [hc] at hset
    rw [hkey, path_eq_of_and_ne_zero hpath hpath' hset]
    exact hmem

section Bits

variable {paths path' : UInt8}

theorem or_ne_zero (hpath : IsPath path) : paths ||| path ≠ 0 := by
  intro h
  rw [UInt8.or_eq_zero_iff] at h
  rcases hpath with rfl | rfl
  . exact absurd h.2 (by decide)
  . exact absurd h.2 (by decide)

variable (hpaths : paths ∈ [0, pathBeacon, pathAnnounce, pathBeacon ||| pathAnnounce])
include hpaths

theorem or_mem_paths (hpath : IsPath path)
    : paths ||| path ∈ [0, pathBeacon, pathAnnounce, pathBeacon ||| pathAnnounce] := by
  simp only [List.mem_cons, List.not_mem_nil, or_false] at hpaths
  rcases hpath with rfl | rfl <;> rcases hpaths with rfl | rfl | rfl | rfl <;> decide

theorem and_ne_zero_of_or (hpath : IsPath path) (hpath' : IsPath path')
    (h : (paths ||| path) &&& path' ≠ 0)
    : paths &&& path' ≠ 0 ∨ path' = path := by
  simp only [List.mem_cons, List.not_mem_nil, or_false] at hpaths
  revert h
  rcases hpath with rfl | rfl <;> rcases hpath' with rfl | rfl <;>
    rcases hpaths with rfl | rfl | rfl | rfl <;> decide

theorem and_ne_zero_of_settled (hsettled : paths ≠ pathBeacon ∧ paths ≠ pathAnnounce)
    (hpath : IsPath path) (hpath' : IsPath path') (h : paths &&& path' ≠ 0)
    : paths &&& path ≠ 0 := by
  simp only [List.mem_cons, List.not_mem_nil, or_false] at hpaths
  revert hsettled h
  rcases hpath with rfl | rfl <;> rcases hpath' with rfl | rfl <;>
    rcases hpaths with rfl | rfl | rfl | rfl <;> decide

theorem and_ne_zero_of_dualConfirmed (h : dualConfirmed paths = true) (hpath : IsPath path)
    : paths &&& path ≠ 0 := by
  simp only [List.mem_cons, List.not_mem_nil, or_false] at hpaths
  revert h
  rcases hpath with rfl | rfl <;> rcases hpaths with rfl | rfl | rfl | rfl <;> decide

end Bits

theorem Vouched.key_confirm (h : Vouched p seen c) (hpem : pem ≠ [])
    (hrefuses : c.refuses none path pem = false)
    : (c.confirm none path pem).key = pem := by
  by_cases hkey : c.key = []
  . exact key_confirm_of_nil hrefuses hkey hpem
  . rw [key_confirm_of_ne_nil hkey]
    by_contra hne
    simp [refuses, hpem, hne, hkey, h.confirmed hkey] at hrefuses

theorem Vouched.confirm (h : Vouched p seen c) (hpath : IsPath path) (hpem : pem ≠ [])
    : Vouched p (⟨p, pem, path⟩ :: seen) (c.confirm none path pem) := by
  have hmono := h.mono (List.subset_cons_self ⟨p, pem, path⟩ seen)
  by_cases hrefuses : c.refuses none path pem = true
  . rwa [confirm_of_refuses hrefuses]
  . have hkey := h.key_confirm hpem (by simpa using hrefuses)
    by_cases hset : c.paths &&& path ≠ 0
    . rwa [confirm_of_confirmed ⟨rfl, hset⟩]
    . have hconfirm := confirm_of_not_refuses hrefuses (show ¬(none = none ∧ _) from fun h => hset h.2)
      have hpaths : (c.confirm none path pem).paths = c.paths ||| path := by
        rw [hconfirm, paths_fill]
      constructor
      . rw [hpaths]
        exact or_mem_paths h.paths hpath
      . intro hempty
        exact absurd (hkey.symm.trans hempty) hpem
      . intro _
        rw [hpaths]
        exact or_ne_zero hpath
      . intro _ path' hpath' hset'
        rw [hpaths] at hset'
        rcases and_ne_zero_of_or h.paths hpath hpath' hset' with hold | heq
        . apply List.mem_cons_of_mem
          have hne : c.key ≠ [] := by
            intro hempty
            exact hset (and_ne_zero_of_settled h.paths (h.settled hempty) hpath hpath' hold)
          rw [key_confirm_of_ne_nil hne]
          exact h.seen hne path' hpath' hold
        . rw [hkey, heq]
          exact List.mem_cons_self

end Vouched

end Contact

namespace MeshNode

open Contact (Vouched)

variable {C : IdentityCore}

structure Watched (C : IdentityCore) where
  node : MeshNode C
  seen : List Introduction

def resets (node : MeshNode C) (p : Bytes) (step : Step) : Bool :=
  match step.action with
  | .unpinPeerKey nodeId => nodeId = p
  | _ => !node.peerManager.hasPeer p && (node.act step).peerManager.hasPeer p

def watch (p : Bytes) (w : Watched C) (step : Step) : Watched C :=
  {
    node := w.node.act step
    seen :=
      ((w.node.introduction step).filter fun intro => intro.peerId = p).toList
        ++ if w.node.resets p step then [] else w.seen
  }

def registers (node : MeshNode C) (p pem : Bytes) (step : Step) : Bool :=
  match node.introduction step with
  | some intro =>
    intro.peerId = p ∧ intro.pem = pem ∧ node.completes intro ∧ !node.pbft.hasPeer intro.peerId
  | none => false

def unpinsHalfway (node : MeshNode C) (p : Bytes) (step : Step) : Bool :=
  match step.action with
  | .unpinPeerKey nodeId =>
    let paths := (node.peerManager.getPeer p).confirmedPaths
    nodeId = p ∧ (paths = pathBeacon ∨ paths = pathAnnounce)
  | _ => false

section Introduction

variable {node : MeshNode C} {step : Step} {intro : Introduction}

theorem pem_ne_nil_of_parseAnnounce {tokens : List Bytes} {peerId pem : Bytes}
    (h : node.parseAnnounce tokens = some (peerId, pem))
    : pem ≠ [] := by
  unfold parseAnnounce at h
  split at h
  . split at h
    . contradiction
    . split at h
      . contradiction
      . next hpem =>
        split at h
        . contradiction
        . dsimp only at h
          split at h
          . contradiction
          . split at h
            . cases h
              intro hempty
              exact hpem (.inl hempty)
            . contradiction
  . contradiction

theorem introduction_spec (h : node.introduction step = some intro)
    : intro.pem ≠ [] ∧ IsPath intro.path := by
  unfold introduction at h
  split at h
  . split at h
    . unfold introducedByAnnounce at h
      dsimp only at h
      split at h
      . rw [Option.map_eq_some_iff] at h
        obtain ⟨⟨peerId, pem⟩, hparse, rfl⟩ := h
        exact ⟨pem_ne_nil_of_parseAnnounce hparse, .inr rfl⟩
      . contradiction
    . contradiction
  . split at h
    . unfold introducedByBeacon at h
      split at h
      . contradiction
      . split at h
        . contradiction
        . dsimp only at h
          split at h
          . next haccepts =>
            cases h
            exact ⟨pem_ne_nil_of_acceptsBeacon haccepts.1, .inl rfl⟩
          . contradiction
    . contradiction
  . contradiction

end Introduction

structure Accounts (p : Bytes) (w : Watched C) : Prop where
  unprovisioned : w.node.peerManager.preProvisionedKeys[p]? = none
  vouched : ∀ c, w.node.peerManager.contact? p = some c → Vouched p w.seen c

section Watch

variable {p : Bytes} {w : Watched C} {step : Step}

theorem resets_of_action_ne {node : MeshNode C} (h : step.action ≠ .unpinPeerKey p)
    : node.resets p step = (!node.peerManager.hasPeer p && (node.act step).peerManager.hasPeer p) := by
  unfold resets
  split
  . next nodeId haction =>
    have hne : nodeId ≠ p := by
      rintro rfl
      exact h haction
    have hcontact := node.contact?_unpinPeerKey nodeId p
    rw [if_neg hne] at hcontact
    rw [act_of_unpinPeerKey haction, PeerManager.hasPeer_eq, PeerManager.hasPeer_eq, hcontact,
      Bool.not_and_self]
    simpa using hne
  . rfl

theorem action_ne_of_introduction {node : MeshNode C} {intro : Introduction}
    (h : node.introduction step = some intro) (nodeId : Bytes)
    : step.action ≠ .unpinPeerKey nodeId := by
  intro haction
  unfold introduction at h
  rw [haction] at h
  contradiction

theorem seen_of_introduction {intro : Introduction} (hintro : w.node.introduction step = some intro)
    (hid : intro.peerId = p)
    : (watch p w step).seen
        =
      intro :: if w.node.peerManager.contact? p = none then [] else w.seen := by
  have hcontact := (meets_act hintro).contact
  rw [hid] at hcontact
  have hresets : w.node.resets p step = true ↔ w.node.peerManager.contact? p = none := by
    rw [resets_of_action_ne (action_ne_of_introduction hintro p), PeerManager.hasPeer_eq,
      PeerManager.hasPeer_eq, hcontact]
    simp
  unfold watch
  rw [hintro, Option.filter_some_pos (by simpa using hid)]
  simp [hresets]

theorem accounts_of_introduction {intro : Introduction} (h : Accounts p w)
    (hintro : w.node.introduction step = some intro) (hid : intro.peerId = p)
    : Accounts p (watch p w step) := by
  have hseen := seen_of_introduction hintro hid
  have hcontact := (meets_act hintro).contact
  obtain ⟨hpem, hpath⟩ := introduction_spec hintro
  obtain ⟨peerId, pem, path⟩ := intro
  obtain rfl : peerId = p := hid
  constructor
  . unfold watch
    rw [preProvisionedKeys_act, h.unprovisioned]
  . intro c hc
    rw [hseen]
    obtain rfl : Contact.meet _ _ path pem = c := Option.some.inj (hcontact.symm.trans hc)
    dsimp only
    rw [h.unprovisioned]
    unfold Contact.meet
    cases hold : w.node.peerManager.contact? peerId with
    | some c =>
      rw [if_neg (by simp)]
      exact (h.vouched c hold).confirm hpath hpem
    | none =>
      have hfresh : (Contact.fresh pem).refuses none path pem = false := by
        simp [Contact.refuses, Contact.fresh]
      have hconfirm : (Contact.fresh pem).confirm none path pem = { Contact.fresh pem with paths := path } := by
        rw [Contact.confirm_of_not_refuses (by simp [hfresh]) (by simp [Contact.fresh]),
          Contact.fill_of_ne_nil (show Contact.key { Contact.fresh pem with paths := _ } ≠ [] from hpem)]
        simp [Contact.fresh]
      dsimp only [Option.getD_none]
      rw [hconfirm]
      exact Contact.vouched_single hpath hpem rfl rfl List.mem_cons_self

theorem accounts_of_spares (h : Accounts p w)
    (hintro : ∀ intro, w.node.introduction step = some intro → intro.peerId ≠ p)
    (hunpin : step.action ≠ .unpinPeerKey p)
    : Accounts p (watch p w step) := by
  have hspares := spares_act hintro hunpin
  have hnone : ((w.node.introduction step).filter fun intro => intro.peerId = p).toList = [] := by
    cases hsome : w.node.introduction step with
    | none => rfl
    | some intro => simp [hintro intro hsome]
  constructor
  . exact hspares.preProvisionedKeys ▸ h.unprovisioned
  . intro c hc
    have hmoves : Contact.Moves _ _ (some c) := hc ▸ hspares.contact
    unfold watch
    dsimp only
    rw [hnone, List.nil_append, resets_of_action_ne hunpin, PeerManager.hasPeer_eq]
    generalize hold : w.node.peerManager.contact? p = old at hmoves
    cases hmoves with
    | keep => exact h.vouched c hold
    | listed _ => apply Contact.vouched_empty

theorem confirmedPaths_getPeer {m : PeerManager} {c : Contact} (h : m.contact? p = some c)
    : (m.getPeer p).confirmedPaths = c.paths := by
  obtain ⟨entry, hentry, rfl⟩ := Option.map_eq_some_iff.mp h
  unfold PeerManager.getPeer
  rw [Std.ExtTreeMap.getD_eq_getD_getElem?, hentry]
  rfl

theorem accounts_of_unpin (h : Accounts p w) (hunpin : step.action = .unpinPeerKey p)
    (hhalfway : w.node.unpinsHalfway p step = false)
    : Accounts p (watch p w step) := by
  constructor
  . unfold watch
    rw [preProvisionedKeys_act, h.unprovisioned]
  . intro c hc
    unfold watch at hc
    rw [act_of_unpinPeerKey hunpin, contact?_unpinPeerKey, if_pos rfl, Option.map_eq_some_iff] at hc
    obtain ⟨c, hold, rfl⟩ := hc
    unfold unpinsHalfway at hhalfway
    rw [hunpin] at hhalfway
    simp only [true_and, decide_eq_false_iff_not, not_or, confirmedPaths_getPeer hold] at hhalfway
    constructor
    . exact (h.vouched c hold).paths
    . intro _
      exact hhalfway
    . intro hkey
      contradiction
    . intro hkey
      contradiction

theorem accounts_watch (h : Accounts p w) (hhalfway : w.node.unpinsHalfway p step = false)
    : Accounts p (watch p w step) := by
  by_cases hunpin : step.action = .unpinPeerKey p
  . exact accounts_of_unpin h hunpin hhalfway
  . by_cases hintro : ∃ intro, w.node.introduction step = some intro ∧ intro.peerId = p
    . obtain ⟨intro, hsome, hid⟩ := hintro
      exact accounts_of_introduction h hsome hid
    . apply accounts_of_spares h _ hunpin
      intro intro hsome hid
      exact hintro ⟨intro, hsome, hid⟩

theorem both_seen_of_registers {pem : Bytes} (h : Accounts p w)
    (hregisters : w.node.registers p pem step = true)
    : ⟨p, pem, pathBeacon⟩ ∈ (watch p w step).seen ∧ ⟨p, pem, pathAnnounce⟩ ∈ (watch p w step).seen := by
  unfold registers at hregisters
  cases hintro : w.node.introduction step with
  | none =>
    rw [hintro] at hregisters
    contradiction
  | some intro =>
    rw [hintro] at hregisters
    simp only [decide_eq_true_eq] at hregisters
    obtain ⟨hid, hpem, hcompletes, _⟩ := hregisters
    have hnext := accounts_of_introduction h hintro hid
    have hmeets := (meets_act hintro).contact
    have hne := (introduction_spec hintro).1
    rw [hpem] at hne
    unfold completes at hcompletes
    rw [hid, hpem] at hcompletes hmeets
    rw [h.unprovisioned] at hmeets
    cases hold : w.node.peerManager.contact? p with
    | none =>
      rw [PeerManager.confirmPath_of_none _ _ _ _ hold] at hcompletes
      contradiction
    | some c =>
      rw [PeerManager.dualConfirmed_confirmPath hold, h.unprovisioned, Bool.and_eq_true,
        Bool.not_eq_true'] at hcompletes
      rw [hold] at hmeets
      have hvouched := hnext.vouched _ hmeets
      have hkey : (c.confirm none intro.path pem).key = pem :=
        (h.vouched c hold).key_confirm hne hcompletes.1
      have hseen (path : UInt8) (hpath : IsPath path) : ⟨p, pem, path⟩ ∈ (watch p w step).seen := by
        have hset := Contact.and_ne_zero_of_dualConfirmed hvouched.paths hcompletes.2 hpath
        have hmem := hvouched.seen (hkey.trans_ne hne) path hpath hset
        rwa [show (Contact.meet (some c) none intro.path pem).key = pem from hkey] at hmem
      exact ⟨hseen pathBeacon (.inl rfl), hseen pathAnnounce (.inr rfl)⟩

end Watch

theorem both_paths_of_registers (nodeId : Bytes) (key pbftKey : C.PrivKey) (settings : Settings) (p : Bytes)
    (hprovisioned : p ∉ (new C nodeId key pbftKey settings).peerManager.preProvisionedKeys)
    (steps : List Step)
    (h : Run.Along act (fun node step => node.unpinsHalfway p step = false)
      (new C nodeId key pbftKey settings) steps)
    : Run.Along (watch p)
        (fun w step => ∀ pem, w.node.registers p pem step = true →
          ⟨p, pem, pathBeacon⟩ ∈ (watch p w step).seen ∧ ⟨p, pem, pathAnnounce⟩ ∈ (watch p w step).seen)
        ⟨new C nodeId key pbftKey settings, []⟩ steps := by
  have hwatch : Run.Along (watch p) (fun w step => w.node.unpinsHalfway p step = false)
      ⟨new C nodeId key pbftKey settings, []⟩ steps := by
    have hnode (w : Watched C) (step : Step) : (watch p w step).node = w.node.act step := rfl
    rw [Run.along_map hnode fun node step => node.unpinsHalfway p step = false]
    exact h
  apply Run.along_of_invariant (I := Accounts p) _ _ hwatch
  . intro w step hinv hhalfway
    constructor
    . intro pem hregisters
      exact both_seen_of_registers hinv hregisters
    . exact accounts_watch hinv hhalfway
  . constructor
    . exact Std.ExtTreeMap.getElem?_eq_none hprovisioned
    . intro c hc
      rw [contact?_new] at hc
      contradiction

def emptyNode : MeshNode .plain :=
  new .plain (bytes "A") (bytes "A") (bytes "A") {}

def unpins (nodeId : Bytes) : Step :=
  stepAt 0 (.unpinPeerKey nodeId)

def rotatedRun : List Step :=
  [unpins (bytes "P"), beacons (bytes "P") "2" "g", announces (bytes "P") "2"]

theorem both_paths_of_registers_rotated
    : bytes "P" ∉ emptyNode.peerManager.preProvisionedKeys
        ∧ Run.Along act (fun node step => node.unpinsHalfway (bytes "P") step = false) emptyNode rotatedRun
        ∧ Run.Along (watch (bytes "P"))
          (fun w step => ∀ pem, w.node.registers (bytes "P") pem step = true →
            ⟨bytes "P", pem, pathBeacon⟩ ∈ (watch (bytes "P") w step).seen
              ∧ ⟨bytes "P", pem, pathAnnounce⟩ ∈ (watch (bytes "P") w step).seen)
          ⟨emptyNode, []⟩ rotatedRun := by
  have hprovisioned : bytes "P" ∉ emptyNode.peerManager.preProvisionedKeys := by
    decide +kernel
  have halong : Run.Along act (fun node step => node.unpinsHalfway (bytes "P") step = false) emptyNode
      rotatedRun := by
    decide +kernel
  exact ⟨hprovisioned, halong, both_paths_of_registers _ _ _ _ _ hprovisioned _ halong⟩

/--
The beacon of the old key counts for the new one: `P` joins with a key that only its `ANNOUNCE` has
reported.
-/
theorem registers_after_unpin
    : let w := [beacons (bytes "P") "1" "f", unpins (bytes "P")].foldl (watch (bytes "P")) ⟨emptyNode, []⟩
      let step := announces (bytes "P") "2"
      bytes "P" ∉ emptyNode.peerManager.preProvisionedKeys
        ∧ w.node.registers (bytes "P") (plainKey "2") step = true
        ∧ ⟨bytes "P", plainKey "2", pathBeacon⟩ ∉ (watch (bytes "P") w step).seen
        ∧ (w.node.act step).pbft.hasPeer (bytes "P") = true := by
  decide +kernel

end MeshNode
end NeuroMesh
