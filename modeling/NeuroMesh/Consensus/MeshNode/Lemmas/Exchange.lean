import NeuroMesh.Common.Inet.Lemmas
import NeuroMesh.Consensus.MeshNode.Impl.Exchange
import NeuroMesh.Consensus.MeshNode.Lemmas.Extend
import NeuroMesh.Consensus.MeshNode.Lemmas.Wire
import NeuroMesh.Consensus.PeerManager.Alike

namespace NeuroMesh
namespace MeshNode

variable {C : IdentityCore}

structure IsField (s : Bytes) : Prop where
  pipe_notMem : pipe ∉ s
  zero_notMem : 0 ∉ s

@[mk_iff]
structure IsPart (s : Bytes) : Prop where
  comma_notMem : comma ∉ s
  colon_notMem : colon ∉ s

structure IsAddress (ip : Bytes) (port : Int) : Prop where
  ip_field : IsField ip
  ip_part : IsPart ip
  port_ge : -(2 ^ 31) ≤ port
  port_lt : port < 2 ^ 31

structure Tidy (peerId : Bytes) (entry : PeerEntry) : Prop extends IsAddress entry.ip entry.tcpPort where
  nodeId_eq : entry.nodeId = peerId
  id_field : IsField peerId

def TidyPeers (m : PeerManager) : Prop :=
  ∀ p entry, m.view p = some entry → Tidy p entry

section PexText

variable {peers : List (Bytes × Bytes × Int)}

structure Readable (peer : Bytes × Bytes × Int) : Prop extends IsAddress peer.2.1 peer.2.2 where
  id_field : IsField peer.1
  id_part : IsPart peer.1

theorem mem_pexEntry {peer : Bytes × Bytes × Int} {c : UInt8} (h : c ∈ pexEntry peer)
    : c = colon ∨ c ∈ peer.1 ∨ c ∈ peer.2.1 ∨ c ∈ toDecimalInt peer.2.2 := by
  rcases Delimited.eq_or_mem_of_mem_intercalate h with heq | ⟨field, hfield, hc⟩
  . exact .inl heq
  . simp only [List.mem_cons, List.not_mem_nil, or_false] at hfield
    rcases hfield with rfl | rfl | rfl
    . exact .inr (.inl hc)
    . exact .inr (.inr (.inl hc))
    . exact .inr (.inr (.inr hc))

theorem notMem_pexEntry {peer : Bytes × Bytes × Int} {c : UInt8} (hid : c ∉ peer.1) (hip : c ∉ peer.2.1)
    (hcolon : c ≠ colon) (hdigit : isDigit c = false) (hminus : c ≠ 0x2d)
    : c ∉ pexEntry peer := by
  intro hmem
  rcases mem_pexEntry hmem with heq | hmem | hmem | hmem
  . exact hcolon heq
  . exact hid hmem
  . exact hip hmem
  . rcases isDigit_or_eq_of_mem_toDecimalInt hmem with hc | heq
    . simp [hdigit] at hc
    . exact hminus heq

section Readable

variable {peer : Bytes × Bytes × Int} (h : Readable peer)
include h

theorem Readable.splitString_pexEntry
    : splitString (pexEntry peer) colon = [peer.1, peer.2.1, toDecimalInt peer.2.2] := by
  apply Delimited.split_intercalate
  . have hport : colon ∉ toDecimalInt peer.2.2 := by
      intro hmem
      rcases isDigit_or_eq_of_mem_toDecimalInt hmem with hdigit | heq
      . exact absurd hdigit (by decide)
      . exact absurd heq (by decide)
    simp [h.id_part.colon_notMem, h.ip_part.colon_notMem, hport]
  . exact toDecimalInt_ne_nil peer.2.2

theorem Readable.comma_notMem_pexEntry : comma ∉ pexEntry peer := by
  exact notMem_pexEntry h.id_part.comma_notMem h.ip_part.comma_notMem (by decide) (by decide) (by decide)

theorem Readable.isField_pexEntry : IsField (pexEntry peer) := by
  constructor
  . exact notMem_pexEntry h.id_field.pipe_notMem h.ip_field.pipe_notMem (by decide) (by decide) (by decide)
  . exact notMem_pexEntry h.id_field.zero_notMem h.ip_field.zero_notMem (by decide) (by decide) (by decide)

end Readable

theorem colon_mem_pexEntry (peer : Bytes × Bytes × Int) : colon ∈ pexEntry peer := by
  unfold pexEntry
  rw [Delimited.intercalate_cons _ (by simp)]
  simp

theorem pexEntry_ne_nil (peer : Bytes × Bytes × Int) : pexEntry peer ≠ [] := by
  exact List.ne_nil_of_mem (colon_mem_pexEntry peer)

theorem splitString_pexText {nodeId : Bytes} (hid : pipe ∉ nodeId) (peers : List (Bytes × Bytes × Int))
    : splitString (pexText nodeId peers) pipe
        =
      bytes "PEX" :: nodeId :: toDecimal peers.length
        :: splitString ([comma].intercalate (peers.map pexEntry)) pipe := by
  unfold pexText joinPipe splitString Delimited.split
  rw [Delimited.intercalate_cons _ (by simp), Delimited.intercalate_cons _ (by simp),
    Delimited.intercalate_cons _ (by simp), List.intercalate_singleton]
  rw [Delimited.split.go_append_cons (by decide), Delimited.split.go_append_cons hid,
    Delimited.split.go_append_cons (pipe_notMem_toDecimal _)]
  rfl

def readPexEntry (entry : Bytes) : Option (Bytes × Bytes × Int) :=
  match splitString entry colon with
  | peerId :: ip :: port :: _ => (tryParseInt port).map (peerId, ip, ·)
  | _ => none

theorem pexPeerList_of_tokens {msg cmd senderId count peerList : Bytes} {rest : List Bytes}
    (h : splitString msg pipe = cmd :: senderId :: count :: peerList :: rest)
    : pexPeerList msg
        =
      if cmd ≠ bytes "PEX" ∨ peerList = [] ∨ peerList = bytes "0" then
        []
      else
        (splitString peerList comma).filterMap readPexEntry := by
  unfold pexPeerList
  rw [h]
  rfl

theorem Readable.readPexEntry_eq {peer : Bytes × Bytes × Int} (h : Readable peer)
    : readPexEntry (pexEntry peer) = some peer := by
  unfold readPexEntry
  rw [h.splitString_pexEntry]
  dsimp only
  rw [tryParseInt_toDecimalInt h.port_ge h.port_lt]
  rfl

theorem pexPeerList_pexText {nodeId : Bytes} (hid : pipe ∉ nodeId) (h : ∀ peer ∈ peers, Readable peer)
    : pexPeerList (pexText nodeId peers) = peers := by
  have htokens := splitString_pexText hid peers
  cases peers with
  | nil =>
    unfold pexPeerList
    rw [htokens]
    rfl
  | cons peer rest =>
    have hentries : ∀ entry ∈ (peer :: rest).map pexEntry, entry ≠ [] ∧ comma ∉ entry ∧ pipe ∉ entry := by
      intro entry hentry
      obtain ⟨peer, hpeer, rfl⟩ := List.mem_map.mp hentry
      have hreadable := h peer hpeer
      exact ⟨pexEntry_ne_nil peer, hreadable.comma_notMem_pexEntry, hreadable.isField_pexEntry.pipe_notMem⟩
    have hsplit : splitString ([comma].intercalate ((peer :: rest).map pexEntry)) comma
        = (peer :: rest).map pexEntry := by
      apply Delimited.split_intercalate
      . intro entry hentry
        exact (hentries entry hentry).2.1
      . rw [List.getLastD_eq_getLast?, List.getLast?_eq_some_getLast (by simp), Option.getD_some]
        exact (hentries _ (List.getLast_mem (by simp))).1
    generalize hlist : [comma].intercalate ((peer :: rest).map pexEntry) = peerList at *
    have hcolon : colon ∈ peerList := by
      rw [← hlist]
      exact Delimited.mem_intercalate (List.mem_map_of_mem List.mem_cons_self) (colon_mem_pexEntry peer)
    have hpipe : pipe ∉ peerList := by
      intro hmem
      rw [← hlist] at hmem
      rcases Delimited.eq_or_mem_of_mem_intercalate hmem with heq | ⟨entry, hentry, hc⟩
      . exact absurd heq (by decide)
      . exact (hentries entry hentry).2.2 hc
    have hne : peerList ≠ [] := List.ne_nil_of_mem hcolon
    have hzero : peerList ≠ bytes "0" := by
      intro heq
      rw [heq] at hcolon
      exact absurd hcolon (by decide)
    have hone : splitString peerList pipe = [peerList] := Delimited.split.go_last hpipe [] hne
    rw [hone] at htokens
    rw [pexPeerList_of_tokens htokens, if_neg (by simp [hne, hzero]), hsplit, List.filterMap_map]
    have hread : ∀ peer' ∈ peer :: rest, (readPexEntry ∘ pexEntry) peer' = some peer' := by
      intro peer' hpeer
      exact (h peer' hpeer).readPexEntry_eq
    rw [List.filterMap_congr hread, List.filterMap_some]

theorem isInt32_of_tryParseInt {s : Bytes} {val : Int} (h : tryParseInt s = some val)
    : -(2 ^ 31) ≤ val ∧ val < 2 ^ 31 := by
  unfold tryParseInt stoi at h
  dsimp only at h
  split at h
  . next heq =>
    split at heq
    . contradiction
    . split at heq
      . next hrange =>
        cases heq
        split at h
        . cases h
          omega
        . contradiction
      . contradiction
  . contradiction

theorem readable_of_mem_pexPeerList {msg : Bytes} {peer : Bytes × Bytes × Int} (hmsg : 0 ∉ msg)
    (h : peer ∈ pexPeerList msg)
    : Readable peer := by
  obtain ⟨cmd, senderId, count, peerList, rest, htokens⟩ : ∃ cmd senderId count peerList rest,
      splitString msg pipe = cmd :: senderId :: count :: peerList :: rest := by
    unfold pexPeerList at h
    split at h
    . next htokens => exact ⟨_, _, _, _, _, htokens⟩
    . simp at h
  rw [pexPeerList_of_tokens htokens] at h
  split at h
  . simp at h
  . obtain ⟨entry, hentry, hread⟩ := List.mem_filterMap.mp h
    have hlist : peerList ∈ splitString msg pipe := by
      rw [htokens]
      simp
    -- a part of the entry is one of the list, and that is one of the message
    have hpart : ∀ part ∈ splitString entry colon, IsField part ∧ IsPart part := by
      intro part hmem
      have hup : ∀ c ∈ part, c ∈ entry := fun c hc => Delimited.mem_of_mem_split hmem hc
      have hup' : ∀ c ∈ entry, c ∈ peerList := fun c hc => Delimited.mem_of_mem_split hentry hc
      refine ⟨⟨?_, ?_⟩, ?_, ?_⟩
      . intro hc
        exact Delimited.notMem_of_mem_split hlist (hup' _ (hup _ hc))
      . intro hc
        exact hmsg (Delimited.mem_of_mem_split hlist (hup' _ (hup _ hc)))
      . intro hc
        exact Delimited.notMem_of_mem_split hentry (hup _ hc)
      . exact Delimited.notMem_of_mem_split hmem
    unfold readPexEntry at hread
    split at hread
    . next peerId ip port rest hparts =>
      rw [hparts] at hpart
      obtain ⟨val, hval, rfl⟩ := Option.map_eq_some_iff.mp hread
      have hid := hpart peerId (by simp)
      have hip := hpart ip (by simp)
      have hport := isInt32_of_tryParseInt hval
      exact ⟨⟨hip.1, hip.2, hport.1, hport.2⟩, hid.1, hid.2⟩
    . contradiction

theorem zero_notMem_pexText {nodeId : Bytes} (hid : 0 ∉ nodeId) (h : ∀ peer ∈ peers, Readable peer)
    : 0 ∉ pexText nodeId peers := by
  intro hmem
  rcases Delimited.eq_or_mem_of_mem_intercalate hmem with heq | ⟨field, hfield, hc⟩
  . exact absurd heq (by decide)
  . simp only [List.mem_cons, List.not_mem_nil, or_false] at hfield
    rcases hfield with rfl | rfl | rfl | rfl
    . exact absurd hc (by decide)
    . exact hid hc
    . exact absurd (isDigit_of_mem_toDecimal hc) (by decide)
    . rcases Delimited.eq_or_mem_of_mem_intercalate hc with heq | ⟨entry, hentry, hc⟩
      . exact absurd heq (by decide)
      . obtain ⟨peer, hpeer, rfl⟩ := List.mem_map.mp hentry
        exact (h peer hpeer).isField_pexEntry.zero_notMem hc

theorem zero_notMem_cStr (s : Bytes) : 0 ∉ cStr s := by
  intro hmem
  have := List.mem_takeWhile_imp hmem
  simp at this

theorem readPex_pexText {nodeId : Bytes} (hid : IsField nodeId) (h : ∀ peer ∈ peers, Readable peer)
    (hfits : (pexText nodeId peers).length ≤ pexReadSize)
    : readPex (pexText nodeId peers) = peers := by
  unfold readPex
  rw [List.take_of_length_le hfits, cStr_of_notMem (zero_notMem_pexText hid.zero_notMem h),
    pexPeerList_pexText hid.pipe_notMem h]

end PexText

def RoundTrips (node : MeshNode C) (a : Ambient) : Prop :=
  ∀ receiverId, (readPex (node.pexMessage a)).filter (·.1 ≠ receiverId)
    = (node.pexPeers a).filter (·.1 ≠ receiverId)

theorem roundTrips_iff_eq {node : MeshNode C} {a : Ambient}
    : node.RoundTrips a ↔ readPex (node.pexMessage a) = node.pexPeers a := by
  constructor
  . intro h
    -- for a receiver that occurs in neither list nothing is filtered out
    let ids := ((readPex (node.pexMessage a) ++ node.pexPeers a).map Prod.fst).toFinset
    obtain ⟨receiverId, hfresh⟩ := Infinite.exists_notMem_finset ids
    have hall : ∀ peer ∈ readPex (node.pexMessage a) ++ node.pexPeers a, peer.1 ≠ receiverId := by
      intro peer hpeer heq
      apply hfresh
      rw [List.mem_toFinset, ← heq]
      exact List.mem_map_of_mem hpeer
    have hfilter := h receiverId
    rw [List.filter_eq_self.mpr, List.filter_eq_self.mpr] at hfilter
    . exact hfilter
    . intro peer hpeer
      simpa using hall peer (List.mem_append_right _ hpeer)
    . intro peer hpeer
      simpa using hall peer (List.mem_append_left _ hpeer)
  . intro h receiverId
    rw [h]

theorem mem_pexPeers_iff {node : MeshNode C} {a : Ambient} {peer : Bytes × Bytes × Int}
    : peer ∈ node.pexPeers a
        ↔
      ∃ p entry, node.peerManager.view p = some entry ∧ (entry.nodeId, entry.ip, entry.tcpPort) = peer := by
  unfold pexPeers PeerManager.getAllPeers PeerManager.view
  simp only [List.map_map, List.mem_map, (a.bucketOrder_perm _).mem_iff, Std.ExtTreeMap.mem_keys]
  constructor
  . rintro ⟨p, hp, heq⟩
    obtain ⟨entry, hentry⟩ := Option.isSome_iff_exists.mp (Std.ExtTreeMap.mem_iff_isSome_getElem?.mp hp)
    refine ⟨p, entry.ageless, by rw [hentry]; rfl, ?_⟩
    simp only [Function.comp_apply, PeerManager.getPeer, Std.ExtTreeMap.getD_eq_getD_getElem?, hentry,
      Option.getD_some] at heq
    exact heq
  . rintro ⟨p, entry, hview, heq⟩
    obtain ⟨entry', hentry, rfl⟩ := Option.map_eq_some_iff.mp hview
    refine ⟨p, by simp [Std.ExtTreeMap.mem_iff_isSome_getElem?, hentry], ?_⟩
    simp only [Function.comp_apply, PeerManager.getPeer, Std.ExtTreeMap.getD_eq_getD_getElem?, hentry,
      Option.getD_some]
    exact heq

theorem roundTrips_iff_of_tidy {node : MeshNode C} (hid : IsField node.nodeId) (htidy : TidyPeers node.peerManager)
    {a : Ambient} (hfits : (node.pexMessage a).length ≤ pexReadSize)
    : node.RoundTrips a ↔ ∀ p ∈ node.peerManager.peers, IsPart p := by
  rw [roundTrips_iff_eq]
  constructor
  . intro h p hp
    obtain ⟨entry, hentry⟩ := Option.isSome_iff_exists.mp (Std.ExtTreeMap.mem_iff_isSome_getElem?.mp hp)
    have hview : node.peerManager.view p = some entry.ageless := by
      simp [PeerManager.view, hentry]
    have hmem := (mem_pexPeers_iff (a := a)).mpr ⟨p, _, hview, rfl⟩
    rw [← h] at hmem
    have hreadable := readable_of_mem_pexPeerList (zero_notMem_cStr _) hmem
    have hpart := hreadable.id_part
    rwa [(htidy p _ hview).nodeId_eq] at hpart
  . intro h
    apply readPex_pexText hid _ hfits
    intro peer hpeer
    obtain ⟨p, entry, hview, rfl⟩ := mem_pexPeers_iff.mp hpeer
    have hentry := htidy p entry hview
    have hp : p ∈ node.peerManager.peers := by
      obtain ⟨entry', hentry', -⟩ := Option.map_eq_some_iff.mp hview
      simp [Std.ExtTreeMap.mem_iff_isSome_getElem?, hentry']
    rw [hentry.nodeId_eq]
    exact ⟨hentry.toIsAddress, hentry.id_field, h p hp⟩

namespace TidyPeers

variable {m m' : PeerManager}

theorem of_peers_eq (h : TidyPeers m) (hpeers : m'.peers = m.peers) : TidyPeers m' := by
  intro p entry hview
  apply h p entry
  unfold PeerManager.view at hview ⊢
  rwa [← hpeers]

theorem addPeer (h : TidyPeers m) {peerId ip : Bytes} {tcpPort : Int} (hid : IsField peerId)
    (haddress : IsAddress ip tcpPort) (now : Time) (tlsPort : Int) (pem : Bytes)
    : TidyPeers (m.addPeer now peerId ip tcpPort tlsPort pem).2 := by
  intro p entry hview
  rw [PeerManager.view_addPeer] at hview
  split at hview
  . next heq =>
    subst heq
    cases hbefore : m.view peerId with
    | none =>
      rw [hbefore] at hview
      cases hview
      exact ⟨haddress, rfl, hid⟩
    | some before =>
      rw [hbefore] at hview
      cases hview
      exact h peerId before hbefore
  . exact h p entry hview

theorem confirmPath (h : TidyPeers m) (peerId : Bytes) (path : UInt8) (pem : Bytes)
    : TidyPeers (m.confirmPath peerId path pem).2 := by
  intro p entry hview
  rw [PeerManager.view_confirmPath] at hview
  split at hview
  . obtain ⟨before, hbefore, rfl⟩ := Option.map_eq_some_iff.mp hview
    have htidy := h p before hbefore
    unfold PeerEntry.confirm PeerManager.fillKey
    split
    . exact htidy
    . split
      . exact ⟨htidy.toIsAddress, htidy.nodeId_eq, htidy.id_field⟩
      . exact ⟨htidy.toIsAddress, htidy.nodeId_eq, htidy.id_field⟩
  . exact h p entry hview

theorem updatePeerHeartbeat (h : TidyPeers m) {ip : Bytes} {tcpPort : Int} (haddress : IsAddress ip tcpPort)
    (now : Time) (peerId : Bytes) (tlsPort : Int) (pem : Bytes)
    : TidyPeers (m.updatePeerHeartbeat now peerId ip tcpPort tlsPort pem) := by
  intro p entry hview
  rw [PeerManager.view_updatePeerHeartbeat] at hview
  split at hview
  . obtain ⟨before, hbefore, rfl⟩ := Option.map_eq_some_iff.mp hview
    have htidy := h p before hbefore
    unfold PeerManager.fillKey
    split
    . exact ⟨haddress, htidy.nodeId_eq, htidy.id_field⟩
    . exact ⟨haddress, htidy.nodeId_eq, htidy.id_field⟩
  . exact h p entry hview

theorem unpinPeerKey (h : TidyPeers m) (nodeId : Bytes) : TidyPeers (m.unpinPeerKey nodeId) := by
  unfold PeerManager.unpinPeerKey
  cases hentry : m.peers[nodeId]? with
  | none => exact h.of_peers_eq rfl
  | some entry =>
    apply of_peers_eq (m := { m with
      peers := m.peers.insert nodeId { entry with publicKeyPem := [], verified := false } }) _ rfl
    intro p entry' hview
    rw [PeerManager.view_insert] at hview
    split at hview
    . next heq =>
      subst heq
      cases hview
      have htidy := h nodeId entry.ageless (by simp [PeerManager.view, hentry])
      exact ⟨htidy.toIsAddress, htidy.nodeId_eq, htidy.id_field⟩
    . exact h p entry' hview

theorem foldl_removePeer (h : TidyPeers m) (peerIds : List Bytes)
    : TidyPeers (peerIds.foldl PeerManager.removePeer m) := by
  induction peerIds generalizing m with
  | nil => exact h
  | cons peerId peerIds ih =>
    apply ih
    intro p entry hview
    apply h p entry
    unfold PeerManager.view PeerManager.removePeer at hview
    rw [Std.ExtTreeMap.getElem?_erase] at hview
    split at hview
    . contradiction
    . exact hview

end TidyPeers

section Invariant

variable {node : MeshNode C} {env : Env} {dial : Dial} {senderIp : Bytes}

def Dial.Delivers (dial : Dial) : Prop :=
  ∀ ip port resp, dial ip port = some resp → 0 ∉ resp

theorem tidy_performPexHandshake_go (h : TidyPeers node.peerManager) (env : Env)
    {peers : List (Bytes × Bytes × Int)} (hpeers : ∀ peer ∈ peers, Readable peer)
    : TidyPeers (performPexHandshake.go node env peers).peerManager := by
  induction peers generalizing node env with
  | nil => exact h
  | cons peer peers ih =>
    obtain ⟨hpeer, hpeers⟩ := List.forall_mem_cons.mp hpeers
    unfold performPexHandshake.go
    refine ih ?_ _ hpeers
    split
    . exact h.addPeer hpeer.id_field hpeer.toIsAddress _ _ _
    . exact h

theorem tidy_performPexHandshake (node : MeshNode C) (h : TidyPeers node.peerManager) (hdial : dial.Delivers)
    (env : Env) (ip : Bytes) (port : Int) (expectedPeerId : Bytes)
    : TidyPeers (node.performPexHandshake env dial ip port expectedPeerId).peerManager := by
  unfold performPexHandshake
  dsimp only
  split
  . exact h
  . split
    . exact h
    . next hresp =>
      apply tidy_performPexHandshake_go h
      intro peer hpeer
      exact readable_of_mem_pexPeerList (hdial _ _ _ hresp) hpeer

theorem tidy_processPex_go (h : TidyPeers node.peerManager) (hdial : dial.Delivers) (env : Env)
    {peers : List (Bytes × Bytes × Int)} (hpeers : ∀ peer ∈ peers, Readable peer)
    : TidyPeers (processPex.go dial node env peers).peerManager := by
  induction peers generalizing node env with
  | nil => exact h
  | cons peer peers ih =>
    obtain ⟨peerId, ip, port⟩ := peer
    obtain ⟨hpeer, hpeers⟩ := List.forall_mem_cons.mp hpeers
    have hadded := h.addPeer hpeer.id_field hpeer.toIsAddress (env 0).now 0 []
    unfold processPex.go
    refine ih ?_ _ hpeers
    split
    . split
      . next heq =>
        rw [heq] at hadded
        exact tidy_performPexHandshake { node with peerManager := _ } hadded hdial _ _ _ _
      . next heq =>
        rw [heq] at hadded
        exact hadded
    . exact h

theorem isField_of_mem_split {msg token : Bytes} (hmsg : 0 ∉ msg) (h : token ∈ splitString msg pipe)
    : IsField token := by
  constructor
  . exact Delimited.notMem_of_mem_split h
  . intro hzero
    exact hmsg (Delimited.mem_of_mem_split h hzero)

theorem isAddress_ntop (addr : Ipv4) {port : Int} (hge : -(2 ^ 31) ≤ port) (hlt : port < 2 ^ 31)
    : IsAddress addr.ntop port := by
  have hnot : ∀ c, isDigit c = false → c ≠ 0x2e → c ∉ addr.ntop := by
    intro c hdigit hdot hmem
    rcases Ipv4.mem_ntop hmem with hc | hc
    . simp [hdigit] at hc
    . exact hdot hc
  refine ⟨⟨?_, ?_⟩, ⟨?_, ?_⟩, hge, hlt⟩
  . exact hnot _ (by decide) (by decide)
  . exact hnot _ (by decide) (by decide)
  . exact hnot _ (by decide) (by decide)
  . exact hnot _ (by decide) (by decide)

theorem mem_of_parseAnnounce {tokens : List Bytes} {peerId pem : Bytes}
    (h : node.parseAnnounce tokens = some (peerId, pem))
    : peerId ∈ tokens := by
  unfold parseAnnounce at h
  dsimp only at h
  repeat' split at h
  all_goals first | contradiction | cases h
  simp

theorem tidy_processAnnounce (h : TidyPeers node.peerManager) {tokens : List Bytes}
    (htokens : ∀ token ∈ tokens, IsField token) (addr : Ipv4) (env : Env)
    : TidyPeers (node.processAnnounce env tokens addr.ntop).peerManager := by
  cases hparse : node.parseAnnounce tokens with
  | none =>
    unfold processAnnounce
    rw [hparse]
    exact h
  | some announced =>
    obtain ⟨peerId, pem⟩ := announced
    have hid : IsField peerId := by
      apply htokens
      exact mem_of_parseAnnounce hparse
    rw [peerManager_processAnnounce hparse]
    apply TidyPeers.confirmPath
    apply TidyPeers.addPeer _ hid (isAddress_ntop addr (by decide) (by decide))
    exact h.of_peers_eq rfl

theorem tidy_refreshBeacon {m : PeerManager} (h : TidyPeers m) {beacon : Beacon}
    (haddress : IsAddress senderIp beacon.tcpPort) (now : Time) (isNew : Bool)
    : TidyPeers (refreshBeacon m now beacon senderIp isNew) := by
  unfold refreshBeacon refreshPeer
  dsimp only
  split
  . exact h
  . split
    . exact h
    . exact h.updatePeerHeartbeat haddress _ _ _ _

theorem tidy_admitBeacon {beacon : Beacon} {isNew : Bool} {met : PathConfirmResult × PeerManager}
    (h : TidyPeers (refreshBeacon met.2 (env 2).now beacon senderIp isNew)) (hdial : dial.Delivers)
    : TidyPeers (node.admitBeacon env dial beacon senderIp isNew met).peerManager := by
  unfold admitBeacon
  generalize refreshBeacon met.2 (env 2).now beacon senderIp isNew = m at h ⊢
  extract_lets start trusted registered
  have hregistered : registered.peerManager = m := by
    unfold registered trusted
    rw [peerManager_registerConfirmed, peerManager_trustCert]
  split
  . split
    . apply tidy_performPexHandshake _ _ hdial
      rwa [hregistered]
    . rwa [hregistered]
  . exact h

theorem tidy_processBeacon (h : TidyPeers node.peerManager) (hdial : dial.Delivers) {beacon : Beacon}
    (hid : IsField beacon.peerId) (haddress : IsAddress senderIp beacon.tcpPort) (env : Env)
    : TidyPeers (node.processBeacon env dial beacon senderIp).peerManager := by
  cases hpasses : node.passesBeacon (env 0).now beacon with
  | false =>
    rw [processBeacon_of_not_passes hpasses]
    exact h
  | true =>
    have hmet : TidyPeers (meetBeacon node.peerManager (env 1).now beacon senderIp).2 := by
      apply TidyPeers.confirmPath
      apply TidyPeers.addPeer _ hid haddress
      exact h.of_peers_eq (peers_pinBeacon _ _)
    cases hkey : (meetBeacon node.peerManager (env 1).now beacon senderIp).1.keyMismatch with
    | true =>
      rw [processBeacon_of_keyMismatch hpasses hkey]
      exact hmet
    | false =>
      rw [processBeacon_of_keyMatch hpasses hkey]
      exact tidy_admitBeacon (tidy_refreshBeacon hmet haddress _ _) hdial

theorem of_parseBeacon {tokens : List Bytes} {beacon : Beacon} (h : parseBeacon tokens = some beacon)
    : beacon.peerId ∈ tokens ∧ ∃ text, tryParseInt text = some beacon.tcpPort := by
  have hlength : 6 ≤ tokens.length := by
    by_contra hshort
    simp [parseBeacon, readFields, guard, hshort] at h
  have hmem : tokens.getD 1 [] ∈ tokens := by
    rw [List.getD_eq_getElem _ _ (by omega)]
    apply List.getElem_mem
  unfold parseBeacon readFields at h
  simp only [Option.bind_eq_bind, Option.bind_some, Option.bind_eq_some_iff] at h
  obtain ⟨_, _, _, _, tcpPort, hport, _, _, _, _, _, _, _, _, _, _, heq⟩ := h
  cases heq
  exact ⟨hmem, _, hport⟩

theorem tidy_afterLimit (h : TidyPeers node.peerManager) (env : Env) (senderIp : Bytes)
    : TidyPeers (node.afterLimit env senderIp).peerManager := by
  obtain ⟨rateLimits, heq⟩ := node.afterLimit_eq env senderIp
  rw [heq]
  exact h.of_peers_eq rfl

theorem tidy_processMessage (h : TidyPeers node.peerManager) {msg : Bytes} (hmsg : 0 ∉ msg) (addr : Ipv4) (env : Env)
    : TidyPeers (node.processMessage env msg addr.ntop).peerManager := by
  have hlimit := tidy_afterLimit h env addr.ntop
  rw [processMessage_eq]
  split
  . unfold readMessage
    dsimp only
    split
    . exact hlimit
    . split
      . exact tidy_processAnnounce hlimit (fun _ => isField_of_mem_split hmsg) addr _
      . split
        . split
          . exact hlimit
          . rwa [keptByVoting_peerManager.processVote _ _ (fun _ => rfl)]
        . exact hlimit
  . exact hlimit

theorem tidy_processDiscovery (h : TidyPeers node.peerManager) (hdial : dial.Delivers) {msg : Bytes} (hmsg : 0 ∉ msg)
    (addr : Ipv4) (env : Env)
    : TidyPeers (node.processDiscovery env dial msg addr.ntop).peerManager := by
  have hlimit := tidy_afterLimit h env addr.ntop
  rw [processDiscovery_eq]
  split
  . split
    . exact hlimit
    . unfold processDiscoveryBeacon
      split
      . exact hlimit
      . next beacon hparse =>
        obtain ⟨hmem, text, hport⟩ := of_parseBeacon hparse
        have hrange := isInt32_of_tryParseInt hport
        apply tidy_processBeacon hlimit hdial
        . exact isField_of_mem_split hmsg hmem
        . exact isAddress_ntop addr hrange.1 hrange.2
  . exact hlimit

theorem tidy_unpinPeerKey (h : TidyPeers node.peerManager) (nodeId : Bytes)
    : TidyPeers (node.unpinPeerKey nodeId).peerManager := by
  unfold unpinPeerKey
  split
  . exact h.unpinPeerKey nodeId
  . exact h

def Step.Delivered (step : Step) : Prop :=
  step.dial.Delivers
    ∧ match step.action with
      | .message msg senderIp => 0 ∉ msg ∧ ∃ addr : Ipv4, senderIp = addr.ntop
      | .discovery msg senderIp => 0 ∉ msg ∧ ∃ addr : Ipv4, senderIp = addr.ntop
      | .pex msg => 0 ∉ msg
      | _ => True

theorem tidy_act (h : TidyPeers node.peerManager) {step : Step} (hstep : step.Delivered)
    : TidyPeers (node.act step).peerManager := by
  obtain ⟨env, dial, action⟩ := step
  obtain ⟨hdial, hstep⟩ := hstep
  unfold act
  cases action with
  | message msg senderIp =>
    obtain ⟨hmsg, addr, rfl⟩ := hstep
    exact tidy_processMessage h hmsg addr env
  | discovery msg senderIp =>
    obtain ⟨hmsg, addr, rfl⟩ := hstep
    exact tidy_processDiscovery h hdial hmsg addr env
  | pex msg =>
    apply tidy_processPex_go h hdial
    intro peer hpeer
    exact readable_of_mem_pexPeerList hstep hpeer
  | pruneStalePeers =>
    dsimp only
    unfold pruneStalePeers
    rw [peerManager_foldl_pruneStalePeer]
    exact h.foldl_removePeer _
  | checkStalledRounds =>
    dsimp only
    unfold checkStalledRounds
    rwa [peerManager_checkStalledRounds_go]
  | proposeRecentBans =>
    dsimp only
    unfold proposeRecentBans
    dsimp only
    rwa [keptByVoting_peerManager.proposeRecentBans_go]
  | initiateConsensus targetId evidenceJson =>
    dsimp only
    unfold initiateConsensus
    dsimp only
    split
    . exact h
    . rw [keptByVoting_peerManager.broadcastPbftStage]
      exact h.of_peers_eq rfl
  | proposeBan targetId reason =>
    dsimp only
    rwa [keptByVoting_peerManager.proposeBan]
  | unpinPeerKey nodeId => exact tidy_unpinPeerKey h nodeId

end Invariant

/--
As long as no id with a comma or a colon gets into the registry, peers are told about as they are. The ids that
the discovery paths accept may have either of them.
-/
theorem always_roundTrips_iff {nodeId : Bytes} (hid : IsField nodeId) (key pbftKey : C.PrivKey) (settings : Settings)
    {steps : List Step} (h : ∀ step ∈ steps, step.Delivered)
    : Run.Always act
        (fun node =>
          ∀ a : Ambient, (node.pexMessage a).length ≤ pexReadSize →
            (node.RoundTrips a ↔ ∀ p ∈ node.peerManager.peers, comma ∉ p ∧ colon ∉ p))
        (new C nodeId key pbftKey settings) steps := by
  apply Run.always_of_invariant (I := fun node => node.nodeId = nodeId ∧ TidyPeers node.peerManager)
    (Q := fun _ step => step.Delivered)
  . rintro node step ⟨hsame, htidy⟩ hstep
    exact ⟨by rw [(node.extends_act step).nodeId_eq, hsame], tidy_act htidy hstep⟩
  . rintro node ⟨rfl, htidy⟩ a hfits
    rw [roundTrips_iff_of_tidy hid htidy hfits]
    simp only [isPart_iff]
  . refine ⟨nodeId_new nodeId key pbftKey settings, ?_⟩
    intro p entry hview
    unfold PeerManager.view at hview
    rw [peers_new] at hview
    simp at hview
  . rw [Run.along_iff_forall]
    rintro before step after rfl
    exact h step (by simp)

theorem delivered_beacons {peerId : Bytes} {key fingerprint : String}
    (h : 0 ∉ plainBeacon peerId (plainKey key) (bytes fingerprint) [])
    : (beacons peerId key fingerprint).Delivered := by
  refine ⟨?_, h, ⟨10, 0, 0, 1⟩, by decide +kernel⟩
  intro ip port resp hresp
  contradiction

theorem always_roundTrips_iff_beacon
    : Run.Always act
        (fun node =>
          ∀ a : Ambient, (node.pexMessage a).length ≤ pexReadSize →
            (node.RoundTrips a ↔ ∀ p ∈ node.peerManager.peers, comma ∉ p ∧ colon ∉ p))
        (new .plain (bytes "A") (bytes "kA") (bytes "kA") {}) [beacons (bytes "B") "kB" ""] := by
  apply always_roundTrips_iff
  . constructor <;> decide
  . simp only [List.mem_singleton, forall_eq]
    apply delivered_beacons
    decide +kernel

theorem not_forall_roundTrips
    : ¬ ∀ (steps : List Step), (∀ step ∈ steps, step.Delivered) →
        Run.Always act (fun node => ∀ a : Ambient, (node.pexMessage a).length ≤ pexReadSize → node.RoundTrips a)
          (new .plain (bytes "A") (bytes "kA") (bytes "kA") {}) steps := by
  intro h
  have hdelivered : ∀ step ∈ [beacons (bytes "B,C") "kB" ""], step.Delivered := by
    simp only [List.mem_singleton, forall_eq]
    apply delivered_beacons
    decide +kernel
  have htrips := Run.foldl_of_always (h _ hdelivered) (quietEnv 0) (by decide +kernel)
  rw [roundTrips_iff_eq] at htrips
  revert htrips
  decide +kernel

end MeshNode
end NeuroMesh
