import NeuroMesh.Common.Duration
import NeuroMesh.Common.Inet
import NeuroMesh.Consensus.MeshNode.Impl.Ipc
import NeuroMesh.Data.Run
import NeuroMesh.Data.SlidingWindow

/-!
This module contains what a connection to `ipc_listener_loop` has to pass before its command is obeyed: the check of
its credentials, the rate limit of its user and the token.
-/

namespace NeuroMesh

structure IpcListener where
  uid : Nat
  token : Bytes
  rateLimits : Map Nat (List Time) := ∅

/--
What the system reports about a connection: the user behind it, the readings of the clock, the order of the buckets, and
the bytes of the calls of `read`, which are none if the call fails.
-/
structure IpcClient where
  uid : Option Nat
  now : Time
  evictNow : Time
  bucketOrder : List Nat → List Nat
  auth : Bytes
  input : Bytes

inductive IpcAnswer where
  | closed
  | reject (reply : Bytes)
  | command (cmd : Bytes)
deriving DecidableEq

namespace IpcListener

variable (listener : IpcListener) (client : IpcClient)

def rateLimitPerSec : Nat := 10
def rateLimitCap : Nat := 256

def evict (limits : Map Nat (List Time)) : Map Nat (List Time) :=
  if rateLimitCap < limits.size then
    let limits := limits.filter fun _ window => !window.isEmpty
    if rateLimitCap < limits.size then
      let oldest := (client.bucketOrder limits.keys).foldl (fun oldest uid =>
        match (limits.getD uid []).head? with
        | none => oldest
        | some front => if front < oldest.2 then (some uid, front) else oldest) (none, client.evictNow)
      match oldest.1 with
      | none => limits
      | some uid => limits.erase uid
    else
      limits
  else
    limits

def checkRate (uid : Nat) : Bool × IpcListener :=
  let limits := evict client listener.rateLimits
  let window := (limits.getD uid []).dropWhile fun front => 1 ≤ seconds (client.now - front)
  if rateLimitPerSec ≤ window.length then
    (false, { listener with rateLimits := limits.insert uid window })
  else
    (true, { listener with rateLimits := limits.insert uid (window ++ [client.now]) })

def isLineEnd (c : UInt8) : Bool :=
  c = 0x0a ∨ c = 0x0d

def receivedToken (authLine : Bytes) : Bytes :=
  let auth := bytes "AUTH "
  let token := if auth <+: authLine then (authLine.drop auth.length).takeWhile (!isLineEnd ·) else authLine
  token.rdropWhile fun c => isLineEnd c ∨ c = 0x20

def trailingCommand (authLine : Bytes) : Bytes :=
  ((authLine.dropWhile (· ≠ 0x0a)).drop 1).dropWhile isLineEnd

def readCommand (cmd : Bytes) : IpcAnswer :=
  if cmd ≠ [] then
    .command cmd
  else if client.input = [] then
    .closed
  else
    .command (cStr client.input)

def authenticate : IpcAnswer :=
  if listener.token = [] then
    readCommand client []
  else if client.auth = [] then
    .closed
  else if receivedToken (cStr client.auth) ≠ listener.token then
    .reject (bytes "REJECT:AUTH_TOKEN\n")
  else
    readCommand client (trailingCommand (cStr client.auth))

def serve : IpcAnswer × IpcListener :=
  match client.uid with
  | none => (.closed, listener)
  | some uid =>
    if uid ≠ 0 ∧ uid ≠ listener.uid then
      (.reject (bytes "REJECT:AUTH\n"), listener)
    else
      match listener.checkRate client uid with
      | (false, listener) => (.reject (bytes "REJECT:RATE_LIMIT\n"), listener)
      | (true, listener) => (listener.authenticate client, listener)

/--
The user that a connection speaks for, if it is one that may give commands.
-/
def caller : Option Nat :=
  client.uid.filter fun uid => uid = 0 ∨ uid = listener.uid

theorem serve_eq
    : listener.serve client
        =
      match listener.caller client with
      | none => (if client.uid = none then .closed else .reject (bytes "REJECT:AUTH\n"), listener)
      | some uid =>
        let res := listener.checkRate client uid
        (if res.1 then res.2.authenticate client else .reject (bytes "REJECT:RATE_LIMIT\n"), res.2) := by
  unfold serve caller
  cases client.uid with
  | none => rfl
  | some uid =>
    by_cases hcaller : uid = 0 ∨ uid = listener.uid
    . rw [Option.filter_some, if_pos (decide_eq_true hcaller)]
      dsimp only
      rw [if_neg (by omega)]
      cases listener.checkRate client uid with
      | mk passes listener => cases passes <;> rfl
    . rw [Option.filter_some, if_neg (by simpa using hcaller)]
      dsimp only
      rw [if_pos (by omega)]
      simp

theorem token_of_authenticate {cmd : Bytes} (h : listener.authenticate client = .command cmd)
    : listener.token = [] ∨ receivedToken (cStr client.auth) = listener.token := by
  unfold authenticate at h
  split at h
  . next hnone => exact .inl hnone
  . split at h
    . contradiction
    . split at h
      . contradiction
      . next htoken => exact .inr (not_not.mp htoken)

theorem authenticate_ne_reject {reply : Bytes} (h : reply ≠ bytes "REJECT:AUTH_TOKEN\n")
    : listener.authenticate client ≠ .reject reply := by
  unfold authenticate readCommand
  repeat' split
  all_goals simp [Ne.symm h]

end IpcListener

/--
The listener next to a record of the connections that passed the rate limit.
-/
structure IpcHistory where
  listener : IpcListener
  passed : List (Nat × Int) := []

namespace IpcHistory

open IpcListener

def serve (h : IpcHistory) (client : IpcClient) : IpcHistory :=
  {
    listener := (h.listener.serve client).2
    passed := h.passed ++
      match h.listener.caller client with
      | none => []
      | some uid => if (h.listener.checkRate client uid).1 then [(uid, client.now)] else []
  }

def passedBy (h : IpcHistory) (uid : Nat) : List Int :=
  (h.passed.filter (·.1 = uid)).map Prod.snd

def within (h : IpcHistory) (uid : Nat) (start stop : Int) : Nat :=
  (h.passedBy uid).countP fun t => start < t ∧ t ≤ stop

structure Guarded (h : IpcHistory) (client : IpcClient) : Prop where
  obeyed : ∀ cmd, (h.listener.serve client).1 = .command cmd →
    (h.listener.caller client).isSome ∧ (h.listener.token = [] ∨ receivedToken (cStr client.auth) = h.listener.token)
  throttled : (h.listener.serve client).1 = .reject (bytes "REJECT:RATE_LIMIT\n")
    ↔ ∃ uid ∈ h.listener.caller client, rateLimitPerSec ≤ h.within uid (client.now - 1000000000) client.now

structure Bounded (h : IpcHistory) : Prop where
  within_le : ∀ uid start, h.within uid start (start + 1000000000) ≤ rateLimitPerSec
  size_le : h.listener.rateLimits.size ≤ 2

structure Sound (h : IpcHistory) (now : Int) : Prop where
  users : ∀ uid ∈ h.listener.rateLimits, uid = 0 ∨ uid = h.listener.uid
  sorted : ∀ uid, (h.listener.rateLimits.getD uid []).Pairwise (· ≤ ·)
  user : ∀ uid, SlidingWindow.Sound 1000000000 rateLimitPerSec now (h.listener.rateLimits.getD uid []) (h.passedBy uid)

variable {h : IpcHistory} {now : Int} {client : IpcClient}

theorem Sound.bounded (hs : h.Sound now) : h.Bounded := by
  constructor
  . intro uid start
    apply (hs.user uid).window_le
    intro t u ht hu
    rw [decide_eq_true_eq] at ht hu
    omega
  . rw [← Std.ExtTreeMap.length_keys]
    have hsub : h.listener.rateLimits.keys ⊆ [0, h.listener.uid] := by
      intro uid huid
      simpa using hs.users uid (Std.ExtTreeMap.mem_of_mem_keys huid)
    exact (List.subperm_of_subset Std.ExtTreeMap.nodup_keys hsub).length_le

theorem Sound.checkRate_eq (hs : h.Sound now) (client : IpcClient) (uid : Nat)
    : h.listener.checkRate client uid
        =
      let res := SlidingWindow.check 1000000000 rateLimitPerSec (h.listener.rateLimits.getD uid []) client.now
      (res.1, { h.listener with rateLimits := h.listener.rateLimits.insert uid res.2 }) := by
  -- there are never enough users for an eviction
  have hevict : evict client h.listener.rateLimits = h.listener.rateLimits := by
    have hsize := hs.bounded.size_le
    exact if_neg (by unfold rateLimitCap; omega)
  have hage : (fun front => decide (1 ≤ seconds (client.now - front)))
      = fun front => decide ((1000000000 : Int) ≤ client.now - front) := by
    funext front
    rw [decide_eq_decide, le_seconds_iff Int.one_pos, Int.one_mul]
  have hwindow := @SlidingWindow.dropWhile_eq_recent 1000000000 client.now _ (hs.sorted uid)
  unfold checkRate SlidingWindow.check
  dsimp only
  rw [hevict, hage, hwindow]
  split <;> rfl

theorem Sound.fst_checkRate (hs : h.Sound now) (hle : now ≤ client.now) (uid : Nat)
    : (h.listener.checkRate client uid).1 = true
        ↔
      h.within uid (client.now - 1000000000) client.now < rateLimitPerSec := by
  have hcount : h.within uid (client.now - 1000000000) client.now
      = (SlidingWindow.recent 1000000000 client.now (h.passedBy uid)).length := by
    unfold within SlidingWindow.recent
    rw [← List.countP_eq_length_filter]
    apply List.countP_congr
    intro t ht
    have := (hs.user uid).past t ht
    simp only [decide_eq_true_eq]
    omega
  rw [hs.checkRate_eq, hcount]
  exact (hs.user uid).check_eq_true_iff hle

theorem Sound.guarded (hs : h.Sound now) (hle : now ≤ client.now) : h.Guarded client := by
  have hrate := fun uid => hs.fst_checkRate hle uid
  constructor
  . intro cmd hcmd
    rw [serve_eq] at hcmd
    cases hcaller : h.listener.caller client with
    | none =>
      rw [hcaller] at hcmd
      dsimp only at hcmd
      split at hcmd <;> contradiction
    | some uid =>
      rw [hcaller] at hcmd
      dsimp only at hcmd
      rw [hs.checkRate_eq] at hcmd
      split at hcmd
      . exact ⟨rfl, token_of_authenticate _ client hcmd⟩
      . contradiction
  . rw [serve_eq]
    cases hcaller : h.listener.caller client with
    | none =>
      have hne : bytes "REJECT:AUTH\n" ≠ bytes "REJECT:RATE_LIMIT\n" := by decide
      dsimp only
      split <;> simp [hne]
    | some uid =>
      have hne := fun listener => authenticate_ne_reject listener client
        (show bytes "REJECT:RATE_LIMIT\n" ≠ bytes "REJECT:AUTH_TOKEN\n" by decide)
      dsimp only
      split
      . next hpasses => simpa [hne] using (hrate uid).mp hpasses
      . next hfull => simpa [hrate uid] using hfull

theorem passedBy_serve (h : IpcHistory) (client : IpcClient) (uid : Nat)
    : (h.serve client).passedBy uid
        =
      h.passedBy uid
        ++ if h.listener.caller client = some uid ∧ (h.listener.checkRate client uid).1 then [client.now] else [] := by
  unfold serve passedBy
  dsimp only
  rw [List.filter_append, List.map_append]
  congr 1
  cases h.listener.caller client with
  | none => simp
  | some caller =>
    by_cases hcaller : caller = uid
    . subst hcaller
      dsimp only
      split <;> simp_all
    . dsimp only
      split <;> simp_all

theorem Sound.mono (hs : h.Sound now) {later : Int} (hle : now ≤ later) : h.Sound later := by
  exact { hs with user := fun uid => (hs.user uid).mono hle }

theorem Sound.serve (hs : h.Sound now) (hle : now ≤ client.now) : (h.serve client).Sound client.now := by
  cases hcaller : h.listener.caller client with
  | none =>
    have hsame : h.serve client = h := by
      unfold IpcHistory.serve
      rw [serve_eq, hcaller]
      simp
    rw [hsame]
    exact hs.mono hle
  | some caller =>
    have hallowed : caller = 0 ∨ caller = h.listener.uid := by
      simpa using (Option.filter_eq_some_iff.mp hcaller).2
    have hlistener : (h.serve client).listener = (h.listener.checkRate client caller).2 := by
      unfold IpcHistory.serve
      rw [serve_eq, hcaller]
    rw [hs.checkRate_eq] at hlistener
    have hinsert : ∀ uid, (h.serve client).listener.rateLimits.getD uid []
        = if caller = uid then
            (SlidingWindow.check 1000000000 rateLimitPerSec (h.listener.rateLimits.getD uid []) client.now).2
          else
            h.listener.rateLimits.getD uid [] := by
      intro uid
      rw [hlistener]
      dsimp only
      rw [Std.ExtTreeMap.getD_insert]
      simp only [Std.compare_eq_iff_eq]
      split
      . next heq => rw [heq]
      . rfl
    constructor
    . intro uid huid
      rw [hlistener] at huid ⊢
      rcases Std.ExtTreeMap.mem_insert.mp huid with heq | hold
      . rw [← Std.compare_eq_iff_eq.mp heq]
        exact hallowed
      . exact hs.users uid hold
    . intro uid
      rw [hinsert]
      split
      . exact (hs.user uid).pairwise_check (by decide) hle (hs.sorted uid)
      . exact hs.sorted uid
    . intro uid
      rw [hinsert, passedBy_serve, hcaller, hs.checkRate_eq]
      by_cases hsame : caller = uid
      . simpa [hsame] using (hs.user uid).next hle
      . simpa [hsame] using (hs.user uid).mono hle

theorem Sound.run (hs : h.Sound now) (clients : List IpcClient)
    (horder : (now :: clients.map (·.now)).IsChain (· ≤ ·))
    : Run.Along IpcHistory.serve Guarded h clients ∧ Run.Always IpcHistory.serve Bounded h clients := by
  induction clients generalizing h now with
  | nil => exact ⟨trivial, hs.bounded⟩
  | cons client clients ih =>
    rw [List.map_cons, List.isChain_cons_cons] at horder
    have hrest := ih (hs.serve horder.1) horder.2
    exact ⟨⟨hs.guarded horder.1, hrest.1⟩, hs.bounded, hrest.2⟩

/--
A command is obeyed only if root or the user of the agent gives it together with the token, no second sees more than ten
attempts of a user, and a user is turned away exactly if the ten attempts are their own.
-/
theorem guarded_run (uid : Nat) (token : Bytes) (clients : List IpcClient)
    (horder : (clients.map (·.now)).IsChain (· ≤ ·))
    : Run.Along IpcHistory.serve Guarded { listener := { uid, token } } clients
        ∧
      Run.Always IpcHistory.serve Bounded { listener := { uid, token } } clients := by
  have hsound : ∀ now, Sound { listener := { uid, token } } now := by
    intro now
    constructor
    . simp
    . simp
    . intro uid
      apply SlidingWindow.sound_nil
  cases clients with
  | nil => exact ⟨trivial, (hsound 0).bounded⟩
  | cons client clients =>
    apply (hsound client.now).run
    rw [List.map_cons, List.isChain_cons_cons]
    exact ⟨le_rfl, horder⟩

def twoClients : List IpcClient :=
  [⟨some 1000, 0, 0, id, bytes "AUTH secret\nCMD:RESET", []⟩, ⟨some 0, 5, 5, id, bytes "guess\n", bytes "CMD:RESET"⟩]

theorem guarded_twoClients
    : Run.Along IpcHistory.serve Guarded { listener := { uid := 1000, token := bytes "secret" } } twoClients
        ∧
      Run.Always IpcHistory.serve Bounded { listener := { uid := 1000, token := bytes "secret" } } twoClients := by
  apply guarded_run
  decide

end IpcHistory
end NeuroMesh
