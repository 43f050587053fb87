import NeuroMesh.Common.Bytes

/-!
This module contains the connections of `TransportLayer`. What the kernel and the TLS library report is an argument of
the functions.
-/

namespace NeuroMesh

structure ConnectionInfo where
  verified : Bool
  peerIp : Bytes
  peerPort : UInt16
deriving DecidableEq

/--
The outcome of `accept4` or `connect` and of the handshake behind it. The connection comes without information if the
other side has no certificate.
-/
inductive Incoming where
  | nothing
  | failed
  | connection (fd : Nat) (info : Option ConnectionInfo)
deriving DecidableEq

structure TransportConnections where
  serverFd : Int := -1
  rateTs : Time := 0
  acceptRate : Int := 0
  activeSsl : Map Int (Option ConnectionInfo) := ∅

namespace TransportConnections

variable (transport : TransportConnections)

def maxAcceptRate : Int := 50
def maxActive : Nat := 256

/--
The first half of `accept`, with the window of the rate limit and the cap. The second half is behind `accept4` and the
handshake, which take their time.
-/
def beginAccept (now : Time) : Bool × TransportConnections :=
  if transport.serverFd < 0 then
    (false, transport)
  else
    let transport :=
      if 1 ≤ seconds (now - transport.rateTs) then { transport with acceptRate := 0, rateTs := now } else transport
    if maxAcceptRate ≤ transport.acceptRate then
      (false, transport)
    else if maxActive ≤ transport.activeSsl.size then
      (false, transport)
    else
      (true, transport)

def finishAccept (incoming : Incoming) : TransportConnections :=
  match incoming with
  | .nothing => transport
  | .failed => { transport with acceptRate := transport.acceptRate + 1 }
  | .connection fd info =>
    { transport with acceptRate := transport.acceptRate + 1, activeSsl := transport.activeSsl.insert fd info }

def connect (outcome : Incoming) : TransportConnections :=
  match outcome with
  | .connection fd info => { transport with activeSsl := transport.activeSsl.insert fd info }
  | _ => transport

def close (fd : Int) : TransportConnections :=
  { transport with activeSsl := transport.activeSsl.erase fd }

def getConnectionInfo (fd : Int) : Option ConnectionInfo :=
  transport.activeSsl[fd]?.join

section Open

theorem activeSsl_beginAccept (now : Time) : (transport.beginAccept now).2.activeSsl = transport.activeSsl := by
  unfold beginAccept
  dsimp only
  repeat' split
  all_goals rfl

theorem mem_insert_activeSsl (fd x : Int) (info : Option ConnectionInfo)
    : x ∈ transport.activeSsl.insert fd info ↔ x = fd ∨ x ∈ transport.activeSsl := by
  rw [Std.ExtTreeMap.mem_insert, Std.LawfulEqCmp.compare_eq_iff_eq, eq_comm]

theorem mem_close (fd x : Int) : x ∈ (transport.close fd).activeSsl ↔ x ≠ fd ∧ x ∈ transport.activeSsl := by
  unfold close
  rw [Std.ExtTreeMap.mem_erase, ne_eq, Std.LawfulEqCmp.compare_eq_iff_eq, eq_comm]

end Open

end TransportConnections
end NeuroMesh
