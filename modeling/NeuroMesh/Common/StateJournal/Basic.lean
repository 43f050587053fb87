import NeuroMesh.Common.Bytes
import NeuroMesh.Data.Delimited

/-!
This module contains `StateJournal`, the file in which a node notes what it has done. A process that
writes it is modelled one system call at a time, so that it can end between any two of them. The digest
`IdentityCore::sha256_hex` is a parameter.
-/

namespace NeuroMesh

def textBehind (pattern s : Bytes) : Option Bytes :=
  if pattern.isPrefixOf s then
    some (s.drop pattern.length)
  else
    match s with
    | [] => none
    | _ :: cs => textBehind pattern cs

structure JournalEntry where
  seq : UInt64
  line : Bytes

/--
The next system call of the thread that holds `m_write_mtx`. The calls that release the lock of the file
or close the backup and `fsync` leave both files as they are and are passed over.
-/
inductive JournalPoint where
  | openFile
  | lock
  | stat
  | openBackup
  | seek
  | read (pos : Nat)
  | copy (pos : Nat) (chunk : Bytes)
  | truncate
  | write
deriving DecidableEq

structure StateJournal where
  seq : UInt64
  fd : Bool
  waiting : List JournalEntry := []
  writing : Option (JournalEntry × JournalPoint) := none

namespace StateJournal

def escapeChar (c : UInt8) : Bytes :=
  if c = 0x22 ∨ c = 0x5c then
    [0x5c, c]
  else if c = newline then
    bytes "\\n"
  else if c = 0x09 then
    bytes "\\t"
  else if c < 0x20 then
    unicodeEscape c
  else
    [c]

def escape (evidenceJson : Bytes) : Bytes :=
  evidenceJson.flatMap escapeChar

def entryLine (sha256Hex : Bytes → Bytes) (seq : UInt64) (nowMs : Int) (stage targetId evidenceJson : Bytes)
    : Bytes :=
  let hash := sha256Hex evidenceJson
  let hash := if hash = [] then List.replicate 64 0x30 else hash
  bytes "\x7b\"seq\":" ++ toDecimal seq.toNat
    ++ bytes ",\"ts\":" ++ toDecimalInt nowMs
    ++ bytes ",\"stage\":\"" ++ stage ++ bytes "\""
    ++ bytes ",\"target\":\"" ++ targetId ++ bytes "\""
    ++ bytes ",\"evidence\":\"" ++ escape evidenceJson ++ bytes "\""
    ++ bytes ",\"hash\":\"" ++ hash ++ bytes "\"\x7d\n"

def extractSeq (line : Bytes) : UInt64 :=
  match textBehind (bytes "\"seq\":") line with
  | none => 0
  | some rest => go rest 0
where
  go (s : Bytes) (val : UInt64) : UInt64 :=
    match s with
    | [] => val
    | c :: cs =>
      if isDigit c then
        let digit := (c - 0x30).toUInt64
        if val > (UInt64.ofNat (2 ^ 64 - 1) - digit) / 10 then 0 else go cs (val * 10 + digit)
      else
        val

def recoverSeq (content : Bytes) : UInt64 :=
  (Delimited.split newline content).foldl recoverLine 0
where
  recoverLine (seq : UInt64) (line : Bytes) : UInt64 :=
    if line = [] then
      seq
    else if extractSeq line > seq then
      extractSeq line
    else
      seq

def maxSize : Nat := 10 * 1024 * 1024

/--
The journal and its backup, with the process that writes them if there is one. A file that does not exist
is treated like an empty one.
-/
structure Disk where
  live : Bytes := []
  backup : Bytes := []
  journal : Option StateJournal := none
  written : List UInt64 := []
  bare : Bool := false

inductive Action where
  | start (readable : Bool) (fd : Int)
  | stop
  | append (stage targetId evidenceJson : Bytes) (nowMs : Int)
  | enter (i : Nat)
  | call (result : Int)

namespace Disk

variable (st : Disk)

def run (journal : StateJournal) (entry : JournalEntry) (point : JournalPoint) : Disk :=
  { st with journal := some { journal with writing := some (entry, point) } }

def call (journal : StateJournal) (entry : JournalEntry) (point : JournalPoint) (result : Int) : Disk :=
  match point with
  | .openFile =>
    if result < 0 then
      { st with journal := some { journal with writing := none } }
    else
      st.run { journal with fd := true } entry .lock
  | .lock => st.run journal entry (if result = 0 then .stat else .write)
  | .stat => st.run journal entry (if result = 0 ∧ maxSize < st.live.length then .openBackup else .write)
  | .openBackup =>
    if result < 0 then
      st.run journal entry .write
    else
      -- `O_TRUNC`
      { st.run journal entry .seek with backup := [] }
  | .seek => st.run journal entry (if result < 0 then .write else .read 0)
  | .read pos =>
    let chunk := (st.live.drop pos).take (min result.toNat 65536)
    -- an error ends the loop like the end of the file does
    st.run journal entry (if chunk = [] then .truncate else .copy pos chunk)
  | .copy pos chunk =>
    {
      st.run journal entry (if result = chunk.length then .read (pos + chunk.length) else .write) with
      backup := st.backup ++ chunk.take result.toNat
    }
  | .truncate =>
    if result = 0 then
      { st.run journal entry .write with live := [], bare := true }
    else
      st.run journal entry .write
  | .write =>
    if entry.line.length ≤ result.toNat then
      {
        st with
        live := st.live ++ entry.line
        journal := some { journal with writing := none }
        written := entry.seq :: st.written
        bare := false
      }
    else
      {
        st with
        live := st.live ++ entry.line.take result.toNat
        journal := some { journal with writing := none }
      }

def step (sha256Hex : Bytes → Bytes) (action : Action) : Disk :=
  match action, st.journal with
  | .start readable fd, none =>
    let seq := if readable then recoverSeq st.live else 0
    { st with journal := some { seq, fd := 0 ≤ fd } }
  | .stop, some _ => { st with journal := none }
  | .append stage targetId evidenceJson nowMs, some journal =>
    let seq := journal.seq + 1
    let entry := ⟨seq, entryLine sha256Hex seq nowMs stage targetId evidenceJson⟩
    { st with journal := some { journal with seq, waiting := journal.waiting ++ [entry] } }
  | .enter i, some journal =>
    match journal.writing, journal.waiting[i]? with
    | none, some entry =>
      let journal := { journal with waiting := journal.waiting.eraseIdx i }
      st.run journal entry (if journal.fd then .lock else .openFile)
    | _, _ => st
  | .call result, some journal =>
    match journal.writing with
    | none => st
    | some (entry, point) => st.call journal entry point result
  | _, _ => st

end Disk
end StateJournal
end NeuroMesh
