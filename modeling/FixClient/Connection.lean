import FixClient.Bytes

/-!
# Connections

A connection is given by what will arrive on it and by how its writes go, so
that a conversation over it is a function. Arrivals come in order; a read gives a
part of the first one and never joins two. Each frame delivered may bring on
further arrivals, which is how a counterparty answers.

What was written and what each read gave stay on record.
-/

namespace FixClient

inductive Arrival where
  | data (bytes : Bytes)
  /-- The counterparty has closed: nothing further arrives. -/
  | endOfStream
  | failure (reason : String)
  deriving DecidableEq, Repr

inductive Reading where
  | chunk (bytes : Bytes)
  | endOfStream
  | failure (reason : String)
  /-- Nothing has arrived. -/
  | silence
  deriving DecidableEq, Repr

/-- After so many more bytes, every write fails for the same reason. -/
structure WriteFault where
  accepted : Nat
  reason : String
  deriving DecidableEq, Repr

/-- One end of a stream of bytes in both directions. -/
structure Connection where
  arriving : List Arrival := []
  /-- What the next frames delivered bring on, one list for each frame. -/
  reactions : List (List Arrival) := []
  writeFault : Option WriteFault := none
  /-- Why every flush fails, if it does. -/
  flushFault : Option String := none
  written : Bytes := []
  /-- What the reads so far gave, the latest first. -/
  readings : List Reading := []
  deriving DecidableEq, Repr

def Arrival.bytes : Arrival → Bytes
  | data bytes => bytes
  | endOfStream => []
  | failure _ => []

def Reading.bytes : Reading → Bytes
  | chunk bytes => bytes
  | endOfStream => []
  | failure _ => []
  | silence => []

namespace Connection

/-- What a read of at most `limit` bytes gives, and what is left to arrive. The
end of the stream stays; a read without bytes is the end as well. -/
def next (limit : Nat) : List Arrival → Reading × List Arrival
  | [] => (.silence, [])
  | .endOfStream :: rest => (.endOfStream, .endOfStream :: rest)
  | .failure reason :: rest => (.failure reason, rest)
  | .data bytes :: rest =>
    match bytes.take limit with
    | [] => (.endOfStream, rest)
    | b :: chunk =>
      (.chunk (b :: chunk),
        if bytes.length ≤ limit then rest else .data (bytes.drop limit) :: rest)

/-- Reads at most `limit` bytes. -/
def read (limit : Nat) (c : Connection) : Reading × Connection :=
  let (reading, arriving) := next limit c.arriving
  (reading, { c with arriving := arriving, readings := reading :: c.readings })

def bytesRead (c : Connection) : Bytes := c.readings.reverse.flatMap Reading.bytes

/-- The bytes that have arrived and are still to be read. -/
def backlog (c : Connection) : Nat := (c.arriving.flatMap Arrival.bytes).length

/-- Writes all bytes, or as many as are accepted. -/
def write (bytes : Bytes) (c : Connection) : Except String Unit × Connection :=
  match c.writeFault with
  | none => (.ok (), { c with written := c.written ++ bytes })
  | some fault =>
    let accepted := bytes.take fault.accepted
    let after : Connection :=
      { c with
        written := c.written ++ accepted
        writeFault := some { fault with accepted := fault.accepted - accepted.length } }
    if bytes.length ≤ fault.accepted then (.ok (), after) else (.error fault.reason, after)

def react (c : Connection) : Connection :=
  match c.reactions with
  | [] => c
  | reaction :: later => { c with arriving := c.arriving ++ reaction, reactions := later }

def deliver (frame : Bytes) (c : Connection) : Except String Unit × Connection :=
  match c.write frame with
  | (.error reason, after) => (.error reason, after)
  | (.ok (), after) =>
    match after.flushFault with
    | some reason => (.error reason, after)
    | none => (.ok (), after.react)

def arrive (a : Arrival) (c : Connection) : Connection :=
  { c with arriving := c.arriving ++ [a] }

def breakWrites (accepted : Nat) (reason : String) (c : Connection) : Connection :=
  { c with writeFault := some ⟨accepted, reason⟩ }

/-- From now on no byte is accepted. A fault that was there before stays. -/
def stallWrites (c : Connection) : Connection :=
  match c.writeFault with
  | some _ => c
  | none => c.breakWrites 0 "write zero"

def breakFlush (reason : String) (c : Connection) : Connection :=
  { c with flushFault := some reason }

def mend (c : Connection) : Connection := { c with writeFault := none, flushFault := none }

theorem backlog_lt_of_next {limit : Nat} {arriving left : List Arrival} {chunk : Bytes}
    (h : next limit arriving = (.chunk chunk, left)) :
    (left.flatMap Arrival.bytes).length < (arriving.flatMap Arrival.bytes).length := by
  rcases arriving with _ | ⟨a, rest⟩
  · simp [next] at h
  cases a with
  | endOfStream => simp [next] at h
  | failure reason => simp [next] at h
  | data bytes =>
    cases ht : bytes.take limit with
    | nil => simp [next, ht] at h
    | cons b taken =>
      have hlen := congrArg List.length ht
      simp only [List.length_take, List.length_cons] at hlen
      simp only [next, ht, Prod.mk.injEq, Reading.chunk.injEq] at h
      obtain ⟨-, rfl⟩ := h
      split <;> simp [Arrival.bytes] <;> omega

theorem backlog_lt_of_read {limit : Nat} {c after : Connection} {chunk : Bytes}
    (h : c.read limit = (.chunk chunk, after)) : after.backlog < c.backlog := by
  obtain ⟨hr, rfl⟩ := Prod.mk.inj h
  exact backlog_lt_of_next (Prod.ext hr rfl)

end Connection

end FixClient
