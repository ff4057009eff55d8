import FixClient.Session.Error
import FixClient.Text.Characters

/-!
# Session settings

Where a session connects and how it reads. Times are in milliseconds.
-/

namespace FixClient

structure Settings where
  endpoint : String
  /-- The most bytes a read returns. -/
  readChunkSize : Nat
  connectTimeout : Nat
  /-- The deadline of a read. Without one, a read waits. -/
  readTimeout : Option Nat
  /-- Whether the answer to a Logon must be a Logon. -/
  verifyLogon : Bool
  deriving DecidableEq, Repr

namespace Settings

/-- The settings for an endpoint, everything else being standard. -/
def standard (endpoint : String) : Settings where
  endpoint := endpoint
  readChunkSize := 4096
  connectTimeout := 10000
  readTimeout := none
  verifyLogon := false

/-- Why no session can run with these settings, if there is a reason. The endpoint
is looked at first. -/
def fault? (s : Settings) : Option ConfigurationFault :=
  if Text.trim s.endpoint = "" then some .endpointBlank
  else if s.readChunkSize = 0 then some .chunkSizeZero
  else none

theorem readChunkSize_pos {s : Settings} (h : s.fault? = none) : 0 < s.readChunkSize := by
  unfold fault? at h
  split at h
  · cases h
  · split at h
    · cases h
    · exact Nat.pos_of_ne_zero ‹_›

structure Draft where
  endpoint : Option String := none
  readChunkSize : Option Nat := none
  connectTimeout : Option Nat := none
  readTimeout : Option Nat := none
  verifyLogon : Bool := false
  deriving DecidableEq, Repr

/-- Completes and checks settings given in part. The endpoint must be among them. -/
def Draft.build (d : Draft) : Except ConfigurationFault Settings :=
  match d.endpoint with
  | none => .error .endpointMissing
  | some endpoint =>
    let base := standard endpoint
    let s : Settings :=
      { base with
        readChunkSize := d.readChunkSize.getD base.readChunkSize
        connectTimeout := d.connectTimeout.getD base.connectTimeout
        readTimeout := d.readTimeout
        verifyLogon := d.verifyLogon }
    match s.fault? with
    | some fault => .error fault
    | none => .ok s

end Settings

end FixClient
