import RtpPacket.Rtp.Header

/-!
# The depacketizer base

What every codec depacketizer is built on: its callbacks, the check at its entry,
and the events it hands out. Callbacks do not call back into the depacketizer.
-/

namespace RtpPacket.Rtp

open ByteCodec

set_option autoImplicit false

structure DepacketizerOptions where
  output : Bool
  error : Bool

/-- Which callbacks are still in place; closing a depacketizer drops both. -/
structure Callbacks where
  output : Bool
  error : Bool
  deriving DecidableEq, Repr

def initDepacketizer (name : String) (opts : DepacketizerOptions) : Except String Callbacks :=
  if opts.output then .ok { output := true, error := opts.error }
  else .error s!"{name}: opts.output callback is required"

inductive FrameType where
  | key
  | delta
  deriving DecidableEq, Repr

structure OutputChunk where
  data : Bytes
  timestamp : Nat
  type : FrameType
  deriving DecidableEq, Repr

/-- What a depacketizer hands to its callbacks. -/
inductive DepacketizerEvent (Output : Type := OutputChunk) where
  | output (chunk : Output)
  | error (message : String)
  deriving DecidableEq, Repr

namespace Callbacks

def emitError {Output : Type} (self : Callbacks) (message : String) :
    List (DepacketizerEvent Output) :=
  if self.error then [.error message] else []

theorem emit_error_no_output {Output : Type} (self : Callbacks) (message : String)
    (chunk : Output) : .output chunk ∉ self.emitError message := by
  rw [emitError]
  split_ifs
  · intro member
    cases List.mem_singleton.mp member
  · exact List.not_mem_nil

/-- A payload below the minimum is probe traffic and ignored, as is all input after closing. -/
def checkDepacketizePayload (self : Callbacks) (packet : ParsedPacket) (minLen : Nat) : Bool :=
  self.output && minLen ≤ packet.payload.length

end Callbacks

end RtpPacket.Rtp
