namespace LoxLex

-- A write that goes beyond the limit fails, but the part that fits is kept.
structure Sink where
  limit?  : Option Nat
  bytes   : ByteArray
  -- How often the sink was flushed, which always succeeds.
  flushes : Nat
  size_le : ∀ limit ∈ limit?, bytes.size ≤ limit

namespace Sink

def empty (limit? : Option Nat) : Sink where
  limit?  := limit?
  bytes   := .empty
  flushes := 0
  size_le := by simp

instance : Inhabited Sink where
  default := empty none

def clip : Option Nat → ByteArray → ByteArray
  | none,       bytes => bytes
  | some limit, bytes => bytes.extract 0 limit

variable (sink : Sink)

-- What is left of a sink after a write, whether or not all of the text fits.
def write (text : String) : Sink where
  limit?  := sink.limit?
  bytes   := clip sink.limit? (sink.bytes ++ text.toByteArray)
  flushes := sink.flushes
  size_le := by
    intro limit h
    rw [Option.mem_def.mp h]
    simp only [clip, ByteArray.size_extract]
    omega

def fits (text : String) : Bool :=
  sink.limit?.all fun limit => sink.bytes.size + text.utf8ByteSize ≤ limit

-- A text that is written in parts, up to the first part that does not fit.
def writeParts : Sink → List String → Sink
  | sink, []            => sink
  | sink, text :: texts =>
    if sink.fits text then (sink.write text).writeParts texts else sink.write text

def flush : Sink where
  limit?  := sink.limit?
  bytes   := sink.bytes
  flushes := sink.flushes + 1
  size_le := sink.size_le

end Sink
end LoxLex
