namespace LoxLex

inductive Extent
  | whole
  -- The last character is taken as the terminator of the source, and is not scanned.
  | allButLast
  deriving DecidableEq

def Extent.part : Extent → String → String
  | whole,      source => source
  | allButLast, source => .ofList source.toList.dropLast

end LoxLex
