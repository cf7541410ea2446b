namespace Edi

/-- The stream offsets from `start` up to but not including `stop`. -/
structure Span where
  start : Nat
  stop : Nat
  deriving DecidableEq, Repr

namespace Span

def length (s : Span) : Nat := s.stop - s.start

def isEmpty (s : Span) : Bool := s.length = 0

def shift (distance : Nat) (s : Span) : Span := ⟨s.start + distance, s.stop + distance⟩

end Span

end Edi
