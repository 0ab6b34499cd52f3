import Ais.Limits

/-!
# Bytes — spans

A span says where some bytes lie in a buffer kept elsewhere, by start and length.  It owns nothing,
so it may name bytes that a buffer does not have; taking them then fails.
-/

namespace Ais

/-- `length` bytes from `start` on. -/
structure Span where
  start  : Nat
  length : Nat
deriving DecidableEq

namespace Span

def empty : Span := ⟨0, 0⟩

def isEmpty (s : Span) : Bool := s.length == 0

/-- One past the last byte, or the largest word if that is no word. -/
def stop (s : Span) : Nat := min (s.start + s.length) Limits.word

/-- The bytes of `buffer` the span names, if it has them all. -/
def of? (s : Span) (buffer : List UInt8) : Option (List UInt8) :=
  if s.start + s.length ≤ buffer.length then some ((buffer.drop s.start).take s.length) else none

end Span

end Ais
