import Ais.Fault
import Ais.Limits
import Ais.Talker

/-!
# Settings

How a receiver is set up.  Queues hold a power of two of batches; a limit on the batches of one kind
must let a queue fill up while each side of it holds one more.
-/

namespace Ais

/-- A length of time: seconds, and nanoseconds below 10⁹. -/
structure Timespan where
  seconds     : Nat
  nanoseconds : Nat
deriving DecidableEq

namespace Timespan

/-- The nanoseconds of a second. -/
def perSecond : Nat := 1_000_000_000

/-- Nanoseconds past a second are carried; `none` where the seconds are then no word. -/
def of? (seconds nanoseconds : Nat) : Option Timespan :=
  let carried := seconds + nanoseconds / perSecond
  if carried ≤ Limits.word then some ⟨carried, nanoseconds % perSecond⟩ else none

def ofMilliseconds (n : Nat) : Timespan := ⟨n / 1000, n % 1000 * 1_000_000⟩

end Timespan

/-- Whether `n` is a power of two: not zero, and one bit alone is set. -/
def isPowerOfTwo (n : Nat) : Bool := n != 0 && n &&& (n - 1) == 0

structure Settings where
  /-- Batches that a queue holds. -/
  queueCapacity  : Nat
  /-- How long to wait for a batch of payloads. -/
  popTimeout     : Timespan
  talkers        : Talkers
  /-- The most batches of one kind, if there is a limit. -/
  poolLimit      : Option Nat
  /-- Batches a worker handles before it looks up. -/
  batchesPerCall : Nat
deriving DecidableEq

namespace Settings

def default : Settings where
  queueCapacity  := 64
  popTimeout     := ⟨5, 0⟩
  talkers        := .any
  poolLimit      := none
  batchesPerCall := 128

/-- Batches needed to fill a queue while each side holds one. -/
def neededBatches (s : Settings) : Nat := s.queueCapacity + 2

def validate (s : Settings) : Except Fault Unit :=
  if !isPowerOfTwo s.queueCapacity then .error (.settings (.capacity s.queueCapacity))
  else if s.batchesPerCall = 0 then .error (.settings .noBatches)
  else match s.poolLimit with
    | none       => .ok ()
    | some limit =>
      if limit < s.neededBatches then .error (.settings (.poolLimit limit s.neededBatches))
      else .ok ()

end Settings

end Ais
