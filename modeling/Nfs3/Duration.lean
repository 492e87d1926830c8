/-! Spans of time: whole nanoseconds up to a limit that arithmetic does not pass. -/
namespace Nfs3

/-- One nanosecond short of `2 ^ 64` seconds. -/
def Duration.limit : Nat := UInt64.size * 1000000000 - 1

structure Duration where
  nanoseconds : Nat
  le_limit : nanoseconds ≤ Duration.limit := by decide
  deriving DecidableEq

namespace Duration

def saturating (n : Nat) : Duration := ⟨min n limit, Nat.min_le_right _ _⟩

def ofParts (seconds : UInt64) (nanoseconds : Nat) : Duration :=
  saturating (seconds.toNat * 1000000000 + nanoseconds)

def ofSeconds (n : Nat) : Duration := saturating (n * 1000000000)

instance : Inhabited Duration := ⟨ofSeconds 0⟩

def scale (d : Duration) (n : Nat) : Duration := saturating (d.nanoseconds * n)

def wholeSeconds (d : Duration) : Nat := d.nanoseconds / 1000000000

def subsecond (d : Duration) : Nat := d.nanoseconds % 1000000000

def milliseconds (d : Duration) : Nat := d.nanoseconds / 1000000

end Duration

/-- How often a call is sent, and how long the first pause between two sends is. -/
structure RetryPolicy where
  maxAttempts : UInt32
  baseBackoff : Duration
  deriving DecidableEq

namespace RetryPolicy

instance : Inhabited RetryPolicy := ⟨⟨3, .ofSeconds 1⟩⟩

/-- Pauses grow with the number of failed attempts. -/
def backoff (p : RetryPolicy) (attempt : Nat) : Duration := p.baseBackoff.scale attempt

/-- A policy of no attempts still makes one. -/
def attempts (p : RetryPolicy) : Nat := max p.maxAttempts.toNat 1

end RetryPolicy

end Nfs3
