import Credentials.Bytes.Utf8

/-!
# Random octets

Octets come from one stream, which is a value: whoever draws gets the octets and what is left of the
stream.

* `RandomSource`        a congruential generator, or any sequence of octets;
* `RandomStream.next`   the next octet;
* `RandomStream.draw`   the next octets.
-/

namespace Credentials

/-- where octets come from -/
inductive RandomSource where
  /-- a congruential generator on 64 bits -/
  | generator (state : UInt64)
  /-- octets of any kind, by their position -/
  | sequence (octets : Nat → UInt8)

instance : Coe UInt64 RandomSource := ⟨.generator⟩

/-- what is still to come of a stream of octets -/
structure RandomStream where
  source : RandomSource

namespace RandomStream

/-- the next octet and the stream behind it; a generator gives the highest octet of its new state -/
def next (r : RandomStream) : UInt8 × RandomStream :=
  match r.source with
  | .generator state =>
    let state := state * 6364136223846793005 + 1442695040888963407
    ((state >>> 56).toUInt8, ⟨.generator state⟩)
  | .sequence octets => (octets 0, ⟨.sequence fun i => octets (i + 1)⟩)

/-- the next `n` octets and the stream behind them -/
def draw : (n : Nat) → RandomStream → Bytes × RandomStream
  | 0, r => ([], r)
  | n + 1, r =>
    let (b, r) := r.next
    let (bs, s) := draw n r
    (b :: bs, s)

theorem length_draw (n : Nat) (r : RandomStream) : (draw n r).1.length = n := by
  induction n generalizing r with
  | zero => rfl
  | succ n ih => simp [draw, ih]

end RandomStream

end Credentials
