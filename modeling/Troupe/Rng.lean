/-!
The pseudo-random generator of a session.

* `Rng.step` is the 64-bit shift-and-xor step; it maps only zero to zero, so a generator is never
  started at zero (`Rng.ofSeed`).
* `Rng.below` draws a number below a bound and leaves the generator alone when the range is empty.
-/

namespace Troupe

/-- A generator; two generators with one state draw the same numbers. -/
structure Rng where
  state : UInt64
deriving DecidableEq, Repr

namespace Rng

/-- The generator of a seed. The step is stuck at zero, so the seed `0` stands for `1`. -/
def ofSeed (seed : UInt64) : Rng :=
  ⟨if seed = 0 then 1 else seed⟩

/-- The seed used where none is given. -/
def defaultSeed : UInt64 := 12345

/-- One step of the state: three xors with a shifted copy. -/
def step (x : UInt64) : UInt64 :=
  let x := x ^^^ (x <<< 13)
  let x := x ^^^ (x >>> 7)
  x ^^^ (x <<< 17)

/-- The next number, which is the next state. -/
def next (r : Rng) : UInt64 × Rng :=
  let x := step r.state
  (x, ⟨x⟩)

/-- A number below `bound`; no number, and no step, when there is none. -/
def below (r : Rng) (bound : UInt64) : Option UInt64 × Rng :=
  if bound = 0 then (none, r)
  else
    let (x, r) := r.next
    (some (x % bound), r)

end Rng

end Troupe
