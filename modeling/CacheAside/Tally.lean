import CacheAside.Registry

/-! # Reads counted by bucket

A tally has a counter for every bucket of its registry from the start and one more for every other
bucket as it is first counted. Clearing sets all counters to zero and forgets no bucket. -/

namespace CacheAside
set_option autoImplicit false

structure Counter where
  hits : Nat
  misses : Nat
deriving DecidableEq, Repr

namespace Counter

def zero : Counter := ⟨0, 0⟩

def total (c : Counter) : Nat := c.hits + c.misses

/-- Hits per hundred reads; zero before the first read. -/
def rate (c : Counter) : Float :=
  if c.total = 0 then 0.0 else Float.ofNat c.hits / Float.ofNat c.total * 100.0

def addHit (c : Counter) : Counter := { c with hits := c.hits + 1 }

def addMiss (c : Counter) : Counter := { c with misses := c.misses + 1 }

def json (c : Counter) : Json :=
  .obj [("hits", .nat c.hits), ("misses", .nat c.misses), ("hit_rate", .float c.rate),
    ("total_requests", .nat c.total)]

end Counter

/-- Counters under the names of their buckets. -/
abbrev Tally := Table Counter

namespace Tally

/-- Buckets with counters at zero. -/
def zeros (buckets : List String) : Tally := Table.ofRows (buckets.map (·, Counter.zero))

/-- The tally before the first read. -/
def start (r : Registry) : Tally := zeros r.buckets

/-- The counter of a bucket; zero where there is none yet. -/
def counter (t : Tally) (bucket : String) : Counter := (t.find? bucket).getD Counter.zero

def hit (t : Tally) (bucket : String) : Tally := t.put bucket (t.counter bucket).addHit

def miss (t : Tally) (bucket : String) : Tally := t.put bucket (t.counter bucket).addMiss

/-- All counters at zero: first the buckets of the registry, then the others. -/
def clear (r : Registry) (t : Tally) : Tally := zeros (r.buckets ++ t.keys)

def json (t : Tally) : Json := .obj (t.rows.map fun (bucket, c) => (bucket, c.json))

end Tally
end CacheAside
