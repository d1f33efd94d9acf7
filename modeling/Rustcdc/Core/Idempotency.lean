import Rustcdc.Core.Event

/-! The bounded, optionally expiring guard that suppresses events already seen. -/
namespace Rustcdc
/-- What the transient fingerprint hashes, in order. -/
structure FingerprintImage where
  sourceName : String
  offset : String
  table : String
  op : Operation
  primaryKey : Option (List String)
  transaction : Option (UInt64 × UInt32 × UInt32)
  before : Option Json
  after : Option Json

def fingerprintImage (e : Event) : FingerprintImage where
  sourceName := e.source.sourceName
  offset := e.source.offset
  table := e.table
  op := e.op
  primaryKey := e.primaryKey
  transaction := e.transaction.map fun tx => (tx.txId,tx.eventIndex,tx.totalEvents.getD 0)
  before := e.before
  after := e.after

/-- `fingerprint_event_transient` over an arbitrary 64-bit hash. -/
def fingerprintEventTransient (hash : FingerprintImage → UInt64) (e : Event) : Except Error UInt64 :=
  if blank e.source.sourceName then
    .error (.validationError ["cannot fingerprint event with empty source.source_name"])
  else if blank e.source.offset then
    .error (.validationError ["cannot fingerprint event with empty source.offset"])
  else .ok (hash (fingerprintImage e))

def eventIsIdentifiable (e : Event) : Bool :=
  e.transaction.isSome || e.op = .truncate || e.op = .schemaChange || e.hasResolvableKey

/-- Fingerprints with the time each was seen: `seen` as the map, `order` as the queue. -/
structure EventIdempotencyGuard where
  capacity : ℕ
  ttlMs : Option UInt64
  seen : List (UInt64 × UInt64)
  order : List (UInt64 × UInt64)

namespace EventIdempotencyGuard
def contains (g : EventIdempotencyGuard) (fingerprint : UInt64) : Bool := g.seen.any (·.1 = fingerprint)
def remove (fingerprint : UInt64) (seen : List (UInt64 × UInt64)) : List (UInt64 × UInt64) :=
  seen.filter (·.1 ≠ fingerprint)

/-- Drop expired entries from the front of the queue. -/
def pruneFront (ttl now : UInt64) : List (UInt64 × UInt64) → List (UInt64 × UInt64) →
    List (UInt64 × UInt64) × List (UInt64 × UInt64)
  | [], seen => ([],seen)
  | (fingerprint,seenAt)::order, seen =>
    if now.toNat-seenAt.toNat < ttl.toNat then ((fingerprint,seenAt)::order,seen)
    else pruneFront ttl now order (remove fingerprint seen)

def pruneExpired (g : EventIdempotencyGuard) (now : UInt64) : EventIdempotencyGuard :=
  match g.ttlMs with
  | none => g
  | some ttl =>
    let pruned := pruneFront ttl now g.order g.seen
    {g with order := pruned.1, seen := pruned.2}

/-- Evict from the front of the queue while the map is over capacity. -/
def evict (capacity : ℕ) : List (UInt64 × UInt64) → List (UInt64 × UInt64) →
    List (UInt64 × UInt64) × List (UInt64 × UInt64)
  | [], seen => ([],seen)
  | (fingerprint,seenAt)::order, seen =>
    if seen.length ≤ capacity then ((fingerprint,seenAt)::order,seen)
    else evict capacity order (remove fingerprint seen)

def insert (g : EventIdempotencyGuard) (fingerprint now : UInt64) : EventIdempotencyGuard :=
  let evicted := evict g.capacity (g.order++[(fingerprint,now)]) ((fingerprint,now)::remove fingerprint g.seen)
  {g with order := evicted.1, seen := evicted.2}

def shouldProcess (hash : FingerprintImage → UInt64) (now : UInt64) (g : EventIdempotencyGuard)
    (e : Event) : EventIdempotencyGuard × Except Error Bool :=
  let g := g.pruneExpired now
  if !eventIsIdentifiable e then (g,.ok true)
  else
    match fingerprintEventTransient hash e with
    | .error error => (g,.error error)
    | .ok fingerprint =>
      if g.contains fingerprint then (g,.ok false)
      else (g.insert fingerprint now,.ok true)

/-- The loop of `filter_idempotent_events`: an error stops it with the events before it
already recorded. -/
def filterEvents (hash : FingerprintImage → UInt64) (now : UInt64) :
    EventIdempotencyGuard → List Event → EventIdempotencyGuard × Except Error (List Event)
  | g, [] => (g,.ok [])
  | g, e::es =>
    match g.shouldProcess hash now e with
    | (g,.error error) => (g,.error error)
    | (g,.ok admitted) =>
      match filterEvents hash now g es with
      | (g,.error error) => (g,.error error)
      | (g,.ok rest) => (g,.ok (if admitted then e::rest else rest))
end EventIdempotencyGuard
end Rustcdc
