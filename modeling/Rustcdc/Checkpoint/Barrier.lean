import Rustcdc.Core.Basic

/-! The commit barrier: a queue of pending records, each accepted or not, of which only the
contiguous accepted prefix is ever made durable. -/
namespace Rustcdc
variable {O : Type}

/-- A checkpoint store as the barrier sees it: the records it has made durable, oldest first. -/
structure Checkpoint (O : Type) where
  saved : List (O × UInt64)

/-- `save` against a store whose answer to this write is given. -/
def Checkpoint.save (answer : Except Error Unit) (offset : O) (count : UInt64)
    (checkpoint : Checkpoint O) : Checkpoint O × Except Error Unit :=
  match answer with
  | .ok () => (⟨checkpoint.saved++[(offset,count)]⟩,.ok ())
  | .error e => (checkpoint,.error e)

/-- The record a restart loads. -/
def Checkpoint.load (checkpoint : Checkpoint O) : Option (O × UInt64) := checkpoint.saved.getLast?

inductive BarrierState
  | opened | flushing | committed
  deriving DecidableEq

structure PendingRecord (O : Type) where
  offset : Option O
  accepted : Bool
  deriving DecidableEq

structure CommitBarrier (O : Type) where
  pendingRecords : List (PendingRecord O)
  barrierState : BarrierState
  maxBufferSize : ℕ
  committedEventCount : UInt64

namespace CommitBarrier
def new (maxBufferSize : ℕ) : CommitBarrier O := ⟨[],.opened,maxBufferSize,0⟩

variable (b : CommitBarrier O)

def pendingCount : ℕ := b.pendingRecords.length
def hydrateCommittedEventCount (count : UInt64) : CommitBarrier O × Except Error Unit :=
  if b.pendingRecords.isEmpty then ({b with committedEventCount := count},.ok ())
  else (b,.error (.checkpointError "cannot hydrate committed count while pending records exist"))

def pushRecord (offset : Option O) : CommitBarrier O × Except Error Unit :=
  if b.barrierState = .flushing then
    (b,.error (.checkpointError "cannot add events while barrier is flushing"))
  else if b.maxBufferSize ≤ b.pendingRecords.length then
    (b,.error (.checkpointError "commit barrier buffer is full"))
  else
    ({b with
      barrierState := .opened
      pendingRecords := b.pendingRecords++[⟨offset,false⟩]},.ok ())

def addEvent (offset : O) : CommitBarrier O × Except Error Unit := b.pushRecord (some offset)
def addNonPersistentEvent : CommitBarrier O × Except Error Unit := b.pushRecord none

/-- The marking loop of `notify_consumer_accepted`.  The mark is written before the counter
is decremented, so a checked build that starts at zero panics with one mark set and a
release build goes on to the end of the queue. -/
def markAccepted (p : Profile) : UInt64 → List (PendingRecord O) → List (PendingRecord O) × Ending Unit
  | _, [] => ([],.ok ())
  | remaining, record::records =>
    if record.accepted then
      let rest := markAccepted p remaining records
      (record::rest.1,rest.2)
    else
      let record := {record with accepted := true}
      match p.sub remaining 1 with
      | none => (record::records,.panicked)
      | some remaining =>
        if remaining = 0 then (record::records,.ok ())
        else
          let rest := markAccepted p remaining records
          (record::rest.1,rest.2)

def unaccepted : ℕ := b.pendingRecords.countP (!·.accepted)

def notifyConsumerAccepted (p : Profile) (b : CommitBarrier O) (eventCount : UInt64) :
    CommitBarrier O × Ending Unit :=
  if b.unaccepted < eventCount.toNat then
    (b,.err (.checkpointError "acceptance notification exceeds pending records"))
  else
    let marked := markAccepted p eventCount b.pendingRecords
    ({b with pendingRecords := marked.1},marked.2)

def commitLen : ℕ := (b.pendingRecords.takeWhile (·.accepted)).length

/-- The last offset among the records, if any carries one. -/
def lastPersistable (records : List (PendingRecord O)) : Option O := records.reverse.findSome? (·.offset)

def commit (p : Profile) (answer : Except Error Unit) (b : CommitBarrier O)
    (checkpoint : Checkpoint O) : CommitBarrier O × Checkpoint O × Ending Unit :=
  if b.pendingRecords.isEmpty then ({b with barrierState := .committed},checkpoint,.ok ())
  else if b.commitLen = 0 then
    (b,checkpoint,.err (.checkpointError "cannot commit with no accepted prefix"))
  else
    let flushing := {b with barrierState := .flushing}
    match p.add b.committedEventCount (UInt64.ofNat b.commitLen) with
    | none => (flushing,checkpoint,.panicked)
    | some newCommittedCount =>
      let write := match lastPersistable (b.pendingRecords.take b.commitLen) with
        | some offset => checkpoint.save answer offset newCommittedCount
        | none => (checkpoint,.ok ())
      match write.2 with
      | .error e => ({flushing with barrierState := b.barrierState},write.1,.err e)
      | .ok () =>
        let remaining := b.pendingRecords.drop b.commitLen
        ({flushing with
          committedEventCount := newCommittedCount
          pendingRecords := remaining
          barrierState := if remaining.isEmpty then .committed else .opened},write.1,.ok ())

/-- Clear the marks of the `count` records after the first `skip`. -/
def unmark (skip count : ℕ) (records : List (PendingRecord O)) : List (PendingRecord O) :=
  records.take skip ++ ((records.drop skip).take count).map ({· with accepted := false}) ++
    (records.drop skip).drop count

def acceptAndCommit (p : Profile) (eventCount : UInt64) (answer : Except Error Unit)
    (b : CommitBarrier O) (checkpoint : Checkpoint O) :
    CommitBarrier O × Checkpoint O × Ending Unit :=
  let previouslyAccepted := b.pendingRecords.countP (·.accepted)
  match b.notifyConsumerAccepted p eventCount with
  | (notified,.err e) => (notified,checkpoint,.err e)
  | (notified,.panicked) => (notified,checkpoint,.panicked)
  | (notified,.ok ()) =>
    match notified.commit p answer checkpoint with
    | (failed,checkpoint,.err e) =>
      ({failed with
        pendingRecords := unmark previouslyAccepted eventCount.toNat failed.pendingRecords
        barrierState := b.barrierState},checkpoint,.err e)
    | done => done

def clearPending : CommitBarrier O := {b with pendingRecords := [], barrierState := .opened}
end CommitBarrier
end Rustcdc
