import RecordStore.Store.Basic

/-!
# Calls on a settled store

After each call the background work is run until it waits, so an answer depends on the calls alone.
A call that would wait for ever gives `none`; with a time limit it gives the timeout. A call without
a limit that waits because failures are held back makes them known.
-/

namespace RecordStore.Store

/-! ## Background work -/

def settlePool (s : Store) (id : PoolId) : Store :=
  match s.pools[id]? with
  | some p => s.setPool id (p.settle s.disk)
  | none => s

/-- Runs a writer until it waits. When it finishes, it no longer owns its pool. -/
def settleSegment (s : Store) (id : SegmentId) : Store :=
  match s.segments[id]? with
  | some before =>
    let (g, disk) := before.settle s.failuresHeld s.disk
    let s := { s.setSegment id g with disk }
    if g.writer.finished && !before.writer.finished then s.dropOwner g.pool else s
  | none => s

/-- Holds failures back, or lets all writers record theirs. -/
def holdFailures (s : Store) (held : Bool) : Store :=
  (List.range s.segments.length).foldl settleSegment { s with failuresHeld := held }

/-- Lets go the failures that are held back, if a segment keeps a call waiting. Later failures are
held back again. -/
def letGoIf (s : Store) (id : SegmentId) (waits : Segment → Bool) : Store :=
  if s.failuresHeld && s.segments[id]?.any waits then
    { s.holdFailures false with failuresHeld := true }
  else s

/-! ## Pools -/

def openPool (s : Store) (path : String) (config : Config) : Except Error PoolId × Store :=
  match s.addPool path config with
  | (.error e, s) => (.error e, s)
  | (.ok id, s) => (.ok id, s.settlePool id)

/-- Leases the file on offer; waits when there is none. The scheduler chooses its next offer before
the lease starts. -/
def lock? (s : Store) (id : PoolId) : Option (Except Error SegmentId × Store) := do
  let (fileIndex, p) ← s.pools[id]?.bind Pool.take?
  let (answer, s) := s.startLease id (p.settle s.disk) fileIndex none
  return (answer, s.settlePool id)

def lockWithin (s : Store) (id : PoolId) : Except Error SegmentId × Store :=
  (s.lock? id).getD (.error .lockTimeout, s)

/-! ## Writing -/

/-- Finishes a write whose checks gave `accepted`; it waits if the queue stays full. -/
def finishWrite (s : Store) (id : SegmentId) (accepted : Except Error Segment)
    (answer : Segment → Address) : Option (Except Error Address) × Store :=
  match accepted with
  | .error e => (some (.error e), s)
  | .ok g =>
    let s := ((s.setSegment id g).settleSegment id).letGoIf id (·.pending.isSome)
    match s.segments[id]? with
    | some g => (if g.pending.isSome then none else some (.ok (answer g)), s)
    | none => (none, s)

def write (s : Store) (id : SegmentId) (data : Bytes) : Option (Except Error Address) × Store :=
  match s.segments[id]? with
  | some g => s.finishWrite id (g.accept data) fun _ => g.nextAddress
  | none => (none, s)

/-- Queues a record at the address the caller expects, and gives the address of the next one. -/
def writeAt (s : Store) (id : SegmentId) (expected : Address) (data : Bytes) :
    Option (Except Error Address) × Store :=
  match s.segments[id]? with
  | some g => s.finishWrite id (g.acceptAt expected data) Segment.nextAddress
  | none => (none, s)

/-! ## Flushing and unlocking -/

def startFlush (s : Store) (id : SegmentId) (g : Segment) : Except Error Store :=
  g.closeQueue.map fun g => (s.setSegment id g).settleSegment id

def endFlush? (s : Store) (id : SegmentId) : Option (Except Error Unit × Store) := do
  let g ← s.segments[id]?.bind Segment.endFlush?
  return (g.checkWriter, s.setSegment id g)

/-- Closes the queue and waits until every queued record is on disk. -/
def flush (s : Store) (id : SegmentId) : Option (Except Error Unit) × Store :=
  match s.segments[id]? with
  | none => (none, s)
  | some g =>
    match s.startFlush id g with
    | .error e => (some (.error e), s)
    | .ok s =>
      let s := s.letGoIf id fun g => !g.writer.finished
      match s.endFlush? id with
      | some (answer, s) => (some answer, s)
      | none => (none, s)

def flushWithin (s : Store) (id : SegmentId) : Except Error Unit × Store :=
  match s.segments[id]? with
  | none => (.error (.flushTimeout 0), s)
  | some g =>
    match s.startFlush id g with
    | .error e => (.error e, s)
    | .ok s => (s.endFlush? id).getD (.error (.flushTimeout g.fileIndex), s)

def giveBack (s : Store) (id : SegmentId) : Store :=
  match s.segments[id]? with
  | some g => if g.released then s else (s.release id g).settlePool g.pool
  | none => s

/-- Flushes what is not flushed yet and gives the file back, whatever the flush says. -/
def unlock (s : Store) (id : SegmentId) : Option (Except Error Unit) × Store :=
  match s.segments[id]? with
  | none => (none, s)
  | some g =>
    if g.phase = .drained then (some g.checkWriter, s.giveBack id)
    else
      match s.flush id with
      | (some answer, s) => (some answer, s.giveBack id)
      | (none, s) => (none, s)

/-- A segment that is dropped is unlocked, and nobody hears the answer. -/
def drop (s : Store) (id : SegmentId) : Store := (s.unlock id).2

end RecordStore.Store
