import RecordStore.Store.Basic

/-!
# Single steps

The finest actions of callers, schedulers and writers. Any order of them is possible that the state
allows, and any write or sync may fail. A run is a list of steps each of which was possible.
-/

namespace RecordStore

inductive Event where
  | create (path : String) (config : Config)
  | openPool (path : String) (config : Config)
  | closePool (pool : PoolId)
  /-- A lock call receives the file on offer. -/
  | take (pool : PoolId)
  /-- The lock call starts its lease. -/
  | startLease (pool : PoolId) (fileIndex : Nat) (fault : Option Store.LeaseFault)
  /-- A lock call gives up. -/
  | lockTimeout (pool : PoolId)
  /-- The scheduler sees the oldest return. -/
  | handleReturn (pool : PoolId)
  /-- The scheduler offers a file. -/
  | select (pool : PoolId)
  /-- A write call makes its checks. -/
  | accept (segment : SegmentId) (data : Bytes)
  | acceptAt (segment : SegmentId) (expected : Address) (data : Bytes)
  /-- An accepted record enters the queue and the write call returns. -/
  | enqueue (segment : SegmentId)
  /-- A flush call starts. -/
  | closeQueue (segment : SegmentId)
  /-- A flush call sees that the writer has finished, and returns. -/
  | endFlush (segment : SegmentId)
  /-- A flush call gives up. -/
  | flushTimeout (segment : SegmentId)
  /-- The life of a segment ends. -/
  | release (segment : SegmentId)
  /-- The writer deals with the oldest record of its queue. -/
  | receive (segment : SegmentId) (fault : Option Disk.Fault)
  /-- The writer records a failure. -/
  | record (segment : SegmentId)
  /-- The writer comes to its end, with a sync before if there is to be one. -/
  | finish (segment : SegmentId) (fault : Option OsError)
  | read (pool : PoolId) (address : Address) (buffer : Bytes)
  deriving DecidableEq, Repr

namespace Store

/-- A segment that can be called: it is not released, and no write call on it is under way. -/
def idle? (s : Store) (id : SegmentId) : Option Segment :=
  s.segments[id]?.filter fun g => !g.released && g.pending.isNone

/-- A call that is refused changes nothing. -/
def orRefused (s : Store) (id : SegmentId) (answer : Except Error Segment) : Store :=
  match answer with
  | .ok g => s.setSegment id g
  | .error _ => s

/-- The state after an event, if it is possible. -/
def step? (s : Store) : Event → Option Store
  | .create path config => some (s.create path config).2
  | .openPool path config => some (s.addPool path config).2
  | .closePool id => do
    let p ← s.pools[id]?
    if p.isOpen ∧ p.taken = [] then some (s.closePool id) else none
  | .take id => do
    let (_, p) ← s.pools[id]?.bind Pool.take?
    return s.setPool id p
  | .startLease id fileIndex fault => do
    let p ← s.pools[id]?
    if fileIndex ∈ p.taken then some (s.startLease id p fileIndex fault).2 else none
  | .lockTimeout id => do
    let p ← s.pools[id]?
    if p.isOpen then some s else none
  | .handleReturn id => do return s.setPool id (← (← s.pools[id]?).handleReturn? s.disk)
  | .select id => do return s.setPool id (← (← s.pools[id]?).select?)
  | .accept id data => do return s.orRefused id ((← s.idle? id).accept data)
  | .acceptAt id expected data => do return s.orRefused id ((← s.idle? id).acceptAt expected data)
  | .enqueue id => do return s.setSegment id (← (← s.segments[id]?).enqueue?)
  | .closeQueue id => do return s.orRefused id (← s.idle? id).closeQueue
  | .endFlush id => do return s.setSegment id (← (← s.segments[id]?).endFlush?)
  | .flushTimeout id => do
    let g ← s.idle? id
    if g.phase = .flushing ∧ !g.writer.finished then some s else none
  | .release id => do
    let g ← s.idle? id
    if g.phase = .drained then some (s.release id g) else none
  | .receive id fault => do
    let g ← s.segments[id]?
    let (writer, disk) ← g.writer.receive? s.disk fault
    return { s.setSegment id { g with writer } with disk }
  | .record id => do
    let g ← s.segments[id]?
    let writer ← g.writer.record?
    return s.setSegment id { g with writer }
  | .finish id fault => do
    let g ← s.segments[id]?
    let writer ← g.writer.finish? s.disk fault
    let s := s.setSegment id { g with writer }
    return if writer.finished then s.dropOwner g.pool else s
  | .read id a buffer => some (s.read id a buffer).2.2

def run? (s : Store) (events : List Event) : Option Store := events.foldlM step? s

def Reaches (s t : Store) : Prop := ∃ events, s.run? events = some t

/-! ## Runs -/

@[simp] theorem run?_nil (s : Store) : s.run? [] = some s := rfl

theorem run?_append (s : Store) (before after : List Event) :
    s.run? (before ++ after) = (s.run? before).bind (·.run? after) := by
  simp [run?, List.foldlM_append]

theorem Reaches.refl (s : Store) : s.Reaches s := ⟨[], rfl⟩

theorem Reaches.trans {s t u : Store} (h : s.Reaches t) (k : t.Reaches u) : s.Reaches u := by
  obtain ⟨before, h⟩ := h
  obtain ⟨after, k⟩ := k
  exact ⟨before ++ after, by simp [run?_append, h, k]⟩

theorem Reaches.single {s t : Store} {event : Event} (h : s.step? event = some t) :
    s.Reaches t := ⟨[event], by simp [run?, h]⟩

end Store

end RecordStore
