import RecordStore.Pool
import RecordStore.Segment

/-!
# The store

The disk with the pools and segments that were opened on it, and what a single action of a caller
does to them.
-/

namespace RecordStore

abbrev PoolId := Nat
abbrev SegmentId := Nat

structure Store where
  disk : Disk
  /-- The lock files that are locked. -/
  locks : List FileId := []
  /-- Every pool opened so far, closed ones included. -/
  pools : List Pool := []
  /-- Every segment leased so far, released ones included. -/
  segments : List Segment := []
  /-- While set, a writer does not get to record that a write has failed. -/
  failuresHeld : Bool := false
  deriving DecidableEq, Repr

namespace Store

def ofDisk (d : Disk) : Store := { disk := d }

def setPool (s : Store) (id : PoolId) (p : Pool) : Store := { s with pools := s.pools.set id p }

def setSegment (s : Store) (id : SegmentId) (g : Segment) : Store :=
  { s with segments := s.segments.set id g }

/-! ## Pools -/

def create (s : Store) (path : String) (config : Config) : Except Error Unit × Store :=
  let (answer, disk) := Layout.create s.disk path config
  (answer, { s with disk })

/-- Opens a pool whose scheduler has not run yet. -/
def addPool (s : Store) (path : String) (config : Config) : Except Error PoolId × Store :=
  match Pool.openAt s.disk s.locks path config with
  | (.error e, disk, locks) => (.error e, { s with disk, locks })
  | (.ok p, disk, locks) => (.ok s.pools.length, { s with disk, locks, pools := s.pools ++ [p] })

/-- An owner of a pool goes; the last one unlocks the directory. -/
def dropOwner (s : Store) (id : PoolId) : Store :=
  match s.pools[id]? with
  | some p =>
    let s := s.setPool id { p with owners := p.owners - 1 }
    if p.owners = 1 then { s with locks := s.locks.erase p.lockFile } else s
  | none => s

/-- Drops the handle of a pool. Its segments live on. -/
def closePool (s : Store) (id : PoolId) : Store :=
  match s.pools[id]? with
  | some p => if p.isOpen then (s.setPool id p.close).dropOwner id else s
  | none => s

/-! ## Leases -/

/-- What the operating system may refuse to a lock call that starts its lease. -/
inductive LeaseFault where
  /-- The size of the file cannot be learnt. -/
  | size (error : OsError)
  /-- No writer can be started. -/
  | writer (error : OsError)
  deriving DecidableEq, Repr

/-- A lock call that has received a file starts its lease, or gives the file back. -/
def startLease (s : Store) (id : PoolId) (p : Pool) (fileIndex : Nat) (fault : Option LeaseFault) :
    Except Error SegmentId × Store :=
  match fault with
  | some (.size e) =>
    let p := { p with taken := p.taken.erase fileIndex }
    (.error (.io fileIndex 0 (.os e)), s.setPool id (p.giveBack fileIndex))
  | _ =>
    let file := p.slots[fileIndex]?.elim 0 Slot.file
    let base := s.disk.size file
    let p := p.beginLease s.disk fileIndex
    match Segment.start id fileIndex base file p.config with
    | .error e => (.error e, s.setPool id (p.giveBack fileIndex))
    | .ok g =>
      match fault with
      | some (.writer e) =>
        (.error (.io fileIndex base (.os e)), s.setPool id (p.giveBack fileIndex))
      | _ =>
        let p := { p with owners := p.owners + 1 }
        (.ok s.segments.length, { s.setPool id p with segments := s.segments ++ [g] })

/-- Ends the life of a segment; its file goes into the queue of returns. -/
def release (s : Store) (id : SegmentId) (g : Segment) : Store :=
  let s := s.setSegment id { g with released := true }
  { s with pools := s.pools.modify g.pool (·.giveBack g.fileIndex) }

/-! ## Reading -/

def read (s : Store) (id : PoolId) (a : Address) (buffer : Bytes) :
    Except Error Bytes × Bytes × Store :=
  match s.pools[id]? with
  | some p =>
    let (answer, buffer, p) := p.read s.disk a buffer
    (answer, buffer, s.setPool id p)
  | none => (.error .poolClosed, buffer, s)

def readRecord (s : Store) (id : PoolId) (a : Address) : Except Error Bytes × Store :=
  let (answer, _, s) := s.read id a []
  (answer, s)

/-! ## What the parts are after an update -/

section Fields

variable (s : Store) (id : Nat) (p : Pool) (g : Segment)

@[simp] theorem disk_setPool : (s.setPool id p).disk = s.disk := rfl
@[simp] theorem locks_setPool : (s.setPool id p).locks = s.locks := rfl
@[simp] theorem pools_setPool : (s.setPool id p).pools = s.pools.set id p := rfl
@[simp] theorem segments_setPool : (s.setPool id p).segments = s.segments := rfl

@[simp] theorem disk_setSegment : (s.setSegment id g).disk = s.disk := rfl
@[simp] theorem locks_setSegment : (s.setSegment id g).locks = s.locks := rfl
@[simp] theorem pools_setSegment : (s.setSegment id g).pools = s.pools := rfl
@[simp] theorem segments_setSegment : (s.setSegment id g).segments = s.segments.set id g := rfl

@[simp] theorem disk_dropOwner : (s.dropOwner id).disk = s.disk := by
  unfold dropOwner
  split
  · dsimp only
    split <;> rfl
  · rfl

@[simp] theorem segments_dropOwner : (s.dropOwner id).segments = s.segments := by
  unfold dropOwner
  split
  · dsimp only
    split <;> rfl
  · rfl

theorem pools_dropOwner :
    (s.dropOwner id).pools = s.pools.modify id fun p => { p with owners := p.owners - 1 } := by
  unfold dropOwner
  split
  · rename_i p hp
    rw [List.modify_eq_set, hp]
    dsimp only
    split <;> rfl
  · rename_i hp
    rw [List.modify_eq_self (List.getElem?_eq_none_iff.1 hp)]

@[simp] theorem disk_release : (s.release id g).disk = s.disk := rfl
@[simp] theorem locks_release : (s.release id g).locks = s.locks := rfl
@[simp] theorem pools_release :
    (s.release id g).pools = s.pools.modify g.pool (·.giveBack g.fileIndex) := rfl
@[simp] theorem segments_release :
    (s.release id g).segments = s.segments.set id { g with released := true } := rfl

end Fields

end Store

end RecordStore
