import RecordStore.Reader

/-!
# The pool and its scheduler

A pool hands out its backing files for writing, one lease a file. The index of each file is at any
time in one place: available, selected for the next lock call, taken by a lock call that is starting
its lease, held by a segment, or in the queue of returns.
-/

namespace RecordStore

/-- A backing file of an open pool. -/
structure Slot where
  file : FileId
  /-- The end of the file as last seen. -/
  frontier : Nat
  /-- Where the read handle stands. -/
  position : Nat := 0
  deriving DecidableEq, Repr, Inhabited

structure Pool where
  path : String
  config : Config
  lockFile : FileId
  slots : List Slot
  available : List Bool
  /-- Offered to the next lock call. -/
  selected : Option Nat := none
  /-- Received by lock calls that have not started their leases. -/
  taken : List Nat := []
  /-- Given back, but not yet seen by the scheduler; oldest first. -/
  returns : List Nat := []
  /-- Whether the handle is still there. -/
  isOpen : Bool := true
  /-- Who keeps the directory locked: the handle, and each writer that has not finished. -/
  owners : Nat := 1
  deriving DecidableEq, Repr, Inhabited

namespace Pool

def fileCount (p : Pool) : Nat := p.slots.length

def frontier (p : Pool) (fileIndex : Nat) : Nat := p.slots[fileIndex]?.elim 0 Slot.frontier

def frontiers (p : Pool) : List Nat := p.slots.map Slot.frontier

def isAvailable (p : Pool) (fileIndex : Nat) : Bool := p.available[fileIndex]?.getD false

def firstAddress (p : Pool) (fileIndex : Nat) : Except Error Address :=
  if p.fileCount ≤ fileIndex then
    .error (.invalidArgument (.fileOutOfRange fileIndex p.fileCount))
  else (Address.encode fileIndex Layout.dataStart).mapError (.invalidArgument <| .address ·)

/-! ## Opening -/

/-- Opens backing files in turn; the present size of each is its first frontier. -/
def openSlots (d : Disk) (path : String) : List Nat → Except Error (List Slot)
  | [] => .ok []
  | i :: rest => do
    let file ← Layout.openFile d path i
    let slots ← openSlots d path rest
    return ⟨file, d.size file, 0⟩ :: slots

/-- Opens the directory at `path`, whose lock must be free. A failure leaves nothing behind but a
lock file, and that only beside a first backing file. -/
def openAt (d : Disk) (locks : List FileId) (path : String) (config : Config) :
    Except Error Pool × Disk × List FileId :=
  match config.fault? with
  | some fault => (.error (.invalidArgument (.config fault)), d, locks)
  | none =>
    if !(d.directoryNamed path).isOk then (.error (.notCreated path), d, locks)
    else if !d.isRegularAt path (Layout.fileName 0) then
      (.error (.notCreated (Layout.filePath path 0)), d, locks)
    else
      match Layout.acquireLock d locks path with
      | (.error e, d, locks) => (.error e, d, locks)
      | (.ok lockFile, d, locks) =>
        match openSlots d path (List.range config.fileCount.toNat) with
        | .error e => (.error e, d, locks.erase lockFile)
        | .ok slots =>
          (.ok { path, config, lockFile, slots, available := slots.map fun _ => true }, d, locks)

theorem openAt_ok {d d' : Disk} {locks locks' : List FileId} {path : String} {config : Config}
    {p : Pool} (h : openAt d locks path config = (.ok p, d', locks')) :
    config.Valid ∧ ∃ lockFile slots,
      Layout.acquireLock d locks path = (.ok lockFile, d', locks') ∧
      openSlots d' path (List.range config.fileCount.toNat) = .ok slots ∧
      p = { path, config, lockFile, slots, available := slots.map fun _ => true } := by
  unfold openAt at h
  grind [Config.Valid]

/-- A refused open changes no lock, and the disk only by trying to lock the directory. -/
theorem openAt_error {d d' : Disk} {locks locks' : List FileId} {path : String} {config : Config}
    {e : Error} (h : openAt d locks path config = (.error e, d', locks')) :
    (d' = d ∨ d' = (d.openOrCreate path Layout.lockName).2) ∧ locks' = locks := by
  unfold openAt at h
  split at h
  · grind
  · split at h
    · grind
    · split at h
      · grind
      · split at h
        · rename_i e d₁ locks₁ hlock
          have := Layout.acquireLock_error hlock
          grind
        · rename_i id d₁ locks₁ hlock
          have := Layout.acquireLock_ok hlock
          grind

/-! ## The scheduler -/

/-- The better of two candidates for the next lease: the smaller frontier, then the lower index. -/
def better (p : Pool) (best : Option Nat) (fileIndex : Nat) : Option Nat :=
  if p.isAvailable fileIndex then
    match best with
    | none => some fileIndex
    | some other => if p.frontier fileIndex < p.frontier other then some fileIndex else best
  else best

/-- The available file of the smallest frontier, and among equals the lowest index. -/
def choice? (p : Pool) : Option Nat := (List.range p.fileCount).foldl p.better none

/-- Takes note of a returned file and of its size. -/
def markAvailable (d : Disk) (p : Pool) (fileIndex : Nat) : Pool :=
  { p with
    slots := p.slots.modify fileIndex fun slot => { slot with frontier := d.size slot.file }
    available := p.available.set fileIndex true }

/-- The scheduler sees the oldest return. -/
def handleReturn? (d : Disk) (p : Pool) : Option Pool :=
  if p.isOpen ∧ p.selected = none then
    match p.returns with
    | [] => none
    | fileIndex :: rest => some { p.markAvailable d fileIndex with returns := rest }
  else none

/-- The scheduler offers a file, if it has one to offer and none is on offer. -/
def select? (p : Pool) : Option Pool :=
  if p.isOpen ∧ p.selected = none then
    p.choice?.map fun fileIndex =>
      { p with available := p.available.set fileIndex false, selected := some fileIndex }
  else none

/-- Runs the scheduler until it waits: all returns are seen before a file is offered. -/
def settle (d : Disk) (p : Pool) : Pool :=
  if p.isOpen ∧ p.selected = none then
    let p := { p.returns.foldl (markAvailable d) p with returns := [] }
    p.select?.getD p
  else p

/-! ## Leases -/

/-- A lock call receives the file on offer. -/
def take? (p : Pool) : Option (Nat × Pool) :=
  if p.isOpen then
    p.selected.map fun fileIndex =>
      (fileIndex, { p with selected := none, taken := fileIndex :: p.taken })
  else none

/-- The lock call looks at the size of its file, which becomes both frontier and base. -/
def beginLease (d : Disk) (p : Pool) (fileIndex : Nat) : Pool :=
  { p with
    taken := p.taken.erase fileIndex
    slots := p.slots.modify fileIndex fun slot => { slot with frontier := d.size slot.file } }

def giveBack (p : Pool) (fileIndex : Nat) : Pool :=
  { p with returns := p.returns ++ [fileIndex] }

/-- Drops the handle; what was on offer is never handed out. -/
def close (p : Pool) : Pool := { p with isOpen := false, selected := none }

/-! ## Reading -/

/-- Reads a record into the caller's buffer, the two phases seeing `first` and `second`. -/
def readBetween (first second : Disk) (p : Pool) (a : Address) (buffer : Bytes) :
    Except Error Bytes × Bytes × Pool :=
  match p.slots[a.fileIndex]? with
  | none => (.error (.invalidArgument (.unknownFile a p.fileCount)), buffer, p)
  | some slot =>
    if a.offset < Layout.dataStart then (.error (.invalidArgument (.insideHeader a)), buffer, p)
    else
      let reading := Reader.readRecord first second p.config.firstReadSize.toNat a.fileIndex
        a.offset buffer ⟨slot.file, slot.position⟩
      let slot := { slot with position := reading.handle.position }
      (reading.answer, reading.buffer, { p with slots := p.slots.set a.fileIndex slot })

def read (d : Disk) (p : Pool) (a : Address) (buffer : Bytes) :
    Except Error Bytes × Bytes × Pool :=
  p.readBetween d d a buffer

end Pool

end RecordStore
