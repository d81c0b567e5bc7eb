import RecordStore.Disk.Basic
import RecordStore.Error

/-!
# Segments and their writers

A segment is the lease of one backing file. A write reserves room at the cursor and queues the
record; a writer in the background puts the queued records on disk in order. The first failure stops
it for good: the records behind are thrown away, and every later call reports that failure.
-/

namespace RecordStore

structure Request where
  offset : Nat
  header : Bytes
  data : Bytes
  deriving DecidableEq, Repr

def Request.bytes (r : Request) : Bytes := r.header ++ r.data

structure WriteFailure where
  offset : Nat
  error : OsError
  deriving DecidableEq, Repr

def WriteFailure.toError (f : WriteFailure) (fileIndex : Nat) : Error :=
  .io fileIndex f.offset (.recorded f.error)

/-! ## The writer -/

structure Writer where
  file : FileId
  queue : List Request := []
  /-- The most records that the queue holds. -/
  depth : Nat
  syncOnFlush : Bool
  /-- No more records will come. -/
  closed : Bool := false
  /-- A failure that has happened and is not recorded yet. -/
  failing : Option WriteFailure := none
  /-- The recorded failure. -/
  failure : Option WriteFailure := none
  finished : Bool := false
  deriving DecidableEq, Repr, Inhabited

namespace Writer

/-- Takes the oldest record off the queue and writes it, or throws it away after a failure. -/
def receive? (w : Writer) (d : Disk) (fault : Option Disk.Fault) : Option (Writer × Disk) :=
  match w.failing, w.queue with
  | none, request :: rest =>
    if w.failure.isSome then some ({ w with queue := rest }, d)
    else
      match d.write w.file request.offset request.bytes fault with
      | (.ok (), d) => some ({ w with queue := rest }, d)
      | (.error e, d) => some ({ w with queue := rest, failing := some ⟨request.offset, e⟩ }, d)
  | _, _ => none

def record? (w : Writer) : Option Writer :=
  w.failing.map fun f => { w with failing := none, failure := some f }

/-- Ends the writer once its queue is closed and empty. If nothing has failed, a sync may come
first; its failure counts as one at offset 0. -/
def finish? (w : Writer) (d : Disk) (fault : Option OsError) : Option Writer :=
  if w.closed ∧ w.queue = [] ∧ w.failing = none ∧ !w.finished then
    if w.failure.isNone && w.syncOnFlush then
      match d.sync w.file fault with
      | .ok () => some { w with finished := true }
      | .error e => some { w with failing := some ⟨0, e⟩ }
    else some { w with finished := true }
  else none

/-- Writes queued records until one fails or none is left. -/
def drainQueue (d : Disk) (w : Writer) : List Request → Writer × Disk
  | [] => ({ w with queue := [] }, d)
  | request :: rest =>
    if w.failure.isSome then drainQueue d w rest
    else
      match d.write w.file request.offset request.bytes none with
      | (.ok (), d) => drainQueue d w rest
      | (.error e, d) => ({ w with queue := rest, failing := some ⟨request.offset, e⟩ }, d)

/-- Works off the queue unless a failure waits to be recorded. -/
def drain (d : Disk) (w : Writer) : Writer × Disk :=
  if w.failing.isSome then (w, d) else w.drainQueue d w.queue

/-- Records a failure, unless failures are held back. -/
def recordUnless (held : Bool) (w : Writer) : Writer :=
  if held then w else w.record?.getD w

/-- Ends the writer if it can end. A sync that fails is recorded at once. -/
def settleEnd (d : Disk) (w : Writer) : Writer :=
  match w.finish? d none with
  | none => w
  | some w => (w.record?.bind (·.finish? d none)).getD w

/-- Runs the writer until it waits: for records, for its queue to close, or, while failures are held
back, for leave to record that a write has failed. -/
def settle (held : Bool) (d : Disk) (w : Writer) : Writer × Disk :=
  let (w, d) := (w.recordUnless held).drain d
  let (w, d) := (w.recordUnless held).drain d
  (w.settleEnd d, d)

end Writer

/-! ## The segment -/

inductive Phase where
  | leased
  | flushing
  | drained
  deriving DecidableEq, Repr, Inhabited

structure Segment where
  /-- The pool that leased the file. -/
  pool : Nat
  fileIndex : Nat
  /-- The end of the file when it was leased. -/
  base : Nat
  /-- The offset of the next record. -/
  next : Nat
  writer : Writer
  /-- A record that was accepted and waits for room in the queue. -/
  pending : Option Request := none
  phase : Phase := .leased
  released : Bool := false
  deriving DecidableEq, Repr, Inhabited

namespace Segment

def baseAddress (s : Segment) : Address := Address.ofParts s.fileIndex s.base
def nextAddress (s : Segment) : Address := Address.ofParts s.fileIndex s.next
def bytesWritten (s : Segment) : Nat := s.next - s.base

def start (pool fileIndex base : Nat) (file : FileId) (config : Config) :
    Except Error Segment :=
  match Address.encode fileIndex base with
  | .error fault => .error (.invalidArgument (.address fault))
  | .ok _ => .ok {
      pool, fileIndex, base, next := base
      writer := {
        file, depth := config.writeQueueDepth.toNat, syncOnFlush := config.syncOnFlush } }

def checkWriter (s : Segment) : Except Error Unit :=
  match s.writer.failure with
  | some failure => .error (failure.toError s.fileIndex)
  | none => .ok ()

/-! ### Writing -/

/-- Checks a write. An accepted record stands in `pending`, and the cursor has not moved yet. -/
def accept (s : Segment) (data : Bytes) : Except Error Segment :=
  match Record.encodeHeader data.length with
  | .error fault => .error (.invalidArgument (.recordTooLong fault))
  | .ok header =>
    match s.nextAddress.offsetBy (Record.encodedLength data.length) with
    | .error fault => .error (.invalidArgument (.address fault))
    | .ok _ =>
      match s.writer.failure with
      | some failure => .error (failure.toError s.fileIndex)
      | none =>
        if s.writer.closed then .error (.segmentClosed s.fileIndex)
        else .ok { s with pending := some ⟨s.next, header, data⟩ }

/-- As `accept`, for a caller who keeps track of the address. -/
def acceptAt (s : Segment) (expected : Address) (data : Bytes) : Except Error Segment :=
  if expected = s.nextAddress then s.accept data
  else .error (.invalidArgument (.notAtCursor expected s.nextAddress))

/-- The accepted record enters the queue, once there is room, and the cursor moves past it. -/
def enqueue? (s : Segment) : Option Segment :=
  match s.pending with
  | some request =>
    if !s.writer.closed ∧ s.writer.queue.length < s.writer.depth then
      some { s with
        pending := none
        next := s.next + Record.encodedLength request.data.length
        writer := { s.writer with queue := s.writer.queue ++ [request] } }
    else none
  | none => none

/-! ### Flushing -/

def closeQueue (s : Segment) : Except Error Segment :=
  match s.phase with
  | .drained => .error (.segmentClosed s.fileIndex)
  | .flushing => .ok s
  | .leased => .ok { s with phase := .flushing, writer := { s.writer with closed := true } }

def endFlush? (s : Segment) : Option Segment :=
  if s.phase = .flushing ∧ s.writer.finished then some { s with phase := .drained } else none

/-! ### Settling -/

/-- Runs the writer until it waits, letting a record that waits for room enter the queue. -/
def settle (held : Bool) (d : Disk) (s : Segment) : Segment × Disk :=
  let (w, d) := s.writer.settle held d
  let s := { s with writer := w }
  match s.enqueue? with
  | none => (s, d)
  | some s =>
    let (w, d) := s.writer.settle held d
    ({ s with writer := w }, d)

/-! ### When calls succeed -/

theorem start_ok {pool fileIndex base : Nat} {file : FileId} {config : Config} {g : Segment}
    (h : start pool fileIndex base file config = .ok g) :
    fileIndex < Address.maxFileIndex ∧ base ≤ Address.offsetMask ∧
      g = {
        pool, fileIndex, base, next := base
        writer := {
          file, depth := config.writeQueueDepth.toNat, syncOnFlush := config.syncOnFlush } } := by
  unfold start at h
  split at h
  · cases h
  · rename_i a ha
    obtain ⟨hindex, hbase, -⟩ := Address.encode_ok ha
    exact ⟨hindex, hbase, (Except.ok.inj h).symm⟩

theorem exists_start {fileIndex base : Nat} (pool : Nat) (file : FileId) (config : Config)
    (hindex : fileIndex < Address.maxFileIndex) (hroom : base ≤ Address.offsetMask) :
    ∃ g, start pool fileIndex base file config = .ok g := by
  unfold start Address.encode
  rw [if_neg (Nat.not_le_of_lt hindex), if_neg (Nat.not_lt_of_le hroom)]
  exact ⟨_, rfl⟩

theorem start_too_large {pool fileIndex base : Nat} {file : FileId} {config : Config}
    (hindex : fileIndex < Address.maxFileIndex)
    (hlarge : Address.offsetMask < base) :
    start pool fileIndex base file config =
      .error (.invalidArgument (.address (.offsetTooLarge base))) := by
  unfold start Address.encode
  rw [if_neg (Nat.not_le_of_lt hindex), if_pos hlarge]

theorem accept_ok {s t : Segment} {data : Bytes} (h : s.accept data = .ok t) :
    data.length ≤ Record.maxLength ∧
      (∃ a, s.nextAddress.offsetBy (Record.encodedLength data.length) = .ok a) ∧
      s.writer.failure = none ∧ s.writer.closed = false ∧
      t = { s with pending := some ⟨s.next, Record.header data.length, data⟩ } := by
  unfold accept at h
  cases hheader : Record.encodeHeader data.length with
  | error fault => rw [hheader] at h; cases h
  | ok header =>
    rw [hheader] at h
    obtain ⟨hlength, rfl⟩ := Record.encodeHeader_ok hheader
    cases hoffset : s.nextAddress.offsetBy (Record.encodedLength data.length) with
    | error fault => rw [hoffset] at h; cases h
    | ok a =>
      rw [hoffset] at h
      cases hfailure : s.writer.failure with
      | some failure => rw [hfailure] at h; cases h
      | none =>
        rw [hfailure] at h
        cases hclosed : s.writer.closed with
        | true => rw [hclosed] at h; cases h
        | false =>
          rw [hclosed] at h
          exact ⟨hlength, ⟨a, rfl⟩, rfl, rfl, (Except.ok.inj h).symm⟩

theorem acceptAt_ok {s t : Segment} {expected : Address} {data : Bytes}
    (h : s.acceptAt expected data = .ok t) : expected = s.nextAddress ∧ s.accept data = .ok t := by
  unfold acceptAt at h
  split at h
  · exact ⟨‹_›, h⟩
  · cases h

end Segment

end RecordStore
