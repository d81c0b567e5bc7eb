import RecordStore.Layout

/-!
# Reading a record

A read fetches a fixed number of bytes, which most records fit, and then whatever the length in
the header says is missing. The two phases may see different states of the disk.
-/

namespace RecordStore

structure Reading where
  answer : Except Error Bytes
  buffer : Bytes
  handle : Handle

namespace Reader

/-- Cuts the buffer off at `size`, or fills it up to `size` with zeros. -/
def resize (size : Nat) (buffer : Bytes) : Bytes :=
  buffer.take size ++ List.replicate (size - buffer.length) 0

/-- The second phase: `filled` bytes are there, and the record ends at `stop`. -/
def readRest (d : Disk) (fileIndex offset length filled stop : Nat) (buffer : Bytes)
    (handle : Handle) : Reading :=
  let (rest, handle) := handle.fill d (resize stop buffer) filled
  match rest.outcome with
  | .error e => ⟨.error (.io fileIndex (offset + filled) (.os e)), rest.buffer, handle⟩
  | .ok n =>
    if n < stop then
      ⟨.error (.corruption fileIndex offset (.truncated length)), rest.buffer, handle⟩
    else ⟨.ok ((rest.buffer.take stop).drop Record.headerSize), rest.buffer, handle⟩

/-- Reads the record at an offset, the two phases seeing `first` and `second`. What was in the
buffer is cleared first. -/
def readRecord (first second : Disk) (firstSize fileIndex offset : Nat) (buffer : Bytes)
    (handle : Handle) : Reading :=
  let blank := resize firstSize (buffer.take 0)
  match handle.seek first offset with
  | .error e => ⟨.error (.io fileIndex offset (.os e)), blank, handle⟩
  | .ok handle =>
    let (head, handle) := handle.fill first blank 0
    match head.outcome with
    | .error e => ⟨.error (.io fileIndex offset (.os e)), head.buffer, handle⟩
    | .ok filled =>
      match Record.decodeHeader (head.buffer.take filled) with
      | none => ⟨.error (.corruption fileIndex offset (.noHeader filled)), head.buffer, handle⟩
      | some length =>
        let stop := Record.encodedLength length
        if stop ≤ filled then
          ⟨.ok ((head.buffer.take stop).drop Record.headerSize), head.buffer, handle⟩
        else readRest second fileIndex offset length filled stop head.buffer handle

end Reader

end RecordStore
