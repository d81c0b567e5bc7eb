import RecordStore.Disk.Basic

/-!
# Reading through a handle

A source hands out its bytes in pieces of its own choice. `fill` collects them into a buffer until
the buffer is full or the source ends; how the bytes are cut into pieces does not matter.
-/

namespace RecordStore

/-- One answer of a source to a request for bytes; an empty piece means the end. -/
inductive Delivery where
  | piece (bytes : Bytes)
  /-- Nothing was read, and the same request may be made again. -/
  | interrupted
  | failed (error : OsError)
  deriving DecidableEq, Repr

/-- How a read into a buffer ended. -/
structure Fill where
  /-- The bytes of the buffer that are filled. -/
  outcome : Except OsError Nat
  buffer : Bytes
  /-- What the source has not handed out. -/
  rest : List Delivery

namespace Fill

def overwrite (buffer : Bytes) (start : Nat) (bs : Bytes) : Bytes :=
  buffer.take start ++ bs ++ buffer.drop (start + bs.length)

/-- Fills the buffer from `filled` on. -/
def run (buffer : Bytes) (filled : Nat) : List Delivery → Fill
  | [] => ⟨.ok filled, buffer, []⟩
  | delivery :: rest =>
    if buffer.length ≤ filled then ⟨.ok filled, buffer, delivery :: rest⟩
    else
      match delivery with
      | .interrupted => run buffer filled rest
      | .failed e => ⟨.error e, buffer, rest⟩
      | .piece bs =>
        let room := buffer.length - filled
        if bs.isEmpty then ⟨.ok filled, buffer, rest⟩
        else if bs.length ≤ room then
          run (overwrite buffer filled bs) (filled + bs.length) rest
        else
          ⟨.ok buffer.length, overwrite buffer filled (bs.take room),
            .piece (bs.drop room) :: rest⟩

end Fill

/-- An open file and the place where its next read starts. -/
structure Handle where
  file : FileId
  position : Nat
  deriving DecidableEq, Repr

namespace Handle

def seek (d : Disk) (h : Handle) (offset : Nat) : Except OsError Handle :=
  match d.object? h.file with
  | some .pipe => .error .notSeekable
  | _ => .ok { h with position := offset }

/-- What the disk hands out to a request for `want` bytes. -/
def deliveries (d : Disk) (h : Handle) (want : Nat) : List Delivery :=
  match d.object? h.file with
  | some (.regular c) => [.piece (c.slice h.position want)]
  | some (.directory _) => [.failed .isADirectory]
  | some .endless => [.piece (List.replicate want 0)]
  | some .pipe => []
  | none => []

/-- Fills the buffer from `filled` on and moves past what was read. -/
def fill (d : Disk) (h : Handle) (buffer : Bytes) (filled : Nat) : Fill × Handle :=
  let result := Fill.run buffer filled (h.deliveries d (buffer.length - filled))
  match result.outcome with
  | .ok n => (result, { h with position := h.position + (n - filled) })
  | .error _ => (result, h)

end Handle

end RecordStore
