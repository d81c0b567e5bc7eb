import RecordStore.Bytes

/-!
# File contents

A content is a list of extents, so that a file may be far larger than the bytes written to it.
`Content.bytes` is its meaning; each operation is described by what it does to those bytes.
-/

namespace RecordStore

inductive Extent where
  /-- Zeros that were never written. -/
  | hole (length : Nat)
  | data (bytes : Bytes)
  deriving DecidableEq, Repr

namespace Extent

def bytes : Extent → Bytes
  | hole n => List.replicate n 0
  | data bs => bs

def length : Extent → Nat
  | hole n => n
  | data bs => bs.length

def take (n : Nat) : Extent → Extent
  | hole m => hole (min n m)
  | data bs => data (bs.take n)

def drop (n : Nat) : Extent → Extent
  | hole m => hole (m - n)
  | data bs => data (bs.drop n)

@[simp] theorem length_bytes (e : Extent) : e.bytes.length = e.length := by
  cases e <;> simp [bytes, length]

@[simp] theorem bytes_take (n : Nat) (e : Extent) : (e.take n).bytes = e.bytes.take n := by
  cases e <;> simp [bytes, take]

@[simp] theorem bytes_drop (n : Nat) (e : Extent) : (e.drop n).bytes = e.bytes.drop n := by
  cases e <;> simp [bytes, drop]

end Extent

structure Content where
  extents : List Extent := []
  deriving DecidableEq, Repr

namespace Content

instance : Inhabited Content := ⟨{}⟩

def bytes (c : Content) : Bytes := c.extents.flatMap Extent.bytes

def size (c : Content) : Nat := c.extents.foldr (fun e n => e.length + n) 0

def ofBytes (bs : Bytes) : Content := ⟨[.data bs]⟩

/-! ## Cutting and joining -/

def takeExtents (n : Nat) : List Extent → List Extent
  | [] => []
  | e :: rest => if n ≤ e.length then [e.take n] else e :: takeExtents (n - e.length) rest

def dropExtents (n : Nat) : List Extent → List Extent
  | [] => []
  | e :: rest => if e.length ≤ n then dropExtents (n - e.length) rest else e.drop n :: rest

def take (n : Nat) (c : Content) : Content := ⟨takeExtents n c.extents⟩
def drop (n : Nat) (c : Content) : Content := ⟨dropExtents n c.extents⟩

instance : Append Content := ⟨fun a b => ⟨a.extents ++ b.extents⟩⟩

/-- Cuts the content off at `n`, or fills it up to `n` with a hole. -/
def resize (n : Nat) (c : Content) : Content :=
  if n ≤ c.size then c.take n else c ++ ⟨[.hole (n - c.size)]⟩

/-- Puts `bs` at `offset`; writing nothing changes nothing, not even the size. -/
def write (offset : Nat) (bs : Bytes) (c : Content) : Content :=
  if bs.isEmpty then c
  else c.resize offset ++ ofBytes bs ++ c.drop (offset + bs.length)

def slice (offset n : Nat) (c : Content) : Bytes := ((c.drop offset).take n).bytes

/-! ## What they do to the bytes -/

@[simp] theorem bytes_ofBytes (bs : Bytes) : (ofBytes bs).bytes = bs := by
  simp [ofBytes, bytes, Extent.bytes]

@[simp] theorem bytes_append (a b : Content) : (a ++ b).bytes = a.bytes ++ b.bytes := by
  show (a.extents ++ b.extents).flatMap _ = _
  simp [bytes]

@[simp] theorem length_bytes (c : Content) : c.bytes.length = c.size := by
  obtain ⟨es⟩ := c
  simp only [bytes, size]
  induction es with
  | nil => rfl
  | cons e rest ih => simp [ih]

@[simp] theorem bytes_take (n : Nat) (c : Content) : (c.take n).bytes = c.bytes.take n := by
  obtain ⟨es⟩ := c
  simp only [take, bytes]
  induction es generalizing n with
  | nil => simp [takeExtents]
  | cons e rest ih =>
    simp only [takeExtents]
    split
    · rename_i h
      simp [List.take_append_of_le_length, h]
    · rename_i h
      have : e.bytes.take n = e.bytes := List.take_of_length_le (by simp; omega)
      simp [ih, List.take_append, this]

@[simp] theorem bytes_drop (n : Nat) (c : Content) : (c.drop n).bytes = c.bytes.drop n := by
  obtain ⟨es⟩ := c
  simp only [drop, bytes]
  induction es generalizing n with
  | nil => simp [dropExtents]
  | cons e rest ih =>
    simp only [dropExtents]
    split
    · rename_i h
      have : e.bytes.drop n = [] := List.drop_eq_nil_of_le (by simpa using h)
      simp [ih, List.drop_append, this]
    · rename_i h
      have : n - e.length = 0 := by omega
      simp [List.drop_append, this]

theorem bytes_resize (n : Nat) (c : Content) :
    (c.resize n).bytes = c.bytes.take n ++ List.replicate (n - c.size) 0 := by
  unfold resize
  split
  · rename_i h
    simp [Nat.sub_eq_zero_of_le h]
  · rename_i h
    have : c.bytes.take n = c.bytes := List.take_of_length_le (by simp; omega)
    rw [this, bytes_append]
    simp [bytes, Extent.bytes]

theorem bytes_write (offset : Nat) (bs : Bytes) (c : Content) (h : bs ≠ []) :
    (c.write offset bs).bytes =
      c.bytes.take offset ++ List.replicate (offset - c.size) 0 ++ bs ++
        c.bytes.drop (offset + bs.length) := by
  simp [write, h, bytes_resize]

theorem bytes_write_size (bs : Bytes) (c : Content) :
    (c.write c.size bs).bytes = c.bytes ++ bs := by
  by_cases h : bs = []
  · simp [write, h]
  · have hd : c.bytes.drop (c.size + bs.length) = [] := List.drop_eq_nil_of_le (by simp)
    have ht : c.bytes.take c.size = c.bytes := List.take_of_length_le (by simp)
    rw [bytes_write _ _ _ h, hd, ht]
    simp

theorem slice_eq (offset n : Nat) (c : Content) :
    c.slice offset n = (c.bytes.drop offset).take n := by
  simp [slice]

end Content

end RecordStore
