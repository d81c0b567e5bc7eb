/-! # Pool configuration -/

namespace RecordStore

structure Config where
  fileCount : UInt64 := 256
  writeQueueDepth : UInt64 := 16
  firstReadSize : UInt64 := 3459
  syncOnFlush : Bool := false
  deriving DecidableEq, Repr, Inhabited

namespace Config

def maxFileCount : Nat := 256

inductive Fault where
  | fileCount (count : Nat)
  | writeQueueDepth
  | firstReadSize (size : Nat)
  deriving DecidableEq, Repr

def Fault.message : Fault → String
  | .fileCount n => s!"file_count must be in 1..=256, got {n}"
  | .writeQueueDepth => "write_queue_depth must be at least 1"
  | .firstReadSize n => s!"first_read_size must be at least 2, got {n}"

def fault? (c : Config) : Option Fault :=
  if c.fileCount.toNat = 0 ∨ maxFileCount < c.fileCount.toNat then
    some (.fileCount c.fileCount.toNat)
  else if c.writeQueueDepth.toNat = 0 then some .writeQueueDepth
  else if c.firstReadSize.toNat < 2 then some (.firstReadSize c.firstReadSize.toNat)
  else none

def Valid (c : Config) : Prop := c.fault? = none

instance (c : Config) : Decidable c.Valid := inferInstanceAs (Decidable (_ = _))

theorem valid_iff (c : Config) :
    c.Valid ↔ (0 < c.fileCount.toNat ∧ c.fileCount.toNat ≤ maxFileCount) ∧
      0 < c.writeQueueDepth.toNat ∧ 2 ≤ c.firstReadSize.toNat := by
  unfold Valid fault?
  split
  · simp; omega
  · split
    · simp; omega
    · split
      · simp; omega
      · simp; omega

def debugText (c : Config) : String :=
  "Config \x7b file_count: " ++ toString c.fileCount.toNat ++
    ", write_queue_depth: " ++ toString c.writeQueueDepth.toNat ++
    ", first_read_size: " ++ toString c.firstReadSize.toNat ++
    ", sync_on_flush: " ++ (if c.syncOnFlush then "true" else "false") ++ " \x7d"

end Config

end RecordStore
