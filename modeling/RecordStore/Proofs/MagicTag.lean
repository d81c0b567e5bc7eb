import Mathlib.Tactic.ByContra
import RecordStore.Disk.Edit
import RecordStore.Layout
import RecordStore.Proofs.Filling
import RecordStore.Proofs.Growth
import RecordStore.Verify

/-!
# The tag of a backing file

A check of a file passes exactly when the name leads to a regular file that starts with the tag. Its
answer is told by the first bytes that a look at the file finds, and by nothing else on the disk. A
report names the files below a count with which something is wrong.
-/

namespace RecordStore

open Delivery

/-! ## The first bytes of a file -/

namespace Disk

variable {d : Disk} {path name : String} {f : FileId} {n : Nat} {bs : Bytes} {e : OsError}

theorem bytesAt_open (h : d.openRead path name = .ok f) (offset count : Nat) :
    d.bytesAt path name offset count =
      match d.object? f with
      | some (.regular c) => .ok (c.slice offset count)
      | some (.directory _) => .error .isADirectory
      | some .endless => .ok (List.replicate count 0)
      | _ => .ok [] := by
  unfold bytesAt
  rw [h]
  rfl

theorem bytesAt_closed (h : d.openRead path name = .error e) (offset count : Nat) :
    d.bytesAt path name offset count = .error e := by
  unfold bytesAt
  rw [h]
  rfl

theorem openRead_of_bytesAt {offset count : Nat} (h : d.bytesAt path name offset count = .ok bs) :
    ∃ f, d.openRead path name = .ok f := by
  obtain ⟨f, hopen, -⟩ := bind_eq_ok.1 h
  exact ⟨f, hopen⟩

theorem deliveries_of_bytesAt (hopen : d.openRead path name = .ok f)
    (h : d.bytesAt path name 0 n = .ok bs) :
    stream (Handle.deliveries d ⟨f, 0⟩ n) = bs ∧
      failure? (Handle.deliveries d ⟨f, 0⟩ n) = none ∧ bs.length ≤ n := by
  rw [bytesAt_open hopen] at h
  unfold Handle.deliveries
  cases ho : d.object? f with
  | none =>
    simp only [ho] at h
    cases h
    exact ⟨rfl, rfl, Nat.zero_le n⟩
  | some o =>
    simp only [ho] at h
    cases o with
    | regular c =>
      cases h
      obtain ⟨hstream, hfailure⟩ := stream_singleton (c.slice 0 n)
      refine ⟨hstream, hfailure, ?_⟩
      rw [Content.slice_eq]
      exact List.length_take_le n _
    | directory es => cases h
    | endless =>
      cases h
      obtain ⟨hstream, hfailure⟩ := stream_singleton (List.replicate n 0)
      exact ⟨hstream, hfailure, by simp⟩
    | pipe =>
      cases h
      exact ⟨rfl, rfl, Nat.zero_le n⟩

theorem length_bytesAt_le (h : d.bytesAt path name 0 n = .ok bs) : bs.length ≤ n := by
  obtain ⟨f, hopen⟩ := openRead_of_bytesAt h
  exact (deliveries_of_bytesAt hopen h).2.2

theorem deliveries_of_bytesAt_error (hopen : d.openRead path name = .ok f)
    (h : d.bytesAt path name 0 n = .error e) :
    Handle.deliveries d ⟨f, 0⟩ n = [.failed e] ∧ e = .isADirectory := by
  rw [bytesAt_open hopen] at h
  split at h
  · cases h
  · rename_i es ho
    cases h
    exact ⟨by rw [Handle.deliveries, ho], rfl⟩
  · cases h
  · cases h

end Disk

namespace Handle

variable {d : Disk} {path name : String} {f : FileId} {n : Nat} {bs : Bytes} {e : OsError}

theorem fill_fst (d : Disk) (h : Handle) (buffer : Bytes) (filled : Nat) :
    (h.fill d buffer filled).1 =
      Fill.run buffer filled (h.deliveries d (buffer.length - filled)) := by
  unfold fill
  dsimp only
  split <;> rfl

theorem fill_head (hopen : d.openRead path name = .ok f)
    (h : d.bytesAt path name 0 n = .ok bs) :
    (fill d ⟨f, 0⟩ (List.replicate n 0) 0).1.outcome = .ok bs.length ∧
      (fill d ⟨f, 0⟩ (List.replicate n 0) 0).1.buffer =
        bs ++ List.replicate (n - bs.length) 0 := by
  obtain ⟨hstream, hfailure, hlength⟩ := Disk.deliveries_of_bytesAt hopen h
  have htakes : Fill.Takes (List.replicate n 0) 0 (deliveries d ⟨f, 0⟩ n)
      (Fill.run (List.replicate n 0) 0 (deliveries d ⟨f, 0⟩ n)) :=
    Fill.takes_run (Nat.zero_le _)
  rw [fill_fst, List.length_replicate, Nat.sub_zero]
  constructor
  · rw [htakes.ended (.inl hfailure), hstream, List.length_replicate, Nat.zero_add,
      Nat.min_eq_right hlength]
  · rw [htakes.buffer_eq, hstream]
    simp [List.take_of_length_le hlength]

theorem fill_failed (hopen : d.openRead path name = .ok f)
    (h : d.bytesAt path name 0 n = .error e) (hroom : 0 < n) :
    (fill d ⟨f, 0⟩ (List.replicate n 0) 0).1.outcome = .error e := by
  obtain ⟨hdeliveries, -⟩ := Disk.deliveries_of_bytesAt_error hopen h
  have htakes : Fill.Takes (List.replicate n 0) 0 [.failed e]
      (Fill.run (List.replicate n 0) 0 [.failed e]) :=
    Fill.takes_run (Nat.zero_le _)
  rw [fill_fst, List.length_replicate, Nat.sub_zero, hdeliveries]
  exact htakes.failed e rfl (by simpa [stream] using hroom)

end Handle

/-! ## The check -/

namespace Layout

open Disk

variable {d d' : Disk} {path : String} {i : Nat} {e : Error}

/-- The name leads to a regular file that starts with the tag. -/
def Marked (d : Disk) (path : String) (i : Nat) : Prop :=
  ∃ f c, d.openRead path (fileName i) = .ok f ∧ d.content? f = some c ∧ magic <+: c.bytes

/-- What is wrong with a file, told by a look at as many bytes as the tag has. -/
inductive Bad (d : Disk) (path : String) (i : Nat) : Error → Prop
  | missing (absent : d.bytesAt path (fileName i) 0 magic.length = .error .notFound) :
    Bad d path i (.notCreated (filePath path i))
  | unreadable {cause : OsError}
      (failed : d.bytesAt path (fileName i) 0 magic.length = .error cause)
      (other : cause ≠ .notFound) :
    Bad d path i (.fileIo (filePath path i) (.os cause))
  | short {bs : Bytes} (found : d.bytesAt path (fileName i) 0 magic.length = .ok bs)
      (less : bs.length < magic.length) :
    Bad d path i (.corruption i 0 .shortMagic)
  | different {bs : Bytes} (found : d.bytesAt path (fileName i) 0 magic.length = .ok bs)
      (whole : bs.length = magic.length) (differs : bs ≠ magic) :
    Bad d path i (.corruption i 0 .badMagic)

/-- The answer to what a look at the first bytes finds. -/
def verdict (path : String) (i : Nat) : Except OsError Bytes → Except Error Unit
  | .error .notFound => .error (.notCreated (filePath path i))
  | .error cause => .error (.fileIo (filePath path i) (.os cause))
  | .ok bs =>
    if bs.length < magic.length then .error (.corruption i 0 .shortMagic)
    else if bs = magic then .ok ()
    else .error (.corruption i 0 .badMagic)

theorem verdict_unreadable {cause : OsError} (h : cause ≠ .notFound) :
    verdict path i (.error cause) = .error (.fileIo (filePath path i) (.os cause)) := by
  unfold verdict
  split
  · rename_i hmissing
    exact absurd (Except.error.inj hmissing) h
  · rename_i hsame
    rw [Except.error.inj hsame]
  · rename_i hok
    cases hok

theorem verdict_ok {look : Except OsError Bytes} :
    verdict path i look = .ok () ↔ look = .ok magic := by
  constructor
  · intro h
    unfold verdict at h
    split at h
    · cases h
    · cases h
    · split at h
      · cases h
      · split at h
        · rename_i hsame
          rw [hsame]
        · cases h
  · rintro rfl
    rfl

theorem checkMagic_eq (d : Disk) (path : String) (i : Nat) :
    checkMagic d path i = verdict path i (d.bytesAt path (fileName i) 0 magic.length) := by
  unfold checkMagic
  cases hopen : d.openRead path (fileName i) with
  | error cause =>
    rw [bytesAt_closed hopen]
    cases cause <;> rfl
  | ok f =>
    dsimp only
    cases hlook : d.bytesAt path (fileName i) 0 magic.length with
    | error cause =>
      obtain ⟨-, rfl⟩ := deliveries_of_bytesAt_error hopen hlook
      rw [Handle.fill_failed hopen hlook (by decide)]
      rfl
    | ok bs =>
      obtain ⟨houtcome, hbuffer⟩ := Handle.fill_head hopen hlook
      rw [houtcome, hbuffer]
      dsimp only [verdict]
      split
      · rfl
      · rename_i hwhole
        rw [Nat.sub_eq_zero_of_le (Nat.le_of_not_lt hwhole), List.replicate_zero, List.append_nil]

theorem checkMagic_error : checkMagic d path i = .error e ↔ Bad d path i e := by
  rw [checkMagic_eq]
  constructor
  · intro h
    cases hlook : d.bytesAt path (fileName i) 0 magic.length with
    | error cause =>
      rw [hlook] at h
      by_cases hmissing : cause = .notFound
      · subst hmissing
        cases h
        exact .missing hlook
      · rw [verdict_unreadable hmissing] at h
        cases h
        exact .unreadable hlook hmissing
    | ok bs =>
      rw [hlook, verdict] at h
      split at h
      · rename_i hless
        cases h
        exact .short hlook hless
      · rename_i hwhole
        split at h
        · cases h
        · rename_i hdiffers
          cases h
          exact .different hlook
            (Nat.le_antisymm (length_bytesAt_le hlook) (Nat.le_of_not_lt hwhole)) hdiffers
  · intro h
    cases h with
    | missing absent => rw [absent, verdict]
    | unreadable failed other => rw [failed, verdict_unreadable other]
    | short found less => rw [found, verdict, if_pos less]
    | different found whole differs =>
      rw [found, verdict, if_neg (by omega), if_neg differs]

theorem marked_iff_bytesAt :
    Marked d path i ↔ d.bytesAt path (fileName i) 0 magic.length = .ok magic := by
  constructor
  · rintro ⟨f, c, hopen, hc, hprefix⟩
    rw [bytesAt_open hopen, content?_eq_some.1 hc]
    simp only [Content.slice_eq, List.drop_zero]
    rw [← List.prefix_iff_eq_take.1 hprefix]
  · intro h
    obtain ⟨f, hopen⟩ := openRead_of_bytesAt h
    rw [bytesAt_open hopen] at h
    split at h
    · rename_i c ho
      have hslice := Except.ok.inj h
      rw [Content.slice_eq, List.drop_zero] at hslice
      exact ⟨f, c, hopen, content?_eq_some.2 ho, List.prefix_iff_eq_take.2 hslice.symm⟩
    · cases h
    · exact absurd (Except.ok.inj h) (by decide)
    · exact absurd (Except.ok.inj h) (by decide)

theorem checkMagic_ok : checkMagic d path i = .ok () ↔ Marked d path i := by
  rw [checkMagic_eq, verdict_ok, marked_iff_bytesAt]

end Layout

/-! ## The report -/

namespace Verification

open Layout

variable {d : Disk} {path : String} {count i : Nat} {e : Error}

theorem failure?_eq_some {failure : Nat × Error} :
    failure? d path i = some failure ↔ failure.1 = i ∧ Bad d path i failure.2 := by
  obtain ⟨j, e⟩ := failure
  unfold failure?
  cases hcheck : checkMagic d path i with
  | ok =>
    have hgood : ∀ e, ¬ Bad d path i e := by
      intro e hbad
      rw [checkMagic_error.2 hbad] at hcheck
      cases hcheck
    simp [hgood]
  | error e' =>
    simp only [← checkMagic_error, hcheck, Option.some.injEq, Prod.mk.injEq, Except.error.injEq,
      eq_comm]

theorem mem_failures :
    (i, e) ∈ (ofDirectory d path count).failures ↔ i < count ∧ Bad d path i e := by
  simp only [ofDirectory, List.mem_filterMap, List.mem_range, failure?_eq_some]
  constructor
  · rintro ⟨j, hj, rfl, hbad⟩
    exact ⟨hj, hbad⟩
  · rintro ⟨hi, hbad⟩
    exact ⟨i, hi, rfl, hbad⟩

theorem exists_bad_iff : (∃ e, Bad d path i e) ↔ ¬ Marked d path i := by
  rw [← checkMagic_ok]
  simp only [← checkMagic_error]
  cases checkMagic d path i <;> simp

theorem passed_iff : (ofDirectory d path count).passed ↔ ∀ i < count, Marked d path i := by
  rw [passed, List.isEmpty_iff, List.eq_nil_iff_forall_not_mem]
  constructor
  · intro h i hi
    by_contra hbad
    obtain ⟨e, hbad⟩ := exists_bad_iff.2 hbad
    exact h (i, e) (mem_failures.2 ⟨hi, hbad⟩)
  · rintro h ⟨i, e⟩ hmem
    obtain ⟨hi, hbad⟩ := mem_failures.1 hmem
    exact exists_bad_iff.1 ⟨e, hbad⟩ (h i hi)

end Verification

end RecordStore
