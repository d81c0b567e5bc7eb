import RecordStore.Disk.Handle

/-!
# Filling a buffer from a source

A source hands out a stream of bytes, in pieces of its own choice and with interruptions, until it
ends or fails; it is given by its answers to the requests of one fill, in their order. A fill takes
the bytes of the stream that the buffer has room for, wherever the stream is cut; a failure is
reported if the stream stops at it before the buffer is full.
-/

namespace RecordStore

/-! ## What a source hands out -/

namespace Delivery

/-- The bytes until the source ends or fails. -/
def stream : List Delivery → Bytes
  | [] => []
  | .interrupted :: rest => stream rest
  | .failed _ :: _ => []
  | .piece bs :: rest => if bs.isEmpty then [] else bs ++ stream rest

/-- The failure at which the stream stops, if it does not stop at the end of the source. -/
def failure? : List Delivery → Option OsError
  | [] => none
  | .interrupted :: rest => failure? rest
  | .failed e :: _ => some e
  | .piece bs :: rest => if bs.isEmpty then none else failure? rest

def bytes : List Delivery → Bytes
  | [] => []
  | .piece bs :: rest => bs ++ bytes rest
  | _ :: rest => bytes rest

variable {bs : Bytes} {rest : List Delivery}

theorem stream_piece (h : bs ≠ []) : stream (.piece bs :: rest) = bs ++ stream rest := by
  simp [stream, h]

theorem failure?_piece (h : bs ≠ []) : failure? (.piece bs :: rest) = failure? rest := by
  simp [failure?, h]

theorem stream_singleton (bs : Bytes) :
    stream [.piece bs] = bs ∧ failure? [.piece bs] = none := by
  by_cases hnil : bs = []
  · simp [stream, failure?, hnil]
  · simp [stream, failure?]

theorem stream_of_plain {deliveries : List Delivery}
    (h : ∀ delivery ∈ deliveries, delivery = .interrupted ∨ ∃ bs, bs ≠ [] ∧ delivery = .piece bs) :
    stream deliveries = bytes deliveries ∧ failure? deliveries = none := by
  induction deliveries with
  | nil => exact ⟨rfl, rfl⟩
  | cons delivery rest ih =>
    obtain ⟨hfirst, hrest⟩ := List.forall_mem_cons.1 h
    obtain ⟨hstream, hfailure⟩ := ih hrest
    rcases hfirst with rfl | ⟨bs, hsome, rfl⟩
    · exact ⟨hstream, hfailure⟩
    · rw [stream_piece hsome, failure?_piece hsome, hstream]
      exact ⟨rfl, hfailure⟩

end Delivery

/-! ## What a fill takes -/

namespace Fill

open Delivery

variable {buffer bs : Bytes} {filled : Nat} {deliveries rest : List Delivery} {result : Fill}

theorem length_overwrite (h : filled + bs.length ≤ buffer.length) :
    (overwrite buffer filled bs).length = buffer.length := by
  simp [overwrite]
  omega

theorem take_overwrite (h : filled + bs.length ≤ buffer.length) :
    (overwrite buffer filled bs).take (filled + bs.length) = buffer.take filled ++ bs := by
  have hlength : (buffer.take filled ++ bs).length = filled + bs.length := by
    simp
    omega
  rw [overwrite, ← hlength, List.take_left]

theorem drop_overwrite (h : filled + bs.length ≤ buffer.length) (n : Nat) :
    (overwrite buffer filled bs).drop (filled + bs.length + n) =
      buffer.drop (filled + bs.length + n) := by
  have hlength : (buffer.take filled ++ bs).length = filled + bs.length := by
    simp
    omega
  rw [overwrite, ← List.drop_drop, ← hlength, List.drop_left, hlength, List.drop_drop]

/-- The result of filling a buffer from `filled` on, told by the stream alone. -/
structure Takes (buffer : Bytes) (filled : Nat) (deliveries : List Delivery) (result : Fill) :
    Prop where
  ended : failure? deliveries = none ∨ buffer.length ≤ filled + (stream deliveries).length →
    result.outcome = .ok (min buffer.length (filled + (stream deliveries).length))
  failed : ∀ e, failure? deliveries = some e →
    filled + (stream deliveries).length < buffer.length → result.outcome = .error e
  buffer_eq : result.buffer = buffer.take filled ++
    (stream deliveries).take (buffer.length - filled) ++
      buffer.drop (filled + (stream deliveries).length)
  /-- What is not in the buffer the source still has. -/
  conserved : bytes deliveries =
    (stream deliveries).take (buffer.length - filled) ++ bytes result.rest
  /-- After a full buffer the stream goes on with its next byte. -/
  goesOn : buffer.length ≤ filled + (stream deliveries).length →
    stream result.rest = (stream deliveries).drop (buffer.length - filled) ∧
      failure? result.rest = failure? deliveries

theorem takes_full (hfull : buffer.length = filled) :
    Takes buffer filled deliveries ⟨.ok filled, buffer, deliveries⟩ where
  ended _ := by simp [hfull]
  failed := by
    intro e _ hroom
    omega
  buffer_eq := by simp [← hfull]
  conserved := by simp [hfull]
  goesOn _ := by simp [hfull]

theorem takes_end (hle : filled ≤ buffer.length) (hstream : stream deliveries = [])
    (hfailure : failure? deliveries = none) (hbytes : bytes deliveries = bytes rest)
    (hrest : buffer.length = filled → rest = deliveries) :
    Takes buffer filled deliveries ⟨.ok filled, buffer, rest⟩ where
  ended _ := by simp [hstream, Nat.min_eq_right hle]
  failed := by simp [hfailure]
  buffer_eq := by simp [hstream]
  conserved := by simp [hstream, hbytes]
  goesOn := by
    intro hfull
    rw [hrest (by simp [hstream] at hfull; omega)]
    simp [hstream]

theorem takes_failed (hroom : filled < buffer.length) (e : OsError) :
    Takes buffer filled (.failed e :: rest) ⟨.error e, buffer, rest⟩ where
  ended := by
    intro hended
    simp [failure?, stream] at hended
    omega
  failed := by simp [failure?]
  buffer_eq := by simp [stream]
  conserved := by simp [stream, bytes]
  goesOn := by
    intro hfull
    simp [stream] at hfull
    omega

theorem Takes.interrupted (h : Takes buffer filled rest result) :
    Takes buffer filled (.interrupted :: rest) result :=
  ⟨h.ended, h.failed, h.buffer_eq, h.conserved, h.goesOn⟩

theorem Takes.piece (hsome : bs ≠ []) (hroom : filled + bs.length ≤ buffer.length)
    (h : Takes (overwrite buffer filled bs) (filled + bs.length) rest result) :
    Takes buffer filled (.piece bs :: rest) result := by
  obtain ⟨hended, hfailed, hbuffer, hconserved, hgoesOn⟩ := h
  rw [length_overwrite hroom] at hended hfailed hbuffer hconserved hgoesOn
  have hlength : filled + (bs ++ stream rest).length =
      filled + bs.length + (stream rest).length := by
    rw [List.length_append, Nat.add_assoc]
  have hsub : buffer.length - (filled + bs.length) = buffer.length - filled - bs.length := by omega
  have htake : (bs ++ stream rest).take (buffer.length - filled) =
      bs ++ (stream rest).take (buffer.length - (filled + bs.length)) := by
    rw [hsub, List.take_append, List.take_of_length_le (by omega)]
  have hdrop : (bs ++ stream rest).drop (buffer.length - filled) =
      (stream rest).drop (buffer.length - (filled + bs.length)) := by
    rw [hsub, List.drop_append, List.drop_eq_nil_of_le (by omega), List.nil_append]
  constructor
  · rwa [stream_piece hsome, failure?_piece hsome, hlength]
  · rwa [stream_piece hsome, failure?_piece hsome, hlength]
  · rw [stream_piece hsome, htake, hlength, hbuffer, take_overwrite hroom, drop_overwrite hroom]
    simp only [List.append_assoc]
  · rw [stream_piece hsome, htake, bytes, hconserved, List.append_assoc]
  · rwa [stream_piece hsome, failure?_piece hsome, hlength, hdrop]

theorem takes_cut (hroom : filled < buffer.length) (hlong : buffer.length - filled < bs.length) :
    Takes buffer filled (.piece bs :: rest)
      ⟨.ok buffer.length, overwrite buffer filled (bs.take (buffer.length - filled)),
        .piece (bs.drop (buffer.length - filled)) :: rest⟩ := by
  have hsome : bs ≠ [] := by
    rintro rfl
    simp at hlong
  have hsome' : bs.drop (buffer.length - filled) ≠ [] := by
    rw [Ne, List.drop_eq_nil_iff]
    omega
  have htake : (bs ++ stream rest).take (buffer.length - filled) =
      bs.take (buffer.length - filled) := List.take_append_of_le_length (by omega)
  have hlength : filled + (bs.take (buffer.length - filled)).length = buffer.length := by
    simp
    omega
  have hmore : buffer.length ≤ filled + (bs ++ stream rest).length := by
    rw [List.length_append]
    omega
  constructor
  · intro _
    rw [stream_piece hsome, Nat.min_eq_left hmore]
  · intro e _ hless
    rw [stream_piece hsome] at hless
    omega
  · rw [stream_piece hsome, htake, overwrite, hlength, List.drop_length,
      List.drop_eq_nil_of_le hmore]
  · rw [stream_piece hsome, htake, bytes, bytes, ← List.append_assoc, List.take_append_drop]
  · intro _
    rw [stream_piece hsome, stream_piece hsome', failure?_piece hsome, failure?_piece hsome',
      List.drop_append_of_le_length (by omega)]
    exact ⟨rfl, rfl⟩

/-- One case for each answer of the source. -/
theorem takes_run (hle : filled ≤ buffer.length) :
    Takes buffer filled deliveries (run buffer filled deliveries) := by
  fun_induction run buffer filled deliveries with
  | case1 buffer filled => exact takes_end hle rfl rfl rfl fun _ => rfl
  | case2 buffer filled delivery rest hfull => exact takes_full (Nat.le_antisymm hfull hle)
  | case3 buffer filled rest hroom ih => exact (ih hle).interrupted
  | case4 buffer filled rest hroom e => exact takes_failed (Nat.lt_of_not_le hroom) e
  | case5 buffer filled rest hroom bs hempty =>
    obtain rfl := List.isEmpty_iff.1 hempty
    exact takes_end hle rfl rfl rfl fun hfull => absurd (Nat.le_of_eq hfull) hroom
  | case6 buffer filled rest hroom bs room hsome hfits ih =>
    have hfits : filled + bs.length ≤ buffer.length := by omega
    refine Takes.piece (by simpa using hsome) hfits (ih ?_)
    rwa [length_overwrite hfits]
  | case7 buffer filled rest hroom bs room hsome hlong =>
    exact takes_cut (Nat.lt_of_not_le hroom) (Nat.lt_of_not_le hlong)

/-- A fill ends, and its result is told by the stream, however that is cut into pieces and wherever it
is interrupted. The buffer gets the bytes of the stream that it has room for, and no other byte is
taken from the source; their number is the answer, unless the stream stops at a failure before the
buffer is full, which is then the answer. A full buffer leaves the source where the stream goes on. -/
theorem told_by_stream (buffer : Bytes) (deliveries : List Delivery) :
    ((∀ delivery ∈ deliveries, delivery = .interrupted ∨ ∃ bs, bs ≠ [] ∧ delivery = .piece bs) →
      stream deliveries = bytes deliveries ∧ failure? deliveries = none) ∧
    (failure? deliveries = none ∨ buffer.length ≤ (stream deliveries).length →
      (run buffer 0 deliveries).outcome = .ok (min buffer.length (stream deliveries).length)) ∧
    (∀ e, failure? deliveries = some e → (stream deliveries).length < buffer.length →
      (run buffer 0 deliveries).outcome = .error e) ∧
    (run buffer 0 deliveries).buffer =
      (stream deliveries).take buffer.length ++ buffer.drop (stream deliveries).length ∧
    bytes deliveries =
      (stream deliveries).take buffer.length ++ bytes (run buffer 0 deliveries).rest ∧
    (buffer.length ≤ (stream deliveries).length →
      stream (run buffer 0 deliveries).rest = (stream deliveries).drop buffer.length ∧
      failure? (run buffer 0 deliveries).rest = failure? deliveries) ∧
    ∀ others, stream others = stream deliveries → failure? others = failure? deliveries →
      (run buffer 0 others).outcome = (run buffer 0 deliveries).outcome ∧
      (run buffer 0 others).buffer = (run buffer 0 deliveries).buffer := by
  have htakes : ∀ ds, Takes buffer 0 ds (run buffer 0 ds) := fun ds => takes_run (Nat.zero_le _)
  obtain ⟨hended, hfailed, hbuffer, hconserved, hgoesOn⟩ := htakes deliveries
  simp only [Nat.zero_add, Nat.sub_zero, List.take_zero, List.nil_append]
    at hended hfailed hbuffer hconserved hgoesOn
  refine ⟨stream_of_plain, hended, hfailed, hbuffer, hconserved, hgoesOn, ?_⟩
  intro others hstream hfailure
  have hothers := htakes others
  constructor
  · cases hstop : failure? deliveries with
    | none =>
      rw [hended (.inl hstop), hothers.ended (.inl (hfailure.trans hstop)), hstream, Nat.zero_add]
    | some e =>
      by_cases hfull : buffer.length ≤ (stream deliveries).length
      · rw [hended (.inr hfull), hothers.ended (.inr (by rwa [hstream, Nat.zero_add])), hstream,
          Nat.zero_add]
      · have hless := Nat.lt_of_not_le hfull
        rw [hfailed e hstop hless,
          hothers.failed e (hfailure.trans hstop) (by rwa [hstream, Nat.zero_add])]
  · rw [hbuffer, hothers.buffer_eq, hstream]
    simp

/-- The second piece is longer than the room that is left, and what does not fit waits. -/
example : (run [0, 0, 0] 0 [.piece [1, 2], .interrupted, .piece [3, 4]]).buffer = [1, 2, 3] ∧
    (run [0, 0, 0] 0 [.piece [1, 2], .interrupted, .piece [3, 4]]).rest = [.piece [4]] := by
  decide

end Fill

end RecordStore
