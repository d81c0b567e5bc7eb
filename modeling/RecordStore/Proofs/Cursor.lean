import Mathlib.Algebra.Ring.Nat
import RecordStore.Proofs.AddressSpace
import RecordStore.Proofs.Failure
import RecordStore.Proofs.HeaderClear
import RecordStore.Proofs.SegmentLife
import RecordStore.Proofs.Turns

/-!
# The cursor of a segment

A write call is refused by the first of its checks that fails, and then changes nothing. Otherwise it
gets the address at the cursor, and when it returns the cursor has moved past its record, and past
nothing else. The cursor stays between the base and the last offset that an address can hold.
-/

namespace RecordStore

open Record

/-! ## The checks of a write call -/

namespace Segment

/-- The record has a length that a header can hold, and ends where an address can. -/
def Fits (g : Segment) (data : Bytes) : Prop :=
  data.length ≤ maxLength ∧ g.next + encodedLength data.length ≤ Address.offsetMask

/-- What a write call of `data` answers: why it is refused, the arguments first, then a recorded
failure, then a flush; or else `success`. -/
structure Verdict {α : Type} (g : Segment) (flushed : Prop) (data : Bytes)
    (answer : Except Error α) (success : α) : Prop where
  invalid : (∃ refusal, answer = .error (.invalidArgument refusal)) ↔ ¬ g.Fits data
  tooLong : maxLength < data.length →
    answer = .error (.invalidArgument (.recordTooLong ⟨data.length⟩))
  tooFar : data.length ≤ maxLength →
    Address.offsetMask < g.next + encodedLength data.length → answer =
      .error (.invalidArgument (.address (.offsetTooLarge (g.next + encodedLength data.length))))
  failed : g.Fits data → ∀ f, g.writer.failure = some f → answer = .error (f.toError g.fileIndex)
  closed : g.Fits data → g.writer.failure = none → flushed →
    answer = .error (.segmentClosed g.fileIndex)
  succeeds : g.Fits data → g.writer.failure = none → ¬ flushed → answer = .ok success

variable {g k : Segment} {data : Bytes} {flushed : Prop}

theorem offsetBy_of_fits (hindex : g.fileIndex < Address.maxFileIndex) (h : g.Fits data) :
    g.nextAddress.offsetBy (encodedLength data.length) =
      .ok (Address.ofParts g.fileIndex (g.next + encodedLength data.length)) :=
  Address.offsetBy_ofParts hindex h.2

/-- The sum never leaves 64 bits, so the offset is all that can be too large. -/
theorem offsetBy_too_far (hindex : g.fileIndex < Address.maxFileIndex)
    (hroom : g.next ≤ Address.offsetMask) (hlength : data.length ≤ maxLength)
    (hfar : Address.offsetMask < g.next + encodedLength data.length) :
    g.nextAddress.offsetBy (encodedLength data.length) =
      .error (.offsetTooLarge (g.next + encodedLength data.length)) := by
  have hsize : ¬ UInt64.size ≤ g.next + encodedLength data.length := by
    have hword : UInt64.size = 18446744073709551616 := rfl
    rw [Address.offsetMask_eq] at hroom
    rw [maxLength] at hlength
    rw [encodedLength, headerSize]
    omega
  have hoffset := nextAddress_offset hindex hroom
  rw [Address.offsetBy_of_tooFar (by rwa [hoffset]), hoffset, Address.tooFar, if_neg hsize]

theorem accept_too_long (g : Segment) (hlong : maxLength < data.length) :
    g.accept data = .error (.invalidArgument (.recordTooLong ⟨data.length⟩)) := by
  unfold accept encodeHeader
  rw [if_pos hlong]

theorem accept_too_far (hindex : g.fileIndex < Address.maxFileIndex)
    (hroom : g.next ≤ Address.offsetMask) (hlength : data.length ≤ maxLength)
    (hfar : Address.offsetMask < g.next + encodedLength data.length) :
    g.accept data = .error (.invalidArgument
      (.address (.offsetTooLarge (g.next + encodedLength data.length)))) := by
  unfold accept encodeHeader
  rw [if_neg (Nat.not_lt_of_le hlength), offsetBy_too_far hindex hroom hlength hfar]

theorem accept_of_flushed (hindex : g.fileIndex < Address.maxFileIndex) (h : g.Fits data)
    (sound : g.writer.failure = none) (closed : g.writer.closed = true) :
    g.accept data = .error (.segmentClosed g.fileIndex) := by
  unfold accept
  rw [encodeHeader, if_neg (Nat.not_lt_of_le h.1), offsetBy_of_fits hindex h, sound, closed]
  rfl

theorem verdict_accept (hindex : g.fileIndex < Address.maxFileIndex)
    (hroom : g.next ≤ Address.offsetMask) (hflushed : g.writer.closed = true ↔ flushed)
    (data : Bytes) :
    g.Verdict flushed data (g.accept data)
      { g with pending := some (.ofRecord g.next data) } := by
  have hfailed : g.Fits data → ∀ f, g.writer.failure = some f →
      g.accept data = .error (f.toError g.fileIndex) := fun hfits f hf =>
    accept_of_failure hf hfits.1 (offsetBy_of_fits hindex hfits)
  have hclosed : g.Fits data → g.writer.failure = none → flushed →
      g.accept data = .error (.segmentClosed g.fileIndex) := fun hfits sound hflush =>
    accept_of_flushed hindex hfits sound (hflushed.2 hflush)
  have hsucceeds : g.Fits data → g.writer.failure = none → ¬ flushed →
      g.accept data = .ok { g with pending := some (.ofRecord g.next data) } := by
    intro hfits sound hflush
    have unclosed : g.writer.closed = false := Bool.eq_false_iff.2 fun h => hflush (hflushed.1 h)
    exact accept_of_room hfits.1 (offsetBy_of_fits hindex hfits) sound unclosed
  have htooFar : data.length ≤ maxLength →
      Address.offsetMask < g.next + encodedLength data.length → g.accept data =
        .error (.invalidArgument
          (.address (.offsetTooLarge (g.next + encodedLength data.length)))) :=
    accept_too_far hindex hroom
  refine ⟨⟨?_, fun hnot => ?_⟩, g.accept_too_long, htooFar, hfailed, hclosed, hsucceeds⟩
  · rintro ⟨refusal, hrefused⟩ hfits
    cases hf : g.writer.failure with
    | some f =>
      rw [hfailed hfits f hf, WriteFailure.toError] at hrefused
      cases hrefused
    | none =>
      by_cases hflush : flushed
      · rw [hclosed hfits hf hflush] at hrefused
        cases hrefused
      · rw [hsucceeds hfits hf hflush] at hrefused
        cases hrefused
  · by_cases hlong : maxLength < data.length
    · exact ⟨_, g.accept_too_long hlong⟩
    · have hlength := Nat.le_of_not_lt hlong
      exact ⟨_, htooFar hlength (Nat.lt_of_not_le fun hend => hnot ⟨hlength, hend⟩)⟩

theorem Verdict.map {α β : Type} {answer : Except Error α} {success : α}
    (h : g.Verdict flushed data answer success) (f : α → β) :
    g.Verdict flushed data (answer.map f) (f success) where
  invalid := by
    rw [← h.invalid]
    cases answer <;> simp [Except.map]
  tooLong hlong := by rw [h.tooLong hlong]; rfl
  tooFar hlength hfar := by rw [h.tooFar hlength hfar]; rfl
  failed hfits e he := by rw [h.failed hfits e he]; rfl
  closed hfits sound hflush := by rw [h.closed hfits sound hflush]; rfl
  succeeds hfits sound hflush := by rw [h.succeeds hfits sound hflush]; rfl

/-! ## What a step does to the cursor -/

/-- What a step makes of the cursor, of the record of a call under way and of the phase. -/
inductive Turned (id : SegmentId) (event : Event) (g k : Segment) : Prop where
  | stays (other : event ≠ .enqueue id) (next : k.next = g.next) (pending : k.pending = g.pending)
      (phase : k.phase = g.phase ∨ g.phase ≠ .leased)
  | accepts {data : Bytes}
      (called : event = .accept id data ∨ ∃ expected, event = .acceptAt id expected data)
      (idle : g.pending = none) (accepted : g.accept data = .ok k)
  | enqueues {r : Request} (called : event = .enqueue id) (there : g.pending = some r)
      (pending : k.pending = none) (next : k.next = g.next + encodedLength r.data.length)
      (phase : k.phase = g.phase)
  | closes (called : event = .closeQueue id) (next : k.next = g.next)
      (pending : k.pending = g.pending)

theorem pending_of_idle (h : g.idle) : g.pending = none := by
  simp only [idle, Bool.and_eq_true, Option.isNone_iff_eq_none] at h
  exact h.2

theorem turned_of_turn {id : SegmentId} {event : Event} {d : Disk}
    (hid : event.segment? = some id) (h : (event.turn g d).1 = some k) : g.Turned id event k := by
  cases event with
  | accept j data =>
    obtain rfl := Option.some.inj hid
    unfold Event.turn at h
    dsimp only at h
    split at h
    · rename_i hidle
      cases h
      cases haccept : g.accept data with
      | error e => exact .stays (by simp) rfl rfl (.inl rfl)
      | ok k => exact .accepts (.inl rfl) (pending_of_idle hidle) haccept
    · cases h
  | acceptAt j expected data =>
    obtain rfl := Option.some.inj hid
    unfold Event.turn at h
    dsimp only at h
    split at h
    · rename_i hidle
      cases h
      cases haccept : g.acceptAt expected data with
      | error e => exact .stays (by simp) rfl rfl (.inl rfl)
      | ok k =>
        exact .accepts (.inr ⟨expected, rfl⟩) (pending_of_idle hidle) (acceptAt_ok haccept).2
    · cases h
  | enqueue j =>
    obtain rfl := Option.some.inj hid
    have hmove : g.enqueue? = some k := h
    unfold enqueue? at hmove
    split at hmove
    · split at hmove
      · cases hmove
        exact .enqueues rfl ‹_› rfl rfl rfl
      · cases hmove
    · cases hmove
  | closeQueue j =>
    obtain rfl := Option.some.inj hid
    unfold Event.turn closeQueue at h
    dsimp only at h
    split at h
    · cases h
      split
      · exact .stays (by simp) rfl rfl (.inl rfl)
      · exact .stays (by simp) rfl rfl (.inl rfl)
      · exact .closes rfl rfl rfl
    · cases h
  | endFlush j =>
    have hend : g.endFlush? = some k := h
    unfold endFlush? at hend
    split at hend
    · rename_i hflushing
      cases hend
      exact .stays (by simp) rfl rfl (.inr (by simp [hflushing.1]))
    · cases hend
  | flushTimeout j =>
    unfold Event.turn at h
    dsimp only at h
    split at h
    · cases h
      exact .stays (by simp) rfl rfl (.inl rfl)
    · cases h
  | receive j fault =>
    unfold Event.turn at h
    dsimp only at h
    split at h
    · cases h
      exact .stays (by simp) rfl rfl (.inl rfl)
    · cases h
  | record j =>
    obtain ⟨w, -, rfl⟩ := Option.map_eq_some_iff.1 h
    exact .stays (by simp) rfl rfl (.inl rfl)
  | finish j fault =>
    obtain ⟨w, -, rfl⟩ := Option.map_eq_some_iff.1 h
    exact .stays (by simp) rfl rfl (.inl rfl)
  | _ => cases hid

end Segment

theorem Writer.receive?_open {w v : Writer} {d d' : Disk} {fault : Option Disk.Fault}
    (h : w.receive? d fault = some (v, d')) :
    v.depth = w.depth ∧ v.closed = w.closed ∧ v.failing.toList.length ≤ 1 := by
  unfold receive? at h
  split at h
  · rename_i hknown _
    split at h
    · cases h
      exact ⟨rfl, rfl, by simp [hknown]⟩
    · split at h <;> cases h
      · exact ⟨rfl, rfl, by simp [hknown]⟩
      · exact ⟨rfl, rfl, by simp⟩
  · cases h

namespace Store

variable {s t u : Store} {id : SegmentId} {g : Segment} {event : Event}

theorem segments_closePool (s : Store) (id : PoolId) : (s.closePool id).segments = s.segments := by
  unfold closePool
  split
  · split
    · rw [segments_dropOwner, segments_setPool]
    · rfl
  · rfl

theorem segments_startLease (s : Store) (id : PoolId) (p : Pool) (i : Nat)
    (fault : Option LeaseFault) :
    ∃ leased, (s.startLease id p i fault).2.segments = s.segments ++ leased := by
  unfold startLease
  split
  · exact ⟨[], (List.append_nil _).symm⟩
  · dsimp only
    split
    · exact ⟨[], (List.append_nil _).symm⟩
    · split
      · exact ⟨[], (List.append_nil _).symm⟩
      · exact ⟨[_], rfl⟩

theorem exists_segment_of_step (hid : event.segment? = some id) (h : s.step? event = some t) :
    ∃ g, s.segments[id]? = some g := by
  cases hg : s.segments[id]? with
  | some g => exact ⟨g, rfl⟩
  | none =>
    cases event <;> cases hid <;> simp [step?, idle?, hg] at h

theorem segment_of_other (hother : event.segment? ≠ some id) (h : s.step? event = some t)
    (hg : s.segments[id]? = some g) :
    ∃ k, t.segments[id]? = some k ∧ (k = g ∨ k = { g with released := true }) := by
  have hsame : t.segments = s.segments →
      ∃ k, t.segments[id]? = some k ∧ (k = g ∨ k = { g with released := true }) :=
    fun hsegments => ⟨g, by rw [hsegments, hg], .inl rfl⟩
  cases hid : event.segment? with
  | some j =>
    have hj : j ≠ id := by
      rintro rfl
      exact hother hid
    obtain ⟨q, hq⟩ := exists_segment_of_step hid h
    rw [step?_eq_turn hid hq] at h
    obtain ⟨k, -, rfl⟩ := Option.map_eq_some_iff.1 h
    exact ⟨g, by rw [segments_install, List.getElem?_set_ne hj, hg], .inl rfl⟩
  | none =>
    cases event with
    | create path config =>
      obtain rfl := Option.some.inj h
      exact hsame rfl
    | openPool path config =>
      obtain rfl := Option.some.inj h
      refine hsame ?_
      unfold addPool
      split <;> rfl
    | closePool j =>
      obtain ⟨p, -, h⟩ := Option.bind_eq_some_iff.1 h
      split at h
      · obtain rfl := Option.some.inj h
        exact hsame (segments_closePool s j)
      · cases h
    | take j =>
      obtain ⟨⟨i, q⟩, -, h⟩ := Option.bind_eq_some_iff.1 h
      obtain rfl := Option.some.inj h
      exact hsame rfl
    | startLease j i fault =>
      obtain ⟨p, hp, h⟩ := Option.bind_eq_some_iff.1 h
      split at h
      · obtain rfl := Option.some.inj h
        obtain ⟨leased, hsegments⟩ := segments_startLease s j p i fault
        refine ⟨g, ?_, .inl rfl⟩
        rw [hsegments, List.getElem?_append_left (List.getElem?_eq_some_iff.1 hg).1, hg]
      · cases h
    | lockTimeout j =>
      obtain ⟨p, -, h⟩ := Option.bind_eq_some_iff.1 h
      split at h
      · obtain rfl := Option.some.inj h
        exact hsame rfl
      · cases h
    | handleReturn j | select j =>
      obtain ⟨p, -, h⟩ := Option.bind_eq_some_iff.1 h
      obtain ⟨q, -, h⟩ := Option.bind_eq_some_iff.1 h
      obtain rfl := Option.some.inj h
      exact hsame rfl
    | release j =>
      obtain ⟨q, hq, -, -, rfl⟩ := step_release h
      by_cases hj : j = id
      · subst hj
        obtain rfl := Option.some.inj (hq.symm.trans hg)
        refine ⟨_, ?_, .inr rfl⟩
        rw [segments_release, List.getElem?_set_self (List.getElem?_eq_some_iff.1 hg).1]
      · exact ⟨g, by rw [segments_release, List.getElem?_set_ne hj, hg], .inl rfl⟩
    | read j a buffer =>
      obtain rfl := Option.some.inj h
      refine hsame ?_
      unfold read
      split <;> rfl
    | _ => cases hid

theorem turned_of_step (h : s.step? event = some t) (hg : s.segments[id]? = some g) :
    ∃ k, t.segments[id]? = some k ∧ g.Turned id event k := by
  by_cases hid : event.segment? = some id
  · rw [step?_eq_turn hid hg] at h
    obtain ⟨k, hturn, rfl⟩ := Option.map_eq_some_iff.1 h
    refine ⟨k, ?_, Segment.turned_of_turn hid hturn⟩
    rw [segments_install, List.getElem?_set_self (List.getElem?_eq_some_iff.1 hg).1]
  · have hother : event ≠ .enqueue id := by
      rintro rfl
      exact hid rfl
    obtain ⟨k, hk, rfl | rfl⟩ := segment_of_other hid h hg
    · exact ⟨k, hk, .stays hother rfl rfl (.inl rfl)⟩
    · exact ⟨_, hk, .stays hother rfl rfl (.inl rfl)⟩

/-! ## Flushes -/

theorem closeQueue_mem_of_phase {d : Disk} {events : List Event}
    (hrun : (ofDisk d).run? events = some s) (hg : s.segments[id]? = some g)
    (hphase : g.phase ≠ .leased) : .closeQueue id ∈ events := by
  have hall : ∀ g, s.segments[id]? = some g → g.phase ≠ .leased → .closeQueue id ∈ events := by
    refine run_rec (P := fun s events => ∀ g, s.segments[id]? = some g → g.phase ≠ .leased →
      .closeQueue id ∈ events) hrun (fun g hg => by simp [ofDisk] at hg)
      fun u before event v _ _ ih hstep k hk hphase => ?_
    rw [List.mem_append, List.mem_singleton]
    cases hq : u.segments[id]? with
    | none =>
      obtain ⟨pool, i, base, file, config, started⟩ := started_of_step hstep hk hq
      obtain ⟨-, -, rfl⟩ := Segment.start_ok started
      exact absurd rfl hphase
    | some q =>
      obtain ⟨k', hk', hturned⟩ := turned_of_step hstep hq
      obtain rfl := Option.some.inj (hk'.symm.trans hk)
      cases hturned with
      | stays _ _ _ hsame =>
        rcases hsame with hsame | hearlier
        · exact .inl (ih q hq (hsame ▸ hphase))
        · exact .inl (ih q hq hearlier)
      | accepts _ _ accepted =>
        obtain ⟨-, -, -, -, rfl⟩ := Segment.accept_ok accepted
        exact .inl (ih q hq hphase)
      | enqueues _ _ _ _ hsame => exact .inl (ih q hq (hsame ▸ hphase))
      | closes called => exact .inr called.symm
  exact hall g hg hphase

theorem closed_iff_flushed {d : Disk} {events : List Event}
    (hrun : (ofDisk d).run? events = some s) (hg : s.segments[id]? = some g) :
    g.writer.closed = true ↔ .closeQueue id ∈ events := by
  have horderly := (along_of_run Segment.orderly_invariant hrun).each hg
  rw [horderly.closed]
  constructor
  · exact closeQueue_mem_of_phase hrun hg
  · intro hflush
    obtain ⟨k, hk, hsealed⟩ := sealed_of_run hrun hflush
    obtain rfl := Option.some.inj (hk.symm.trans hg)
    exact hsealed.flushed

/-! ## Room in the queue -/

def Queues (s : Store) : Prop :=
  ∀ (id : SegmentId) (g : Segment), s.segments[id]? = some g → 0 < g.writer.depth

theorem Queues.change {ns : History} (h : s.Queues) (hs : s.Coherent)
    (hc : s.Change event ns t) : t.Queues := by
  have hset : ∀ {j : SegmentId} {q k l : Segment} {i : SegmentId}, s.segments[j]? = some q →
      k.writer.depth = q.writer.depth → (s.segments.set j k)[i]? = some l →
      0 < l.writer.depth := by
    intro j q k l i hq hdepth hl
    rcases of_getElem?_set hl with ⟨rfl, rfl⟩ | ⟨-, hl⟩
    · rw [hdepth]
      exact h _ _ hq
    · exact h _ _ hl
  intro i l hl
  cases hc with
  | closePool =>
    rw [segments_dropOwner] at hl
    exact h i l hl
  | lease there received started =>
    rcases of_getElem?_concat hl with hl | ⟨-, rfl⟩
    · exact h i l hl
    · obtain ⟨-, -, rfl⟩ := Segment.start_ok started
      exact ((Config.valid_iff _).1 (hs.valid there).1).2.1
  | segment there move =>
    refine hset there ?_ hl
    cases move with
    | accept live idle accepted =>
      obtain ⟨-, -, -, -, rfl⟩ := Segment.accept_ok accepted
      rfl
    | _ => rfl
  | @finish j q there =>
    rw [segments_dropOwner] at hl
    exact hset (k := q.finish) there rfl hl
  | @release j q there => exact hset (k := { q with released := true }) there rfl hl
  | _ => exact h i l hl

theorem queues_of_run {d : Disk} {events : List Event} (hrun : (ofDisk d).run? events = some s) :
    s.Queues := by
  have hall : s.Coherent ∧ s.Queues :=
    run_induction (P := fun s _ => s.Coherent ∧ s.Queues) hrun
      ⟨coherent_ofDisk d, fun _ _ hg => by simp [ofDisk] at hg⟩
      fun u _ event v _ hu hstep =>
        ⟨hu.1.change (change_of_step hstep), hu.2.change hu.1 (change_of_step hstep)⟩
  exact hall.2

/-- What the writer of a segment does by itself, if no failure is added. -/
def Works (id : SegmentId) (event : Event) : Prop := event = .receive id none ∨ event = .record id

theorem exists_room (hg : s.segments[id]? = some g) (hdepth : 0 < g.writer.depth)
    (unclosed : g.writer.closed = false) {r : Request} (pending : g.pending = some r) :
    ∃ later t, (∀ event ∈ later, Works id event) ∧ s.run? (later ++ [.enqueue id]) = some t := by
  generalize hn : 2 * g.writer.queue.length + g.writer.failing.toList.length = n
  induction n using Nat.strongRecOn generalizing s g with
  | ind n ih =>
    have hnext : ∀ {event : Event} {u : Store} {k : Segment}, Works id event →
        s.step? event = some u → u.segments[id]? = some k → 0 < k.writer.depth →
        k.writer.closed = false → k.pending = some r →
        2 * k.writer.queue.length + k.writer.failing.toList.length < n →
        ∃ later t, (∀ event ∈ later, Works id event) ∧
          s.run? (later ++ [.enqueue id]) = some t := by
      intro event u k hworks hstep hk hdepth unclosed pending hless
      obtain ⟨later, t, hlater, hrun⟩ := ih _ hless hk hdepth unclosed pending rfl
      refine ⟨event :: later, t, ?_, ?_⟩
      · rintro e he
        rcases List.mem_cons.1 he with rfl | he
        · exact hworks
        · exact hlater e he
      · rw [List.cons_append, run?_cons, hstep]
        exact hrun
    have hset : ∀ k, (s.segments.set id k)[id]? = some k := fun k =>
      List.getElem?_set_self (List.getElem?_eq_some_iff.1 hg).1
    by_cases hroom : g.writer.queue.length < g.writer.depth
    · obtain ⟨t, hstep, -⟩ := step_enqueue hg pending unclosed hroom
      refine ⟨[], t, by simp, ?_⟩
      rw [List.nil_append, run?_cons, hstep]
      rfl
    · cases hknown : g.writer.failing with
      | some f =>
        have hstep : s.step? (.record id) = some (s.setSegment id
            { g with writer := { g.writer with failing := none, failure := some f } }) := by
          simp [step?, hg, Writer.record?, hknown]
        refine hnext (.inr rfl) hstep (hset _) hdepth unclosed pending ?_
        simp [← hn, hknown]
      | none =>
        cases hqueue : g.writer.queue with
        | nil =>
          rw [hqueue] at hroom
          exact absurd hdepth hroom
        | cons first rest =>
          obtain ⟨w, d, hreceive, hrest, -⟩ := Writer.receive_of_queue hknown hqueue s.disk
          obtain ⟨hdepth', hclosed, hfailing⟩ := Writer.receive?_open hreceive
          have hstep : s.step? (.receive id none) =
              some { s.setSegment id { g with writer := w } with disk := d } := by
            simp [step?, hg, hreceive]
          refine hnext (k := { g with writer := w }) (.inl rfl) hstep (hset _) (hdepth' ▸ hdepth)
            (hclosed.trans unclosed) pending ?_
          rw [hqueue, List.length_cons] at hn
          show 2 * w.queue.length + w.failing.toList.length < n
          rw [hrest]
          omega

end Store

/-! ## Calls on a settled store -/

namespace Writer

variable {w v : Writer} {d : Disk}

theorem drainQueue_open (queue : List Request) (d : Disk) (w : Writer) :
    (w.drainQueue d queue).1.closed = w.closed ∧ (w.drainQueue d queue).1.depth = w.depth ∧
      ((w.drainQueue d queue).1.queue = [] ∨ (w.drainQueue d queue).1.failing.isSome) := by
  induction queue generalizing d with
  | nil => exact ⟨rfl, rfl, .inl rfl⟩
  | cons r rest ih =>
    unfold drainQueue
    split
    · exact ih d
    · split
      · exact ih _
      · exact ⟨rfl, rfl, .inr rfl⟩

theorem record_known (w : Writer) : (w.recordUnless false).failing = none ∧
    (w.recordUnless false).closed = w.closed ∧ (w.recordUnless false).depth = w.depth ∧
    (w.recordUnless false).queue = w.queue ∧
    (w.failing.isSome → (w.recordUnless false).failure.isSome) := by
  unfold recordUnless record?
  cases hfailing : w.failing <;> simp [hfailing]

theorem drain_recorded (w : Writer) (d : Disk) :
    ((w.recordUnless false).drain d).1.closed = w.closed ∧
      ((w.recordUnless false).drain d).1.depth = w.depth ∧
      (((w.recordUnless false).drain d).1.queue = [] ∨
        ((w.recordUnless false).drain d).1.failing.isSome) ∧
      (w.queue = [] ∨ w.failing.isSome → ((w.recordUnless false).drain d).1.queue = []) := by
  obtain ⟨hknown, hclosed, hdepth, hsame, hfailure⟩ := w.record_known
  obtain ⟨hclosed', hdepth', hqueue⟩ :=
    drainQueue_open (w.recordUnless false).queue d (w.recordUnless false)
  unfold drain
  rw [if_neg (by simp [hknown])]
  refine ⟨hclosed'.trans hclosed, hdepth'.trans hdepth, hqueue, ?_⟩
  rintro (hempty | hfailing)
  · rw [hsame, hempty]
    rfl
  · obtain ⟨f, hf⟩ := Option.isSome_iff_exists.1 (hfailure hfailing)
    rw [drainQueue_of_failure hf]

/-- A writer whose queue is open and that may record failures waits when its queue is empty. -/
theorem settle_open (hopen : w.closed = false) (d : Disk) :
    (w.settle false d).1.queue = [] ∧ (w.settle false d).1.closed = false ∧
      (w.settle false d).1.depth = w.depth := by
  have hend : ∀ {v : Writer} {d : Disk}, v.closed = false → v.settleEnd d = v := by
    intro v d hv
    unfold settleEnd finish?
    simp [hv]
  obtain ⟨hclosed, hdepth, hfirst, -⟩ := w.drain_recorded d
  obtain ⟨hclosed', hdepth', hsecond, hagain⟩ :=
    ((w.recordUnless false).drain d).1.drain_recorded ((w.recordUnless false).drain d).2
  unfold settle
  dsimp only
  rw [hend (by rw [hclosed', hclosed, hopen])]
  exact ⟨hagain hfirst, by rw [hclosed', hclosed, hopen], hdepth'.trans hdepth⟩

end Writer

theorem Segment.settle_pending {g : Segment} {r : Request} (hpending : g.pending = some r)
    (hopen : g.writer.closed = false) (hdepth : 0 < g.writer.depth) (d : Disk) :
    (g.settle false d).1.pending = none ∧ (g.settle false d).1.fileIndex = g.fileIndex ∧
      (g.settle false d).1.next = g.next + encodedLength r.data.length := by
  obtain ⟨hempty, hopen', hdepth'⟩ := Writer.settle_open hopen d
  have henqueue : ({ g with writer := (g.writer.settle false d).1 } : Segment).enqueue? =
      some { g with
        pending := none
        next := g.next + encodedLength r.data.length
        writer := { (g.writer.settle false d).1 with
          queue := (g.writer.settle false d).1.queue ++ [r] } } := by
    unfold enqueue?
    simp [hpending, hempty, hopen', hdepth', hdepth]
  unfold settle
  dsimp only
  rw [henqueue]
  exact ⟨rfl, rfl, rfl⟩

namespace Store

variable {s : Store} {id : SegmentId} {g : Segment} {data : Bytes}

/-- What a call leaves that has been answered: the store as it was, if the call was refused, and else
the segment with its cursor behind the record. -/
structure Advances (s : Store) (id : SegmentId) (g : Segment) (data : Bytes)
    (answer : Except Error Address) (t : Store) : Prop where
  refused : ∀ e, answer = .error e → t = s
  moved : ∀ a, answer = .ok a → ∃ k, t.segments[id]? = some k ∧ k.pending = none ∧
    k.fileIndex = g.fileIndex ∧ k.next = g.next + encodedLength data.length

theorem finishWrite_answers (hprompt : s.failuresHeld = false) (hg : s.segments[id]? = some g)
    (hdepth : 0 < g.writer.depth) (data : Bytes) {answer : Segment → Address} {a : Address}
    (hanswer : ∀ k, k.fileIndex = g.fileIndex →
      k.next = g.next + encodedLength data.length → answer k = a) :
    (s.finishWrite id (g.accept data) answer).1 = some ((g.accept data).map fun _ => a) ∧
      s.Advances id g data ((g.accept data).map fun _ => a)
        (s.finishWrite id (g.accept data) answer).2 := by
  cases haccept : g.accept data with
  | error e => exact ⟨rfl, fun _ _ => rfl, fun a ha => by cases ha⟩
  | ok h =>
    obtain ⟨-, -, -, hopen, rfl⟩ := Segment.accept_ok haccept
    obtain ⟨hidle, hindex, hnext⟩ :=
      Segment.settle_pending (g := { g with pending := some ⟨g.next, header data.length, data⟩ })
        rfl hopen hdepth s.disk
    rw [finishWrite_of_ok (h := { g with pending := some ⟨g.next, header data.length, data⟩ })
      hprompt hg rfl rfl answer]
    refine ⟨?_, fun e he => (by cases he), fun _ _ => ⟨_, ?_, hidle, hindex, hnext⟩⟩
    · rw [hidle, hanswer _ hindex hnext]
      rfl
    · rw [segments_install, List.getElem?_set_self (List.getElem?_eq_some_iff.1 hg).1]

/-! ## The law -/

/-- What is known of the cursor of the segment after the events of a run, given the notices on it. -/
structure CursorLaw (s : Store) (events : List Event) (ns : List Notice) (id : SegmentId)
    (g : Segment) : Prop where
  bounds : g.base ≤ g.next ∧ g.next ≤ Address.offsetMask
  address : g.nextAddress.fileIndex = g.fileIndex ∧ g.nextAddress.offset = g.next
  /-- Only writes that have returned count. -/
  written : g.base + g.bytesWritten = g.next ∧
    g.bytesWritten = ((Notice.writes ns).map fun w => encodedLength w.2.length).sum
  verdict : ∀ data, g.Verdict (.closeQueue id ∈ events) data (g.accept data)
    { g with pending := some (.ofRecord g.next data) }
  verdictAt : ∀ expected data,
    (expected = g.nextAddress → g.acceptAt expected data = g.accept data) ∧
      (expected ≠ g.nextAddress → g.acceptAt expected data =
        .error (.invalidArgument (.notAtCursor expected g.nextAddress)))
  /-- A call that is refused changes nothing. -/
  refused : ∀ (event : Event) (t : Store) (e : Error) (data : Bytes) (expected : Address),
    event = .accept id data ∧ g.accept data = .error e ∨
      event = .acceptAt id expected data ∧ g.acceptAt expected data = .error e →
    s.step? event = some t → t = s
  /-- The cursor moves when a call returns that was accepted, by its record, and at no other time. -/
  moves : ∀ (event : Event) (t : Store), s.step? event = some t →
    ∃ k, t.segments[id]? = some k ∧ k.fileIndex = g.fileIndex ∧ k.base = g.base ∧
      (event ≠ .enqueue id → k.next = g.next ∧ (g.pending.isSome → k.pending = g.pending)) ∧
      (event = .enqueue id → ∃ r, g.pending = some r ∧ k.pending = none ∧
        k.next = g.next + encodedLength r.data.length ∧
        s.notices event = [(id, .wrote g.nextAddress r.data)])
  /-- A call that was accepted returns once the writer has made room. -/
  returns : ∀ r, g.pending = some r → ∃ later t, (∀ event ∈ later, Works id event) ∧
    s.run? (later ++ [.enqueue id]) = some t
  /-- Until then the address at the cursor passes the check of the next call. -/
  follows : ∀ (later : List Event) (t : Store), s.run? later = some t → .enqueue id ∉ later →
    ∃ k, t.segments[id]? = some k ∧ k.nextAddress = g.nextAddress ∧
      ∀ data, k.acceptAt g.nextAddress data = k.accept data
  write : g.released = false → g.pending = none → ∀ data, ∃ answer,
    (s.write id data).1 = some answer ∧
      g.Verdict (.closeQueue id ∈ events) data answer g.nextAddress ∧
      s.Advances id g data answer (s.write id data).2
  writeAt : g.released = false → g.pending = none → ∀ expected data,
    (expected ≠ g.nextAddress → s.writeAt id expected data =
      (some (.error (.invalidArgument (.notAtCursor expected g.nextAddress))), s)) ∧
    (expected = g.nextAddress → ∃ answer, (s.writeAt id expected data).1 = some answer ∧
      g.Verdict (.closeQueue id ∈ events) data answer
        (Address.ofParts g.fileIndex (g.next + encodedLength data.length)) ∧
      s.Advances id g data answer (s.writeAt id expected data).2)

theorem moves_of_step {event : Event} {t : Store} (h : s.step? event = some t)
    (hg : s.segments[id]? = some g) :
    ∃ k, t.segments[id]? = some k ∧ k.fileIndex = g.fileIndex ∧ k.base = g.base ∧
      (event ≠ .enqueue id → k.next = g.next ∧ (g.pending.isSome → k.pending = g.pending)) ∧
      (event = .enqueue id → ∃ r, g.pending = some r ∧ k.pending = none ∧
        k.next = g.next + encodedLength r.data.length ∧
        s.notices event = [(id, .wrote g.nextAddress r.data)]) := by
  obtain ⟨k, hk, hturned⟩ := turned_of_step h hg
  obtain ⟨k', hk', hlater⟩ := (change_of_step h).kept (k := []) g.later_kept hg (.refl g)
  obtain rfl := Option.some.inj (hk'.symm.trans hk)
  refine ⟨k', hk, hlater.fileIndex, hlater.base, fun hother => ?_, ?_⟩
  · cases hturned with
    | stays _ next pending => exact ⟨next, fun _ => pending⟩
    | accepts _ idle accepted =>
      obtain ⟨-, -, -, -, rfl⟩ := Segment.accept_ok accepted
      exact ⟨rfl, fun hpending => by simp [idle] at hpending⟩
    | enqueues called => exact absurd called hother
    | closes _ next pending => exact ⟨next, fun _ => pending⟩
  · rintro rfl
    cases hturned with
    | @enqueues r _ there pending next =>
      refine ⟨r, there, pending, next, ?_⟩
      rw [notices, noticesOn_of_some hg, there]
      rfl
    | stays other => exact absurd rfl other
    | accepts called =>
      rcases called with called | ⟨_, called⟩ <;> cases called
    | closes called => cases called

theorem nextAddress_of_run {later : List Event} {t : Store} (hrun : s.run? later = some t)
    (hnone : .enqueue id ∉ later) (hg : s.segments[id]? = some g) :
    ∃ k, t.segments[id]? = some k ∧ k.nextAddress = g.nextAddress := by
  have hstays : ∃ k, t.segments[id]? = some k ∧ k.fileIndex = g.fileIndex ∧ k.next = g.next := by
    refine run_rec (P := fun t _ => ∃ k, t.segments[id]? = some k ∧ k.fileIndex = g.fileIndex ∧
      k.next = g.next) hrun ⟨g, hg, rfl, rfl⟩ fun u _ event v he _ hu hstep => ?_
    obtain ⟨k, hk, hindex, hnext⟩ := hu
    obtain ⟨l, hl, hindex', -, hsame, -⟩ := moves_of_step hstep hk
    have hother : event ≠ .enqueue id := by
      rintro rfl
      exact hnone he
    exact ⟨l, hl, hindex'.trans hindex, (hsame hother).1.trans hnext⟩
  obtain ⟨k, hk, hindex, hnext⟩ := hstays
  exact ⟨k, hk, by rw [Segment.nextAddress, Segment.nextAddress, hindex, hnext]⟩

theorem step_refused {event : Event} {t : Store} {e : Error} {expected : Address}
    (hg : s.segments[id]? = some g)
    (hrefused : event = .accept id data ∧ g.accept data = .error e ∨
      event = .acceptAt id expected data ∧ g.acceptAt expected data = .error e)
    (h : s.step? event = some t) : t = s := by
  rcases hrefused with ⟨rfl, hrefused⟩ | ⟨rfl, hrefused⟩
  · obtain ⟨q, hq, h⟩ := Option.bind_eq_some_iff.1 h
    obtain rfl := Option.some.inj ((idle?_eq_some.1 hq).1.symm.trans hg)
    rw [hrefused] at h
    exact (Option.some.inj h).symm
  · obtain ⟨q, hq, h⟩ := Option.bind_eq_some_iff.1 h
    obtain rfl := Option.some.inj ((idle?_eq_some.1 hq).1.symm.trans hg)
    rw [hrefused] at h
    exact (Option.some.inj h).symm

end Store

namespace Record

theorem length_encodeAll (records : List Bytes) :
    (encodeAll records).length = (records.map fun data => encodedLength data.length).sum := by
  simp [encodeAll, List.length_flatMap]

end Record

namespace Segment

variable {g : Segment} {ns : List Notice} {handled waiting : List Bytes}

theorem Carries.bytesWritten (h : g.Carries ns handled waiting) :
    g.base + g.bytesWritten = g.next ∧
      g.bytesWritten = ((Notice.writes ns).map fun w => encodedLength w.2.length).sum := by
  have hwritten : g.bytesWritten = (encodeAll (handled ++ waiting)).length := by
    rw [Segment.bytesWritten, h.next, Nat.add_sub_cancel_left]
  refine ⟨by rw [hwritten, ← h.next], ?_⟩
  rw [hwritten, length_encodeAll, h.writes, List.map_map]
  exact congrArg List.sum ((congrArg (List.map fun data => encodedLength data.length)
    (map_snd_placed g.base (handled ++ waiting))).symm.trans List.map_map)

end Segment

namespace Store

variable {s : Store}

/-- Every segment of every run obeys the law of the cursor, whatever its writer meets. -/
theorem cursor_law {d : Disk} {events : List Event}
    (hrun : (ofDisk d).run? events = some s) {id : SegmentId} {g : Segment}
    (hg : s.segments[id]? = some g) :
    s.CursorLaw events (((ofDisk d).history events).on id) id g := by
  obtain ⟨-, handled, waiting, hcarries⟩ :=
    (along_of_run Segment.carrying_invariant hrun).each hg
  have horderly := (along_of_run Segment.orderly_invariant hrun).each hg
  have hdepth := queues_of_run hrun id g hg
  have hprompt := (coherent_of_amid (amid_of_run hrun)).prompt
  have hverdict := Segment.verdict_accept hcarries.index hcarries.room (closed_iff_flushed hrun hg)
  exact {
    bounds := ⟨by rw [hcarries.next]; omega, hcarries.room⟩
    address := ⟨Address.fileIndex_ofParts hcarries.index hcarries.room,
      Segment.nextAddress_offset hcarries.index hcarries.room⟩
    written := hcarries.bytesWritten
    verdict := hverdict
    verdictAt := fun expected data => ⟨fun h => if_pos h, fun h => if_neg h⟩
    refused := fun event t e data expected hrefused hstep => step_refused hg hrefused hstep
    moves := fun event t hstep => moves_of_step hstep hg
    returns := fun r hr => by
      have hphase := horderly.pending (by rw [hr]; rfl)
      have unclosed : g.writer.closed = false :=
        Bool.eq_false_iff.2 fun hclosed => horderly.closed.1 hclosed hphase
      exact exists_room hg hdepth unclosed hr
    follows := fun later t hlater hnone => by
      obtain ⟨k, hk, hsame⟩ := nextAddress_of_run hlater hnone hg
      exact ⟨k, hk, hsame, fun data => if_pos hsame.symm⟩
    write := fun live idle data => by
      have hanswers : _ ∧ s.Advances id g data _ (s.finishWrite id (g.accept data)
          fun _ => g.nextAddress).2 :=
        finishWrite_answers hprompt hg hdepth data fun _ _ _ => rfl
      unfold write
      rw [hg]
      exact ⟨_, hanswers.1, (hverdict data).map fun _ => g.nextAddress, hanswers.2⟩
    writeAt := fun live idle expected data => by
      unfold writeAt
      rw [hg]
      refine ⟨fun hne => ?_, fun heq => ?_⟩
      · dsimp only
        rw [Segment.acceptAt, if_neg hne]
        rfl
      · have hanswers : _ ∧ s.Advances id g data _ (s.finishWrite id (g.accept data)
            Segment.nextAddress).2 :=
          finishWrite_answers hprompt hg hdepth data fun k hindex hnext => by
            rw [Segment.nextAddress, hindex, hnext]
        dsimp only
        rw [Segment.acceptAt, if_pos heq]
        exact ⟨_, hanswers.1, (hverdict data).map fun _ => _, hanswers.2⟩ }

/-- A record is queued, and the call with the address behind it has passed its checks. -/
def secondUnderWay : List Event :=
  [.create "db" { fileCount := 1 }, .openPool "db" { fileCount := 1 }, .select 0, .take 0,
    .startLease 0 0 none, .accept 0 [7], .enqueue 0, .acceptAt 0 (.ofParts 0 11) [8, 9]]

theorem cursor_law_secondUnderWay :
    ∃ s g, (ofDisk (.withDirectory "db")).run? secondUnderWay = some s ∧
      s.segments[0]? = some g ∧ g.next = 11 ∧ g.bytesWritten = 3 ∧
      s.CursorLaw secondUnderWay (((ofDisk (.withDirectory "db")).history secondUnderWay).on 0)
        0 g := by
  have hrun : (((ofDisk (.withDirectory "db")).run? secondUnderWay).bind fun s =>
      s.segments[0]?.bind fun g =>
        if g.next = 11 ∧ g.bytesWritten = 3 ∧ g.pending.isSome then some (s, g)
        else none).isSome := by
    decide +kernel
  obtain ⟨r, hrun⟩ := Option.isSome_iff_exists.1 hrun
  obtain ⟨s, hs, hrun⟩ := Option.bind_eq_some_iff.1 hrun
  obtain ⟨g, hg, hrun⟩ := Option.bind_eq_some_iff.1 hrun
  split at hrun
  · rename_i hend
    exact ⟨s, g, hs, hg, hend.1, hend.2.1, cursor_law hs hg⟩
  · cases hrun

end Store

end RecordStore
