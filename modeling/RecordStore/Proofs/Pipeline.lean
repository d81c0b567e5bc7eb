import RecordStore.Proofs.Growth
import RecordStore.Proofs.Lifecycle

/-!
# From a write call to the file

The records of a segment pass through its queue in the order of the calls, and get into the file
end to end from the base on, up to the first that fails.
-/

namespace RecordStore

/-! ## Records end to end -/

namespace Record

def encodeAll (records : List Bytes) : Bytes := records.flatMap encode

/-- Records with their offsets, when the first stands at `offset` and each ends where the next
begins. -/
def placed (offset : Nat) : List Bytes → List (Nat × Bytes)
  | [] => []
  | data :: rest => (offset, data) :: placed (offset + encodedLength data.length) rest

@[simp] theorem length_encode (data : Bytes) :
    (encode data).length = encodedLength data.length := by
  simp [encode, header, encodedLength, headerSize]
  omega

@[simp] theorem encodeAll_nil : encodeAll [] = [] := rfl

@[simp] theorem encodeAll_append (records others : List Bytes) :
    encodeAll (records ++ others) = encodeAll records ++ encodeAll others := List.flatMap_append

@[simp] theorem encodeAll_singleton (data : Bytes) : encodeAll [data] = encode data := by
  simp [encodeAll]

theorem placed_append (offset : Nat) (records others : List Bytes) :
    placed offset (records ++ others) =
      placed offset records ++ placed (offset + (encodeAll records).length) others := by
  induction records generalizing offset with
  | nil => rfl
  | cons data rest ih =>
    simp only [List.cons_append, placed, ih, encodeAll, List.flatMap_cons, List.length_append,
      length_encode, Nat.add_assoc]

theorem placed_append_cons (offset : Nat) (records others : List Bytes) (data : Bytes) :
    placed offset (records ++ data :: others) =
      placed offset records ++ (offset + (encodeAll records).length, data) ::
        placed (offset + (encodeAll (records ++ [data])).length) others := by
  rw [placed_append, encodeAll_append, encodeAll_singleton, List.length_append, length_encode,
    ← Nat.add_assoc]
  rfl

theorem map_snd_placed (offset : Nat) (records : List Bytes) :
    (placed offset records).map Prod.snd = records := by
  induction records generalizing offset with
  | nil => rfl
  | cons data rest ih => rw [placed, List.map_cons, ih]

theorem mem_placed {offset n : Nat} {records : List Bytes} {data : Bytes}
    (h : (n, data) ∈ placed offset records) :
    ∃ before after, records = before ++ data :: after ∧
      n = offset + (encodeAll before).length := by
  induction records generalizing offset with
  | nil => cases h
  | cons other rest ih =>
    rw [placed, List.mem_cons] at h
    rcases h with h | h
    · obtain ⟨rfl, rfl⟩ := Prod.mk.inj h
      exact ⟨[], rest, rfl, rfl⟩
    · obtain ⟨before, after, rfl, rfl⟩ := ih h
      refine ⟨other :: before, after, rfl, ?_⟩
      simp only [encodeAll, List.flatMap_cons, List.length_append, length_encode, Nat.add_assoc]

end Record

open Record

def Disk.Stands (d : Disk) (file : FileId) (offset : Nat) (data : Bytes) : Prop :=
  ∃ c, d.content? file = some c ∧ encode data <+: c.bytes.drop offset

/-! ## The queue -/

def Request.ofRecord (offset : Nat) (data : Bytes) : Request :=
  ⟨offset, Record.header data.length, data⟩

@[simp] theorem Request.bytes_ofRecord (offset : Nat) (data : Bytes) :
    (ofRecord offset data).bytes = encode data := rfl

namespace Segment

/-- What a caller knows of a record at an offset. -/
def written (g : Segment) (w : Nat × Bytes) : Address × Bytes := (Address.ofParts g.fileIndex w.1, w.2)

/-- How much of the handled records has got into the file, given the writes that failed. -/
inductive Landed (base : Nat) (handled : List Bytes) (landed : Bytes) : List WriteFailure → Prop
  | all (bytes : landed = encodeAll handled) : Landed base handled landed []
  | torn {f : WriteFailure} {good lost : List Bytes} {bad part : Bytes}
      (records : handled = good ++ bad :: lost)
      (offset : f.offset = base + (encodeAll good).length)
      (isPart : part <+: encode bad) (bytes : landed = encodeAll good ++ part) :
    Landed base handled landed [f]

/-- The writer has dealt with the records `handled`, and `waiting` are in its queue. -/
structure Carries (g : Segment) (ns : List Notice) (handled waiting : List Bytes) : Prop where
  writes : Notice.writes ns = (placed g.base (handled ++ waiting)).map g.written
  queue : g.writer.queue =
    (placed (g.base + (encodeAll handled).length) waiting).map fun w => .ofRecord w.1 w.2
  next : g.next = g.base + (encodeAll (handled ++ waiting)).length
  index : g.fileIndex < Address.maxFileIndex
  room : g.next ≤ Address.offsetMask
  lengths : ∀ data ∈ handled ++ waiting, data.length ≤ maxLength
  pending : ∀ {r : Request}, g.pending = some r → r = .ofRecord g.next r.data ∧
    r.data.length ≤ maxLength ∧ g.next + encodedLength r.data.length ≤ Address.offsetMask
  landed : Landed g.base handled (Notice.landings ns) (Notice.failedWrites ns)
  failures : Notice.failures ns = g.writer.failing.toList ++ g.writer.failure.toList
  /-- What fails is a write, or else the sync once all records are through. -/
  outcome : Notice.failures ns = Notice.failedWrites ns ∨
    (Notice.failedWrites ns = [] ∧ (∃ e, Notice.failures ns = [⟨0, e⟩]) ∧
        g.writer.syncOnFlush = true) ∧ g.writer.closed = true ∧ g.writer.queue = []

theorem map_snd_written (g : Segment) (offset : Nat) (records : List Bytes) :
    ((placed offset records).map g.written).map Prod.snd = records := by
  rw [List.map_map]
  exact map_snd_placed offset records

theorem nextAddress_offset {g : Segment} (hindex : g.fileIndex < Address.maxFileIndex)
    (hroom : g.next ≤ Address.offsetMask) : g.nextAddress.offset = g.next :=
  Address.offset_ofParts hindex hroom

variable {g g' : Segment} {ns k : List Notice} {handled waiting : List Bytes}

theorem carries_start {pool i base : Nat} {file : FileId} {config : Config}
    (h : start pool i base file config = .ok g) : g.Carries [] [] [] := by
  obtain ⟨hindex, hbase, rfl⟩ := start_ok h
  exact ⟨rfl, rfl, rfl, hindex, hbase, by simp, by simp, .all rfl, rfl, .inl rfl⟩

theorem Carries.quiet (h : g.Carries ns handled waiting) (hwrites : Notice.writes k = [])
    (hlandings : Notice.landings k = []) (hfailed : Notice.failedWrites k = [])
    (hfailures : Notice.failures k = []) : g.Carries (ns ++ k) handled waiting where
  writes := by rw [Notice.writes_append, hwrites, List.append_nil, h.writes]
  queue := h.queue
  next := h.next
  index := h.index
  room := h.room
  lengths := h.lengths
  pending := h.pending
  landed := by
    rw [Notice.landings_append, hlandings, List.append_nil, Notice.failedWrites_append, hfailed,
      List.append_nil]
    exact h.landed
  failures := by rw [Notice.failures_append, hfailures, List.append_nil, h.failures]
  outcome := by
    rw [Notice.failedWrites_append, hfailed, List.append_nil, Notice.failures_append, hfailures,
      List.append_nil]
    exact h.outcome

theorem Carries.accept (h : g.Carries ns handled waiting) {data : Bytes}
    (accepted : g.accept data = .ok g') : g'.Carries ns handled waiting := by
  obtain ⟨hlength, ⟨a, ha⟩, -, -, rfl⟩ := accept_ok accepted
  obtain ⟨hend, -⟩ := Address.offsetBy_ok ha
  rw [nextAddress_offset h.index h.room] at hend
  refine ⟨h.writes, h.queue, h.next, h.index, h.room, h.lengths, fun {r} hr => ?_, h.landed,
    h.failures, h.outcome⟩
  obtain rfl := Option.some.inj hr
  exact ⟨rfl, hlength, hend⟩

theorem Carries.enqueue (h : g.Carries ns handled waiting) {r : Request}
    (hr : g.pending = some r) (unclosed : g.writer.closed = false) :
    Carries
      { g with
        pending := none
        next := g.next + encodedLength r.data.length
        writer := { g.writer with queue := g.writer.queue ++ [r] } }
      (ns ++ [.wrote g.nextAddress r.data]) handled (waiting ++ [r.data]) := by
  obtain ⟨hrequest, hlength, hend⟩ := h.pending hr
  have hplaced : placed g.base (handled ++ (waiting ++ [r.data])) =
      placed g.base (handled ++ waiting) ++ [(g.next, r.data)] := by
    rw [← List.append_assoc, placed_append, ← h.next]
    rfl
  refine ⟨?_, ?_, ?_, h.index, hend, ?_, by simp, ?_, ?_, ?_⟩
  · rw [Notice.writes_append, h.writes, hplaced, List.map_append]
    rfl
  · show g.writer.queue ++ [r] = _
    rw [placed_append, List.map_append, h.queue, Nat.add_assoc, ← List.length_append,
      ← encodeAll_append, ← h.next, hrequest]
    rfl
  · show g.next + encodedLength r.data.length = _
    rw [h.next, ← List.append_assoc, encodeAll_append (handled ++ waiting), encodeAll_singleton,
      List.length_append, length_encode, Nat.add_assoc]
  · intro data hdata
    rw [← List.append_assoc, List.mem_append, List.mem_singleton] at hdata
    rcases hdata with hdata | rfl
    · exact h.lengths data hdata
    · exact hlength
  · rw [Notice.landings_append, Notice.failedWrites_append]
    show Landed g.base handled (Notice.landings ns ++ []) (Notice.failedWrites ns ++ [])
    rw [List.append_nil, List.append_nil]
    exact h.landed
  · rw [Notice.failures_append, h.failures]
    exact List.append_nil _
  · rw [Notice.failures_append, Notice.failedWrites_append]
    rcases h.outcome with hsame | ⟨-, hclosed, -⟩
    · rw [hsame]
      exact .inl rfl
    · rw [unclosed] at hclosed
      cases hclosed

theorem Carries.dequeue (h : g.Carries ns handled waiting) {r : Request} {rest : List Request}
    (queued : g.writer.queue = r :: rest) :
    ∃ data others, waiting = data :: others ∧
      r = .ofRecord (g.base + (encodeAll handled).length) data ∧
      rest = (placed (g.base + (encodeAll (handled ++ [data])).length) others).map
        fun w => .ofRecord w.1 w.2 := by
  have hqueue := h.queue
  rw [queued] at hqueue
  cases waiting with
  | nil => cases hqueue
  | cons data others =>
    rw [placed, List.map_cons] at hqueue
    obtain ⟨rfl, rfl⟩ := List.cons.inj hqueue
    refine ⟨data, others, rfl, rfl, ?_⟩
    rw [encodeAll_append, encodeAll_singleton, List.length_append, length_encode, Nat.add_assoc]

theorem Carries.next_record (h : g.Carries ns handled waiting) {rest : List Request}
    {data : Bytes} {others : List Bytes} (hwaiting : waiting = data :: others)
    (hrest : rest = (placed (g.base + (encodeAll (handled ++ [data])).length) others).map
      fun w => .ofRecord w.1 w.2)
    {failing failure : Option WriteFailure} (hwrites : Notice.writes k = [])
    (hlanded : Landed g.base (handled ++ [data]) (Notice.landings (ns ++ k))
      (Notice.failedWrites (ns ++ k)))
    (hfailures : Notice.failures (ns ++ k) = failing.toList ++ failure.toList)
    (houtcome : Notice.failures (ns ++ k) = Notice.failedWrites (ns ++ k)) :
    Carries { g with writer := { g.writer with queue := rest, failing, failure } } (ns ++ k)
      (handled ++ [data]) others := by
  have hall : handled ++ [data] ++ others = handled ++ waiting := by simp [hwaiting]
  refine ⟨?_, hrest, ?_, h.index, h.room, ?_, h.pending, hlanded, hfailures, .inl houtcome⟩
  · rw [Notice.writes_append, hwrites, List.append_nil, hall]
    exact h.writes
  · rw [hall]
    exact h.next
  · rw [hall]
    exact h.lengths

theorem Landed.lose {base : Nat} {landed : Bytes} {fs : List WriteFailure}
    (h : Landed base handled landed fs) (hne : fs ≠ []) (data : Bytes) :
    Landed base (handled ++ [data]) landed fs := by
  cases h with
  | all => exact absurd rfl hne
  | @torn f good lost bad part records offset isPart bytes =>
    have hrecords : handled ++ [data] = good ++ bad :: (lost ++ [data]) := by
      rw [records, List.append_assoc, List.cons_append]
    exact .torn hrecords offset isPart bytes

theorem Carries.sound (h : g.Carries ns handled waiting) (known : g.writer.failing = none)
    (sound : g.writer.failure = none) : Notice.failures ns = [] := by
  rw [h.failures, known, sound]
  rfl

theorem Carries.offset_of_sound (h : g.Carries ns handled waiting) {r : Request}
    {rest : List Request} (queued : g.writer.queue = r :: rest) (known : g.writer.failing = none)
    (sound : g.writer.failure = none) : r.offset = g.base + (Notice.landings ns).length := by
  obtain ⟨data, others, -, rfl, -⟩ := h.dequeue queued
  have hlanded := h.landed
  rw [Notice.failedWrites_eq_nil (h.sound known sound)] at hlanded
  cases hlanded with
  | all bytes =>
    rw [bytes]
    rfl

theorem Carries.discard (h : g.Carries ns handled waiting) {r : Request} {rest : List Request}
    (queued : g.writer.queue = r :: rest) (failed : g.writer.failure.isSome) :
    ∃ handled waiting,
      Carries { g with writer := { g.writer with queue := rest } } (ns ++ []) handled waiting := by
  obtain ⟨data, others, hwaiting, -, hrest⟩ := h.dequeue queued
  have hsome : Notice.failures ns ≠ [] := by
    obtain ⟨f, hf⟩ := Option.isSome_iff_exists.1 failed
    rw [h.failures, hf]
    simp
  have hsame : Notice.failures ns = Notice.failedWrites ns := by
    rcases h.outcome with hsame | ⟨-, -, hqueue⟩
    · exact hsame
    · rw [queued] at hqueue
      cases hqueue
  refine ⟨handled ++ [data], others, h.next_record (k := []) hwaiting hrest rfl ?_ ?_ ?_⟩
  · rw [List.append_nil]
    exact h.landed.lose (hsame ▸ hsome) data
  · rw [List.append_nil]
    exact h.failures
  · rw [List.append_nil]
    exact hsame

theorem Carries.store (h : g.Carries ns handled waiting) {r : Request} {rest : List Request}
    {d d' : Disk} {fault : Option Disk.Fault} (queued : g.writer.queue = r :: rest)
    (known : g.writer.failing = none) (sound : g.writer.failure = none)
    (written : d.write g.writer.file r.offset r.bytes fault = (.ok (), d')) :
    ∃ handled waiting,
      Carries { g with writer := { g.writer with queue := rest } }
        (ns ++ [.landed (d.landing g.writer.file r.bytes fault)]) handled waiting := by
  obtain ⟨data, others, hwaiting, rfl, hrest⟩ := h.dequeue queued
  have hnone := h.sound known sound
  have hfailed := Notice.failedWrites_eq_nil hnone
  have hlanded := h.landed
  rw [hfailed] at hlanded
  refine ⟨handled ++ [data], others,
    h.next_record hwaiting hrest rfl ?_ ?_ ?_⟩
  · rw [Notice.failedWrites_append, hfailed, Notice.landings_append, Disk.landing_of_write written]
    cases hlanded with
    | all bytes =>
      refine .all ?_
      rw [bytes, encodeAll_append, encodeAll_singleton]
      exact congrArg _ (List.append_nil _)
  · rw [Notice.failures_append, hnone, known, sound]
    rfl
  · rw [Notice.failures_append, hnone, Notice.failedWrites_append, hfailed]
    rfl

theorem Carries.fail (h : g.Carries ns handled waiting) {r : Request} {rest : List Request}
    (d : Disk) (fault : Option Disk.Fault) (e : OsError) (queued : g.writer.queue = r :: rest)
    (known : g.writer.failing = none) (sound : g.writer.failure = none) :
    ∃ handled waiting,
      Carries
        { g with writer := { g.writer with queue := rest, failing := some ⟨r.offset, e⟩ } }
        (ns ++ [.landed (d.landing g.writer.file r.bytes fault), .failed ⟨r.offset, e⟩])
        handled waiting := by
  obtain ⟨data, others, hwaiting, rfl, hrest⟩ := h.dequeue queued
  have hnone := h.sound known sound
  have hfailed := Notice.failedWrites_eq_nil hnone
  have hlanded := h.landed
  rw [hfailed] at hlanded
  refine ⟨handled ++ [data], others, h.next_record hwaiting hrest rfl ?_ ?_ ?_⟩
  · rw [Notice.failedWrites_append, hfailed, Notice.landings_append]
    cases hlanded with
    | all bytes =>
      refine .torn rfl rfl (Disk.landing_prefix d g.writer.file _ fault) ?_
      rw [bytes]
      exact congrArg _ (List.append_nil _)
  · rw [Notice.failures_append, hnone, sound]
    rfl
  · rw [Notice.failures_append, hnone, Notice.failedWrites_append, hfailed]
    rfl

theorem Carries.move {d d' : Disk} (h : g.Carries ns handled waiting) (ho : g.Orderly)
    (hm : g.Move d k g' d') : ∃ handled waiting, g'.Carries (ns ++ k) handled waiting := by
  cases hm with
  | accept live idle accepted => exact ⟨_, _, (h.accept accepted).quiet rfl rfl rfl rfl⟩
  | enqueue pending unclosed room => exact ⟨_, _, h.enqueue pending unclosed⟩
  | closeQueue live idle leased =>
    refine ⟨handled, waiting, Carries.quiet ?_ rfl rfl rfl rfl⟩
    exact ⟨h.writes, h.queue, h.next, h.index, h.room, h.lengths, h.pending, h.landed, h.failures,
      h.outcome.imp_right fun ⟨hsync, _, hqueue⟩ => ⟨hsync, rfl, hqueue⟩⟩
  | endFlush flushing finished =>
    refine ⟨handled, waiting, Carries.quiet ?_ rfl rfl rfl rfl⟩
    exact ⟨h.writes, h.queue, h.next, h.index, h.room, h.lengths, h.pending, h.landed, h.failures,
      h.outcome⟩
  | discard queued known failed => exact h.discard queued failed
  | store queued known sound written => exact h.store queued known sound written
  | fail queued known sound written => exact h.fail d _ _ queued known sound
  | record failing =>
    refine ⟨handled, waiting, Carries.quiet ?_ rfl rfl rfl rfl⟩
    have hnone := ho.failing (by simp [failing])
    refine ⟨h.writes, h.queue, h.next, h.index, h.room, h.lengths, h.pending, h.landed, ?_,
      h.outcome⟩
    rw [h.failures, failing, hnone]
    rfl
  | @unsync e closed empty known sound unfinished syncs =>
    have hnone := h.sound known sound
    refine ⟨handled, waiting, ?_, h.queue, h.next, h.index, h.room, h.lengths, h.pending, ?_, ?_,
      .inr ⟨⟨?_, ⟨e, ?_⟩, syncs⟩, closed, empty⟩⟩
    · rw [Notice.writes_append, h.writes]
      exact List.append_nil _
    · rw [Notice.landings_append, Notice.failedWrites_append]
      show Landed g.base handled (Notice.landings ns ++ []) (Notice.failedWrites ns ++ [])
      rw [List.append_nil, List.append_nil]
      exact h.landed
    · rw [Notice.failures_append, hnone, sound]
      rfl
    · rw [Notice.failedWrites_append, Notice.failedWrites_eq_nil hnone]
      rfl
    · rw [Notice.failures_append, hnone]
      rfl

theorem Carries.address_written (h : g.Carries ns handled waiting) {w : Nat × Bytes}
    (hw : w ∈ placed g.base (handled ++ waiting)) :
    (g.written w).1.fileIndex = g.fileIndex ∧ (g.written w).1.offset = w.1 := by
  obtain ⟨n, data⟩ := w
  obtain ⟨before, after, hall, rfl⟩ := mem_placed hw
  have hroom : g.base + (encodeAll before).length ≤ Address.offsetMask := by
    have hnext := h.next
    have := h.room
    rw [hall, encodeAll_append, List.length_append] at hnext
    omega
  exact ⟨Address.fileIndex_ofParts h.index hroom, Address.offset_ofParts h.index hroom⟩

theorem Carries.mem_writes (h : g.Carries ns handled waiting) {a : Address} {data : Bytes}
    (hw : .wrote a data ∈ ns) :
    ∃ before after, handled ++ waiting = before ++ data :: after ∧ a.fileIndex = g.fileIndex ∧
      a.offset = g.base + (encodeAll before).length ∧ data.length ≤ maxLength := by
  rw [← Notice.mem_writes, h.writes, List.mem_map] at hw
  obtain ⟨⟨n, data'⟩, hplaced, hw⟩ := hw
  obtain ⟨hindex, hoffset⟩ := h.address_written hplaced
  obtain ⟨rfl, rfl⟩ := Prod.mk.inj hw
  obtain ⟨before, after, hall, rfl⟩ := mem_placed hplaced
  exact ⟨before, after, hall, hindex, hoffset, h.lengths _ (by simp [hall])⟩

theorem Carries.nothing_waits (h : g.Carries ns handled waiting) (hqueue : g.writer.queue = []) :
    waiting = [] := by
  have hnone := h.queue
  rw [hqueue] at hnone
  cases waiting with
  | nil => rfl
  | cons data rest => cases hnone

theorem Carries.all_landed (h : g.Carries ns handled waiting) (hqueue : g.writer.queue = [])
    (hfailed : Notice.failedWrites ns = []) :
    waiting = [] ∧ Notice.landings ns = encodeAll handled := by
  have hlanded := h.landed
  rw [hfailed] at hlanded
  cases hlanded with
  | all bytes => exact ⟨h.nothing_waits hqueue, bytes⟩

/-- A segment in order, with the records that the notices on it tell of. -/
def Carrying (g : Segment) (ns : List Notice) : Prop :=
  g.Orderly ∧ ∃ handled waiting, g.Carries ns handled waiting

theorem carrying_invariant : Invariant Carrying where
  start started := ⟨orderly_invariant.start started, [], [], carries_start started⟩
  move := by
    rintro g g' d d' ns k ⟨ho, handled, waiting, h⟩ hm
    exact ⟨ho.move hm, h.move ho hm⟩
  finish := by
    rintro g ns ⟨ho, handled, waiting, h⟩ closed empty known unfinished
    exact ⟨orderly_invariant.finish (n := ns) ho closed empty known unfinished, handled, waiting,
      h.writes, h.queue, h.next, h.index, h.room, h.lengths, h.pending, h.landed, h.failures,
      h.outcome⟩
  release := by
    rintro g ns ⟨ho, handled, waiting, h⟩ live idle drained
    refine ⟨orderly_invariant.release (n := ns) ho live idle drained, handled, waiting,
      Carries.quiet ?_ rfl rfl rfl rfl⟩
    exact ⟨h.writes, h.queue, h.next, h.index, h.room, h.lengths, h.pending, h.landed, h.failures,
      h.outcome⟩

end Segment

end RecordStore
