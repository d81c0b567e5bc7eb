import RecordStore.Proofs.Durability
import RecordStore.Store.Call

/-!
# Failures

A writer stops for good at the first record that the operating system refuses. The records accepted
before stand in the file, nothing accepted after gets there, and every later call tells of the failure.
-/

namespace RecordStore

open Record

/-! ## After a failure is recorded -/

namespace Segment

/-- `k` is what has become of `g`, with its recorded failure. A write call that was under way may have
ended since. -/
structure Stopped (f : WriteFailure) (g k : Segment) : Prop where
  orderly : k.Orderly
  failure : k.writer.failure = some f
  fileIndex : k.fileIndex = g.fileIndex
  cursor : (k.next = g.next ∧ k.pending = g.pending) ∨
    ∃ r, g.pending = some r ∧ k.pending = none ∧ k.next = g.next + encodedLength r.data.length

theorem stopped_kept (f : WriteFailure) (g : Segment) : Kept fun k _ => Stopped f g k where
  move := by
    intro k k' d d' _ _ h hm
    have horderly := h.orderly.move hm
    have hfailure := h.failure
    cases hm with
    | accept live idle accepted =>
      obtain ⟨-, -, hsound, -⟩ := accept_ok accepted
      rw [hfailure] at hsound
      cases hsound
    | @enqueue r pending unclosed room =>
      refine ⟨horderly, hfailure, h.fileIndex, .inr ⟨r, ?_⟩⟩
      rcases h.cursor with ⟨hnext, hpending⟩ | ⟨_, -, hnone, -⟩
      · exact ⟨hpending ▸ pending, rfl, by rw [← hnext]⟩
      · rw [pending] at hnone
        cases hnone
    | closeQueue => exact ⟨horderly, hfailure, h.fileIndex, h.cursor⟩
    | endFlush => exact ⟨horderly, hfailure, h.fileIndex, h.cursor⟩
    | discard => exact ⟨horderly, hfailure, h.fileIndex, h.cursor⟩
    | record failing =>
      rw [h.orderly.failing (by rw [failing]; rfl)] at hfailure
      cases hfailure
    | store queued known sound written =>
      rw [sound] at hfailure
      cases hfailure
    | fail queued known sound written =>
      rw [sound] at hfailure
      cases hfailure
    | unsync closed empty known sound unfinished syncs =>
      rw [sound] at hfailure
      cases hfailure
  finish := by
    intro k ns h closed empty known unfinished
    exact ⟨orderly_invariant.finish (n := ns) h.orderly closed empty known unfinished, h.failure,
      h.fileIndex, h.cursor⟩
  release := by
    intro k ns h live idle drained
    exact ⟨orderly_invariant.release (n := ns) h.orderly live idle drained, h.failure, h.fileIndex,
      h.cursor⟩

variable {f : WriteFailure} {g : Segment}

theorem accept_of_failure (hf : g.writer.failure = some f) {data : Bytes} {a : Address}
    (hlength : data.length ≤ maxLength)
    (hend : g.nextAddress.offsetBy (encodedLength data.length) = .ok a) :
    g.accept data = .error (f.toError g.fileIndex) := by
  have hheader : encodeHeader data.length = .ok (header data.length) := by
    unfold encodeHeader
    rw [if_neg (by omega)]
  unfold accept
  rw [hheader, hend, hf]

theorem checkWriter_of_failure (hf : g.writer.failure = some f) :
    g.checkWriter = .error (f.toError g.fileIndex) := by
  unfold checkWriter
  rw [hf]

end Segment

/-! ## Calls after a failure -/

namespace Writer

variable {w : Writer} {f : WriteFailure}

theorem drainQueue_of_failure (hf : w.failure = some f) (d : Disk) (queue : List Request) :
    w.drainQueue d queue = ({ w with queue := [] }, d) := by
  induction queue with
  | nil => rfl
  | cons r rest ih =>
    unfold drainQueue
    rw [if_pos (by rw [hf]; rfl)]
    exact ih

theorem settle_of_failure (hf : w.failure = some f) (known : w.failing = none)
    (closed : w.closed = true) (held : Bool) (d : Disk) :
    w.settle held d = ({ w with queue := [], finished := true }, d) := by
  have hdrain : ∀ {v : Writer}, v.failure = some f → v.failing = none →
      (v.recordUnless held).drain d = ({ v with queue := [] }, d) := by
    intro v hf known
    have hrecord : v.recordUnless held = v := by
      unfold recordUnless record?
      rw [known]
      split <;> rfl
    unfold drain
    rw [hrecord, if_neg (by simp [known])]
    exact drainQueue_of_failure hf d _
  have hend : settleEnd d { w with queue := [] } = { w with queue := [], finished := true } := by
    unfold settleEnd finish? record?
    cases hfinished : w.finished <;> simp [hf, known, closed]
  have hagain := hdrain (v := { w with queue := [] }) hf known
  simp only [settle, hdrain hf known, hagain, hend]

end Writer

theorem Segment.settle_of_failure {g : Segment} {f : WriteFailure} (hf : g.writer.failure = some f)
    (known : g.writer.failing = none) (closed : g.writer.closed = true) (held : Bool) (d : Disk) :
    g.settle held d = ({ g with writer := { g.writer with queue := [], finished := true } }, d) := by
  have hshut : enqueue? { g with writer := { g.writer with queue := [], finished := true } } =
      none := by
    unfold enqueue?
    cases g.pending <;> simp [closed]
  simp only [settle, Writer.settle_of_failure hf known closed, hshut]

namespace Store

variable {s : Store} {id : SegmentId} {g : Segment} {f : WriteFailure}

theorem segment_settleSegment (hg : s.segments[id]? = some g) :
    (s.settleSegment id).segments[id]? = some (g.settle s.failuresHeld s.disk).1 := by
  obtain ⟨hid, -⟩ := List.getElem?_eq_some_iff.1 hg
  unfold settleSegment
  rw [hg]
  dsimp only
  split <;> simp [hid]

theorem flush_of_failure (hg : s.segments[id]? = some g) (ho : g.Orderly)
    (hf : g.writer.failure = some f) (undrained : g.phase ≠ .drained) :
    (s.flush id).1 = some (.error (f.toError g.fileIndex)) := by
  obtain ⟨hid, -⟩ := List.getElem?_eq_some_iff.1 hg
  have hknown := ho.known hf
  obtain ⟨k, hk, hphase, hclosed, hfailing, hfailure, hindex⟩ : ∃ k, g.closeQueue = .ok k ∧
      k.phase = .flushing ∧ k.writer.closed = true ∧ k.writer.failing = none ∧
      k.writer.failure = some f ∧ k.fileIndex = g.fileIndex := by
    unfold Segment.closeQueue
    cases hp : g.phase with
    | leased => exact ⟨_, rfl, rfl, rfl, hknown, hf, rfl⟩
    | flushing => exact ⟨g, rfl, hp, ho.closed.2 (by simp [hp]), hknown, hf, rfl⟩
    | drained => exact absurd hp undrained
  have hset : (s.setSegment id k).segments[id]? = some k := by simp [hid]
  have hsettled := segment_settleSegment hset
  rw [Segment.settle_of_failure hfailure hfailing hclosed] at hsettled
  have hstart : s.startFlush id g = .ok ((s.setSegment id k).settleSegment id) := by
    unfold startFlush
    rw [hk]
    rfl
  have hstay : letGoIf ((s.setSegment id k).settleSegment id) id (fun g => !g.writer.finished) =
      (s.setSegment id k).settleSegment id := by
    unfold letGoIf
    rw [hsettled]
    simp
  have hend : ∃ t, endFlush? ((s.setSegment id k).settleSegment id) id =
      some (.error (f.toError g.fileIndex), t) := by
    unfold endFlush?
    rw [hsettled]
    simp [Segment.endFlush?, hphase, Segment.checkWriter, hfailure, hindex]
  obtain ⟨t, ht⟩ := hend
  unfold flush
  rw [hg]
  dsimp only
  rw [hstart]
  dsimp only
  rw [hstay, ht]

theorem unlock_of_failure (hg : s.segments[id]? = some g) (ho : g.Orderly)
    (hf : g.writer.failure = some f) :
    (s.unlock id).1 = some (.error (f.toError g.fileIndex)) := by
  unfold unlock
  rw [hg]
  dsimp only
  split
  · rw [g.checkWriter_of_failure hf]
  · rename_i undrained
    have hflush := flush_of_failure hg ho hf undrained
    split
    · rename_i answer t h
      rw [h] at hflush
      exact hflush
    · rename_i t h
      rw [h] at hflush
      cases hflush

/-- Every further write that would be legal, and the unlock, is answered with `e`. A write elsewhere
than at the cursor is refused for its address. -/
structure Refuses (s : Store) (id : SegmentId) (g : Segment) (e : Error) : Prop where
  write : ∀ {data : Bytes} {a : Address}, data.length ≤ maxLength →
    g.nextAddress.offsetBy (encodedLength data.length) = .ok a →
    g.accept data = .error e ∧ s.write id data = (some (.error e), s)
  writeAt : ∀ {data : Bytes} {a : Address}, data.length ≤ maxLength →
    g.nextAddress.offsetBy (encodedLength data.length) = .ok a →
    g.acceptAt g.nextAddress data = .error e ∧
      s.writeAt id g.nextAddress data = (some (.error e), s)
  elsewhere : ∀ {expected : Address} {data : Bytes}, expected ≠ g.nextAddress →
    s.writeAt id expected data =
      (some (.error (.invalidArgument (.notAtCursor expected g.nextAddress))), s)
  unlock : (s.unlock id).1 = some (.error e)

theorem refuses_of_failure (hg : s.segments[id]? = some g) (ho : g.Orderly)
    (hf : g.writer.failure = some f) : s.Refuses id g (f.toError g.fileIndex) where
  write hlength hend := by
    have haccept := g.accept_of_failure hf hlength hend
    refine ⟨haccept, ?_⟩
    unfold write
    rw [hg]
    dsimp only
    rw [haccept]
    rfl
  writeAt {data} _ hlength hend := by
    have haccept : g.acceptAt g.nextAddress data = .error (f.toError g.fileIndex) := by
      unfold Segment.acceptAt
      rw [if_pos rfl]
      exact g.accept_of_failure hf hlength hend
    refine ⟨haccept, ?_⟩
    unfold writeAt
    rw [hg]
    dsimp only
    rw [haccept]
    rfl
  elsewhere hother := by
    unfold writeAt Segment.acceptAt
    rw [hg]
    dsimp only
    rw [if_neg hother]
    rfl
  unlock := unlock_of_failure hg ho hf

/-! ## What gets into the file -/

variable {t : Store} {d : Disk} {dir : FileId} {files : List FileId} {h : History}

theorem Change.regular_of_landed {event : Event} {ns : History} (hc : s.Change event ns t)
    (hland : Notice.landings (ns.on id) ≠ []) :
    ∃ g, s.segments[id]? = some g ∧ (s.disk.content? g.writer.file).isSome := by
  cases hc with
  | @segment j g g' k d' there move =>
    by_cases hj : j = id
    · subst hj
      rw [History.on_map_self] at hland
      refine ⟨g, there, ?_⟩
      rcases move_effect move with ⟨-, hnone⟩ | ⟨r, rest, fault, -, -, -, heffect, -⟩
      · exact absurd hnone hland
      · by_contra hregular
        rw [heffect, (Disk.write_irregular (by simpa using hregular) r.offset _ _).2] at hland
        exact hland rfl
    · rw [History.on_map_ne k hj] at hland
      exact absurd rfl hland
  | @release j g there live idle drained =>
    refine absurd ?_ hland
    by_cases hj : j = id <;> simp [History.on, hj, Notice.landings, Notice.landing]
  | _ => exact absurd rfl hland

theorem regular_of_landed {events : List Event} (hrun : (ofDisk d).run? events = some s)
    (hland : Notice.landings (((ofDisk d).history events).on id) ≠ []) :
    ∃ g, s.segments[id]? = some g ∧ (s.disk.content? g.writer.file).isSome := by
  refine run_induction (P := fun s h => Notice.landings (h.on id) ≠ [] →
    ∃ g, s.segments[id]? = some g ∧ (s.disk.content? g.writer.file).isSome) hrun
    (fun hland => absurd rfl hland) (fun u h event v _ hu hstep hland => ?_) hland
  have hc := change_of_step hstep
  have hbefore : ∃ g, u.segments[id]? = some g ∧ (u.disk.content? g.writer.file).isSome := by
    by_cases hold : Notice.landings (h.on id) = []
    · rw [History.on_append, Notice.landings_append, hold, List.nil_append] at hland
      exact hc.regular_of_landed hland
    · exact hu hold
  obtain ⟨g, hg, hregular⟩ := hbefore
  obtain ⟨k, hk, hlater⟩ := hc.kept g.later_kept (k := []) hg (.refl g)
  obtain ⟨c, hcontent⟩ := Option.isSome_iff_exists.1 hregular
  refine ⟨k, hk, ?_⟩
  rw [hlater.file, hc.grows.regular (Disk.content?_lt hcontent)]
  exact hregular

theorem Logged.content_at_start (hl : s.Logged d dir files h) (hdb : d.Database dir files)
    (hg : s.segments[id]? = some g) (hregular : (s.disk.content? g.writer.file).isSome) :
    ∃ c, d.content? g.writer.file = some c := by
  have hfile := hl.sound.placed.segments hg
  rw [hl.sound.placed.grows.regular (hdb.there (List.mem_of_getElem? hfile))] at hregular
  exact Option.isSome_iff_exists.1 hregular

theorem Logged.stands_of_placed (hl : s.Logged d dir files h) (hdb : d.Database dir files)
    (hg : s.segments[id]? = some g)
    (hregular : Notice.landings (h.on id) ≠ [] → (s.disk.content? g.writer.file).isSome)
    {good : List Bytes} {part : Bytes} (hland : Notice.landings (h.on id) = encodeAll good ++ part)
    {w : Nat × Bytes} (hw : w ∈ placed g.base good) :
    s.disk.Stands g.writer.file w.1 w.2 := by
  obtain ⟨n, data⟩ := w
  obtain ⟨before, after, rfl, rfl⟩ := mem_placed hw
  have hsplit : Notice.landings (h.on id) =
      encodeAll before ++ encode data ++ (encodeAll after ++ part) := by
    rw [hland, encodeAll_append, List.append_assoc, List.append_assoc]
    simp [encodeAll]
  have hsome : Notice.landings (h.on id) ≠ [] := by
    rw [hsplit]
    simp [encode, header]
  obtain ⟨c, hc⟩ := hl.content_at_start hdb hg (hregular hsome)
  exact hl.imaged.stands (lease?_of_some hg) (hl.sound.placed.segments hg) hc hsplit

theorem Logged.size_of_last (hl : s.Logged d dir files h) (hdb : d.Database dir files)
    (hg : s.segments[id]? = some g)
    (hlast : ∀ j k, id < j → s.segments[j]? = some k → k.fileIndex ≠ g.fileIndex) {c : Content}
    (hc : s.disk.content? g.writer.file = some c) :
    c.size = g.base + (Notice.landings (h.on id)).length := by
  obtain ⟨c₀, hc₀⟩ := hl.content_at_start hdb hg (by rw [hc]; rfl)
  refine hl.imaged.size_eq hg (hl.sound.placed.segments hg) hc₀ hc ?_
  intro j hj b hlease
  obtain ⟨k, hk, hkl⟩ := Option.map_eq_some_iff.1 hlease
  exact hlast j k hj hk (Prod.mk.inj hkl).1

/-- What has become of the records of a segment whose writer has finished, by the notices on it. -/
inductive Outcome (s : Store) (id : SegmentId) (g : Segment) (ns : List Notice) : Prop where
  | stored (sound : Notice.failedWrites ns = [])
      (stands : ∀ w ∈ Notice.writes ns, s.disk.Stands g.writer.file w.1.offset w.2)
  /-- The write of `bad` failed. What the segment got into the file ends within this record, and as
  long as nobody else has leased the file it ends there too. -/
  | torn {f : WriteFailure} {before after : List (Address × Bytes)} {bad : Address × Bytes}
      (failed : Notice.failedWrites ns = [f])
      (records : Notice.writes ns = before ++ bad :: after)
      (offset : f.offset = bad.1.offset)
      (stands : ∀ w ∈ before, s.disk.Stands g.writer.file w.1.offset w.2)
      (landed : Notice.landings ns <+: encodeAll ((before ++ [bad]).map Prod.snd))
      (ends : (∀ j k, id < j → s.segments[j]? = some k → k.fileIndex ≠ g.fileIndex) →
        ∀ c, s.disk.content? g.writer.file = some c → ∀ w ∈ after, c.size ≤ w.1.offset)

section Outcome

variable (hl : s.Logged d dir files h) (hdb : d.Database dir files)
  (hg : s.segments[id]? = some g)
  (hregular : Notice.landings (h.on id) ≠ [] → (s.disk.content? g.writer.file).isSome)
  {handled good lost : List Bytes} {bad part : Bytes} (hc : g.Carries (h.on id) handled [])

include hl hdb hg hregular hc

theorem Logged.stands_of_written (hgood : handled = good ++ lost)
    (hland : Notice.landings (h.on id) = encodeAll good ++ part) {w : Address × Bytes}
    (hw : w ∈ (placed g.base good).map g.written) :
    s.disk.Stands g.writer.file w.1.offset w.2 := by
  obtain ⟨v, hv, rfl⟩ := List.mem_map.1 hw
  have hplaced : v ∈ placed g.base (handled ++ []) := by
    rw [List.append_nil, hgood, placed_append]
    exact List.mem_append_left _ hv
  rw [(hc.address_written hplaced).2]
  exact hl.stands_of_placed hdb hg hregular hland hv

omit hregular in
theorem Logged.size_le_of_lost (hrecords : handled = good ++ bad :: lost)
    (hpart : part <+: encode bad) (hland : Notice.landings (h.on id) = encodeAll good ++ part)
    (hlast : ∀ j k, id < j → s.segments[j]? = some k → k.fileIndex ≠ g.fileIndex) {c : Content}
    (hcontent : s.disk.content? g.writer.file = some c) {w : Address × Bytes}
    (hw : w ∈ (placed (g.base + (encodeAll (good ++ [bad])).length) lost).map g.written) :
    c.size ≤ w.1.offset := by
  obtain ⟨⟨n, data⟩, hv, rfl⟩ := List.mem_map.1 hw
  have hplaced : (n, data) ∈ placed g.base (handled ++ []) := by
    rw [List.append_nil, hrecords, placed_append_cons]
    exact List.mem_append_right _ (List.mem_cons_of_mem _ hv)
  rw [(hc.address_written hplaced).2, hl.size_of_last hdb hg hlast hcontent, hland]
  obtain ⟨others, -, -, rfl⟩ := mem_placed hv
  have hmost := hpart.length_le
  simp only [encodeAll_append, encodeAll_singleton, List.length_append]
  omega

theorem Logged.outcome : s.Outcome id g (h.on id) := by
  have hwrites := hc.writes
  have hlanded := hc.landed
  rw [List.append_nil] at hwrites
  cases hfailed : Notice.failedWrites (h.on id) with
  | nil =>
    rw [hfailed] at hlanded
    cases hlanded with
    | all bytes =>
      refine .stored hfailed fun w hw => ?_
      rw [hwrites] at hw
      exact hl.stands_of_written hdb hg hregular hc (List.append_nil _).symm
        (bytes.trans (List.append_nil _).symm) hw
  | cons f rest =>
    rw [hfailed] at hlanded
    cases hlanded with
    | @torn _ good lost bad part records offset isPart bytes =>
      have hbad : (g.base + (encodeAll good).length, bad) ∈ placed g.base (handled ++ []) := by
        rw [List.append_nil, records, placed_append_cons]
        simp
      rw [records, placed_append_cons, List.map_append, List.map_cons] at hwrites
      refine .torn hfailed hwrites ?_ ?_ ?_ ?_
      · rw [(hc.address_written hbad).2, offset]
      · intro w hw
        exact hl.stands_of_written hdb hg hregular hc records bytes hw
      · rw [List.map_append, Segment.map_snd_written, bytes]
        show _ <+: encodeAll (good ++ [bad])
        rw [encodeAll_append, encodeAll_singleton]
        exact (List.prefix_append_right_inj _).2 isPart
      · intro hlast c hcontent w hw
        exact hl.size_le_of_lost hdb hg hc records isPart bytes hlast hcontent hw

end Outcome

end Store

/-! ## The answers -/

/-- What a flush or an unlock has to answer: the first failure, if there is one. -/
def Segment.verdict (g : Segment) (ns : List Notice) : Except Error Unit :=
  match Notice.failures ns with
  | [] => .ok ()
  | f :: _ => .error (f.toError g.fileIndex)

theorem Segment.Carries.verdict {g : Segment} {ns : List Notice} {handled waiting : List Bytes}
    (h : g.Carries ns handled waiting) (known : g.writer.failing = none) :
    g.verdict ns = g.checkWriter := by
  unfold Segment.verdict checkWriter
  rw [h.failures, known]
  cases g.writer.failure <;> rfl

namespace Store

/-- When the writer of a segment has finished, the records accepted before the first that failed stand
in the file, and nothing accepted after it has got there. Flushes and unlocks answer with the first
failure, at the offset of its record, or at 0 for the sync at the end. Once recorded it stays, every
further write is refused, and the cursor rests as soon as no write call is under way. -/
theorem failure_is_final {d : Disk} {dir : FileId} {files : List FileId} {events : List Event}
    {s : Store} {id : SegmentId} {g : Segment} {ns : List Notice} (hdb : d.Database dir files)
    (hwithin : ∀ event ∈ events, event.Within d dir files.length)
    (hrun : (ofDisk d).run? events = some s) (hg : s.segments[id]? = some g)
    (hns : ((ofDisk d).history events).on id = ns) :
    (g.writer.finished = true → s.Outcome id g ns) ∧
    (∀ answer, .flushed answer ∈ ns ∨ .unlocked answer ∈ ns → answer = g.verdict ns) ∧
    (Notice.failures ns = Notice.failedWrites ns ∨ Notice.failedWrites ns = [] ∧
      (∃ e, Notice.failures ns = [⟨0, e⟩]) ∧ g.writer.syncOnFlush = true) ∧
    ∀ f, g.writer.failure = some f → Notice.failures ns = [f] ∧
      ∀ later t, s.run? later = some t → ∃ k, t.segments[id]? = some k ∧
        k.writer.failure = some f ∧ t.Refuses id k (f.toError g.fileIndex) ∧
        (g.pending = none → k.next = g.next) ∧
        (∀ r, g.pending = some r → k.next = g.next ∨
          k.pending = none ∧ k.next = g.next + encodedLength r.data.length) ∧
        ∀ answer, .flushed answer ∈ ((ofDisk d).history (events ++ later)).on id ∨
            .unlocked answer ∈ ((ofDisk d).history (events ++ later)).on id →
          answer = .error (f.toError g.fileIndex) := by
  subst hns
  have hlogged := logged_of_run hdb hwithin hrun
  obtain ⟨horderly, handled, waiting, hc⟩ := hlogged.carrying.each hg
  refine ⟨?_, ?_, hc.outcome.imp_right And.left, fun f hf => ⟨?_, fun later t hlater => ?_⟩⟩
  · intro hfinished
    obtain rfl := hc.nothing_waits (horderly.finished hfinished).2.1
    refine hlogged.outcome hdb hg (fun hland => ?_) hc
    obtain ⟨k, hk, hregular⟩ := regular_of_landed hrun hland
    obtain rfl := Option.some.inj (hk.symm.trans hg)
    exact hregular
  · intro answer hanswer
    have hanswers := (along_of_run Segment.answered_invariant hrun).each hg
    obtain ⟨hfinished, rfl⟩ := hanswers.2 answer hanswer
    exact (hc.verdict (horderly.finished hfinished).2.2).symm
  · rw [hc.failures, horderly.known hf, hf]
    rfl
  · obtain ⟨k, hk, hstopped⟩ := kept_of_run (Segment.stopped_kept f g) hlater hg
      ⟨horderly, hf, rfl, .inl ⟨rfl, rfl⟩⟩
    have hall : (ofDisk d).run? (events ++ later) = some t := by
      rw [run?_append, hrun]
      exact hlater
    refine ⟨k, hk, hstopped.failure, ?_, fun hidle => ?_, fun r hr => ?_,
      fun answer hanswer => ?_⟩
    · rw [← hstopped.fileIndex]
      exact refuses_of_failure hk hstopped.orderly hstopped.failure
    · rcases hstopped.cursor with ⟨hnext, -⟩ | ⟨r, hr, -, -⟩
      · exact hnext
      · rw [hidle] at hr
        cases hr
    · rcases hstopped.cursor with ⟨hnext, -⟩ | ⟨r', hr', hnone, hnext⟩
      · exact .inl hnext
      · obtain rfl := Option.some.inj (hr'.symm.trans hr)
        exact .inr ⟨hnone, hnext⟩
    · have hanswers := (along_of_run Segment.answered_invariant hall).each hk
      obtain ⟨-, rfl⟩ := hanswers.2 answer hanswer
      rw [k.checkWriter_of_failure hstopped.failure, hstopped.fileIndex]

/-- Of three records the second fails, and the third is thrown away. -/
def lostRecord : List Event :=
  [.openPool "db" { fileCount := 1 }, .select 0, .take 0, .startLease 0 0 none, .accept 0 [7],
    .enqueue 0, .accept 0 [8, 9], .enqueue 0, .accept 0 [10], .enqueue 0, .receive 0 none,
    .receive 0 (some ⟨1, .storageFull⟩), .record 0, .accept 0 [11], .receive 0 none,
    .closeQueue 0, .flushTimeout 0, .finish 0 none, .endFlush 0]

theorem failure_is_final_lostRecord :
    ∃ s g, (ofDisk oneFile).run? lostRecord = some s ∧ s.segments[0]? = some g ∧
      s.Outcome 0 g (((ofDisk oneFile).history lostRecord).on 0) ∧
      s.Refuses 0 g (.io 0 11 (.recorded .storageFull)) ∧
      (0, .flushed (.error (.io 0 11 (.recorded .storageFull)))) ∈
        (ofDisk oneFile).history lostRecord := by
  have hflushed : (0, .flushed (.error (.io 0 11 (.recorded .storageFull)))) ∈
      (ofDisk oneFile).history lostRecord := by decide +kernel
  have hrun : (((ofDisk oneFile).run? lostRecord).bind fun s => s.segments[0]?.bind fun g =>
      if g.writer.finished = true ∧ g.fileIndex = 0 ∧
        g.writer.failure = some ⟨11, .storageFull⟩ then some g else none).isSome := by
    decide +kernel
  obtain ⟨g', hrun⟩ := Option.isSome_iff_exists.1 hrun
  obtain ⟨s, hs, hrun⟩ := Option.bind_eq_some_iff.1 hrun
  obtain ⟨g, hg, hrun⟩ := Option.bind_eq_some_iff.1 hrun
  split at hrun
  · rename_i hc
    obtain ⟨hfinished, hindex, hfailure⟩ := hc
    obtain ⟨-, dir, files, hdir, hdb, hlength, -⟩ := Layout.create_ok oneFile_created
    have hwithin : ∀ event ∈ lostRecord, event.Within oneFile dir files.length :=
      fun event he => hlength ▸ (on_of_opensOne (by decide) event he).within hdir
    obtain ⟨houtcome, -, -, hfinal⟩ := failure_is_final hdb hwithin hs hg rfl
    obtain ⟨-, hafter⟩ := hfinal _ hfailure
    obtain ⟨k, hk, -, hrefuses, -⟩ := hafter [] s rfl
    obtain rfl := Option.some.inj (hk.symm.trans hg)
    rw [hindex] at hrefuses
    exact ⟨s, k, hs, hk, houtcome hfinished, hrefuses, hflushed⟩
  · cases hrun

/-- The first record fails while the second fills the queue, and the third waits for room. -/
def waitsForRoom : List Event :=
  [.openPool "db" { fileCount := 1, writeQueueDepth := 1 }, .select 0, .take 0,
    .startLease 0 0 none, .accept 0 [7], .enqueue 0, .receive 0 (some ⟨0, .storageFull⟩),
    .accept 0 [8], .enqueue 0, .accept 0 [9], .record 0]

/-- The second record is thrown away, and the third gets its room. -/
def getsRoom : List Event := [.receive 0 none, .enqueue 0]

/-- A write that waits for room while the failure is recorded still succeeds and moves the cursor.
Afterwards a write at an address behind the cursor is refused for its address. -/
theorem cursor_moves_after_failure :
    ∃ s t g k, (ofDisk oneFile).run? waitsForRoom = some s ∧ s.segments[0]? = some g ∧
      s.run? getsRoom = some t ∧ t.segments[0]? = some k ∧
      g.writer.failure = some ⟨8, .storageFull⟩ ∧ k.next = g.next + encodedLength 1 ∧
      (0, .wrote (.ofParts 0 14) [9]) ∈ s.history getsRoom ∧
      (t.writeAt 0 (.ofParts 0 8) [9]).1 =
        some (.error (.invalidArgument (.notAtCursor (.ofParts 0 8) k.nextAddress))) := by
  have hrun : (((ofDisk oneFile).run? waitsForRoom).bind fun s => s.segments[0]?.bind fun g =>
      (s.run? getsRoom).bind fun t => t.segments[0]?.bind fun k =>
        if g.writer.failure = some ⟨8, .storageFull⟩ ∧ k.next = g.next + encodedLength 1 ∧
          (0, .wrote (.ofParts 0 14) [9]) ∈ s.history getsRoom ∧
          (t.writeAt 0 (.ofParts 0 8) [9]).1 =
            some (.error (.invalidArgument (.notAtCursor (.ofParts 0 8) k.nextAddress)))
        then some k else none).isSome := by
    decide +kernel
  obtain ⟨k', hrun⟩ := Option.isSome_iff_exists.1 hrun
  obtain ⟨s, hs, hrun⟩ := Option.bind_eq_some_iff.1 hrun
  obtain ⟨g, hg, hrun⟩ := Option.bind_eq_some_iff.1 hrun
  obtain ⟨t, ht, hrun⟩ := Option.bind_eq_some_iff.1 hrun
  obtain ⟨k, hk, hrun⟩ := Option.bind_eq_some_iff.1 hrun
  split at hrun
  · rename_i hend
    exact ⟨s, t, g, k, hs, hg, ht, hk, hend⟩
  · cases hrun

end Store

end RecordStore
