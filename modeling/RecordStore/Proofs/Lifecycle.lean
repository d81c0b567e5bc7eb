import RecordStore.Proofs.Change

/-!
# The life of a segment

What a run does to one segment, seen alone. A life goes from leased over flushing and drained to
released, and the writer finishes before the segment is drained.
-/

namespace RecordStore

namespace Segment

/-- A fact about a segment and the notices on it that each step keeps. -/
structure Kept (P : Segment → List Notice → Prop) : Prop where
  move : ∀ {g g' : Segment} {d d' : Disk} {ns ms : List Notice},
    P g ns → g.Move d ms g' d' → P g' (ns ++ ms)
  finish : ∀ {g : Segment} {n : List Notice}, P g n → g.writer.closed = true →
    g.writer.queue = [] → g.writer.failing = none → g.writer.finished = false →
    P g.finish n
  release : ∀ {g : Segment} {n : List Notice}, P g n → g.released = false → g.pending = none →
    g.phase = .drained → P { g with released := true } (n ++ [.unlocked g.checkWriter])

/-- A fact that also holds when the segment is leased. -/
structure Invariant (P : Segment → List Notice → Prop) : Prop extends Kept P where
  start : ∀ {pool i base : Nat} {file : FileId} {config : Config} {g : Segment},
    start pool i base file config = .ok g → P g []

end Segment

/-! ## From one segment to the store -/

namespace Store

/-- Each segment goes with the notices on it, and there is no notice on a segment to come. -/
structure Along (P : Segment → List Notice → Prop) (s : Store) (h : History) : Prop where
  each : ∀ {id : SegmentId} {g : Segment}, s.segments[id]? = some g → P g (h.on id)
  later : ∀ {id : SegmentId}, s.segments.length ≤ id → h.on id = []

variable {P : Segment → List Notice → Prop} {s t : Store} {h : History}

theorem along_ofDisk (d : Disk) : (ofDisk d).Along P [] :=
  ⟨fun hg => by simp [ofDisk] at hg, fun _ => rfl⟩

theorem Along.same (ha : s.Along P h) (hsegments : t.segments = s.segments) :
    t.Along P (h ++ []) := by
  rw [List.append_nil]
  exact ⟨fun hg => ha.each (hsegments ▸ hg), fun hid => ha.later (hsegments ▸ hid)⟩

theorem Along.set (ha : s.Along P h) {id : SegmentId} {g g' : Segment} {k : List Notice}
    (hg : s.segments[id]? = some g) (hsegments : t.segments = s.segments.set id g')
    (hP : P g (h.on id) → P g' (h.on id ++ k)) : t.Along P (h ++ k.map (id, ·)) := by
  obtain ⟨hid, -⟩ := List.getElem?_eq_some_iff.1 hg
  refine ⟨fun {j} {q} hq => ?_, fun {j} hj => ?_⟩
  · rw [hsegments] at hq
    rcases of_getElem?_set hq with ⟨rfl, rfl⟩ | ⟨hij, hq⟩
    · simpa using hP (ha.each hg)
    · simpa [History.on_map_ne _ (Ne.symm hij)] using ha.each hq
  · rw [hsegments, List.length_set] at hj
    have hij : id ≠ j := Nat.ne_of_lt (Nat.lt_of_lt_of_le hid hj)
    simp [History.on_map_ne _ hij, ha.later hj]

theorem Along.append (ha : s.Along P h) {g : Segment} (hP : P g [])
    (hsegments : t.segments = s.segments ++ [g]) : t.Along P (h ++ []) := by
  rw [List.append_nil]
  refine ⟨fun {j k} hk => ?_, fun {j} hj => ?_⟩
  · rw [hsegments] at hk
    rcases of_getElem?_concat hk with hk | ⟨rfl, rfl⟩
    · exact ha.each hk
    · rw [ha.later (Nat.le_refl _)]
      exact hP
  · rw [hsegments, List.length_append] at hj
    exact ha.later (by omega)

theorem Along.change {event : Event} {ns : History} (inv : Segment.Invariant P) (ha : s.Along P h)
    (hc : s.Change event ns t) : t.Along P (h ++ ns) := by
  cases hc with
  | same => exact ha.same rfl
  | create => exact ha.same rfl
  | openRefused => exact ha.same rfl
  | openPool => exact ha.same rfl
  | closePool => exact ha.same (by simp)
  | pool => exact ha.same rfl
  | lease there received started => exact ha.append (inv.start started) rfl
  | segment there move => exact ha.set there rfl fun hP => inv.move hP move
  | @finish id g there closed empty known unfinished =>
    apply ha.set (k := []) there (by rw [segments_dropOwner, segments_setSegment])
    intro hP
    rw [List.append_nil]
    exact inv.finish hP closed empty known unfinished
  | release there live idle drained =>
    exact ha.set (k := [_]) there rfl fun hP => inv.release hP live idle drained

theorem along_of_run {d : Disk} {events : List Event} (inv : Segment.Invariant P)
    (hrun : (ofDisk d).run? events = some s) : s.Along P ((ofDisk d).history events) :=
  run_induction (P := fun s h => s.Along P h) hrun (along_ofDisk d)
    fun _ _ _ _ _ hs hstep => hs.change inv (change_of_step hstep)

theorem Change.kept {event : Event} {ns : History} (kept : Segment.Kept P)
    (hc : s.Change event ns t) {id : SegmentId} {g : Segment} {k : List Notice}
    (hg : s.segments[id]? = some g) (hP : P g k) :
    ∃ g', t.segments[id]? = some g' ∧ P g' (k ++ ns.on id) := by
  have hold : ∃ g', s.segments[id]? = some g' ∧ P g' (k ++ []) := ⟨g, hg, by simpa using hP⟩
  -- of two segments that may be the same one changes
  have hset : ∀ {j : SegmentId} {q q' : Segment} {l : List Notice}, s.segments[j]? = some q →
      (P q k → P q' (k ++ l)) →
      ∃ g', (s.segments.set j q')[id]? = some g' ∧ P g' (k ++ History.on (l.map (j, ·)) id) := by
    intro j q q' l hq hstep
    rw [List.getElem?_set]
    by_cases hj : j = id
    · subst hj
      obtain rfl := Option.some.inj (hq.symm.trans hg)
      refine ⟨q', by simp [(List.getElem?_eq_some_iff.1 hq).1], ?_⟩
      rw [History.on_map_self]
      exact hstep hP
    · rw [if_neg hj, History.on_map_ne l hj]
      exact hold
  cases hc with
  | same => exact hold
  | create => exact hold
  | openRefused => exact hold
  | openPool => exact hold
  | closePool => rwa [segments_dropOwner]
  | pool => exact hold
  | lease there received started =>
    rw [List.getElem?_append_left (List.getElem?_eq_some_iff.1 hg).1]
    exact hold
  | segment there move => exact hset there fun hP => kept.move hP move
  | finish there closed empty known unfinished =>
    rw [segments_dropOwner]
    apply hset (l := []) there
    intro hP
    rw [List.append_nil]
    exact kept.finish hP closed empty known unfinished
  | release there live idle drained =>
    exact hset (l := [_]) there fun hP => kept.release hP live idle drained

theorem kept_of_run {events : List Event} (kept : Segment.Kept P)
    (hrun : s.run? events = some t) {id : SegmentId} {g : Segment}
    (hg : s.segments[id]? = some g) (hP : P g []) :
    ∃ g', t.segments[id]? = some g' ∧ P g' ((s.history events).on id) :=
  run_induction (P := fun t h => ∃ g', t.segments[id]? = some g' ∧ P g' (h.on id)) hrun
    ⟨g, hg, hP⟩ fun u h event v _ hu hstep => by
      obtain ⟨g', hg', hP'⟩ := hu
      rw [History.on_append]
      exact (change_of_step hstep).kept kept hg' hP'

end Store

/-! ## The order of a life -/

namespace Segment

structure Orderly (g : Segment) : Prop where
  closed : g.writer.closed = true ↔ g.phase ≠ .leased
  drained : g.phase = .drained → g.writer.finished = true
  finished : g.writer.finished = true →
    g.writer.closed = true ∧ g.writer.queue = [] ∧ g.writer.failing = none
  released : g.released = true → g.phase = .drained
  /-- A write under way is over before a flush can start. -/
  pending : g.pending.isSome → g.phase = .leased
  failing : g.writer.failing.isSome → g.writer.failure = none

theorem Orderly.unfinished {g : Segment} (h : g.Orderly) (hq : g.writer.queue ≠ []) :
    g.writer.finished = false :=
  Bool.eq_false_iff.2 fun hf => hq (h.finished hf).2.1

theorem Orderly.live_of_unfinished {g : Segment} (h : g.Orderly)
    (hun : g.writer.finished = false) : g.released = false :=
  Bool.eq_false_iff.2 fun hreleased => by
    simp [h.drained (h.released hreleased)] at hun

theorem Orderly.known {g : Segment} {f : WriteFailure} (h : g.Orderly)
    (hf : g.writer.failure = some f) : g.writer.failing = none := by
  cases hfailing : g.writer.failing with
  | none => rfl
  | some e =>
    rw [h.failing (by rw [hfailing]; rfl)] at hf
    cases hf

theorem Orderly.move {g g' : Segment} {d d' : Disk} {ns : List Notice} (h : g.Orderly)
    (hm : g.Move d ns g' d') : g'.Orderly := by
  cases hm with
  | accept live idle accepted =>
    obtain ⟨-, -, -, hclosed, rfl⟩ := accept_ok accepted
    have hphase : g.phase = .leased := Decidable.byContradiction fun hp => by
      simp [h.closed.2 hp] at hclosed
    exact ⟨h.closed, h.drained, h.finished, h.released, fun _ => hphase, h.failing⟩
  | enqueue pending unclosed room =>
    have hleased := h.pending (by simp [pending])
    refine ⟨h.closed, h.drained, fun hf => ?_, h.released, fun hp => by simp at hp, h.failing⟩
    simp [(h.finished hf).1] at unclosed
  | closeQueue live idle leased =>
    have hopen : g.writer.closed = false := Bool.eq_false_iff.2 fun hc => h.closed.1 hc leased
    refine ⟨by simp, by simp, fun hf => ?_, fun hr => by simp [live] at hr,
      fun hp => by simp [idle] at hp, h.failing⟩
    simp [(h.finished hf).1] at hopen
  | endFlush flushing finished =>
    refine ⟨?_, fun _ => finished, h.finished, fun _ => rfl, fun hp => ?_, h.failing⟩
    · simpa [flushing] using h.closed
    · simp [h.pending hp] at flushing
  | discard queued known failed =>
    have hun := h.unfinished (by simp [queued])
    exact ⟨h.closed, h.drained, fun hf => by simp [hun] at hf, h.released, h.pending, h.failing⟩
  | store queued known sound written =>
    have hun := h.unfinished (by simp [queued])
    exact ⟨h.closed, h.drained, fun hf => by simp [hun] at hf, h.released, h.pending, h.failing⟩
  | fail queued known sound written =>
    have hun := h.unfinished (by simp [queued])
    exact ⟨h.closed, h.drained, fun hf => by simp [hun] at hf, h.released, h.pending,
      fun _ => sound⟩
  | record failing =>
    have hun : g.writer.finished = false := Bool.eq_false_iff.2 fun hf => by
      simp [(h.finished hf).2.2] at failing
    exact ⟨h.closed, h.drained, fun hf => by simp [hun] at hf, h.released, h.pending,
      fun hf => by simp at hf⟩
  | unsync closed empty known sound unfinished syncs =>
    exact ⟨h.closed, h.drained, fun hf => by simp [unfinished] at hf, h.released, h.pending,
      fun _ => sound⟩

theorem orderly_invariant : Invariant fun g _ => g.Orderly where
  start started := by
    obtain ⟨-, -, rfl⟩ := start_ok started
    exact ⟨by simp, by simp, by simp, by simp, by simp, by simp⟩
  move h hm := h.move hm
  finish h closed empty known unfinished :=
    ⟨h.closed, fun _ => rfl, fun _ => ⟨closed, empty, known⟩, h.released, h.pending, h.failing⟩
  release h live idle drained :=
    ⟨h.closed, h.drained, h.finished, fun _ => drained, h.pending, h.failing⟩

/-! ## What callers are told -/

/-- A flush or an unlock has answered, and so the writer has finished. The answer is for good. -/
def Answered (g : Segment) (ns : List Notice) : Prop :=
  ∀ answer, .flushed answer ∈ ns ∨ .unlocked answer ∈ ns →
    g.writer.finished = true ∧ answer = g.checkWriter

theorem Orderly.answer_fixed {g g' : Segment} {d d' : Disk} {ns : List Notice} (h : g.Orderly)
    (hm : g.Move d ns g' d') (hf : g.writer.finished = true) :
    g'.writer.finished = true ∧ g'.checkWriter = g.checkWriter := by
  cases hm with
  | accept live idle accepted =>
    obtain ⟨-, -, -, -, rfl⟩ := accept_ok accepted
    exact ⟨hf, rfl⟩
  | record failing => simp [(h.finished hf).2.2] at failing
  | _ => exact ⟨hf, rfl⟩

theorem answered_invariant : Invariant fun g ns => g.Orderly ∧ g.Answered ns where
  start started := ⟨orderly_invariant.start started, fun answer ha => by simp at ha⟩
  move := by
    rintro g g' d d' ns k ⟨ho, h⟩ hm
    refine ⟨ho.move hm, fun answer ha => ?_⟩
    have hcases : (.flushed answer ∈ ns ∨ .unlocked answer ∈ ns) ∨
        (.flushed answer ∈ k ∨ .unlocked answer ∈ k) := by
      simp only [List.mem_append] at ha
      rcases ha with (ha | ha) | ha | ha
      · exact .inl (.inl ha)
      · exact .inr (.inl ha)
      · exact .inl (.inr ha)
      · exact .inr (.inr ha)
    rcases hcases with hold | hnew
    · obtain ⟨hf, rfl⟩ := h answer hold
      obtain ⟨hf', hsame⟩ := ho.answer_fixed hm hf
      exact ⟨hf', hsame.symm⟩
    · cases hm with
      | endFlush flushing finished =>
        refine ⟨finished, ?_⟩
        rcases hnew with hnew | hnew
        · exact Notice.flushed.inj (List.mem_singleton.1 hnew)
        · cases List.mem_singleton.1 hnew
      | _ => simp at hnew
  finish := by
    rintro g n ⟨ho, h⟩ closed empty known unfinished
    refine ⟨orderly_invariant.finish (n := n) ho closed empty known unfinished, fun answer ha => ?_⟩
    exact ⟨rfl, (h answer ha).2⟩
  release := by
    rintro g n ⟨ho, h⟩ live idle drained
    refine ⟨orderly_invariant.release (n := n) ho live idle drained, fun answer ha => ?_⟩
    refine ⟨ho.drained drained, ?_⟩
    simp only [List.mem_append, List.mem_singleton, Notice.unlocked.injEq, reduceCtorEq,
      or_false] at ha
    rcases ha with ha | ha | rfl
    · exact (h answer (.inl ha)).2
    · exact (h answer (.inr ha)).2
    · rfl

end Segment

end RecordStore
