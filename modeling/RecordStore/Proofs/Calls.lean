import RecordStore.Proofs.Interleaving
import RecordStore.Store.Call

/-!
# Calls on one segment

Once no failure is held back, a call is something done to its own segment: it makes its checks, lets
the writer run until it waits, and answers by what it finds. So calls on two segments of a pool do
not notice each other.
-/

namespace RecordStore

/-- What a caller does with a segment between lock and unlock. -/
inductive Call where
  | write (data : Bytes)
  | writeAt (expected : Address) (data : Bytes)
  | flush
  | flushWithin
  /-- The caller leaves the writer alone until it waits. -/
  | rest
  deriving DecidableEq, Repr

/-- The answer, when there is one; a write gives an address. -/
abbrev Reply := Option (Except Error (Option Address))

namespace Store

def perform (s : Store) (k : SegmentId) : Call → Reply × Store
  | .write data => ((s.write k data).1.map (·.map some), (s.write k data).2)
  | .writeAt expected data =>
    ((s.writeAt k expected data).1.map (·.map some), (s.writeAt k expected data).2)
  | .flush => ((s.flush k).1.map (·.map fun _ => none), (s.flush k).2)
  | .flushWithin => (some ((s.flushWithin k).1.map fun _ => none), (s.flushWithin k).2)
  | .rest => (none, s.settleSegment k)

end Store

namespace Call

def submit (g : Segment) : Call → Except Error Segment
  | write data => g.accept data
  | writeAt expected data => g.acceptAt expected data
  | flush | flushWithin => g.closeQueue
  | rest => .ok g

/-- How a call on `g` ends that has passed its checks, once the writer of `k` waits. -/
def conclude (g k : Segment) : Call → Reply × Segment
  | write _ => (if k.pending.isSome then none else some (.ok (some g.nextAddress)), k)
  | writeAt _ _ => (if k.pending.isSome then none else some (.ok (some k.nextAddress)), k)
  | flush =>
    match k.endFlush? with
    | some l => (some (l.checkWriter.map fun _ => none), l)
    | none => (none, k)
  | flushWithin =>
    match k.endFlush? with
    | some l => (some (l.checkWriter.map fun _ => none), l)
    | none => (some (.error (.flushTimeout g.fileIndex)), k)
  | rest => (none, k)

def act (call : Call) : Segment.Act Reply := fun g d =>
  match call.submit g with
  | .error e => ((some (.error e), g), d)
  | .ok k => (call.conclude g (k.settle false d).1, (k.settle false d).2)

variable {g k l : Segment} {d : Disk} {call : Call}

theorem submit_ok (call : Call) (h : call.submit g = .ok k) :
    k.pool = g.pool ∧ k.writer.file = g.writer.file ∧ k.writer.finished = g.writer.finished := by
  have haccept : ∀ {data : Bytes}, g.accept data = .ok k → k.pool = g.pool ∧
      k.writer.file = g.writer.file ∧ k.writer.finished = g.writer.finished := by
    intro data h
    obtain ⟨-, -, -, -, rfl⟩ := Segment.accept_ok h
    exact ⟨rfl, rfl, rfl⟩
  have hclose : g.closeQueue = .ok k → k.pool = g.pool ∧
      k.writer.file = g.writer.file ∧ k.writer.finished = g.writer.finished := by
    intro h
    unfold Segment.closeQueue at h
    split at h
    · cases h
    · cases h
      exact ⟨rfl, rfl, rfl⟩
    · cases h
      exact ⟨rfl, rfl, rfl⟩
  cases call with
  | write data => exact haccept h
  | writeAt expected data => exact haccept (Segment.acceptAt_ok h).2
  | flush => exact hclose h
  | flushWithin => exact hclose h
  | rest =>
    cases h
    exact ⟨rfl, rfl, rfl⟩

theorem conclude_kept (call : Call) (g k : Segment) :
    (call.conclude g k).2.pool = k.pool ∧ (call.conclude g k).2.writer = k.writer := by
  cases call with
  | write data => exact ⟨rfl, rfl⟩
  | writeAt expected data => exact ⟨rfl, rfl⟩
  | flush | flushWithin =>
    unfold conclude
    dsimp only
    split
    · exact Segment.endFlush?_kept ‹_›
    · exact ⟨rfl, rfl⟩
  | rest => exact ⟨rfl, rfl⟩

theorem own_act (call : Call) : Segment.Own call.act where
  confined g := by
    unfold act
    cases h : call.submit g with
    | error e => exact Disk.confined_return g.writer.file _
    | ok k =>
      rw [← (submit_ok call h).2.1]
      exact (k.confined_settle false).map (call.conclude g)
  pool g d := by
    unfold act
    cases h : call.submit g with
    | error e => rfl
    | ok k =>
      exact (conclude_kept call g _).1.trans ((k.settle_kept false d).1.trans (submit_ok call h).1)
  file g d := by
    unfold act
    cases h : call.submit g with
    | error e => rfl
    | ok k =>
      dsimp only
      rw [(conclude_kept call g _).2, (k.settle_kept false d).2, (submit_ok call h).2.1]

end Call

namespace Store

variable {s t : Store} {k : SegmentId} {g h : Segment}

theorem letGoIf_of_prompt (hs : s.failuresHeld = false) (waits : Segment → Bool) :
    s.letGoIf k waits = s := by
  unfold letGoIf
  rw [hs]
  rfl

theorem settleSegment_setSegment (hs : s.failuresHeld = false) (hg : s.segments[k]? = some g)
    (hpool : h.pool = g.pool) (hfinished : h.writer.finished = g.writer.finished) :
    (s.setSegment k h).settleSegment k = s.install k g (h.settle false s.disk).1
      (h.settle false s.disk).2 := by
  have hset : (s.setSegment k h).segments[k]? = some h := by
    simp [(List.getElem?_eq_some_iff.1 hg).1]
  have hprompt : (s.setSegment k h).failuresHeld = false := hs
  unfold settleSegment install
  rw [hset, hprompt, disk_setSegment]
  simp only [(h.settle_kept false s.disk).1, hpool, hfinished, setSegment, List.set_set]
  split
  · rw [dropOwner_with]
  · rfl

theorem finishWrite_of_ok (hs : s.failuresHeld = false) (hg : s.segments[k]? = some g)
    (hpool : h.pool = g.pool) (hfinished : h.writer.finished = g.writer.finished)
    (answer : Segment → Address) :
    s.finishWrite k (.ok h) answer =
      (if (h.settle false s.disk).1.pending.isSome then none
        else some (.ok (answer (h.settle false s.disk).1)),
        s.install k g (h.settle false s.disk).1 (h.settle false s.disk).2) := by
  unfold finishWrite
  simp only [settleSegment_setSegment hs hg hpool hfinished]
  rw [letGoIf_of_prompt (by rw [failuresHeld_install, hs])]
  rw [segments_install, List.getElem?_set_self (List.getElem?_eq_some_iff.1 hg).1]

theorem install_self (hg : s.segments[k]? = some g) : s.install k g g s.disk = s := by
  unfold install
  rw [Bool.and_not_self, if_neg Bool.false_ne_true]
  exact setSegment_self hg

theorem setSegment_install {l : Segment} (hwriter : l.writer = h.writer) (d : Disk) :
    (s.install k g h d).setSegment k l = s.install k g l d := by
  unfold install setSegment
  rw [hwriter, List.set_set]

theorem endFlush?_install (hg : s.segments[k]? = some g) (h : Segment) (d : Disk) :
    (s.install k g h d).endFlush? k =
      h.endFlush?.map fun l => (l.checkWriter, s.install k g l d) := by
  unfold endFlush?
  rw [segments_install, List.getElem?_set_self (List.getElem?_eq_some_iff.1 hg).1, Option.bind_some]
  cases hl : h.endFlush? with
  | none => rfl
  | some l => simp [setSegment_install (Segment.endFlush?_kept hl).2]

theorem startFlush_of_ok (hs : s.failuresHeld = false) (hg : s.segments[k]? = some g)
    (hclose : g.closeQueue = .ok h) :
    s.startFlush k g = .ok (s.install k g (h.settle false s.disk).1 (h.settle false s.disk).2) := by
  obtain ⟨hpool, -, hfinished⟩ := Call.submit_ok .flush hclose
  unfold startFlush
  rw [hclose, Except.map, settleSegment_setSegment hs hg hpool hfinished]

theorem startFlush_of_error {e : Error} (hclose : g.closeQueue = .error e) :
    s.startFlush k g = .error e := by
  unfold startFlush
  rw [hclose]
  rfl

/-- On a store that holds no failures back, a call is something done to its segment. -/
theorem perform_eq_act (hs : s.failuresHeld = false) (hg : s.segments[k]? = some g) (call : Call) :
    s.perform k call = s.act call.act k := by
  rw [act_of_some hg]
  unfold Call.act
  cases call with
  | write data =>
    unfold perform write
    rw [hg]
    cases hk : g.accept data with
    | error e => simp [Call.submit, hk, finishWrite, install_self hg, Except.map]
    | ok h =>
      obtain ⟨hpool, -, hfinished⟩ := Call.submit_ok (.write data) hk
      simp only [Call.submit, hk, finishWrite_of_ok hs hg hpool hfinished, Call.conclude]
      split <;> rfl
  | writeAt expected data =>
    unfold perform writeAt
    rw [hg]
    cases hk : g.acceptAt expected data with
    | error e => simp [Call.submit, hk, finishWrite, install_self hg, Except.map]
    | ok h =>
      obtain ⟨hpool, -, hfinished⟩ := Call.submit_ok (.writeAt expected data) hk
      simp only [Call.submit, hk, finishWrite_of_ok hs hg hpool hfinished, Call.conclude]
      split <;> rfl
  | flush =>
    unfold perform flush
    rw [hg]
    cases hk : g.closeQueue with
    | error e => simp [Call.submit, hk, startFlush_of_error hk, install_self hg, Except.map]
    | ok h =>
      simp only [Call.submit, hk, startFlush_of_ok hs hg hk, Call.conclude]
      rw [letGoIf_of_prompt (by rw [failuresHeld_install, hs]), endFlush?_install hg]
      cases (h.settle false s.disk).1.endFlush? <;> rfl
  | flushWithin =>
    unfold perform flushWithin
    rw [hg]
    cases hk : g.closeQueue with
    | error e => simp [Call.submit, hk, startFlush_of_error hk, install_self hg, Except.map]
    | ok h =>
      simp only [Call.submit, hk, startFlush_of_ok hs hg hk, Call.conclude, endFlush?_install hg]
      cases (h.settle false s.disk).1.endFlush? <;> rfl
  | rest =>
    have hsettle := settleSegment_setSegment hs hg rfl rfl
    rw [setSegment_self hg] at hsettle
    simp only [perform, hsettle, Call.submit, Call.conclude]

/-! ## Calls on several segments -/

/-- One call after another; after each the writer runs until it waits. -/
def performAll (s : Store) (calls : List (SegmentId × Call)) : List (SegmentId × Reply) × Store :=
  each perform s calls

theorem independent_perform {pool : PoolId} {ids : SegmentId → Prop} :
    Independent (Separate pool ids) ids perform := by
  have hact : ∀ {s : Store} {k : SegmentId} (call : Call), s.Separate pool ids → ids k →
      s.perform k call = s.act call.act k := by
    intro s k call hs hk
    obtain ⟨g, hg, -⟩ := hs.there hk
    exact perform_eq_act hs.prompt hg call
  have hind : Independent (Separate pool ids) ids fun s k (call : Call) => s.act call.act k :=
    independent_act Call.own_act
  exact {
    kept := fun b hs hk => by
      rw [hact b hs hk]
      exact hind.kept b hs hk
    answer := fun a b hs hj hk hjk => by
      rw [hact a hs hj, hact b (hind.kept a hs hj) hk, hact b hs hk]
      exact hind.answer a b hs hj hk hjk
    comm := fun a b hs hj hk hjk => by
      rw [hact a hs hj, hact b (hind.kept a hs hj) hk, hact b hs hk, hact a (hind.kept b hs hk) hj]
      exact hind.comm a b hs hj hk hjk }

end Store

end RecordStore
