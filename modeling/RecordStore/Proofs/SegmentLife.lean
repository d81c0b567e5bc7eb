import RecordStore.Proofs.Lifecycle
import RecordStore.Proofs.Returns

/-!
# From lease to return

A segment is leased, flushed and released, in this order and once each. The first flush closes it for
writes, and when it is released its writer has finished and its file goes back.
-/

namespace RecordStore

/-- How the phase of a segment moves on. -/
inductive Phase.Next : Phase → Phase → Prop where
  | flush : Next .leased .flushing
  | drain : Next .flushing .drained

theorem Phase.Next.ne_leased {p q : Phase} (h : p.Next q) : q ≠ .leased := by
  cases h <;> nofun

namespace Segment

variable {g k : Segment} {d d' : Disk} {ns : List Notice}

theorem Move.phase (hm : g.Move d ns k d') : k.phase = g.phase ∨ g.phase.Next k.phase := by
  cases hm with
  | accept live idle accepted =>
    obtain ⟨-, -, -, -, rfl⟩ := accept_ok accepted
    exact .inl rfl
  | closeQueue live idle leased =>
    right
    rw [leased]
    exact .flush
  | endFlush flushing finished =>
    right
    rw [flushing]
    exact .drain
  | _ => exact .inl rfl

/-! ## No writes after a flush -/

theorem accept_of_closed (h : g.writer.closed = true) (data : Bytes) :
    ∃ e, g.accept data = .error e := by
  cases haccept : g.accept data with
  | error e => exact ⟨e, rfl⟩
  | ok k =>
    obtain ⟨-, -, -, hopen, -⟩ := accept_ok haccept
    simp [h] at hopen

theorem acceptAt_of_closed (h : g.writer.closed = true) (expected : Address) (data : Bytes) :
    ∃ e, g.acceptAt expected data = .error e := by
  unfold acceptAt
  split
  · exact accept_of_closed h data
  · exact ⟨_, rfl⟩

/-- A flush has begun, and since then nothing was written. -/
structure Sealed (g : Segment) (ns : List Notice) : Prop where
  orderly : g.Orderly
  flushed : g.phase ≠ .leased
  quiet : Notice.writes ns = []

theorem sealed_kept : Kept Sealed where
  move := by
    rintro g k d d' ns ms ⟨horderly, hflushed, hquiet⟩ hm
    have hclosed := horderly.closed.2 hflushed
    refine ⟨horderly.move hm, ?_, ?_⟩
    · rcases hm.phase with hsame | hnext
      · rwa [hsame]
      · exact hnext.ne_leased
    · rw [Notice.writes_append, hquiet, List.nil_append]
      cases hm with
      | enqueue pending unclosed room => simp [hclosed] at unclosed
      | _ => rfl
  finish := by
    rintro g ns ⟨horderly, hflushed, hquiet⟩ closed empty known unfinished
    exact ⟨orderly_invariant.finish (n := ns) horderly closed empty known unfinished, hflushed, hquiet⟩
  release := by
    rintro g ns ⟨horderly, hflushed, hquiet⟩ live idle drained
    refine ⟨orderly_invariant.release (n := ns) horderly live idle drained, hflushed, ?_⟩
    rw [Notice.writes_append, hquiet]
    rfl

end Segment

namespace Store

variable {s t : Store} {id : SegmentId} {g : Segment}

theorem phase_of_closeQueue (h : s.step? (.closeQueue id) = some t) :
    ∃ k, t.segments[id]? = some k ∧ k.phase ≠ .leased := by
  obtain ⟨g, hg, h⟩ := Option.bind_eq_some_iff.1 h
  obtain ⟨hg, -, -⟩ := idle?_eq_some.1 hg
  have hset : ∀ k, (s.segments.set id k)[id]? = some k := fun k =>
    List.getElem?_set_self (List.getElem?_eq_some_iff.1 hg).1
  obtain rfl := Option.some.inj h
  unfold Segment.closeQueue
  cases hphase : g.phase with
  | leased => exact ⟨_, hset _, nofun⟩
  | flushing => exact ⟨g, hset g, by simp [hphase]⟩
  | drained => exact ⟨g, hg, by simp [hphase]⟩

theorem sealed_of_run {d : Disk} {events : List Event} (hrun : (ofDisk d).run? events = some s)
    (hflush : .closeQueue id ∈ events) : ∃ g, s.segments[id]? = some g ∧ g.Sealed [] := by
  obtain ⟨before, after, rfl⟩ := List.append_of_mem hflush
  rw [run?_append] at hrun
  obtain ⟨u, hu, hrun⟩ := Option.bind_eq_some_iff.1 hrun
  obtain ⟨v, hv, hrun⟩ := Option.bind_eq_some_iff.1 hrun
  obtain ⟨k, hk, hphase⟩ := phase_of_closeQueue hv
  have horderly := ((along_of_run Segment.orderly_invariant hu).change Segment.orderly_invariant
    (change_of_step hv)).each hk
  obtain ⟨g, hg, hsealed⟩ := kept_of_run Segment.sealed_kept hrun hk ⟨horderly, hphase, rfl⟩
  exact ⟨g, hg, hsealed.orderly, hsealed.flushed, rfl⟩

end Store

/-! ## The end of a life can be reached -/

namespace Writer

variable {w : Writer}

theorem receive_of_queue {r : Request} {rest : List Request} (hknown : w.failing = none)
    (hqueue : w.queue = r :: rest) (d : Disk) :
    ∃ w' d', w.receive? d none = some (w', d') ∧ w'.queue = rest ∧ w'.finished = w.finished := by
  unfold receive?
  rw [hknown, hqueue]
  dsimp only
  split
  · exact ⟨_, _, rfl, rfl, rfl⟩
  · split
    · exact ⟨_, _, rfl, rfl, rfl⟩
    · exact ⟨_, _, rfl, rfl, rfl⟩

theorem finish_of_idle (hclosed : w.closed = true) (hempty : w.queue = [])
    (hknown : w.failing = none) (hun : w.finished = false) (d : Disk) :
    w.finish? d none = some { w with finished := true } ∨
      ∃ e, w.failure = none ∧ w.finish? d none = some { w with failing := some ⟨0, e⟩ } := by
  unfold finish?
  rw [if_pos ⟨hclosed, hempty, hknown, by simp [hun]⟩]
  split
  · rename_i hsync
    have hsound : w.failure = none := by
      simp only [Bool.and_eq_true, Option.isNone_iff_eq_none] at hsync
      exact hsync.1
    split
    · exact .inl rfl
    · exact .inr ⟨_, hsound, rfl⟩
  · exact .inl rfl

end Writer

def Phase.toDo : Phase → Nat
  | leased => 2
  | flushing => 1
  | drained => 0

/-- A record may leave a failure to be recorded, and so may the sync. -/
def Writer.toDo (w : Writer) : Nat :=
  4 * w.queue.length +
    (match w.failing, w.failure with
      | some _, _ => 1
      | none, some _ => 0
      | none, none => 2) +
    (!w.finished).toNat

def Segment.toDo (g : Segment) : Nat := g.writer.toDo + g.phase.toDo

namespace Store

variable {s t : Store} {id : SegmentId} {g : Segment}

def Nears (s : Store) (id : SegmentId) (g : Segment) : Prop :=
  ∃ event t k, s.step? event = some t ∧ t.segments[id]? = some k ∧ k.pending = none ∧
    (k.released = true ∨ k.toDo < g.toDo)

theorem nears_of_event (hg : s.segments[id]? = some g) {event : Event} (k : Segment)
    (hstep : s.step? event = some t) (hset : t.segments = s.segments.set id k)
    (hidle : k.pending = none) (hless : k.released = true ∨ k.toDo < g.toDo) : s.Nears id g :=
  ⟨event, t, k, hstep,
    by rw [hset, List.getElem?_set_self (List.getElem?_eq_some_iff.1 hg).1], hidle, hless⟩

theorem nears_of_unfinished (hg : s.segments[id]? = some g) (hidle : g.pending = none)
    (hclosed : g.writer.closed = true) (hun : g.writer.finished = false) : s.Nears id g := by
  cases hknown : g.writer.failing with
  | some f =>
    have hstep : s.step? (.record id) = some (s.setSegment id
        { g with writer := { g.writer with failing := none, failure := some f } }) := by
      simp [step?, hg, Writer.record?, hknown]
    exact nears_of_event hg _ hstep rfl hidle (.inr (by simp [Segment.toDo, Writer.toDo, hknown]))
  | none =>
    cases hqueue : g.writer.queue with
    | cons r rest =>
      obtain ⟨w, d, hreceive, hrest, hfinished⟩ := Writer.receive_of_queue hknown hqueue s.disk
      have hstep : s.step? (.receive id none) =
          some { s.setSegment id { g with writer := w } with disk := d } := by
        simp [step?, hg, hreceive]
      refine nears_of_event hg { g with writer := w } hstep rfl hidle (.inr ?_)
      simp only [Segment.toDo, Writer.toDo, hrest, hfinished, hqueue, List.length_cons]
      split <;> split <;> omega
    | nil =>
      obtain hfinish | ⟨e, hsound, hfinish⟩ :=
        Writer.finish_of_idle hclosed hqueue hknown hun s.disk
      · have hstep : s.step? (.finish id none) =
            some ((s.setSegment id g.finish).dropOwner g.pool) := by
          simp [step?, hg, hfinish, Segment.finish]
        refine nears_of_event hg g.finish hstep (by rw [segments_dropOwner, segments_setSegment])
          hidle (.inr ?_)
        simp [Segment.toDo, Writer.toDo, Segment.finish, hun]
      · have hstep : s.step? (.finish id none) = some (s.setSegment id
            { g with writer := { g.writer with failing := some ⟨0, e⟩ } }) := by
          simp [step?, hg, hfinish, hun]
        refine nears_of_event hg _ hstep rfl hidle (.inr ?_)
        simp [Segment.toDo, Writer.toDo, hknown, hsound]

theorem nears_of_live (ho : g.Orderly) (hg : s.segments[id]? = some g) (hlive : g.released = false)
    (hidle : g.pending = none) : s.Nears id g := by
  have hcall : s.idle? id = some g := idle?_eq_some.2 ⟨hg, hlive, hidle⟩
  cases hphase : g.phase with
  | leased =>
    have hclose : g.closeQueue =
        .ok { g with phase := .flushing, writer := { g.writer with closed := true } } := by
      unfold Segment.closeQueue
      rw [hphase]
    have hstep : s.step? (.closeQueue id) = some (s.orRefused id g.closeQueue) := by
      simp [step?, hcall]
    rw [hclose] at hstep
    refine nears_of_event hg _ hstep rfl hidle (.inr ?_)
    simp [Segment.toDo, Writer.toDo, Phase.toDo, hphase]
  | flushing =>
    cases hun : g.writer.finished with
    | true =>
      have hend : g.endFlush? = some { g with phase := .drained } := if_pos ⟨hphase, hun⟩
      have hstep : s.step? (.endFlush id) = some (s.setSegment id { g with phase := .drained }) := by
        simp [step?, hg, hend]
      refine nears_of_event hg _ hstep rfl hidle (.inr ?_)
      simp [Segment.toDo, Writer.toDo, Phase.toDo, hphase]
    | false => exact nears_of_unfinished hg hidle (ho.closed.2 (by simp [hphase])) hun
  | drained =>
    have hstep : s.step? (.release id) = some (s.release id g) := by simp [step?, hcall, hphase]
    exact nears_of_event hg _ hstep rfl hidle (.inl rfl)

/-- A segment that no write call is using can be brought to its release. -/
theorem exists_release (ho : g.Orderly) (hg : s.segments[id]? = some g) (hidle : g.pending = none) :
    ∃ events t k, s.run? events = some t ∧ t.segments[id]? = some k ∧ k.released = true := by
  generalize hn : g.toDo = n
  induction n using Nat.strongRecOn generalizing s g with
  | ind n ih =>
    by_cases hlive : g.released = true
    · exact ⟨[], s, g, rfl, hg, hlive⟩
    · obtain ⟨event, t, k, hstep, hk, hidle', hdone⟩ :=
        nears_of_live ho hg (by simpa using hlive) hidle
      rcases hdone with hreleased | hless
      · exact ⟨[event], t, k, by rw [run?_cons, hstep]; rfl, hk, hreleased⟩
      · obtain ⟨k', hk', ho'⟩ := (change_of_step hstep).kept
          (P := fun g _ => g.Orderly) Segment.orderly_invariant.toKept (k := []) hg ho
        obtain rfl := Option.some.inj (hk'.symm.trans hk)
        obtain ⟨rest, u, l, hrest, hl, hreleased⟩ := ih _ (hn ▸ hless) ho' hk hidle' rfl
        exact ⟨event :: rest, u, l, by rw [run?_cons, hstep]; exact hrest, hl, hreleased⟩

/-! ## The whole life -/

/-- What is known of a segment in the state `s` after the events of a run, which have sent the
messages of `log`. -/
structure Life (s : Store) (events : List Event) (log : List Return) (id : SegmentId) (g : Segment) :
    Prop where
  phases : ∀ {event : Event} {t : Store}, s.step? event = some t →
    ∃ k, t.segments[id]? = some k ∧ (k.phase = g.phase ∨ g.phase.Next k.phase)
  /-- After a flush call no write is accepted, and none that was accepted before returns. -/
  closed : .closeQueue id ∈ events →
    (∀ data, ∃ e, g.accept data = .error e) ∧
      (∀ expected data, ∃ e, g.acceptAt expected data = .error e) ∧
      ∀ {later : List Event} {t : Store}, s.run? later = some t →
        Notice.writes ((s.history later).on id) = []
  /-- The segment sends one message, when it is released. -/
  message : Return.sentBy id log = if g.released then [⟨some id, g.pool, g.fileIndex⟩] else []
  sends : ∀ {event : Event} {t : Store}, s.step? event = some t →
    Return.sentBy id (s.returning event) ≠ [] → g.writer.finished = true
  /-- As long as no write call is under way, the release can be reached. -/
  ends : g.pending = none →
    ∃ later t k, s.run? later = some t ∧ t.segments[id]? = some k ∧ k.released = true

theorem life_of_run {d : Disk} {events : List Event} (hrun : (ofDisk d).run? events = some s)
    (hg : s.segments[id]? = some g) : s.Life events ((ofDisk d).returnsOf events) id g where
  phases hstep := by
    obtain ⟨k, hk, hbecomes⟩ := becomes_of_step hstep hg
    refine ⟨k, hk, ?_⟩
    cases hbecomes with
    | move move => exact move.phase
    | _ => exact .inl rfl
  closed hflush := by
    obtain ⟨k, hk, hsealed⟩ := sealed_of_run hrun hflush
    obtain rfl := Option.some.inj (hk.symm.trans hg)
    have hclosed := hsealed.orderly.closed.2 hsealed.flushed
    refine ⟨Segment.accept_of_closed hclosed, Segment.acceptAt_of_closed hclosed, fun hlater => ?_⟩
    obtain ⟨_, _, hlater⟩ := kept_of_run Segment.sealed_kept hlater hk hsealed
    exact hlater.quiet
  message := by rw [farewell_of_run hrun, farewell_of_some hg]
  sends {event} _ hstep hsent := by
    have hrelease : event = .release id := by
      by_contra hne
      exact hsent (sentBy_returning hne)
    subst hrelease
    obtain ⟨k, hk, -, hdrained, -⟩ := step_release hstep
    obtain rfl := Option.some.inj (hk.symm.trans hg)
    exact ((along_of_run Segment.orderly_invariant hrun).each hg).drained hdrained
  ends hidle := exists_release ((along_of_run Segment.orderly_invariant hrun).each hg) hg hidle

/-- In every state of a run each segment has gone through its phases in order, is closed for writes
from its first flush on, and has sent one message if it is released and none if not, which it sends
when its writer has finished. The schedulers see just these messages, and those of lock calls that
could not start a lease. No file of a pool has two writers that have not finished. -/
theorem segment_life {d : Disk} {events : List Event} (hrun : (ofDisk d).run? events = some s) :
    (∀ (id : SegmentId) (g : Segment), s.segments[id]? = some g →
      s.Life events ((ofDisk d).returnsOf events) id g) ∧
    (∀ (event : Event) (t : Store) (id : SegmentId) (k : Segment), s.step? event = some t →
      s.segments[id]? = none → t.segments[id]? = some k → k.phase = .leased ∧ k.released = false) ∧
    (∀ pool, ∃ seen, Return.sentTo pool ((ofDisk d).returnsOf events) = seen ++ s.queued pool ∧
      seen.length = events.count (.handleReturn pool)) ∧
    ∀ (j k : SegmentId) (a b : Segment), s.segments[j]? = some a → s.segments[k]? = some b →
      a.pool = b.pool → a.fileIndex = b.fileIndex → a.writer.finished = false →
      b.writer.finished = false → j = k := by
  refine ⟨fun id g hg => life_of_run hrun hg, fun event t id k hstep hnew hk => ?_,
    queued_of_run hrun, fun j k a b ha hb hpool hindex hun hun' => ?_⟩
  · obtain ⟨pool, i, base, file, config, started⟩ := started_of_step hstep hk hnew
    obtain ⟨-, -, rfl⟩ := Segment.start_ok started
    exact ⟨rfl, rfl⟩
  · have horderly := along_of_run Segment.orderly_invariant hrun
    exact (conserved_of_run hrun).holder_unique ha hb hpool hindex
      ((horderly.each ha).live_of_unfinished hun) ((horderly.each hb).live_of_unfinished hun')

/-- A flush gives up, then the write fails, and the segment is unlocked all the same. -/
def failedUnlock : List Event :=
  [.create "db" { fileCount := 1 }, .openPool "db" { fileCount := 1 }, .select 0, .take 0,
    .startLease 0 0 none, .accept 0 [7], .enqueue 0, .closeQueue 0, .flushTimeout 0,
    .receive 0 (some ⟨1, .storageFull⟩), .record 0, .finish 0 none, .endFlush 0, .release 0]

theorem segment_life_failedUnlock :
    ∃ s g, (ofDisk (.withDirectory "db")).run? failedUnlock = some s ∧ s.segments[0]? = some g ∧
      (∃ e, g.accept [8] = .error e) ∧
      Return.sentBy 0 ((ofDisk (.withDirectory "db")).returnsOf failedUnlock) = [⟨some 0, 0, 0⟩] := by
  have hrun : (((ofDisk (.withDirectory "db")).run? failedUnlock).bind fun s =>
      s.segments[0]?.bind fun g =>
        if g.released ∧ g.pool = 0 ∧ g.fileIndex = 0 then some (s, g) else none).isSome := by
    decide +kernel
  obtain ⟨r, hrun⟩ := Option.isSome_iff_exists.1 hrun
  obtain ⟨s, hs, hrun⟩ := Option.bind_eq_some_iff.1 hrun
  obtain ⟨g, hg, hrun⟩ := Option.bind_eq_some_iff.1 hrun
  split at hrun
  · rename_i hend
    obtain ⟨hreleased, hpool, hindex⟩ := hend
    obtain ⟨hlife, -, -, -⟩ := segment_life hs
    have hmessage := (hlife 0 g hg).message
    rw [hreleased, hpool, hindex] at hmessage
    exact ⟨s, g, hs, hg, ((hlife 0 g hg).closed (by decide)).1 [8], hmessage⟩
  · cases hrun

end Store

end RecordStore
