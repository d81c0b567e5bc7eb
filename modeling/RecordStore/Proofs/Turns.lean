import RecordStore.Proofs.Calls

/-!
# Single steps on one segment

A step of a caller or of a writer is something done to its own segment too, whatever failure the
operating system adds to it. A run of such steps can be told segment by segment.
-/

namespace RecordStore

def Segment.idle (g : Segment) : Bool := !g.released && g.pending.isNone

/-- The segment, or as it was if the call is refused. -/
def Segment.orSame (g : Segment) : Except Error Segment → Segment
  | .ok k => k
  | .error _ => g

def errorOf? {α : Type} : Except Error α → Option Error
  | .ok _ => none
  | .error e => some e

namespace Event

/-- The segment on which a caller or its writer acts. The end of its life is not among these acts. -/
def segment? : Event → Option SegmentId
  | accept k _ | acceptAt k _ _ | enqueue k | closeQueue k | endFlush k | flushTimeout k
  | receive k _ | record k | finish k _ => some k
  | _ => none

/-- What becomes of the segment, if it allows the event, and of the disk. -/
def turn (g : Segment) (d : Disk) : Event → Option Segment × Disk
  | accept _ data => (if g.idle then some (g.orSame (g.accept data)) else none, d)
  | acceptAt _ expected data =>
    (if g.idle then some (g.orSame (g.acceptAt expected data)) else none, d)
  | enqueue _ => (g.enqueue?, d)
  | closeQueue _ => (if g.idle then some (g.orSame g.closeQueue) else none, d)
  | endFlush _ => (g.endFlush?, d)
  | flushTimeout _ =>
    (if g.idle ∧ g.phase = .flushing ∧ !g.writer.finished then some g else none, d)
  | receive _ fault =>
    match g.writer.receive? d fault with
    | some (w, d') => (some { g with writer := w }, d')
    | none => (none, d)
  | record _ => (g.writer.record?.map fun w => { g with writer := w }, d)
  | finish _ fault => ((g.writer.finish? d fault).map fun w => { g with writer := w }, d)
  | _ => (none, d)

/-- What the event makes known of its segment. -/
def notices (g : Segment) (d : Disk) : Event → List Notice
  | enqueue _ => g.pending.toList.map fun r => .wrote g.nextAddress r.data
  | endFlush _ => [.flushed g.checkWriter]
  | receive _ fault => g.writer.received d fault
  | finish _ fault => g.writer.synced d fault
  | _ => []

def refusal? (g : Segment) : Event → Option Error
  | accept _ data => errorOf? (g.accept data)
  | acceptAt _ expected data => errorOf? (g.acceptAt expected data)
  | closeQueue _ => errorOf? g.closeQueue
  | flushTimeout _ => some (.flushTimeout g.fileIndex)
  | _ => none

/-- What is told when the event is possible: the notices and the refusal. -/
abbrev Told := Option (List Notice × Option Error)

def act (event : Event) : Segment.Act Told := fun g d =>
  (((event.turn g d).1.map fun _ => (event.notices g d, event.refusal? g),
    (event.turn g d).1.getD g), (event.turn g d).2)

variable {g h : Segment} {d e : Disk} {event : Event}

theorem notices_congr (hobject : d.object? g.writer.file = e.object? g.writer.file)
    (event : Event) : event.notices g d = event.notices g e := by
  cases event with
  | receive k fault =>
    unfold notices Writer.received
    simp only [Disk.landing_congr hobject]
    split
    · rw [(Disk.confined_write _ _ _ _).agrees hobject |>.1]
    · rfl
  | finish k fault =>
    unfold notices Writer.synced
    simp only [Disk.sync_congr hobject]
  | _ => rfl

theorem confined_turn (event : Event) (g : Segment) :
    Disk.Confined g.writer.file fun d => event.turn g d := by
  cases event with
  | receive k fault =>
    have hreceive := (g.writer.confined_receive? fault).map
      (Option.map fun w => { g with writer := w })
    refine hreceive.of_eq fun d => ?_
    unfold turn
    dsimp only
    cases g.writer.receive? d fault <;> rfl
  | finish k fault =>
    apply Disk.confined_read
    intro d e hobject
    rw [Writer.finish?_congr hobject]
  | _ => exact Disk.confined_return g.writer.file _

theorem orSame_kept {answer : Except Error Segment}
    (hok : ∀ k, answer = .ok k → k.pool = g.pool ∧ k.writer.file = g.writer.file ∧
      k.writer.finished = g.writer.finished)
    (hturn : (if g.idle then some (g.orSame answer) else none) = some h) :
    h.pool = g.pool ∧ h.writer.file = g.writer.file ∧ h.writer.finished = g.writer.finished := by
  split at hturn
  · cases hturn
    cases answer with
    | ok k => exact hok k rfl
    | error e => exact ⟨rfl, rfl, rfl⟩
  · cases hturn

theorem turn_kept (hturn : (event.turn g d).1 = some h) :
    h.pool = g.pool ∧ h.writer.file = g.writer.file ∧
      (h.writer.finished = g.writer.finished ∨ ∃ k fault, event = .finish k fault) := by
  cases event with
  | accept k data =>
    obtain ⟨hpool, hfile, hfinished⟩ :=
      orSame_kept (fun _ => Call.submit_ok (.write data)) hturn
    exact ⟨hpool, hfile, .inl hfinished⟩
  | acceptAt k expected data =>
    obtain ⟨hpool, hfile, hfinished⟩ :=
      orSame_kept (fun _ => Call.submit_ok (.writeAt expected data)) hturn
    exact ⟨hpool, hfile, .inl hfinished⟩
  | closeQueue k =>
    obtain ⟨hpool, hfile, hfinished⟩ := orSame_kept (fun _ => Call.submit_ok .flush) hturn
    exact ⟨hpool, hfile, .inl hfinished⟩
  | enqueue k =>
    obtain ⟨hpool, hfile, hfinished⟩ := Segment.enqueue?_kept hturn
    exact ⟨hpool, hfile, .inl hfinished⟩
  | endFlush k =>
    obtain ⟨hpool, hwriter⟩ := Segment.endFlush?_kept hturn
    exact ⟨hpool, by rw [hwriter], .inl (by rw [hwriter])⟩
  | flushTimeout k =>
    unfold turn at hturn
    dsimp only at hturn
    split at hturn
    · cases hturn
      exact ⟨rfl, rfl, .inl rfl⟩
    · cases hturn
  | receive k fault =>
    unfold turn at hturn
    dsimp only at hturn
    split at hturn
    · rename_i w d' hw
      obtain ⟨hfile, hfinished⟩ := Writer.receive?_kept hw
      cases hturn
      exact ⟨rfl, hfile, .inl hfinished⟩
    · cases hturn
  | record k =>
    obtain ⟨w, hw, rfl⟩ := Option.map_eq_some_iff.1 hturn
    obtain ⟨f, -, rfl⟩ := Option.map_eq_some_iff.1 hw
    exact ⟨rfl, rfl, .inl rfl⟩
  | finish k fault =>
    obtain ⟨w, hw, rfl⟩ := Option.map_eq_some_iff.1 hturn
    exact ⟨rfl, Writer.file_finish? hw, .inr ⟨k, fault, rfl⟩⟩
  | _ => cases hturn

theorem own_act (event : Event) : Segment.Own event.act where
  confined g := by
    -- what is told depends on the disk before, so it is read first
    have hread : Disk.Confined g.writer.file fun d => (event.notices g d, d) :=
      Disk.confined_read fun hobject => notices_congr hobject event
    exact hread.bind (G := fun ns d => (((event.turn g d).1.map fun _ => (ns, event.refusal? g),
      (event.turn g d).1.getD g), (event.turn g d).2)) fun d =>
        (confined_turn event g).map fun h => (h.map fun _ => (event.notices g d, event.refusal? g),
          h.getD g)
  pool g d := by
    unfold act
    cases h : (event.turn g d).1 with
    | none => rfl
    | some k => exact (turn_kept h).1
  file g d := by
    unfold act
    cases h : (event.turn g d).1 with
    | none => rfl
    | some k => exact (turn_kept h).2.1

end Event

namespace Store

variable {s t : Store} {k : SegmentId} {g h : Segment} {event : Event} {events : List Event}

theorem idle?_of_some (hg : s.segments[k]? = some g) :
    s.idle? k = if g.idle then some g else none := by
  unfold idle?
  rw [hg]
  rfl

theorem orRefused_eq (hg : s.segments[k]? = some g) (answer : Except Error Segment) :
    s.orRefused k answer = s.setSegment k (g.orSame answer) := by
  cases answer with
  | ok h => rfl
  | error e => exact (setSegment_self hg).symm

theorem install_of_kept (hfinished : h.writer.finished = g.writer.finished) (d : Disk) :
    s.install k g h d = { s.setSegment k h with disk := d } := by
  unfold install
  rw [hfinished, Bool.and_not_self, if_neg Bool.false_ne_true]
  rfl

theorem map_install_turn (hlast : ∀ j fault, event ≠ .finish j fault)
    (hdisk : (event.turn g s.disk).2 = s.disk) :
    ((event.turn g s.disk).1.map fun h => s.install k g h (event.turn g s.disk).2) =
      (event.turn g s.disk).1.map (s.setSegment k) := by
  rw [hdisk]
  cases hturn : (event.turn g s.disk).1 with
  | none => rfl
  | some h =>
    obtain ⟨-, -, hfinished | ⟨j, fault, rfl⟩⟩ := Event.turn_kept hturn
    · exact congrArg some (install_of_kept hfinished s.disk)
    · exact absurd rfl (hlast j fault)

/-- A step on a segment is something done to it, if the segment allows it. -/
theorem step?_eq_turn (hk : event.segment? = some k) (hg : s.segments[k]? = some g) :
    s.step? event =
      (event.turn g s.disk).1.map fun h => s.install k g h (event.turn g s.disk).2 := by
  cases event with
  | accept j data | acceptAt j expected data | closeQueue j =>
    obtain rfl := Option.some.inj hk
    rw [map_install_turn (by simp) rfl]
    simp only [step?, idle?_of_some hg, orRefused_eq hg, Event.turn]
    split <;> rfl
  | enqueue j =>
    obtain rfl := Option.some.inj hk
    rw [map_install_turn (by simp) rfl]
    simp only [step?, hg, Event.turn, Option.bind_eq_bind, Option.bind_some]
    cases g.enqueue? <;> rfl
  | endFlush j =>
    obtain rfl := Option.some.inj hk
    rw [map_install_turn (by simp) rfl]
    simp only [step?, hg, Event.turn, Option.bind_eq_bind, Option.bind_some]
    cases g.endFlush? <;> rfl
  | flushTimeout j =>
    obtain rfl := Option.some.inj hk
    rw [map_install_turn (by simp) rfl]
    simp only [step?, idle?_of_some hg, Event.turn]
    cases g.idle with
    | false => rfl
    | true => simp [setSegment_self hg]
  | receive j fault =>
    obtain rfl := Option.some.inj hk
    simp only [step?, hg, Event.turn, Option.bind_eq_bind, Option.bind_some]
    cases hw : g.writer.receive? s.disk fault with
    | none => rfl
    | some r =>
      obtain ⟨w, d⟩ := r
      exact congrArg some (install_of_kept (Writer.receive?_kept hw).2 d).symm
  | record j =>
    obtain rfl := Option.some.inj hk
    rw [map_install_turn (by simp) rfl]
    simp only [step?, hg, Event.turn, Option.bind_eq_bind, Option.bind_some]
    cases g.writer.record? <;> rfl
  | finish j fault =>
    obtain rfl := Option.some.inj hk
    simp only [step?, hg, Event.turn, Option.bind_eq_bind, Option.bind_some]
    cases hw : g.writer.finish? s.disk fault with
    | none => rfl
    | some w =>
      simp only [install, Writer.unfinished_of_finish? hw, Bool.not_false, Bool.and_true,
        setSegment, dropOwner_with, Option.map_some, Option.bind_some]
      cases w.finished <;> rfl
  | _ => cases hk

/-! ## Runs of single steps -/

def refused (s : Store) (event : Event) : List (SegmentId × Error) :=
  (event.segment?.bind fun k => (s.segments[k]?.bind event.refusal?).map (k, ·)).toList

def refusals (s : Store) : List Event → List (SegmentId × Error)
  | [] => []
  | event :: rest => s.refused event ++ (s.step? event).elim [] fun t => t.refusals rest

def tagged (events : List Event) : List (SegmentId × Event) :=
  events.filterMap fun event => event.segment?.map (·, event)

theorem notices_eq (hk : event.segment? = some k) (hg : s.segments[k]? = some g) :
    s.notices event = (event.notices g s.disk).map (k, ·) := by
  cases event with
  | enqueue | endFlush | receive | finish =>
    obtain rfl := Option.some.inj hk
    exact noticesOn_of_some hg _
  | accept | acceptAt | closeQueue | flushTimeout | record => rfl
  | _ => cases hk

theorem refused_eq (hk : event.segment? = some k) (hg : s.segments[k]? = some g) :
    s.refused event = (event.refusal? g).toList.map (k, ·) := by
  unfold refused
  rw [hk, Option.bind_some, hg, Option.bind_some]
  cases event.refusal? g <;> rfl

/-- The same events as things done to their segments; what is not possible is left out. -/
def replay (s : Store) (events : List Event) : List (SegmentId × Event.Told) × Store :=
  each (fun s k (event : Event) => s.act event.act k) s (tagged events)

theorem replay_cons (hk : event.segment? = some k) (events : List Event) :
    s.replay (event :: events) =
      ((k, (s.act event.act k).1) :: ((s.act event.act k).2.replay events).1,
        ((s.act event.act k).2.replay events).2) := by
  unfold replay tagged
  rw [List.filterMap_cons, hk]
  rfl

theorem act_of_step (hk : event.segment? = some k) (hg : s.segments[k]? = some g)
    (hstep : s.step? event = some t) :
    s.act event.act k = (some (event.notices g s.disk, event.refusal? g), t) := by
  rw [step?_eq_turn hk hg] at hstep
  obtain ⟨h, hturn, rfl⟩ := Option.map_eq_some_iff.1 hstep
  rw [act_of_some hg]
  unfold Event.act
  rw [hturn]
  rfl

theorem act_of_no_step (hk : event.segment? = some k) (hg : s.segments[k]? = some g)
    (hstep : s.step? event = none) : (s.act event.act k).1 = none := by
  rw [step?_eq_turn hk hg, Option.map_eq_none_iff] at hstep
  rw [act_of_some hg]
  unfold Event.act
  rw [hstep]
  rfl

section Replay

variable {pool : PoolId} {ids : SegmentId → Prop}

theorem possible_of_run (hs : s.Separate pool ids)
    (hids : ∀ event ∈ events, ∃ k, event.segment? = some k ∧ ids k)
    (hrun : s.run? events = some t) : ∀ x ∈ (s.replay events).1, x.2.isSome := by
  induction events generalizing s with
  | nil =>
    intro x hx
    cases hx
  | cons event rest ih =>
    obtain ⟨k, hk, hkids⟩ := hids event List.mem_cons_self
    obtain ⟨g, hg, -⟩ := hs.there hkids
    obtain ⟨u, hu, hrun⟩ := Option.bind_eq_some_iff.1 hrun
    have hact := act_of_step hk hg hu
    have hnext := hs.act (Event.own_act event) hkids
    rw [replay_cons hk, hact]
    rw [hact] at hnext
    intro x hx
    rcases List.mem_cons.1 hx with rfl | hx
    · rfl
    · exact ih hnext (fun e he => hids e (List.mem_cons_of_mem _ he)) hrun x hx

/-- What is told of a segment in a run, and where the run ends. -/
structure Retold (s : Store) (events : List Event) (r : List (SegmentId × Event.Told) × Store) :
    Prop where
  run : s.run? events = some r.2
  notices : ∀ k, (s.history events).on k = (only k r.1).flatMap fun told => told.elim [] Prod.fst
  refusals : ∀ k, only k (s.refusals events) =
    (only k r.1).flatMap fun told => (told.bind Prod.snd).toList

theorem retold_of_possible (hs : s.Separate pool ids)
    (hids : ∀ event ∈ events, ∃ k, event.segment? = some k ∧ ids k)
    (hall : ∀ x ∈ (s.replay events).1, x.2.isSome) : s.Retold events (s.replay events) := by
  induction events generalizing s with
  | nil => exact ⟨rfl, fun _ => rfl, fun _ => rfl⟩
  | cons event rest ih =>
    obtain ⟨k, hk, hkids⟩ := hids event List.mem_cons_self
    obtain ⟨g, hg, -⟩ := hs.there hkids
    have hnext := hs.act (Event.own_act event) hkids
    rw [replay_cons hk] at hall ⊢
    cases hu : s.step? event with
    | none =>
      have hfirst := hall _ List.mem_cons_self
      rw [act_of_no_step hk hg hu] at hfirst
      cases hfirst
    | some u =>
      rw [act_of_step hk hg hu] at hall hnext ⊢
      have hrest := ih hnext (fun e he => hids e (List.mem_cons_of_mem _ he))
        fun x hx => hall x (List.mem_cons_of_mem _ hx)
      refine ⟨?_, fun j => ?_, fun j => ?_⟩
      · rw [run?_cons, hu]
        exact hrest.run
      · rw [Store.history, hu, Option.elim_some, History.on_append, hrest.notices, notices_eq hk hg]
        by_cases hj : k = j
        · subst hj
          rw [History.on_map_self, only_cons_self, List.flatMap_cons]
          rfl
        · rw [History.on_map_ne _ hj, only_cons_ne hj]
          rfl
      · rw [Store.refusals, hu, Option.elim_some, only_append, hrest.refusals, refused_eq hk hg]
        by_cases hj : k = j
        · subst hj
          rw [only_map_self, only_cons_self, List.flatMap_cons]
          rfl
        · rw [only_map_ne hj, only_cons_ne hj]
          rfl

end Replay

end Store

end RecordStore
