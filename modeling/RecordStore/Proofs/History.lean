import RecordStore.Store.Step

/-!
# Histories

The history of a run tells what callers were answered and what became of the records, segment by
segment. Nothing in the store depends on it.
-/

namespace RecordStore

instance exceptDecidableEq {ε α : Type} [DecidableEq ε] [DecidableEq α] :
    DecidableEq (Except ε α)
  | .ok a, .ok b => decidable_of_iff (a = b) (by rw [Except.ok.injEq])
  | .error a, .error b => decidable_of_iff (a = b) (by rw [Except.error.injEq])
  | .ok _, .error _ => .isFalse nofun
  | .error _, .ok _ => .isFalse nofun

inductive Notice where
  /-- A write returns the address of its record. -/
  | wrote (address : Address) (data : Bytes)
  /-- A flush that waited for the writer returns. -/
  | flushed (answer : Except Error Unit)
  /-- The life of the segment ends; an unlock returns this answer. -/
  | unlocked (answer : Except Error Unit)
  /-- Bytes of a record reach the file. -/
  | landed (bytes : Bytes)
  /-- The operating system fails the write of a record. -/
  | failed (failure : WriteFailure)
  /-- The operating system fails the sync at the end. -/
  | unsynced (failure : WriteFailure)
  deriving DecidableEq

abbrev History := List (SegmentId × Notice)

namespace Notice

/-! ## What notices on one segment say -/

def write? : Notice → Option (Address × Bytes)
  | wrote address data => some (address, data)
  | _ => none

def landing : Notice → Bytes
  | landed bytes => bytes
  | _ => []

def failedWrite? : Notice → Option WriteFailure
  | failed failure => some failure
  | _ => none

def failure? : Notice → Option WriteFailure
  | failed failure | unsynced failure => some failure
  | _ => none

/-- The records that were written, in the order of the calls. -/
def writes (rs : List Notice) : List (Address × Bytes) := rs.filterMap write?

def landings (rs : List Notice) : Bytes := rs.flatMap landing

def failedWrites (rs : List Notice) : List WriteFailure := rs.filterMap failedWrite?

def failures (rs : List Notice) : List WriteFailure := rs.filterMap failure?

@[simp] theorem writes_append (rs qs : List Notice) :
    writes (rs ++ qs) = writes rs ++ writes qs := List.filterMap_append

@[simp] theorem landings_append (rs qs : List Notice) :
    landings (rs ++ qs) = landings rs ++ landings qs := List.flatMap_append

@[simp] theorem failedWrites_append (rs qs : List Notice) :
    failedWrites (rs ++ qs) = failedWrites rs ++ failedWrites qs := List.filterMap_append

@[simp] theorem failures_append (rs qs : List Notice) :
    failures (rs ++ qs) = failures rs ++ failures qs := List.filterMap_append

theorem mem_writes {rs : List Notice} {a : Address} {data : Bytes} :
    (a, data) ∈ writes rs ↔ wrote a data ∈ rs := by
  simp only [writes, List.mem_filterMap]
  constructor
  · rintro ⟨r, hr, h⟩
    cases r <;> simp [write?] at h
    obtain ⟨rfl, rfl⟩ := h
    exact hr
  · intro h
    exact ⟨_, h, rfl⟩

theorem mem_failedWrites {rs : List Notice} {f : WriteFailure} :
    f ∈ failedWrites rs ↔ failed f ∈ rs := by
  simp only [failedWrites, List.mem_filterMap]
  constructor
  · rintro ⟨r, hr, h⟩
    cases r <;> simp [failedWrite?] at h
    rwa [h] at hr
  · intro h
    exact ⟨_, h, rfl⟩

theorem failedWrites_eq_nil {rs : List Notice} (h : failures rs = []) : failedWrites rs = [] := by
  rw [failedWrites, List.filterMap_eq_nil_iff]
  intro r hr
  have hnone := List.filterMap_eq_nil_iff.1 h r hr
  cases r <;> first | rfl | cases hnone

end Notice

/-! ## What an event makes known -/

namespace Disk

/-- The bytes that get into a file when `bytes` are written to it. -/
def landing (d : Disk) (id : FileId) (bytes : Bytes) (fault : Option Fault) : Bytes :=
  match d.object? id with
  | some (.regular _) => fault.elim bytes fun f => bytes.take f.written
  | _ => []

theorem landing_prefix (d : Disk) (id : FileId) (bytes : Bytes) (fault : Option Fault) :
    d.landing id bytes fault <+: bytes := by
  unfold landing
  split
  · cases fault with
    | none => exact List.prefix_refl bytes
    | some f => exact List.take_prefix f.written bytes
  · exact List.nil_prefix

theorem landing_of_write {d d' : Disk} {id : FileId} {offset : Nat} {bytes : Bytes}
    {fault : Option Fault} (h : d.write id offset bytes fault = (.ok (), d')) :
    d.landing id bytes fault = bytes := by
  unfold write at h
  unfold landing
  split at h
  · rename_i c hc
    rw [hc]
    cases fault with
    | none => rfl
    | some f => cases h
  all_goals cases h

end Disk

namespace Writer

def received (w : Writer) (d : Disk) (fault : Option Disk.Fault) : List Notice :=
  match w.failure, w.queue with
  | none, request :: _ =>
    .landed (d.landing w.file request.bytes fault) ::
      match (d.write w.file request.offset request.bytes fault).1 with
      | .ok () => []
      | .error e => [.failed ⟨request.offset, e⟩]
  | _, _ => []

def synced (w : Writer) (d : Disk) (fault : Option OsError) : List Notice :=
  if w.failure.isNone && w.syncOnFlush then
    match d.sync w.file fault with
    | .ok () => []
    | .error e => [.unsynced ⟨0, e⟩]
  else []

end Writer

namespace Store

def noticesOn (s : Store) (id : SegmentId) (f : Segment → List Notice) : History :=
  (s.segments[id]?.elim [] f).map (id, ·)

/-- What an event makes known when it happens in the state `s`. -/
def notices (s : Store) : Event → History
  | .enqueue id => s.noticesOn id fun g => g.pending.toList.map fun r => .wrote g.nextAddress r.data
  | .endFlush id => s.noticesOn id fun g => [.flushed g.checkWriter]
  | .release id => s.noticesOn id fun g => [.unlocked g.checkWriter]
  | .receive id fault => s.noticesOn id fun g => g.writer.received s.disk fault
  | .finish id fault => s.noticesOn id fun g => g.writer.synced s.disk fault
  | _ => []

/-- What the events of a run make known, oldest first. -/
def history (s : Store) : List Event → History
  | [] => []
  | event :: rest => s.notices event ++ (s.step? event).elim [] fun t => t.history rest

end Store

namespace History

def on (h : History) (id : SegmentId) : List Notice :=
  h.filterMap fun r => if r.1 = id then some r.2 else none

@[simp] theorem on_nil (id : SegmentId) : on [] id = [] := rfl

@[simp] theorem on_append (h k : History) (id : SegmentId) :
    on (h ++ k) id = h.on id ++ k.on id := List.filterMap_append

@[simp] theorem on_map_self (rs : List Notice) (id : SegmentId) :
    on (rs.map (id, ·)) id = rs := by
  have hall : (fun r : SegmentId × Notice => if r.1 = id then some r.2 else none) ∘ (id, ·) =
      some := funext fun _ => if_pos rfl
  rw [on, List.filterMap_map, hall, List.filterMap_some]

theorem on_map_ne (rs : List Notice) {id j : SegmentId} (h : id ≠ j) :
    on (rs.map (id, ·)) j = [] := by
  rw [on, List.filterMap_map, List.filterMap_eq_nil_iff]
  exact fun _ _ => if_neg h

theorem mem_on {h : History} {id : SegmentId} {r : Notice} : r ∈ h.on id ↔ (id, r) ∈ h := by
  simp only [on, List.mem_filterMap]
  constructor
  · rintro ⟨⟨j, q⟩, hq, e⟩
    split at e
    · rename_i hj
      simp only at hj
      obtain rfl := Option.some.inj e
      rwa [← hj]
    · cases e
  · intro h
    exact ⟨_, h, by simp⟩

end History

/-! ## Runs -/

namespace Store

@[simp] theorem run?_cons (s : Store) (event : Event) (rest : List Event) :
    s.run? (event :: rest) = (s.step? event).bind (·.run? rest) := rfl

theorem run?_concat (s : Store) (events : List Event) (event : Event) :
    s.run? (events ++ [event]) = (s.run? events).bind (·.step? event) := by
  rw [run?_append]
  congr
  funext t
  cases h : t.step? event <;> simp [h]

theorem history_append {s t : Store} {before : List Event} (h : s.run? before = some t)
    (after : List Event) : s.history (before ++ after) = s.history before ++ t.history after := by
  induction before generalizing s with
  | nil =>
    obtain rfl := Option.some.inj h
    rfl
  | cons event rest ih =>
    obtain ⟨u, hu, h⟩ := Option.bind_eq_some_iff.1 h
    simp only [List.cons_append, history, hu, Option.elim_some, ih h, List.append_assoc]

/-- Each event of the run happens in a state that `P` allows it in. -/
def Throughout (P : Store → Event → Prop) (s : Store) : List Event → Prop
  | [] => True
  | event :: rest => P s event ∧ ∀ t, s.step? event = some t → t.Throughout P rest

theorem throughout_of_forall {P : Store → Event → Prop} {s : Store} {events : List Event}
    (h : ∀ t, ∀ event ∈ events, P t event) : s.Throughout P events := by
  induction events generalizing s with
  | nil => trivial
  | cons event rest ih =>
    refine ⟨h s event List.mem_cons_self, fun t _ => ?_⟩
    exact ih fun u event he => h u event (List.mem_cons_of_mem _ he)

instance decidableThroughout {P : Store → Event → Prop} [∀ s event, Decidable (P s event)]
    (s : Store) : (events : List Event) → Decidable (s.Throughout P events)
  | [] => .isTrue trivial
  | event :: rest =>
    match h : s.step? event with
    | none => decidable_of_iff (P s event) (by simp [Throughout, h])
    | some t =>
      have := decidableThroughout (P := P) t rest
      decidable_of_iff (P s event ∧ t.Throughout P rest) (by simp [Throughout, h])

theorem Throughout.and {P Q : Store → Event → Prop} {s : Store} {events : List Event}
    (h : s.Throughout P events) (k : s.Throughout Q events) :
    s.Throughout (fun u event => P u event ∧ Q u event) events := by
  induction events generalizing s with
  | nil => trivial
  | cons event rest ih =>
    refine ⟨⟨h.1, k.1⟩, fun t ht => ?_⟩
    exact ih (h.2 t ht) (k.2 t ht)

theorem throughout_append {P : Store → Event → Prop} {s t : Store} {before after : List Event}
    (hrun : s.run? before = some t) :
    s.Throughout P (before ++ after) ↔ s.Throughout P before ∧ t.Throughout P after := by
  induction before generalizing s with
  | nil =>
    obtain rfl := Option.some.inj hrun
    exact ⟨fun h => ⟨trivial, h⟩, fun h => h.2⟩
  | cons event rest ih =>
    obtain ⟨u, hu, hrun⟩ := Option.bind_eq_some_iff.1 hrun
    simp only [List.cons_append, Throughout, hu, Option.some.injEq, forall_eq', ih hrun, and_assoc]

theorem Throughout.append {P : Store → Event → Prop} {s t : Store} {before after : List Event}
    (h : s.Throughout P (before ++ after)) (hrun : s.run? before = some t) :
    s.Throughout P before ∧ t.Throughout P after := (throughout_append hrun).1 h

/-- What holds at the start of a run and is kept by each event that is allowed holds at its end. -/
theorem throughout_rec {Q : Store → Event → Prop} {P : Store → List Event → Prop} {s t : Store}
    {events : List Event} (hallowed : s.Throughout Q events) (hrun : s.run? events = some t)
    (hstart : P s [])
    (hstep : ∀ u before event v, Q u event → s.run? before = some u → P u before →
      u.step? event = some v → P v (before ++ [event])) :
    P t events := by
  suffices H : ∀ before u, s.run? before = some u → P u before → u.Throughout Q events →
      u.run? events = some t → P t (before ++ events) from H [] s rfl hstart hallowed hrun
  clear hrun hstart hallowed
  induction events with
  | nil =>
    intro before u _ hu _ hrun
    obtain rfl := Option.some.inj hrun
    rwa [List.append_nil]
  | cons event rest ih =>
    rintro before u hbefore hu ⟨hfirst, hrest⟩ hrun
    obtain ⟨v, hv, hrun⟩ := Option.bind_eq_some_iff.1 hrun
    have hnext : s.run? (before ++ [event]) = some v := by
      rw [run?_concat, hbefore]
      exact hv
    have hall := ih (before ++ [event]) v hnext (hstep u before event v hfirst hbefore hu hv)
      (hrest v hv) hrun
    rwa [List.append_assoc] at hall

theorem run_rec {P : Store → List Event → Prop} {s t : Store} {events : List Event}
    (hrun : s.run? events = some t) (hstart : P s [])
    (hstep : ∀ u before event v, event ∈ events → s.run? before = some u → P u before →
      u.step? event = some v → P v (before ++ [event])) :
    P t events :=
  throughout_rec (throughout_of_forall fun _ _ he => he) hrun hstart hstep

theorem throughout_induction {Q : Store → Event → Prop} {P : Store → History → Prop}
    {s t : Store} {events : List Event} (hallowed : s.Throughout Q events)
    (hrun : s.run? events = some t) (hstart : P s [])
    (hstep : ∀ u h event v, Q u event → P u h → u.step? event = some v →
      P v (h ++ u.notices event)) :
    P t (s.history events) := by
  refine throughout_rec (P := fun t events => P t (s.history events)) hallowed hrun hstart
    fun u before event v he hbefore hu hv => ?_
  have hnext := hstep u _ event v he hu hv
  rw [history_append hbefore]
  simpa [history, hv] using hnext

theorem run_induction {P : Store → History → Prop} {s t : Store} {events : List Event}
    (hrun : s.run? events = some t) (hstart : P s [])
    (hstep : ∀ u h event v, event ∈ events → P u h → u.step? event = some v →
      P v (h ++ u.notices event)) :
    P t (s.history events) :=
  throughout_induction (throughout_of_forall fun _ _ he => he) hrun hstart hstep

end Store

end RecordStore
