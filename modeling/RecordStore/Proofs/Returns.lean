import RecordStore.Proofs.Conservation

/-!
# Messages that files come back

The queue of returns of a pool holds messages from segments whose life has ended and from lock calls
that could not start their lease. The log of a run has all that were ever sent, with their senders.
-/

namespace RecordStore

/-- A message to the scheduler of a pool. -/
structure Return where
  /-- The segment that is released; a lock call that cannot start its lease is none. -/
  sender : Option SegmentId
  pool : PoolId
  fileIndex : Nat

namespace Return

def sentBy (id : SegmentId) (log : List Return) : List Return :=
  log.filter fun m => m.sender == some id

def sentTo (id : PoolId) (log : List Return) : List Nat :=
  (log.filter fun m => m.pool == id).map fileIndex

@[simp] theorem sentBy_append (id : SegmentId) (log more : List Return) :
    sentBy id (log ++ more) = sentBy id log ++ sentBy id more := List.filter_append ..

@[simp] theorem sentTo_append (id : PoolId) (log more : List Return) :
    sentTo id (log ++ more) = sentTo id log ++ sentTo id more := by
  simp [sentTo]

end Return

open Return

namespace Store

/-- The messages that an event sends when it happens in the state `s`. -/
def returning (s : Store) : Event → List Return
  | .release id => s.segments[id]?.elim [] fun g => [⟨some id, g.pool, g.fileIndex⟩]
  | .startLease id fileIndex fault =>
    s.pools[id]?.elim [] fun p =>
      match (s.startLease id p fileIndex fault).1 with
      | .error _ => [⟨none, id, fileIndex⟩]
      | .ok _ => []
  | _ => []

def returnsOf (s : Store) : List Event → List Return
  | [] => []
  | event :: rest => s.returning event ++ (s.step? event).elim [] fun t => t.returnsOf rest

variable {s t : Store} {id : Nat}

theorem returnsOf_append {before : List Event} (h : s.run? before = some t) (after : List Event) :
    s.returnsOf (before ++ after) = s.returnsOf before ++ t.returnsOf after := by
  induction before generalizing s with
  | nil =>
    obtain rfl := Option.some.inj h
    rfl
  | cons event rest ih =>
    obtain ⟨u, hu, h⟩ := Option.bind_eq_some_iff.1 h
    simp only [List.cons_append, returnsOf, hu, Option.elim_some, ih h, List.append_assoc]

theorem returnsOf_concat {before : List Event} {event : Event} (h : s.run? before = some t) :
    s.returnsOf (before ++ [event]) = s.returnsOf before ++ t.returning event := by
  rw [returnsOf_append h, returnsOf]
  cases t.step? event <;> simp [returnsOf]

/-! ## What the schedulers are told -/

/-- The messages to a scheduler that it has not seen. -/
def queued (s : Store) (id : PoolId) : List Nat := s.pools[id]?.elim [] Pool.returns

theorem queued_of_pools (h : t.pools = s.pools) : t.queued id = s.queued id := by
  unfold queued
  rw [h]

section Set

variable {j : PoolId} {p q : Pool} (hp : s.pools[j]? = some p) (ht : t.pools = s.pools.set j q)

include hp ht

theorem queued_set : t.queued id = if j = id then q.returns else s.queued id := by
  unfold queued
  rw [ht, List.getElem?_set]
  split
  · rw [if_pos (List.getElem?_eq_some_iff.1 hp).1]
    rfl
  · rfl

theorem queued_keep (hq : q.returns = p.returns) : t.queued id = s.queued id := by
  rw [queued_set hp ht]
  split
  · rename_i hj
    rw [hq, queued, ← hj, hp]
    rfl
  · rfl

theorem queued_send {i : Nat} (hq : q.returns = p.returns ++ [i]) (sender : Option SegmentId) :
    t.queued id = s.queued id ++ sentTo id [⟨sender, j, i⟩] := by
  rw [queued_set hp ht]
  split
  · rename_i hj
    simp [hq, queued, ← hj, hp, sentTo]
  · rename_i hj
    simp [sentTo, hj]

end Set

theorem queued_dropOwner (s : Store) (j : PoolId) : (s.dropOwner j).queued id = s.queued id := by
  cases hp : s.pools[j]? with
  | none =>
    unfold dropOwner
    rw [hp]
  | some p =>
    refine queued_keep hp (q := { p with owners := p.owners - 1 }) ?_ rfl
    rw [pools_dropOwner, List.modify_eq_set, hp]
    rfl

theorem pools_orRefused (s : Store) (j : SegmentId) (answer : Except Error Segment) :
    (s.orRefused j answer).pools = s.pools := by
  unfold orRefused
  split <;> rfl

theorem queued_openPool (path : String) (config : Config) :
    (s.addPool path config).2.queued id = s.queued id := by
  unfold addPool
  split
  · rfl
  · rename_i p d locks hopen
    obtain ⟨-, lockFile, slots, -, -, rfl⟩ := Pool.openAt_ok hopen
    unfold queued
    dsimp only
    rw [List.getElem?_append]
    split
    · rfl
    · rename_i hnew
      rw [List.getElem?_eq_none (Nat.le_of_not_lt hnew), List.getElem?_singleton]
      split <;> rfl

theorem queued_startLease {j : PoolId} {p : Pool} (hp : s.pools[j]? = some p) (i : Nat)
    (fault : Option LeaseFault) :
    (s.startLease j p i fault).2.queued id =
      s.queued id ++ sentTo id (s.returning (.startLease j i fault)) := by
  simp only [returning, hp, Option.elim_some]
  unfold startLease
  split
  · exact queued_send hp rfl rfl none
  · dsimp only
    split
    · exact queued_send hp rfl rfl none
    · split
      · exact queued_send hp rfl rfl none
      · refine Eq.trans ?_ (List.append_nil _).symm
        exact queued_keep hp (q := { p.beginLease s.disk i with owners := p.owners + 1 }) rfl rfl

theorem queued_release {j : SegmentId} {g : Segment} {p : Pool} (hg : s.segments[j]? = some g)
    (hp : s.pools[g.pool]? = some p) :
    (s.release j g).queued id = s.queued id ++ sentTo id (s.returning (.release j)) := by
  simp only [returning, hg, Option.elim_some]
  refine queued_send hp (q := p.giveBack g.fileIndex) ?_ rfl (some j)
  rw [pools_release, List.modify_eq_set, hp]
  rfl

theorem queued_read (j : PoolId) (a : Address) (buffer : Bytes) :
    (s.read j a buffer).2.2.queued id = s.queued id := by
  unfold read
  split
  · rename_i p hp
    refine queued_keep hp rfl ?_
    show (p.readBetween s.disk s.disk a buffer).2.2.returns = p.returns
    rcases readBetween_pool s.disk s.disk p a buffer with h | ⟨slot, n, -, h⟩ <;> rw [h]
  · rfl

/-- A step adds what it sends to the end of the queue, and what the scheduler sees it takes off the
front, one message at a time. -/
def Forwards (s : Store) (event : Event) (id : PoolId) (t : Store) : Prop :=
  ∃ seen, s.queued id ++ sentTo id (s.returning event) = seen ++ t.queued id ∧
    seen.length = [event].count (.handleReturn id)

theorem forwards_of_sent {event : Event} (hne : event ≠ .handleReturn id)
    (h : t.queued id = s.queued id ++ sentTo id (s.returning event)) : s.Forwards event id t := by
  refine ⟨[], h.symm, ?_⟩
  rw [List.count_singleton]
  simp [hne]

theorem forwards_of_quiet {event : Event} (hne : event ≠ .handleReturn id)
    (hnone : s.returning event = []) (h : t.queued id = s.queued id) : s.Forwards event id t := by
  apply forwards_of_sent hne
  rw [h, hnone]
  exact (List.append_nil _).symm

theorem forwards_handleReturn {j : PoolId} {p : Pool} (hp : s.pools[j]? = some p) {i : Nat}
    {rest : List Nat} (hreturns : p.returns = i :: rest) :
    s.Forwards (.handleReturn j) id (s.setPool j { p.markAvailable s.disk i with returns := rest }) := by
  have hset : (s.setPool j { p.markAvailable s.disk i with returns := rest }).queued id =
      if j = id then rest else s.queued id :=
    queued_set hp (q := { p.markAvailable s.disk i with returns := rest }) rfl
  unfold Forwards
  rw [hset]
  by_cases hj : j = id
  · subst hj
    refine ⟨[i], ?_, by simp⟩
    simp [queued, hp, hreturns, returning, sentTo]
  · refine ⟨[], ?_, ?_⟩
    · simp [hj, returning, sentTo]
    · simp [hj]

theorem forwards_of_step {event : Event} (hs : s.Conserved) (h : s.step? event = some t)
    (id : PoolId) : s.Forwards event id t := by
  cases event with
  | create path config =>
    obtain rfl := Option.some.inj h
    exact forwards_of_quiet nofun rfl rfl
  | openPool path config =>
    obtain rfl := Option.some.inj h
    exact forwards_of_quiet nofun rfl (queued_openPool path config)
  | closePool j =>
    obtain ⟨p, hp, h⟩ := Option.bind_eq_some_iff.1 h
    split at h
    · rename_i hc
      obtain rfl := Option.some.inj h
      refine forwards_of_quiet nofun rfl ?_
      unfold closePool
      rw [hp]
      dsimp only
      rw [if_pos hc.1, queued_dropOwner]
      exact queued_keep hp rfl rfl
    · cases h
  | take j =>
    obtain ⟨⟨i, q⟩, hq, h⟩ := Option.bind_eq_some_iff.1 h
    obtain ⟨p, hp, hq⟩ := Option.bind_eq_some_iff.1 hq
    obtain rfl := Option.some.inj h
    obtain ⟨-, -, rfl⟩ := Pool.take?_ok hq
    exact forwards_of_quiet nofun rfl (queued_keep hp rfl rfl)
  | startLease j i fault =>
    obtain ⟨p, hp, h⟩ := Option.bind_eq_some_iff.1 h
    split at h
    · obtain rfl := Option.some.inj h
      exact forwards_of_sent nofun (queued_startLease hp i fault)
    · cases h
  | handleReturn j =>
    obtain ⟨p, hp, h⟩ := Option.bind_eq_some_iff.1 h
    obtain ⟨q, hq, h⟩ := Option.bind_eq_some_iff.1 h
    obtain rfl := Option.some.inj h
    obtain ⟨-, -, i, rest, hreturns, rfl⟩ := Pool.handleReturn?_ok hq
    exact forwards_handleReturn hp hreturns
  | select j =>
    obtain ⟨p, hp, h⟩ := Option.bind_eq_some_iff.1 h
    obtain ⟨q, hq, h⟩ := Option.bind_eq_some_iff.1 h
    obtain rfl := Option.some.inj h
    obtain ⟨-, -, i, -, rfl⟩ := Pool.select?_ok hq
    exact forwards_of_quiet nofun rfl (queued_keep hp rfl rfl)
  | release j =>
    obtain ⟨g, hg, h⟩ := Option.bind_eq_some_iff.1 h
    obtain ⟨hg, -, -⟩ := idle?_eq_some.1 hg
    have hp : s.pools[g.pool]? = some _ :=
      List.getElem?_eq_getElem (hs.known g (List.mem_of_getElem? hg))
    split at h
    · obtain rfl := Option.some.inj h
      exact forwards_of_sent nofun (queued_release hg hp)
    · cases h
  | finish j fault =>
    obtain ⟨g, hg, h⟩ := Option.bind_eq_some_iff.1 h
    obtain ⟨w, hw, h⟩ := Option.bind_eq_some_iff.1 h
    obtain rfl := Option.some.inj h
    refine forwards_of_quiet nofun rfl ?_
    split
    · rw [queued_dropOwner]
      rfl
    · rfl
  | read j a buffer =>
    obtain rfl := Option.some.inj h
    exact forwards_of_quiet nofun rfl (queued_read j a buffer)
  -- the other calls and the writers leave all pools alone
  | lockTimeout j | flushTimeout j =>
    obtain ⟨_, -, h⟩ := Option.bind_eq_some_iff.1 h
    split at h
    · obtain rfl := Option.some.inj h
      exact forwards_of_quiet nofun rfl rfl
    · cases h
  | accept j | acceptAt j | closeQueue j =>
    obtain ⟨g, -, h⟩ := Option.bind_eq_some_iff.1 h
    obtain rfl := Option.some.inj h
    exact forwards_of_quiet nofun rfl (queued_of_pools (pools_orRefused s j _))
  | enqueue j | endFlush j | receive j | record j =>
    obtain ⟨g, -, h⟩ := Option.bind_eq_some_iff.1 h
    obtain ⟨_, -, h⟩ := Option.bind_eq_some_iff.1 h
    obtain rfl := Option.some.inj h
    exact forwards_of_quiet nofun rfl rfl

theorem queued_of_run {d : Disk} {events : List Event} (hrun : (ofDisk d).run? events = some t)
    (id : PoolId) :
    ∃ seen, sentTo id ((ofDisk d).returnsOf events) = seen ++ t.queued id ∧
      seen.length = events.count (.handleReturn id) := by
  refine run_rec (P := fun t events => ∃ seen, sentTo id ((ofDisk d).returnsOf events) =
    seen ++ t.queued id ∧ seen.length = events.count (.handleReturn id)) hrun
    ⟨[], rfl, rfl⟩ fun u before event v _ hu ih hstep => ?_
  obtain ⟨seen, hsent, hseen⟩ := ih
  obtain ⟨more, hmore, hlength⟩ := forwards_of_step (conserved_of_run hu) hstep id
  refine ⟨seen ++ more, ?_, ?_⟩
  · rw [returnsOf_concat hu, sentTo_append, hsent, List.append_assoc, hmore, List.append_assoc]
  · rw [List.length_append, List.count_append, hseen, hlength]

/-! ## What a step does to one segment -/

/-- What a segment can be after a step. -/
inductive Becomes (id : SegmentId) (event : Event) (g : Segment) : Segment → Prop where
  | same : Becomes id event g g
  | move {k : Segment} {d d' : Disk} {ns : List Notice} (move : g.Move d ns k d') :
    Becomes id event g k
  | finish : Becomes id event g g.finish
  | release (called : event = .release id) : Becomes id event g { g with released := true }

theorem mem_noticesOn {j : SegmentId} {f : Segment → List Notice} {n : Notice}
    (h : (id, n) ∈ s.noticesOn j f) : j = id ∧ ∃ g, n ∈ f g := by
  unfold noticesOn at h
  obtain ⟨m, hm, hpair⟩ := List.mem_map.1 h
  obtain ⟨rfl, rfl⟩ := Prod.mk.inj hpair
  cases hg : s.segments[j]? with
  | none => simp [hg] at hm
  | some g => exact ⟨rfl, g, by simpa [hg] using hm⟩

theorem eq_release_of_unlocked {event : Event} {answer : Except Error Unit}
    (h : (id, .unlocked answer) ∈ s.notices event) : event = .release id := by
  cases event with
  | release j => rw [(mem_noticesOn h).1]
  | enqueue j =>
    obtain ⟨-, g, hg⟩ := mem_noticesOn h
    simp at hg
  | endFlush j =>
    obtain ⟨-, g, hg⟩ := mem_noticesOn h
    simp at hg
  | receive j fault =>
    obtain ⟨-, g, hg⟩ := mem_noticesOn h
    unfold Writer.received at hg
    split at hg
    · split at hg <;> simp at hg
    · cases hg
  | finish j fault =>
    obtain ⟨-, g, hg⟩ := mem_noticesOn h
    unfold Writer.synced at hg
    split at hg
    · split at hg <;> simp at hg
    · cases hg
  | _ => cases h

theorem segments_of_step {event : Event} (h : s.step? event = some t) :
    t.segments = s.segments ∨
      (∃ pool i base file config g, Segment.start pool i base file config = .ok g ∧
        t.segments = s.segments ++ [g]) ∨
      ∃ j g k, s.segments[j]? = some g ∧ t.segments = s.segments.set j k ∧
        Becomes j event g k := by
  have hc := change_of_step h
  generalize hns : s.notices event = ns at hc
  cases hc with
  | closePool => exact .inl (by rw [segments_dropOwner, segments_setPool])
  | lease there received started => exact .inr (.inl ⟨_, _, _, _, _, _, started, rfl⟩)
  | segment there move => exact .inr (.inr ⟨_, _, _, there, rfl, .move move⟩)
  | finish there =>
    exact .inr (.inr ⟨_, _, _, there, by rw [segments_dropOwner, segments_setSegment], .finish⟩)
  | @release j g there =>
    have hunlocked : (j, .unlocked g.checkWriter) ∈ s.notices event := by
      rw [hns]
      exact List.mem_singleton_self _
    exact .inr (.inr ⟨_, _, _, there, rfl, .release (eq_release_of_unlocked hunlocked)⟩)
  | _ => exact .inl rfl

theorem becomes_of_step {event : Event} {g : Segment} (h : s.step? event = some t)
    (hg : s.segments[id]? = some g) : ∃ k, t.segments[id]? = some k ∧ Becomes id event g k := by
  obtain hsame | ⟨_, _, _, _, _, new, -, happend⟩ | ⟨j, q, k, hq, hset, hbecomes⟩ :=
    segments_of_step h
  · exact ⟨g, by rw [hsame, hg], .same⟩
  · refine ⟨g, ?_, .same⟩
    rw [happend, List.getElem?_append_left (List.getElem?_eq_some_iff.1 hg).1, hg]
  · by_cases hj : j = id
    · subst hj
      obtain rfl := Option.some.inj (hq.symm.trans hg)
      refine ⟨k, ?_, hbecomes⟩
      rw [hset, List.getElem?_set_self (List.getElem?_eq_some_iff.1 hq).1]
    · exact ⟨g, by rw [hset, List.getElem?_set_ne hj, hg], .same⟩

theorem started_of_step {event : Event} {k : Segment} (h : s.step? event = some t)
    (hk : t.segments[id]? = some k) (hnew : s.segments[id]? = none) :
    ∃ pool i base file config, Segment.start pool i base file config = .ok k := by
  obtain hsame | ⟨_, _, _, _, _, g, started, happend⟩ | ⟨j, q, k', hq, hset, -⟩ :=
    segments_of_step h
  · rw [hsame, hnew] at hk
    cases hk
  · rw [happend] at hk
    rcases of_getElem?_concat hk with hk | ⟨-, rfl⟩
    · rw [hnew] at hk
      cases hk
    · exact ⟨_, _, _, _, _, started⟩
  · rw [hset] at hk
    rcases of_getElem?_set hk with ⟨rfl, -⟩ | ⟨-, hk⟩
    · rw [hnew] at hq
      cases hq
    · rw [hnew] at hk
      cases hk

theorem step_release (h : s.step? (.release id) = some t) :
    ∃ g, s.segments[id]? = some g ∧ g.released = false ∧ g.phase = .drained ∧
      t = s.release id g := by
  obtain ⟨g, hg, h⟩ := Option.bind_eq_some_iff.1 h
  obtain ⟨hg, hlive, -⟩ := idle?_eq_some.1 hg
  split at h
  · exact ⟨g, hg, hlive, ‹_›, (Option.some.inj h).symm⟩
  · cases h

/-! ## What a segment sends -/

/-- The message of a segment that is released. -/
def farewell (s : Store) (id : SegmentId) : List Return :=
  s.segments[id]?.elim [] fun g => if g.released then [⟨some id, g.pool, g.fileIndex⟩] else []

theorem farewell_of_some {g : Segment} (hg : s.segments[id]? = some g) :
    s.farewell id = if g.released then [⟨some id, g.pool, g.fileIndex⟩] else [] := by
  rw [farewell, hg, Option.elim_some]

theorem sentBy_returning {event : Event} (hne : event ≠ .release id) :
    sentBy id (s.returning event) = [] := by
  cases event with
  | release j =>
    have hj : j ≠ id := fun hj => hne (by rw [hj])
    cases hg : s.segments[j]? <;> simp [returning, hg, sentBy, hj]
  | startLease j i fault =>
    cases hp : s.pools[j]? with
    | none => simp [returning, hp, sentBy]
    | some p =>
      simp only [returning, hp, Option.elim_some]
      split <;> simp [sentBy]
  | _ => rfl

theorem farewell_of_step {event : Event} (h : s.step? event = some t) (id : SegmentId) :
    t.farewell id = s.farewell id ++ sentBy id (s.returning event) := by
  by_cases hrelease : event = .release id
  · subst hrelease
    obtain ⟨g, hg, hlive, -, rfl⟩ := step_release h
    have hreleased : (s.release id g).segments[id]? = some { g with released := true } := by
      rw [segments_release, List.getElem?_set_self (List.getElem?_eq_some_iff.1 hg).1]
    rw [farewell_of_some hg, farewell_of_some hreleased, hlive]
    simp [returning, hg, sentBy]
  · rw [sentBy_returning hrelease, List.append_nil]
    cases hg : s.segments[id]? with
    | none =>
      have hnothing : s.farewell id = [] := by rw [farewell, hg, Option.elim_none]
      rw [hnothing]
      cases hk : t.segments[id]? with
      | none => rw [farewell, hk, Option.elim_none]
      | some k =>
        obtain ⟨pool, i, base, file, config, started⟩ := started_of_step h hk hg
        obtain ⟨-, -, rfl⟩ := Segment.start_ok started
        rw [farewell_of_some hk]
        rfl
    | some g =>
      obtain ⟨k, hk, hbecomes⟩ := becomes_of_step h hg
      rw [farewell_of_some hk, farewell_of_some hg]
      cases hbecomes with
      | same => rfl
      | move move =>
        obtain ⟨hpool, hindex, -, hreleased, -, -⟩ := move.frame
        rw [hpool, hindex, hreleased]
      | finish => rfl
      | release called => exact absurd called hrelease

theorem farewell_of_run {d : Disk} {events : List Event} (hrun : (ofDisk d).run? events = some t)
    (id : SegmentId) : sentBy id ((ofDisk d).returnsOf events) = t.farewell id := by
  refine run_rec (P := fun t events => sentBy id ((ofDisk d).returnsOf events) = t.farewell id) hrun
    rfl fun u before event v _ hu ih hstep => ?_
  rw [returnsOf_concat hu, sentBy_append, ih, farewell_of_step hstep]

end Store

end RecordStore
