import RecordStore.Proofs.GrantOrder
import RecordStore.Store.Call

/-!
# Schedulers that are run until they wait

To settle a pool is to run its scheduler until it waits, and a lock call on a settled store takes such
steps alone. So the order of grants holds of the calls as they are made.
-/

namespace RecordStore

namespace Pool

variable {d : Disk} {p q : Pool}

theorem foldl_markAvailable (l r : List Nat) (p : Pool) :
    l.foldl (markAvailable d) { p with returns := r } =
      { l.foldl (markAvailable d) p with returns := r } := by
  induction l generalizing p with
  | nil => rfl
  | cons i l ih =>
    rw [List.foldl_cons, List.foldl_cons]
    exact ih (p.markAvailable d i)

/-- What the scheduler leaves alone. -/
structure Tended (p q : Pool) : Prop extends Like p q where
  taken : q.taken = p.taken
  isOpen : q.isOpen = p.isOpen
  owners : q.owners = p.owners

theorem Tended.refl (p : Pool) : p.Tended p := ⟨.refl p, rfl, rfl, rfl⟩

theorem Tended.trans {r : Pool} (h : p.Tended q) (k : q.Tended r) : p.Tended r where
  lockFile := k.lockFile.trans h.lockFile
  config := k.config.trans h.config
  files := k.files.trans h.files
  taken := k.taken.trans h.taken
  isOpen := k.isOpen.trans h.isOpen
  owners := k.owners.trans h.owners

theorem tended_foldl_markAvailable (l : List Nat) (p : Pool) :
    p.Tended (l.foldl (markAvailable d) p) := by
  induction l generalizing p with
  | nil => exact .refl p
  | cons i l ih =>
    have hfirst : p.Tended (p.markAvailable d i) := ⟨like_markAvailable d p i, rfl, rfl, rfl⟩
    exact hfirst.trans (ih (p.markAvailable d i))

theorem tended_select (h : p.select? = some q) : p.Tended q := by
  obtain ⟨-, -, i, -, rfl⟩ := select?_ok h
  exact ⟨⟨rfl, rfl, rfl⟩, rfl, rfl, rfl⟩

theorem tended_settle (d : Disk) (p : Pool) : p.Tended (p.settle d) := by
  unfold settle
  split
  · dsimp only
    have hseen : p.Tended { p.returns.foldl (markAvailable d) p with returns := [] } :=
      (tended_foldl_markAvailable p.returns p).trans ⟨⟨rfl, rfl, rfl⟩, rfl, rfl, rfl⟩
    cases hselect : Pool.select? { p.returns.foldl (markAvailable d) p with returns := [] } with
    | none => exact hseen
    | some q => exact hseen.trans (tended_select hselect)
  · exact .refl p

end Pool

namespace Store

variable {s t : Store} {id : PoolId} {p q : Pool}

@[simp] theorem setPool_setPool (s : Store) (id : PoolId) (p q : Pool) :
    (s.setPool id p).setPool id q = s.setPool id q := by
  simp [setPool]

theorem exists_handleReturns (hp : s.pools[id]? = some p) (hopen : p.isOpen = true)
    (hidle : p.selected = none) :
    ∃ events, (∀ event ∈ events, event = .handleReturn id) ∧ s.run? events =
      some (s.setPool id { p.returns.foldl (Pool.markAvailable s.disk) p with returns := [] }) := by
  generalize hr : p.returns = returns
  induction returns generalizing s p with
  | nil =>
    refine ⟨[], by simp, ?_⟩
    have hsame : ({ p with returns := [] } : Pool) = p := by rw [← hr]
    rw [List.foldl_nil, hsame, setPool_self hp]
    rfl
  | cons i rest ih =>
    obtain ⟨events, hevents, hrun⟩ := ih
      (pools_setPool_self hp { p.markAvailable s.disk i with returns := rest }) hopen hidle rfl
    have hstep : s.step? (.handleReturn id) =
        some (s.setPool id { p.markAvailable s.disk i with returns := rest }) := by
      simp [step?, hp, Pool.handleReturn?, hopen, hidle, hr]
    refine ⟨.handleReturn id :: events, ?_, ?_⟩
    · rintro event he
      rcases List.mem_cons.1 he with rfl | he
      · rfl
      · exact hevents event he
    · rw [run?_cons, hstep, Option.bind_some, hrun, setPool_setPool, disk_setPool, List.foldl_cons,
        Pool.foldl_markAvailable]

theorem waits_of_pool (hp : s.pools[id]? = some p) (hreturn : p.handleReturn? s.disk = none)
    (hselect : p.select? = none) : s.Waits id := by
  constructor <;> simp [step?, hp, hreturn, hselect]

theorem step_select_some (hp : s.pools[id]? = some p) (h : p.select? = some q) :
    s.step? (.select id) = some (s.setPool id q) := by
  simp [step?, hp, h]

theorem exists_select (hp : s.pools[id]? = some p) (hseen : p.handleReturn? s.disk = none) :
    ∃ events, (∀ event ∈ events, event = .select id) ∧
      s.run? events = some (s.setPool id (p.select?.getD p)) ∧ s.Throughout (Prompt id) events ∧
      (s.setPool id (p.select?.getD p)).Waits id := by
  cases hselect : p.select? with
  | none =>
    rw [Option.getD_none, setPool_self hp]
    exact ⟨[], by simp, rfl, trivial, waits_of_pool hp hseen hselect⟩
  | some q =>
    rw [Option.getD_some]
    refine ⟨[.select id], by simp, ?_, ⟨.inr (.inr ⟨rfl, ?_⟩), fun _ _ => trivial⟩, ?_⟩
    · rw [run?_cons, step_select_some hp hselect]
      rfl
    · simp [step?, hp, hseen]
    · obtain ⟨-, -, i, -, rfl⟩ := Pool.select?_ok hselect
      apply waits_of_pool (pools_setPool_self hp _)
      · simp [Pool.handleReturn?]
      · simp [Pool.select?]

/-- Settling a pool takes steps of its scheduler, returns first, and afterwards it waits. -/
theorem settlePool_run (s : Store) (id : PoolId) :
    ∃ events, (∀ event ∈ events, event = .handleReturn id ∨ event = .select id) ∧
      s.run? events = some (s.settlePool id) ∧ s.Throughout (Prompt id) events ∧
      (s.settlePool id).Waits id := by
  unfold settlePool
  split
  · rename_i p hp
    unfold Pool.settle
    split
    · rename_i hready
      obtain ⟨returns, hreturns, hrun⟩ := exists_handleReturns hp hready.1 hready.2
      have hthere := pools_setPool_self hp
        { p.returns.foldl (Pool.markAvailable s.disk) p with returns := [] }
      obtain ⟨offers, hoffers, hthen, hprompt, hwaits⟩ := exists_select hthere
        (by simp [Pool.handleReturn?])
      rw [setPool_setPool] at hthen hwaits
      refine ⟨returns ++ offers, ?_, ?_, ?_, hwaits⟩
      · intro event he
        rcases List.mem_append.1 he with he | he
        · exact .inl (hreturns event he)
        · exact .inr (hoffers event he)
      · rw [run?_append, hrun]
        exact hthen
      · rw [throughout_append hrun]
        exact ⟨throughout_of_forall fun _ event he => .inr (.inl (hreturns event he)), hprompt⟩
    · rename_i hbusy
      rw [setPool_self hp]
      refine ⟨[], by simp, rfl, trivial, waits_of_pool hp ?_ ?_⟩
      · exact if_neg hbusy
      · exact if_neg hbusy
  · rename_i hnone
    refine ⟨[], by simp, rfl, trivial, ?_⟩
    constructor <;> simp [step?, hnone]

/-! ## Lock calls -/

theorem startLease_setPool (s : Store) (id : PoolId) (p q : Pool) (i : Nat)
    (fault : Option LeaseFault) :
    (s.setPool id q).startLease id p i fault = s.startLease id p i fault := by
  unfold startLease
  simp only [disk_setPool, segments_setPool, setPool_setPool]

theorem settlePool_of_pool (hp : s.pools[id]? = some p) :
    s.settlePool id = s.setPool id (p.settle s.disk) := by
  rw [settlePool, hp]

theorem step_startLease_taken {i : Nat} (hp : s.pools[id]? = some p) (hi : i ∈ p.taken)
    (fault : Option LeaseFault) :
    s.step? (.startLease id i fault) = some (s.startLease id p i fault).2 := by
  simp [step?, hp, hi]

/-- A lock call on a settled store receives the file on offer. All that happens besides is that the
scheduler reacts, once before the lease starts and once after. -/
theorem lock?_run {answer : Except Error SegmentId} (hwaits : s.Waits id)
    (h : s.lock? id = some (answer, t)) :
    ∃ i more, s.offer? id = some i ∧ s.run? (.take id :: more) = some t ∧ .take id ∉ more ∧
      s.Throughout (Prompt id) (.take id :: more) ∧ t.Waits id := by
  obtain ⟨⟨i, q⟩, hq, h⟩ := Option.bind_eq_some_iff.1 h
  obtain ⟨p, hp, htake⟩ := Option.bind_eq_some_iff.1 hq
  obtain ⟨-, rfl⟩ := Prod.mk.inj (Option.some.inj h)
  have hstep : s.step? (.take id) = some (s.setPool id q) := by
    simp [step?, hp, htake]
  have hthere := pools_setPool_self hp q
  -- the scheduler reacts before the lease starts
  obtain ⟨first, hfirst, hrun, hprompt, hready⟩ := settlePool_run (s.setPool id q) id
  rw [settlePool_of_pool hthere, setPool_setPool, disk_setPool] at hrun hready
  have hreceived : i ∈ (q.settle s.disk).taken := by
    rw [(Pool.tended_settle s.disk q).taken]
    obtain ⟨-, -, rfl⟩ := Pool.take?_ok htake
    exact List.mem_cons_self
  have hlease := step_startLease_taken (pools_setPool_self hp (q.settle s.disk)) hreceived none
  rw [startLease_setPool] at hlease
  obtain ⟨second, hsecond, hend, hprompt', hsettled⟩ :=
    settlePool_run (s.startLease id (q.settle s.disk) i none).2 id
  refine ⟨i, first ++ .startLease id i none :: second, ?_, ?_, ?_, ⟨.inl hwaits, ?_⟩, hsettled⟩
  · rw [offer?, hq]
    rfl
  · rw [run?_cons, hstep, Option.bind_some, run?_append, hrun, Option.bind_some, run?_cons, hlease]
    exact hend
  · intro htaken
    rcases List.mem_append.1 htaken with htaken | htaken
    · simpa using hfirst _ htaken
    · rcases List.mem_cons.1 htaken with htaken | htaken
      · cases htaken
      · simpa using hsecond _ htaken
  · intro u hu
    obtain rfl := Option.some.inj (hstep.symm.trans hu)
    rw [throughout_append hrun]
    refine ⟨hprompt, .inl hready, fun v hv => ?_⟩
    obtain rfl := Option.some.inj (hlease.symm.trans hv)
    exact hprompt'

end Store

end RecordStore
