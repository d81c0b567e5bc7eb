import RecordStore.Proofs.Conservation
import RecordStore.Proofs.Lifecycle

/-!
# Who keeps a directory locked

The owners of a pool are its handle and its writers. While it has any, its lock file is locked, and
no other pool of the same lock file has owners.
-/

namespace RecordStore

namespace Store

def writing (s : Store) (id : PoolId) : Nat :=
  s.segments.countP fun g => g.pool == id && !g.writer.finished

/-- No two pools with owners share a lock file, and the lock files of such pools are locked. -/
structure Guarded (pools : List Pool) (locks : List FileId) : Prop where
  locked : ∀ {i : PoolId} {p : Pool}, pools[i]? = some p → 0 < p.owners → p.lockFile ∈ locks
  single : ∀ {i j : PoolId} {p q : Pool}, pools[i]? = some p → pools[j]? = some q → 0 < p.owners →
    0 < q.owners → p.lockFile = q.lockFile → i = j

structure Owned (s : Store) : Prop where
  /-- A pool cannot be closed while a lock call on it is under way. -/
  calling : ∀ {id : PoolId} {p : Pool}, s.pools[id]? = some p → p.taken ≠ [] → p.isOpen
  owners : ∀ {id : PoolId} {p : Pool}, s.pools[id]? = some p →
    p.owners = p.isOpen.toNat + s.writing id
  guarded : Guarded s.pools s.locks

/-! ## Guarding -/

variable {pools qs : List Pool} {locks : List FileId}

theorem Guarded.congr (h : Guarded pools locks)
    (hq : ∀ {i : PoolId} {q : Pool}, qs[i]? = some q →
      ∃ p, pools[i]? = some p ∧ q.lockFile = p.lockFile ∧ (0 < q.owners → 0 < p.owners)) :
    Guarded qs locks := by
  constructor
  · intro i q hi hpos
    obtain ⟨p, hp, hlock, howners⟩ := hq hi
    rw [hlock]
    exact h.locked hp (howners hpos)
  · intro i j q r hi hj hpos hpos' hsame
    obtain ⟨p, hp, hlock, howners⟩ := hq hi
    obtain ⟨o, ho, hlock', howners'⟩ := hq hj
    exact h.single hp ho (howners hpos) (howners' hpos') (by rw [← hlock, ← hlock', hsame])

theorem Guarded.set (h : Guarded pools locks) {id : PoolId} {p q : Pool} (hp : pools[id]? = some p)
    (hlock : q.lockFile = p.lockFile) (howners : 0 < q.owners → 0 < p.owners) :
    Guarded (pools.set id q) locks := by
  refine h.congr fun {i} {r} hr => ?_
  rcases of_getElem?_set hr with ⟨rfl, rfl⟩ | ⟨-, hr⟩
  · exact ⟨p, hp, hlock, howners⟩
  · exact ⟨r, hr, rfl, fun hpos => hpos⟩

theorem Guarded.modify (h : Guarded pools locks) (id : PoolId) {f : Pool → Pool}
    (hf : ∀ p, (f p).lockFile = p.lockFile ∧ (0 < (f p).owners → 0 < p.owners)) :
    Guarded (pools.modify id f) locks := by
  refine h.congr fun {i} {r} hr => ?_
  obtain ⟨p, hp, ⟨-, rfl⟩ | ⟨-, rfl⟩⟩ := of_getElem?_modify hr
  · exact ⟨p, hp, hf p⟩
  · exact ⟨r, hp, rfl, fun hpos => hpos⟩

theorem Guarded.append (h : Guarded pools locks) {p : Pool} (hfree : p.lockFile ∉ locks) :
    Guarded (pools ++ [p]) (p.lockFile :: locks) := by
  constructor
  · intro i q hi hpos
    rcases of_getElem?_concat hi with hi | ⟨-, rfl⟩
    · exact List.mem_cons_of_mem _ (h.locked hi hpos)
    · exact List.mem_cons_self
  · intro i j q r hi hj hpos hpos' hsame
    obtain hold | ⟨hnew, rfl⟩ := of_getElem?_concat hi <;>
      rcases of_getElem?_concat hj with hold' | ⟨hnew', rfl⟩
    · exact h.single hold hold' hpos hpos' hsame
    · exact absurd (hsame ▸ h.locked hold hpos) hfree
    · exact absurd (hsame ▸ h.locked hold' hpos') hfree
    · exact hnew.trans hnew'.symm

variable {s t : Store}

theorem locks_dropOwner {id : PoolId} {p : Pool} (hp : s.pools[id]? = some p) :
    (s.dropOwner id).locks = if p.owners = 1 then s.locks.erase p.lockFile else s.locks := by
  unfold dropOwner
  rw [hp]
  dsimp only
  split <;> rfl

theorem Guarded.dropOwner (h : Guarded s.pools s.locks) (id : PoolId) :
    Guarded (s.dropOwner id).pools (s.dropOwner id).locks := by
  rw [pools_dropOwner]
  have hmodify := h.modify id (f := fun p => { p with owners := p.owners - 1 })
    fun p => ⟨rfl, fun hpos => Nat.lt_of_lt_of_le hpos (Nat.sub_le _ _)⟩
  cases hp : s.pools[id]? with
  | none => simpa [Store.dropOwner, hp] using hmodify
  | some p =>
    rw [locks_dropOwner hp]
    split
    · rename_i hlast
      refine ⟨fun {j} {q} hj hpos => ?_, hmodify.single⟩
      obtain ⟨r, hr, ⟨rfl, rfl⟩ | ⟨hid, rfl⟩⟩ := of_getElem?_modify hj
      · obtain rfl := Option.some.inj (hp.symm.trans hr)
        simp [hlast] at hpos
      · have hne : q.lockFile ≠ p.lockFile := fun hsame =>
          hid (h.single hr hp hpos (by omega) hsame)
        exact (List.mem_erase_of_ne hne).2 (h.locked hr hpos)
    · exact hmodify

/-! ## Owners -/

theorem writing_setSegment {id : SegmentId} {g k : Segment} (hg : s.segments[id]? = some g)
    (hpool : k.pool = g.pool) (pool : PoolId) :
    (s.setSegment id k).writing pool + (g.pool == pool && !g.writer.finished).toNat =
      s.writing pool + (g.pool == pool && !k.writer.finished).toNat := by
  have := countP_set_add hg k fun g => g.pool == pool && !g.writer.finished
  rw [hpool] at this
  exact this

theorem writing_dropOwner (s : Store) (id : PoolId) : (s.dropOwner id).writing = s.writing := by
  unfold writing
  rw [segments_dropOwner]

end Store

namespace Pool

theorem Move.owners_eq {d : Disk} {p q : Pool} (hm : p.Move d q) :
    q.owners = p.owners ∧ q.lockFile = p.lockFile := by
  cases hm <;> exact ⟨rfl, rfl⟩

theorem ne_nil_of_erase {l : List Nat} {i : Nat} (h : l.erase i ≠ []) : l ≠ [] := by
  rintro rfl
  exact h rfl

theorem Move.calling {d : Disk} {p q : Pool} (hm : p.Move d q) (h : p.taken ≠ [] → p.isOpen) :
    q.taken ≠ [] → q.isOpen := by
  cases hm with
  | take isOpen offered => exact fun _ => isOpen
  | refuseUnseen received => exact fun ht => h (ne_nil_of_erase ht)
  | refuse received => exact fun ht => h (ne_nil_of_erase ht)
  | handleReturn isOpen noOffer returned => exact h
  | select isOpen noOffer chosen => exact h
  | read there => exact h

end Pool

namespace Store

variable {s t : Store}

theorem owned_ofDisk (d : Disk) : (ofDisk d).Owned :=
  ⟨by simp [ofDisk], by simp [ofDisk], ⟨by simp [ofDisk], by simp [ofDisk]⟩⟩

theorem Owned.close {id : PoolId} {p : Pool} (h : s.Owned) (there : s.pools[id]? = some p)
    (isOpen : p.isOpen = true) (noCall : p.taken = []) :
    ((s.setPool id p.close).dropOwner id).Owned := by
  have hclose : Guarded (s.setPool id p.close).pools (s.setPool id p.close).locks :=
    h.guarded.set there rfl fun hpos => hpos
  have hpools : ∀ {j : PoolId} {q : Pool}, ((s.setPool id p.close).dropOwner id).pools[j]? = some q →
      (j = id ∧ q = { p.close with owners := p.owners - 1 }) ∨ (j ≠ id ∧ s.pools[j]? = some q) := by
    intro j q hq
    rw [pools_dropOwner] at hq
    obtain ⟨r, hr, ⟨rfl, rfl⟩ | ⟨hj, rfl⟩⟩ := of_getElem?_modify hq
    · rcases of_getElem?_set hr with ⟨-, rfl⟩ | ⟨hne, -⟩
      · exact .inl ⟨rfl, rfl⟩
      · exact absurd rfl hne
    · rcases of_getElem?_set hr with ⟨rfl, -⟩ | ⟨-, hr⟩
      · exact absurd rfl hj
      · exact .inr ⟨hj, hr⟩
  refine ⟨fun {j} {q} hq ht => ?_, fun {j} {q} hq => ?_, hclose.dropOwner id⟩
  · rcases hpools hq with ⟨-, rfl⟩ | ⟨-, hq⟩
    · exact absurd noCall ht
    · exact h.calling hq ht
  · rw [writing_dropOwner]
    rcases hpools hq with ⟨rfl, rfl⟩ | ⟨-, hq⟩
    · have howners := h.owners there
      rw [isOpen, Bool.toNat_true] at howners
      show p.owners - 1 = 0 + s.writing j
      omega
    · exact h.owners hq

theorem Owned.finish {id : SegmentId} {g : Segment} (h : s.Owned) (there : s.segments[id]? = some g)
    (unfinished : g.writer.finished = false) :
    ((s.setSegment id g.finish).dropOwner g.pool).Owned := by
  have hwriting := fun j => writing_setSegment (k := g.finish) there rfl j
  refine ⟨fun {j} {q} hq ht => ?_, fun {j} {q} hq => ?_,
    Guarded.dropOwner (s := s.setSegment id g.finish) h.guarded g.pool⟩
  · rw [pools_dropOwner] at hq
    obtain ⟨r, hr, ⟨-, rfl⟩ | ⟨-, rfl⟩⟩ := of_getElem?_modify hq
    · have hcalling := h.calling hr
      exact hcalling ht
    · exact h.calling hr ht
  · rw [writing_dropOwner]
    rw [pools_dropOwner] at hq
    have hj := hwriting j
    obtain ⟨r, hr, ⟨rfl, rfl⟩ | ⟨hne, rfl⟩⟩ := of_getElem?_modify hq
    · have howners := h.owners hr
      simp only [unfinished, Segment.finish, beq_self_eq_true, Bool.not_false, Bool.not_true,
        Bool.and_true, Bool.and_false, Bool.toNat_true, Bool.toNat_false] at hj
      show r.owners - 1 = r.isOpen.toNat + (s.setSegment id g.finish).writing g.pool
      simp only [Segment.finish]
      omega
    · have howners := h.owners hr
      have hpool : (g.pool == j) = false := by simpa using Ne.symm hne
      rw [hpool] at hj
      simp only [Bool.false_and, Bool.toNat_false] at hj
      omega

theorem Owned.lease {id : PoolId} {p : Pool} {i : Nat} {g : Segment} (h : s.Owned)
    (there : s.pools[id]? = some p) (received : i ∈ p.taken) (hpool : g.pool = id)
    (unfinished : g.writer.finished = false) :
    Owned { s.setPool id { p.beginLease s.disk i with owners := p.owners + 1 } with
        segments := s.segments ++ [g] } := by
  -- a pool with a lock call under way is open, so it has an owner already
  have hopen := h.calling there (List.ne_nil_of_mem received)
  have howners := h.owners there
  rw [hopen, Bool.toNat_true] at howners
  have hwriting : ∀ j, writing { s with segments := s.segments ++ [g] } j =
      s.writing j + (g.pool == j).toNat := by
    intro j
    simp only [writing, List.countP_append, List.countP_singleton, unfinished]
    cases g.pool == j <;> rfl
  refine ⟨fun {j} {q} hq ht => ?_, fun {j} {q} hq => ?_,
    h.guarded.set there rfl fun _ => by omega⟩
  · rcases of_getElem?_set hq with ⟨rfl, rfl⟩ | ⟨-, hq⟩
    · exact hopen
    · exact h.calling hq ht
  · show q.owners = q.isOpen.toNat + writing { s with segments := s.segments ++ [g] } j
    rw [hwriting]
    rcases of_getElem?_set hq with ⟨rfl, rfl⟩ | ⟨hj, hq⟩
    · have hself : (g.pool == j) = true := by simpa using hpool
      show p.owners + 1 = p.isOpen.toNat + (s.writing j + (g.pool == j).toNat)
      rw [hself, hopen, Bool.toNat_true]
      omega
    · have hother : (g.pool == j) = false := by simpa [hpool] using Ne.symm hj
      rw [hother]
      exact h.owners hq

theorem Owned.release {id : SegmentId} {g : Segment} (h : s.Owned)
    (there : s.segments[id]? = some g) : (s.release id g).Owned := by
  have hwriting : ∀ j, (s.release id g).writing j = s.writing j := fun j =>
    Nat.add_right_cancel (writing_setSegment (k := { g with released := true }) there rfl j)
  have hpools : ∀ {j : PoolId} {q : Pool}, (s.release id g).pools[j]? = some q →
      ∃ p, s.pools[j]? = some p ∧ q.taken = p.taken ∧ q.isOpen = p.isOpen ∧ q.owners = p.owners := by
    intro j q hq
    rw [pools_release] at hq
    obtain ⟨p, hp, ⟨-, rfl⟩ | ⟨-, rfl⟩⟩ := of_getElem?_modify hq <;> exact ⟨_, hp, rfl, rfl, rfl⟩
  refine ⟨fun {j} {q} hq ht => ?_, fun {j} {q} hq => ?_,
    h.guarded.modify g.pool fun p => ⟨rfl, fun hpos => hpos⟩⟩
  · obtain ⟨p, hp, htaken, hopen, -⟩ := hpools hq
    rw [hopen]
    exact h.calling hp (htaken ▸ ht)
  · obtain ⟨p, hp, -, hopen, howners⟩ := hpools hq
    rw [hwriting, howners, hopen]
    exact h.owners hp

theorem Owned.change {event : Event} {ns : History} (h : s.Owned) (hs : s.Conserved)
    (hc : s.Change event ns t) : t.Owned := by
  cases hc with
  | same => exact h
  | create => exact ⟨h.calling, h.owners, h.guarded⟩
  | @openRefused path config e d locks refused =>
    obtain ⟨-, rfl⟩ := Pool.openAt_error refused
    exact ⟨h.calling, h.owners, h.guarded⟩
  | @openPool path config p d locks isOpen opened =>
    obtain ⟨-, lockFile, slots, hlock, -, rfl⟩ := Pool.openAt_ok opened
    obtain ⟨-, hfree, rfl⟩ := Layout.acquireLock_ok hlock
    refine ⟨fun {id} {q} hq ht => ?_, fun {id} {q} hq => ?_, h.guarded.append hfree⟩
    · rcases of_getElem?_concat hq with hq | ⟨-, rfl⟩
      · exact h.calling hq ht
      · rfl
    · rcases of_getElem?_concat hq with hq | ⟨rfl, rfl⟩
      · exact h.owners hq
      · -- no segment is older than its pool
        have hnone : s.writing s.pools.length = 0 := by
          rw [writing, List.countP_eq_zero]
          intro g hg
          simp [Nat.ne_of_lt (hs.known g hg)]
        show 1 = 1 + s.writing s.pools.length
        rw [hnone]
  | closePool there isOpen noCall => exact h.close there isOpen noCall
  | @pool id p q there move =>
    obtain ⟨howners, hlock⟩ := move.owners_eq
    refine ⟨fun {j} {r} hr => ?_, fun {j} {r} hr => ?_,
      h.guarded.set there hlock fun hpos => howners ▸ hpos⟩
    · rcases of_getElem?_set hr with ⟨-, rfl⟩ | ⟨-, hr⟩
      · exact move.calling (h.calling there)
      · exact h.calling hr
    · rcases of_getElem?_set hr with ⟨rfl, rfl⟩ | ⟨-, hr⟩
      · rw [howners, move.isOpen_eq]
        exact h.owners there
      · exact h.owners hr
  | lease there received started =>
    obtain ⟨-, -, rfl⟩ := Segment.start_ok started
    exact h.lease there received rfl rfl
  | @segment id g g' ns d there move =>
    obtain ⟨hpool, -, -, -, -, hfinished⟩ := move.frame
    refine ⟨h.calling, fun {j} {p} hp => ?_, h.guarded⟩
    have hj := writing_setSegment there hpool j
    rw [hfinished] at hj
    have howners := h.owners hp
    show p.owners = p.isOpen.toNat + (s.setSegment id g').writing j
    omega
  | finish there closed empty known unfinished => exact h.finish there unfinished
  | release there live idle drained => exact h.release there

end Store

end RecordStore
