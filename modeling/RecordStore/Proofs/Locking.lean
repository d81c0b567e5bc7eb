import RecordStore.Proofs.Exclusion

/-!
# When a directory is locked

Pools over one directory come and go, and others change the disk meanwhile, but never take the lock
file away. The directory is locked exactly while there is an open pool on it or a writer that has not
finished.
-/

namespace RecordStore

open Disk

namespace Pool

theorem openSlots_ne_locked {d : Disk} {path : String} (is : List Nat) (other : String) :
    openSlots d path is ≠ .error (.databaseLocked other) := by
  induction is with
  | nil => nofun
  | cons i rest ih =>
    intro h
    unfold openSlots at h
    cases hfile : Layout.openFile d path i with
    | error e =>
      rw [hfile] at h
      obtain rfl := Except.error.inj h
      unfold Layout.openFile at hfile
      split at hfile <;> cases hfile
    | ok file =>
      cases hrest : openSlots d path rest with
      | error e =>
        rw [hfile, hrest] at h
        obtain rfl := Except.error.inj h
        exact ih hrest
      | ok slots =>
        rw [hfile, hrest] at h
        cases h

theorem openAt_locked {d d' : Disk} {path : String} {config : Config} {lock : FileId}
    (hvalid : config.Valid) (hdir : (d.directoryNamed path).isOk)
    (hregular : d.isRegularAt path (Layout.fileName 0))
    (hlock : d.openOrCreate path Layout.lockName = (.ok lock, d')) (locks : List FileId) :
    (openAt d locks path config).1 = .error (.databaseLocked (Path.join path Layout.lockName)) ↔
      lock ∈ locks := by
  have hfault : config.fault? = none := hvalid
  unfold openAt Layout.acquireLock
  rw [hfault, hdir, hregular, hlock]
  by_cases hheld : lock ∈ locks
  · simp [hheld]
  · simp only [Bool.not_true, Bool.false_eq_true, if_false, List.contains_iff_mem, hheld, iff_false]
    split
    · rename_i e hslots
      intro h
      obtain rfl : e = _ := Except.error.inj h
      exact openSlots_ne_locked _ _ hslots
    · nofun

end Pool

namespace Store

/-! ## Locks and owners -/

/-- A locked file is the lock file of a pool that has owners. -/
structure Held (pools : List Pool) (locks : List FileId) : Prop where
  once : locks.Nodup
  owned : ∀ {lock : FileId}, lock ∈ locks →
    ∃ (i : PoolId) (p : Pool), pools[i]? = some p ∧ p.lockFile = lock ∧ 0 < p.owners

variable {pools qs : List Pool} {locks : List FileId}

theorem Held.congr (h : Held pools locks)
    (hp : ∀ {i : PoolId} {p : Pool}, pools[i]? = some p →
      ∃ q, qs[i]? = some q ∧ q.lockFile = p.lockFile ∧ (0 < p.owners → 0 < q.owners)) :
    Held qs locks := by
  refine ⟨h.once, fun hlock => ?_⟩
  obtain ⟨i, p, hi, hfile, howners⟩ := h.owned hlock
  obtain ⟨q, hq, hsame, hkeep⟩ := hp hi
  exact ⟨i, q, hq, hsame.trans hfile, hkeep howners⟩

theorem Held.set (h : Held pools locks) {id : PoolId} {p q : Pool} (hp : pools[id]? = some p)
    (hlock : q.lockFile = p.lockFile) (howners : 0 < p.owners → 0 < q.owners) :
    Held (pools.set id q) locks := by
  refine h.congr fun {i} {r} hr => ?_
  by_cases hi : id = i
  · subst hi
    obtain rfl := Option.some.inj (hp.symm.trans hr)
    exact ⟨q, List.getElem?_set_self (List.getElem?_eq_some_iff.1 hp).1, hlock, howners⟩
  · exact ⟨r, by rw [List.getElem?_set_ne hi, hr], rfl, fun hpos => hpos⟩

theorem Held.append (h : Held pools locks) {p : Pool} (hfree : p.lockFile ∉ locks)
    (howners : 0 < p.owners) : Held (pools ++ [p]) (p.lockFile :: locks) := by
  refine ⟨List.nodup_cons.2 ⟨hfree, h.once⟩, fun {lock} hlock => ?_⟩
  rcases List.mem_cons.1 hlock with rfl | hlock
  · exact ⟨pools.length, p, List.getElem?_concat_length, rfl, howners⟩
  · obtain ⟨i, q, hq, hfile, hq'⟩ := h.owned hlock
    exact ⟨i, q, by rw [List.getElem?_append_left (List.getElem?_eq_some_iff.1 hq).1, hq], hfile, hq'⟩

variable {s t : Store} {dir : FileId}

theorem Held.dropOwner (h : Held s.pools s.locks) (id : PoolId) :
    Held (s.dropOwner id).pools (s.dropOwner id).locks := by
  cases hp : s.pools[id]? with
  | none =>
    unfold Store.dropOwner
    rw [hp]
    exact h
  | some p =>
    have hpools : (s.dropOwner id).pools = s.pools.set id { p with owners := p.owners - 1 } := by
      rw [pools_dropOwner, List.modify_eq_set, hp]
      rfl
    rw [hpools, locks_dropOwner hp]
    split
    · -- the lock file of the pool is not locked any more, the others are those of other pools
      refine ⟨h.once.erase _, fun {lock} hlock => ?_⟩
      obtain ⟨hne, hlock⟩ := h.once.mem_erase_iff.1 hlock
      obtain ⟨i, q, hq, hfile, howners⟩ := h.owned hlock
      have hi : id ≠ i := by
        rintro rfl
        obtain rfl := Option.some.inj (hp.symm.trans hq)
        exact hne hfile.symm
      exact ⟨i, q, by rw [List.getElem?_set_ne hi, hq], hfile, howners⟩
    · rename_i hmore
      refine h.set (q := { p with owners := p.owners - 1 }) hp rfl fun hpos => ?_
      show 0 < p.owners - 1
      omega

theorem Held.change {event : Event} {ns : History} (h : Held s.pools s.locks)
    (hc : s.Change event ns t) : Held t.pools t.locks := by
  cases hc with
  | openRefused refused =>
    obtain ⟨-, rfl⟩ := Pool.openAt_error refused
    exact h
  | openPool isOpen opened =>
    obtain ⟨-, lockFile, slots, hlock, -, rfl⟩ := Pool.openAt_ok opened
    obtain ⟨-, hfree, rfl⟩ := Layout.acquireLock_ok hlock
    exact h.append hfree Nat.one_pos
  | @closePool id p there isOpen noCall =>
    exact Held.dropOwner (s := s.setPool id p.close) (h.set there rfl fun hpos => hpos) id
  | pool there move =>
    obtain ⟨howners, hlock⟩ := move.owners_eq
    exact h.set there hlock fun hpos => howners ▸ hpos
  | lease there received started => exact h.set there rfl fun _ => Nat.succ_pos _
  | @finish id g there closed empty known unfinished =>
    exact Held.dropOwner (s := s.setSegment id g.finish) h g.pool
  | @release id g there live idle drained =>
    refine h.congr fun {i} {p} hp => ?_
    rw [pools_release, List.getElem?_modify, hp]
    by_cases hi : g.pool = i
    · exact ⟨p.giveBack g.fileIndex, by simp [hi], rfl, fun hpos => hpos⟩
    · exact ⟨p, by simp [hi], rfl, fun hpos => hpos⟩
  | _ => exact h

/-! ## One directory, shared with others -/

/-- What a store can become while all pools are opened on one directory and others change the disk.
They may do anything but take away the lock file of the directory. -/
inductive Shared (dir : FileId) (s : Store) : Store → Prop where
  | refl : Shared dir s s
  | step {t u : Store} {event : Event} (run : Shared dir s t)
      (onto : ∀ path config, event = .openPool path config → (t.addPool path config).1.isOk →
        t.disk.directory path = .ok dir)
      (step : t.step? event = some u) :
    Shared dir s u
  | others {t : Store} {d : Disk} (run : Shared dir s t)
      (stays : ∀ lock, t.disk.leadsTo dir Layout.lockName = some lock →
        d.leadsTo dir Layout.lockName = some lock) :
    Shared dir s { t with disk := d }

theorem shared_of_run {events : List Event} (hrun : s.run? events = some t)
    (hover : ∀ path config, .openPool path config ∈ events → s.disk.directory path = .ok dir) :
    s.Shared dir t := by
  have hboth : s.disk.Grows t.disk ∧ s.Shared dir t := by
    refine run_rec (P := fun t _ => s.disk.Grows t.disk ∧ s.Shared dir t) hrun ⟨.refl _, .refl⟩
      fun u before event v he _ hu hstep => ?_
    refine ⟨hu.1.trans (change_of_step hstep).grows, .step hu.2 ?_ hstep⟩
    rintro path config rfl -
    exact hu.1.directory_ok (hover path config he)
  exact hboth.2

/-- What is known of a store whose pools are all over one directory. -/
structure Overseen (dir : FileId) (s : Store) : Prop where
  conserved : s.Conserved
  owned : s.Owned
  orderly : ∃ h, s.Along (fun g _ => g.Orderly) h
  held : Held s.pools s.locks
  lock : ∀ {id : PoolId} {p : Pool}, s.pools[id]? = some p →
    s.disk.leadsTo dir Layout.lockName = some p.lockFile

theorem overseen_ofDisk (d : Disk) (dir : FileId) : (ofDisk d).Overseen dir where
  conserved := conserved_ofDisk d
  owned := owned_ofDisk d
  orderly := ⟨[], along_ofDisk d⟩
  held := ⟨List.nodup_nil, nofun⟩
  lock := by simp [ofDisk]

theorem Overseen.change {event : Event} {ns : History} (h : s.Overseen dir)
    (hover : ∀ path config, event = .openPool path config → (s.addPool path config).1.isOk →
      s.disk.directory path = .ok dir)
    (hc : s.Change event ns t) : t.Overseen dir where
  conserved := h.conserved.change hc
  owned := h.owned.change h.conserved hc
  orderly := by
    obtain ⟨k, hk⟩ := h.orderly
    exact ⟨_, hk.change Segment.orderly_invariant hc⟩
  held := h.held.change hc
  lock {id q} hq := by
    obtain ⟨p, hp, hlike⟩ | ⟨path, config, locks, -, hevent, hopen⟩ := hc.pool_like hq
    · rw [hlike.lockFile]
      exact hc.grows.target (h.lock hp)
    · exact Pool.openAt_lock (hover path config hevent (addPool_isOk hopen)) hopen

theorem Overseen.others (h : s.Overseen dir) {d : Disk}
    (hstays : ∀ lock, s.disk.leadsTo dir Layout.lockName = some lock →
      d.leadsTo dir Layout.lockName = some lock) : Overseen dir { s with disk := d } where
  conserved := ⟨h.conserved.known, h.conserved.balanced⟩
  owned := ⟨h.owned.calling, h.owned.owners, h.owned.guarded⟩
  orderly := by
    obtain ⟨k, hk⟩ := h.orderly
    exact ⟨k, hk.each, hk.later⟩
  held := h.held
  lock hp := hstays _ (h.lock hp)

theorem overseen_of_shared {d : Disk} (hrun : (ofDisk d).Shared dir s) : s.Overseen dir := by
  induction hrun with
  | refl => exact overseen_ofDisk d dir
  | step run onto step ih => exact ih.change onto (change_of_step step)
  | others run stays ih => exact ih.others stays

/-! ## The law -/

theorem Overseen.owner_iff (h : s.Overseen dir) :
    (∃ (i : PoolId) (p : Pool), s.pools[i]? = some p ∧ 0 < p.owners) ↔
      (∃ p ∈ s.pools, p.isOpen = true) ∨ ∃ g ∈ s.segments, g.writer.finished = false := by
  constructor
  · rintro ⟨i, p, hp, hpos⟩
    rw [h.owned.owners hp] at hpos
    cases hopen : p.isOpen with
    | true => exact .inl ⟨p, List.mem_of_getElem? hp, hopen⟩
    | false =>
      rw [hopen, Bool.toNat_false, Nat.zero_add] at hpos
      obtain ⟨g, hg, hwriting⟩ := List.countP_pos_iff.1 hpos
      refine .inr ⟨g, hg, ?_⟩
      simp only [Bool.and_eq_true, Bool.not_eq_true'] at hwriting
      exact hwriting.2
  · rintro (⟨p, hmem, hopen⟩ | ⟨g, hmem, hun⟩)
    · obtain ⟨i, hp⟩ := List.getElem?_of_mem hmem
      refine ⟨i, p, hp, ?_⟩
      rw [h.owned.owners hp, hopen, Bool.toNat_true]
      omega
    · obtain ⟨k, hg⟩ := List.getElem?_of_mem hmem
      have hp : s.pools[g.pool]? = some _ := List.getElem?_eq_getElem (h.conserved.known g hmem)
      exact ⟨g.pool, _, hp, h.owned.owner_of_unfinished hg hp hun⟩

theorem Overseen.mem_locks (h : s.Overseen dir) {lock : FileId} {d : Disk}
    (hgrows : s.disk.Grows d) (hlock : d.leadsTo dir Layout.lockName = some lock) :
    lock ∈ s.locks ↔ ∃ (i : PoolId) (p : Pool), s.pools[i]? = some p ∧ 0 < p.owners := by
  constructor
  · intro hheld
    obtain ⟨i, p, hp, -, howners⟩ := h.held.owned hheld
    exact ⟨i, p, hp, howners⟩
  · rintro ⟨i, p, hp, howners⟩
    obtain rfl := Option.some.inj ((hgrows.target (h.lock hp)).symm.trans hlock)
    exact h.owned.guarded.locked hp howners

theorem addPool_error {path : String} {config : Config} {e : Error} :
    (s.addPool path config).1 = .error e ↔
      (Pool.openAt s.disk s.locks path config).1 = .error e := by
  unfold addPool
  split
  · rename_i e' d locks hopen
    rw [hopen]
    exact ⟨fun h => congrArg _ (Except.error.inj h), fun h => congrArg _ (Except.error.inj h)⟩
  · rename_i p d locks hopen
    rw [hopen]
    exact ⟨nofun, nofun⟩

/-- Opening a directory that is all right is refused for its lock exactly if a pool is open on it or
a writer of one of its leases has not finished. Two such writers never have the same file. -/
theorem directory_lock {d : Disk} (hrun : (ofDisk d).Shared dir s) :
    (∀ path config, config.Valid → s.disk.directoryNamed path = .ok dir →
      s.disk.isRegularAt path (Layout.fileName 0) = true →
      (s.disk.openOrCreate path Layout.lockName).1.isOk = true →
      ((s.addPool path config).1 =
          .error (.databaseLocked (Path.join path Layout.lockName)) ↔
        (∃ p ∈ s.pools, p.isOpen = true) ∨ ∃ g ∈ s.segments, g.writer.finished = false)) ∧
    ∀ (j k : SegmentId) (a b : Segment), s.segments[j]? = some a → s.segments[k]? = some b →
      a.fileIndex = b.fileIndex → a.writer.finished = false → b.writer.finished = false → j = k := by
  have h := overseen_of_shared hrun
  refine ⟨fun path config hvalid hdir hregular hopen => ?_, fun j k a b ha hb hindex hun hun' => ?_⟩
  · cases hlock : s.disk.openOrCreate path Layout.lockName with
    | mk answer d' =>
      rw [hlock] at hopen
      cases answer with
      | error e => cases hopen
      | ok lock =>
        have hgrows := s.disk.openOrCreate_extends path Layout.lockName
        rw [hlock] at hgrows
        obtain ⟨dir', hat, hlead⟩ := openOrCreate_ok hlock
        obtain rfl :=
          Except.ok.inj (hat.symm.trans (directory_ok.1 (directoryNamed_ok.1 hdir).2).2)
        rw [addPool_error, Pool.openAt_locked hvalid (by rw [hdir]; rfl) hregular hlock,
          h.mem_locks hgrows.toGrows hlead, h.owner_iff]
  · have hp : s.pools[a.pool]? = some _ :=
      List.getElem?_eq_getElem (h.conserved.known a (List.mem_of_getElem? ha))
    have hq : s.pools[b.pool]? = some _ :=
      List.getElem?_eq_getElem (h.conserved.known b (List.mem_of_getElem? hb))
    have hpool : a.pool = b.pool := h.owned.guarded.single hp hq
      (h.owned.owner_of_unfinished ha hp hun) (h.owned.owner_of_unfinished hb hq hun')
      (Option.some.inj ((h.lock hp).symm.trans (h.lock hq)))
    obtain ⟨log, horderly⟩ := h.orderly
    exact h.conserved.holder_unique ha hb hpool hindex
      ((horderly.each ha).live_of_unfinished hun) ((horderly.each hb).live_of_unfinished hun')

/-- A pool is closed while a file of it is leased. -/
def closedUnderLease : List Event :=
  [.create "db" { fileCount := 1 }, .openPool "db" { fileCount := 1 }, .select 0, .take 0,
    .startLease 0 0 none, .closePool 0]

def finishLease : List Event := [.closeQueue 0, .finish 0 none]

theorem directory_lock_closedUnderLease :
    ∃ s t, (ofDisk (.withDirectory "db")).run? closedUnderLease = some s ∧
      s.run? finishLease = some t ∧
      (s.addPool "db" { fileCount := 1 }).1 = .error (.databaseLocked (Path.join "db" "LOCK")) ∧
      (t.addPool "db" { fileCount := 1 }).1 ≠ .error (.databaseLocked (Path.join "db" "LOCK")) := by
  have hover : ∀ path config, .openPool path config ∈ closedUnderLease ++ finishLease →
      (Disk.withDirectory "db").directory path = .ok 1 := by
    intro path config hmem
    simp only [closedUnderLease, finishLease, List.cons_append, List.nil_append, List.mem_cons,
      Event.openPool.injEq, reduceCtorEq, List.not_mem_nil, false_or, or_false] at hmem
    rw [hmem.1]
    decide +kernel
  have hrun : (((ofDisk (.withDirectory "db")).run? closedUnderLease).bind fun s =>
      (s.run? finishLease).bind fun t =>
        if (∀ u ∈ [s, t], u.disk.directoryNamed "db" = .ok 1 ∧
            u.disk.isRegularAt "db" (Layout.fileName 0) = true ∧
            (u.disk.openOrCreate "db" Layout.lockName).1.isOk = true) ∧
          (∃ g ∈ s.segments, g.writer.finished = false) ∧
          ¬ ((∃ p ∈ t.pools, p.isOpen = true) ∨ ∃ g ∈ t.segments, g.writer.finished = false)
        then some (s, t) else none).isSome := by
    decide +kernel
  obtain ⟨r, hrun⟩ := Option.isSome_iff_exists.1 hrun
  obtain ⟨s, hs, hrun⟩ := Option.bind_eq_some_iff.1 hrun
  obtain ⟨t, ht, hrun⟩ := Option.bind_eq_some_iff.1 hrun
  split at hrun
  · rename_i hend
    obtain ⟨hpresent, hun, hfree⟩ := hend
    obtain ⟨hdir, hregular, hopen⟩ := hpresent s (by simp)
    obtain ⟨hdir', hregular', hopen'⟩ := hpresent t (by simp)
    have hboth : (ofDisk (.withDirectory "db")).run? (closedUnderLease ++ finishLease) = some t := by
      rw [run?_append, hs]
      exact ht
    have hshared := shared_of_run hs fun path config hmem =>
      hover path config (List.mem_append_left _ hmem)
    have hshared' := shared_of_run hboth hover
    refine ⟨s, t, hs, ht, ?_, ?_⟩
    · exact ((directory_lock hshared).1 "db" _ (by decide) hdir hregular hopen).2 (.inr hun)
    · exact fun hlocked =>
        hfree (((directory_lock hshared').1 "db" _ (by decide) hdir' hregular' hopen').1 hlocked)
  · cases hrun

end Store

end RecordStore
