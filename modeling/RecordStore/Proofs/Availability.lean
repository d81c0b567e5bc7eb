import RecordStore.Disk.Edit
import RecordStore.Proofs.Interference
import RecordStore.Proofs.Settled

/-!
# When a lock call gets a file

A lock call with a time limit times out exactly when each file of the pool is out: no return is ever
lost, and no file that was given back after a refused lease. Otherwise it does what a call without a
limit does.
-/

namespace RecordStore

namespace Pool

variable {d : Disk} {p q : Pool} {held : Nat → Nat} {i : Nat}

theorem Balanced.free_of_selected (hb : p.Balanced held) (hoffer : p.selected = some i) :
    i < p.fileCount ∧ i ∉ p.taken ∧ held i = 0 := by
  have hmost := hb.atMost i
  have hone : p.selected.toList.count i = 1 := by simp [hoffer]
  unfold tokens at hmost
  refine ⟨lt_fileCount_of_tokens hb (i := i) ?_, ?_, by omega⟩
  · unfold tokens
    omega
  · intro htaken
    have hcall : 0 < p.taken.count i := List.count_pos_iff.2 htaken
    omega

end Pool

namespace Store

variable {s t : Store} {id : PoolId} {p q : Pool} {i : Nat}

@[simp] theorem disk_settlePool (s : Store) (id : PoolId) : (s.settlePool id).disk = s.disk := by
  unfold settlePool
  split <;> rfl

@[simp] theorem segments_settlePool (s : Store) (id : PoolId) :
    (s.settlePool id).segments = s.segments := by
  unfold settlePool
  split <;> rfl

/-! ## What a lock call does -/

/-- The lock call has leased file `i`, from its present end on. -/
structure Leases (s : Store) (id : PoolId) (i : Nat) (result : Except Error SegmentId × Store) :
    Prop where
  answer : result.1 = .ok s.segments.length
  segments : ∃ g, result.2.segments = s.segments ++ [g] ∧ g.pool = id ∧ g.fileIndex = i ∧
    g.released = false ∧ g.base = s.fileSize id i ∧ g.next = g.base

/-- The lock call has found file `i` too large, and given it back to be granted again. -/
structure GivesBack (s : Store) (id : PoolId) (i : Nat) (result : Except Error SegmentId × Store) :
    Prop where
  answer : result.1 = .error (.invalidArgument (.address (.offsetTooLarge (s.fileSize id i))))
  segments : result.2.segments = s.segments
  ready : ∃ q, result.2.pools[id]? = some q ∧ (q.selected = some i ∨ q.AtHand i)

theorem size_of_like {r : Pool} (hp : s.pools[id]? = some p) (hlike : p.Like r)
    (hi : i < p.fileCount) : s.disk.size (r.slots[i]?.elim 0 Slot.file) = s.fileSize id i := by
  have hlt : i < r.slots.length := by
    rw [← hlike.fileCount] at hi
    exact hi
  rw [fileSize_of_pool hp, ← hlike.files, Pool.files, List.getElem?_map,
    List.getElem?_eq_getElem hlt]
  rfl

theorem startLease_of_room (s : Store) (id : PoolId) {r : Pool}
    (hindex : i < Address.maxFileIndex)
    (hroom : s.disk.size (r.slots[i]?.elim 0 Slot.file) ≤ Address.offsetMask) :
    ∃ g, Segment.start id i (s.disk.size (r.slots[i]?.elim 0 Slot.file))
        (r.slots[i]?.elim 0 Slot.file) r.config = .ok g ∧
      s.startLease id r i none = (.ok s.segments.length,
        { s.setPool id { r.beginLease s.disk i with owners := r.owners + 1 } with
          segments := s.segments ++ [g] }) := by
  obtain ⟨g, hg⟩ := Segment.exists_start id (r.slots[i]?.elim 0 Slot.file) r.config hindex hroom
  have hg' : Segment.start id i (s.disk.size (r.slots[i]?.elim 0 Slot.file))
      (r.slots[i]?.elim 0 Slot.file) (r.beginLease s.disk i).config = .ok g := hg
  refine ⟨g, hg, ?_⟩
  unfold startLease
  dsimp only
  rw [hg']
  rfl

theorem startLease_too_large (s : Store) (id : PoolId) {r : Pool}
    (hindex : i < Address.maxFileIndex)
    (hlarge : Address.offsetMask < s.disk.size (r.slots[i]?.elim 0 Slot.file)) :
    s.startLease id r i none =
      (.error (.invalidArgument (.address
        (.offsetTooLarge (s.disk.size (r.slots[i]?.elim 0 Slot.file))))),
        s.setPool id ((r.beginLease s.disk i).giveBack i)) := by
  unfold startLease
  dsimp only
  rw [Segment.start_too_large hindex hlarge]

theorem lock?_of_offer (hp : s.pools[id]? = some p) (hopen : p.isOpen = true)
    (hoffer : p.selected = some i) {r : Pool}
    (hr : Pool.settle s.disk { p with selected := none, taken := i :: p.taken } = r) :
    s.lock? id =
      some ((s.startLease id r i none).1, (s.startLease id r i none).2.settlePool id) := by
  simp [lock?, hp, Pool.take?, hopen, hoffer, ← hr]

theorem lock?_of_selected (hp : s.pools[id]? = some p) (hopen : p.isOpen = true)
    (hoffer : p.selected = some i) :
    ∃ r, p.Like r ∧ r.taken = i :: p.taken ∧ r.isOpen = true ∧
      s.lock? id =
        some ((s.startLease id r i none).1, (s.startLease id r i none).2.settlePool id) := by
  have htended := Pool.tended_settle s.disk { p with selected := none, taken := i :: p.taken }
  exact ⟨_, ⟨htended.lockFile, htended.config, htended.files⟩, htended.taken,
    htended.isOpen.trans hopen, lock?_of_offer hp hopen hoffer rfl⟩

theorem lock?_of_idle (hp : s.pools[id]? = some p) (hidle : p.selected = none) :
    s.lock? id = none := by
  simp [lock?, hp, Pool.take?, hidle]

variable {d : Disk}

theorem out_of_idle (hs : s.Conserved) (hp : s.pools[id]? = some p) (hopen : p.isOpen = true)
    (hwaits : s.Waits id) (hidle : p.selected = none) (hi : i < p.fileCount) :
    i ∈ p.taken ∨ ∃ g ∈ s.segments, g.holds id i = true := by
  obtain ⟨-, hnone⟩ := hwaits.not_atHand hs hp hopen hidle
  by_contra hfree
  rw [not_or, exists_holder, not_not] at hfree
  exact hnone i (((hs.balanced id p hp).atHand_iff hopen hidle).2 ⟨hi, hfree.1, hfree.2⟩)

theorem leases_of_room {r : Pool} (hp : s.pools[id]? = some p) (hlike : p.Like r)
    (hi : i < p.fileCount) (hindex : i < Address.maxFileIndex)
    (hroom : s.fileSize id i ≤ Address.offsetMask) :
    s.Leases id i
      ((s.startLease id r i none).1, (s.startLease id r i none).2.settlePool id) := by
  have hsize := size_of_like hp hlike hi
  rw [← hsize] at hroom
  obtain ⟨g, hg, hlease⟩ := startLease_of_room s id hindex hroom
  obtain ⟨-, -, hstart⟩ := Segment.start_ok hg
  rw [hlease]
  refine ⟨rfl, g, ?_, ?_⟩
  · rw [segments_settlePool]
  · rw [hstart]
    exact ⟨rfl, rfl, rfl, hsize, rfl⟩

theorem givesBack_of_large {r : Pool} (hp : s.pools[id]? = some p) (hlike : p.Like r)
    (hb : p.Balanced (s.holders id)) (hoffer : p.selected = some i)
    (htaken : r.taken = i :: p.taken) (hopen : r.isOpen = true)
    (ht : ((s.startLease id r i none).2.settlePool id).Conserved)
    (hindex : i < Address.maxFileIndex) (hlarge : Address.offsetMask < s.fileSize id i) :
    s.GivesBack id i
      ((s.startLease id r i none).1, (s.startLease id r i none).2.settlePool id) := by
  obtain ⟨hi, hcall, hheld⟩ := hb.free_of_selected hoffer
  have hsize := size_of_like hp hlike hi
  rw [← hsize] at hlarge
  have hrefused := startLease_too_large s id hindex hlarge
  rw [hrefused] at ht ⊢
  have hthere := pools_setPool_self hp ((r.beginLease s.disk i).giveBack i)
  rw [settlePool_of_pool hthere, setPool_setPool, disk_setPool] at ht ⊢
  refine ⟨by rw [hsize], rfl, _, pools_setPool_self hp _, ?_⟩
  -- the segments are as they were, and the lock call is over
  have htended := Pool.tended_settle s.disk ((r.beginLease s.disk i).giveBack i)
  have hfinal := ht.balanced id _ (pools_setPool_self hp _)
  apply hfinal.offered_or_atHand
  · rw [htended.isOpen]
    exact hopen
  · rw [htended.fileCount]
    show i < (r.beginLease s.disk i).fileCount
    rw [(Pool.like_beginLease s.disk r i).fileCount, hlike.fileCount]
    exact hi
  · rw [htended.taken]
    show i ∉ r.taken.erase i
    rw [htaken, List.erase_cons_head]
    exact hcall
  · exact hheld

/-- In a state in which the scheduler waits, a lock call with a time limit times out exactly when each
file is leased; flushing does not end a lease, and a lock call under way has its file too. Otherwise
it does what a call without a limit does: it leases a file that nobody has from its present end on,
or, if that does not fit into an address, gives the file back. -/
theorem lock_outcome (hrun : (ofDisk d).Amid s) (hp : s.pools[id]? = some p)
    (hopen : p.isOpen = true) (hwaits : s.Waits id) :
    ((s.lockWithin id).1 = .error .lockTimeout ↔
      ∀ i < p.fileCount, i ∈ p.taken ∨ ∃ g ∈ s.segments, g.holds id i = true) ∧
    ((s.lockWithin id).1 = .error .lockTimeout → s.lock? id = none ∧ (s.lockWithin id).2 = s) ∧
    ((s.lockWithin id).1 ≠ .error .lockTimeout → s.lock? id = some (s.lockWithin id) ∧
      ∃ i < p.fileCount, s.offer? id = some i ∧ i ∉ p.taken ∧
        (∀ g ∈ s.segments, g.holds id i = false) ∧
        (s.fileSize id i ≤ Address.offsetMask → s.Leases id i (s.lockWithin id)) ∧
        (Address.offsetMask < s.fileSize id i → s.GivesBack id i (s.lockWithin id))) := by
  have hs := coherent_of_amid hrun
  have hb := hs.conserved.balanced id p hp
  cases hoffer : p.selected with
  | none =>
    have hnone := lock?_of_idle hp hoffer
    have hlock : s.lockWithin id = (.error .lockTimeout, s) := by rw [lockWithin, hnone]; rfl
    rw [hlock]
    have hout : ∀ i < p.fileCount, i ∈ p.taken ∨ ∃ g ∈ s.segments, g.holds id i = true :=
      fun i => out_of_idle hs.conserved hp hopen hwaits hoffer
    exact ⟨⟨fun _ => hout, fun _ => rfl⟩, fun _ => ⟨hnone, rfl⟩, fun h => absurd rfl h⟩
  | some i =>
    obtain ⟨hi, hcall, hheld⟩ := hb.free_of_selected hoffer
    obtain ⟨r, hlike, htaken, hropen, hlock⟩ := lock?_of_selected hp hopen hoffer
    have hindex := hs.lt_maxFileIndex hp hi
    obtain ⟨_, more, -, hmore, -⟩ := lock?_run hwaits hlock
    have ht := coherent_of_amid (hrun.run hmore)
    have hleases := leases_of_room hp hlike hi hindex
    have hgivesBack := givesBack_of_large hp hlike hb hoffer htaken hropen ht.conserved hindex
    have hwithin : s.lockWithin id =
        ((s.startLease id r i none).1, (s.startLease id r i none).2.settlePool id) := by
      rw [lockWithin, hlock]
      rfl
    rw [← hwithin] at hlock hleases hgivesBack
    have hgranted : (s.lockWithin id).1 ≠ .error .lockTimeout := by
      rcases Nat.lt_or_ge Address.offsetMask (s.fileSize id i) with hlarge | hroom
      · rw [(hgivesBack hlarge).answer]
        nofun
      · rw [(hleases hroom).answer]
        nofun
    have hnobody : ¬ ∃ g ∈ s.segments, g.holds id i = true := by
      rw [exists_holder, not_not]
      exact hheld
    refine ⟨⟨fun h => absurd h hgranted, fun hout => ?_⟩, fun h => absurd h hgranted, fun _ =>
      ⟨hlock, i, hi, ?_, hcall, fun g hg => ?_, hleases, hgivesBack⟩⟩
    · rcases hout i hi with h | h
      · exact absurd h hcall
      · exact absurd h hnobody
    · rw [offer?_eq_selected hp hopen, hoffer]
    · exact Bool.eq_false_iff.2 fun h => hnobody ⟨g, hg, h⟩

/-! ### One file -/

def flushedLease : List Event :=
  [.create "db" { fileCount := 1 }, .openPool "db" { fileCount := 1 }, .select 0, .take 0,
    .startLease 0 0 none, .closeQueue 0, .finish 0 none, .endFlush 0]

def comesBack : List Event := [.release 0, .handleReturn 0, .select 0]

/-- Others fill up the first backing file to just more than an address can say. -/
def overfill (s : Store) : Store :=
  { s with
    disk := (s.disk.truncate "db" (Layout.fileName 0) (Address.offsetMask + 1)).toOption.getD s.disk }

/-- As long as the lease is not unlocked, a lock call times out. Then the file comes back, but others
have made it too large. -/
theorem lock_outcome_flushedLease :
    ∃ s t, (ofDisk (.withDirectory "db")).run? flushedLease = some s ∧
      s.run? comesBack = some t ∧ (s.lockWithin 0).1 = .error .lockTimeout ∧
      (overfill t).GivesBack 0 0 ((overfill t).lockWithin 0) := by
  have hrun : (((ofDisk (.withDirectory "db")).run? flushedLease).bind fun s =>
      (s.run? comesBack).bind fun t => s.pools[0]?.bind fun p => t.pools[0]?.bind fun q =>
        if p.isOpen = true ∧ s.Waits 0 ∧ p.fileCount = 1 ∧ (∃ g ∈ s.segments, g.holds 0 0 = true) ∧
          q.isOpen = true ∧ (overfill t).Waits 0 ∧ q.selected = some 0 ∧
          0 < q.fileCount ∧ q.taken = [] ∧ (∀ g ∈ t.segments, g.holds 0 0 = false) ∧
          Address.offsetMask < (overfill t).fileSize 0 0
        then some (s, t, p, q) else none).isSome := by
    decide +kernel
  obtain ⟨r, hrun⟩ := Option.isSome_iff_exists.1 hrun
  obtain ⟨s, hs, hrun⟩ := Option.bind_eq_some_iff.1 hrun
  obtain ⟨t, ht, hrun⟩ := Option.bind_eq_some_iff.1 hrun
  obtain ⟨p, hp, hrun⟩ := Option.bind_eq_some_iff.1 hrun
  obtain ⟨q, hq, hrun⟩ := Option.bind_eq_some_iff.1 hrun
  split at hrun
  · rename_i hend
    obtain ⟨hopen, hwaits, hcount, hheld, hqopen, hready, hoffer, hsome, hcalls, hfree, hlarge⟩ :=
      hend
    refine ⟨s, t, hs, ht, ?_, ?_⟩
    · apply (lock_outcome (amid_of_run hs) hp hopen hwaits).1.2
      intro i hi
      obtain rfl : i = 0 := by omega
      exact .inr hheld
    · have hamid : (ofDisk (.withDirectory "db")).Amid (overfill t) :=
        ((amid_of_run hs).run ht).others _
      obtain ⟨htimeout, -, hgranted⟩ := lock_outcome hamid hq hqopen hready
      obtain ⟨i, -, hi, -, -, -, hgivesBack⟩ := (hgranted fun htime => by
        rcases htimeout.1 htime 0 hsome with hcall | ⟨g, hg, hheld⟩
        · rw [hcalls] at hcall
          cases hcall
        · rw [hfree g hg] at hheld
          cases hheld).2
      rw [offer?_eq_selected (s := overfill t) hq hqopen, hoffer] at hi
      obtain rfl := Option.some.inj hi
      exact hgivesBack hlarge
  · cases hrun

end Store

end RecordStore
