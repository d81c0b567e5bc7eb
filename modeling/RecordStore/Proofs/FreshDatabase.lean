import RecordStore.Proofs.Additions
import RecordStore.Proofs.Calls
import RecordStore.Proofs.Effect

/-!
# A database that has just been created

Its files hold the tag alone, so it passes verification, and a pool that is opened on it has nothing
to read. The frontiers are all the same, so the files are leased in the order of their indices as
long as none comes back, whatever is written to those that are leased.
-/

namespace RecordStore

open Layout

/-! ## Pools that deal their files in order -/

namespace Pool

variable {p q : Pool} {d : Disk} {files : List FileId} {i j m : Nat}

/-- The first `m` files are out, the next one is on offer, and no file has more than the tag as far
as the scheduler knows. -/
structure Dealt (p : Pool) (files : List FileId) (m : Nat) : Prop where
  isOpen : p.isOpen = true
  backing : p.files = files
  noReturn : p.returns = []
  offer : p.selected = if m < files.length then some m else none
  rest : ∀ i, p.Offers i ↔ m < i ∧ i < files.length
  frontier : ∀ slot ∈ p.slots, slot.frontier = dataStart

theorem frontier_of_slots (h : ∀ slot ∈ p.slots, slot.frontier = dataStart)
    (hi : i < p.fileCount) : p.frontier i = dataStart := by
  have hi : i < p.slots.length := hi
  rw [frontier, List.getElem?_eq_getElem hi]
  exact h _ (List.getElem_mem hi)

theorem offers_select (hi : p.Offers i) (j : Nat) :
    ({ p with available := p.available.set i false, selected := some i } : Pool).Offers j ↔
      p.Offers j ∧ j ≠ i := by
  have hlt : i < p.available.length := by
    by_contra hout
    have hnone : p.available[i]? = none := List.getElem?_eq_none_iff.2 (Nat.le_of_not_lt hout)
    simp [Offers, isAvailable, hnone] at hi
  have hset := isAvailable_set p i j false
  simp only [isAvailable] at hset
  simp only [Offers, fileCount, isAvailable, hset]
  by_cases hij : i = j
  · subst hij
    simp [hlt]
  · simp [hij, Ne.symm hij]

theorem settle_of_idle (hopen : p.isOpen = true) (hreturns : p.returns = [])
    (hidle : p.selected = none) : p.settle d = p.select?.getD p := by
  have hseen : ({ p.returns.foldl (markAvailable d) p with returns := [] } : Pool) = p := by
    rw [hreturns, List.foldl_nil, ← hreturns]
  unfold settle
  rw [if_pos ⟨hopen, hidle⟩]
  dsimp only
  rw [hseen]

theorem dealt_settle (hopen : p.isOpen = true) (hfiles : p.files = files)
    (hreturns : p.returns = []) (hidle : p.selected = none)
    (hoffers : ∀ i, p.Offers i ↔ m ≤ i ∧ i < files.length)
    (hfrontier : ∀ slot ∈ p.slots, slot.frontier = dataStart) :
    (p.settle d).Dealt files m := by
  rw [settle_of_idle hopen hreturns hidle]
  cases hchoice : p.choice? with
  | none =>
    have hselect : p.select? = none := by simp [select?, hchoice]
    have hnone := choice_none hchoice
    have hm : ¬ m < files.length := fun hm => hnone m ((hoffers m).2 ⟨Nat.le_refl m, hm⟩)
    rw [hselect]
    refine ⟨hopen, hfiles, hreturns, by rw [if_neg hm]; exact hidle, fun i => ?_, hfrontier⟩
    constructor
    · intro hi
      exact absurd hi (hnone i)
    · intro hi
      omega
  | some i =>
    have hselect : p.select? =
        some { p with available := p.available.set i false, selected := some i } := by
      simp [select?, hchoice, hopen, hidle]
    have hforemost := choice_foremost hchoice
    obtain ⟨hle, hi⟩ := (hoffers i).1 hforemost.mem
    have hm : m < files.length := Nat.lt_of_le_of_lt hle hi
    have hfirst := (hoffers m).2 ⟨Nat.le_refl m, hm⟩
    obtain rfl : i = m := by
      have hleast := hforemost.least m hfirst
      rw [frontier_of_slots hfrontier hforemost.mem.1, frontier_of_slots hfrontier hfirst.1]
        at hleast
      omega
    rw [hselect]
    refine ⟨hopen, hfiles, hreturns, by rw [if_pos hm]; rfl, fun j => ?_, hfrontier⟩
    rw [Option.getD_some, offers_select hforemost.mem, hoffers]
    omega

theorem Dealt.congr (h : p.Dealt files m) (hopen : q.isOpen = p.isOpen)
    (hfiles : q.files = p.files) (hreturns : q.returns = p.returns)
    (hoffer : q.selected = p.selected) (havailable : q.available = p.available)
    (hfrontier : ∀ slot ∈ q.slots, slot.frontier = dataStart) : q.Dealt files m where
  isOpen := hopen.trans h.isOpen
  backing := hfiles.trans h.backing
  noReturn := hreturns.trans h.noReturn
  offer := hoffer.trans h.offer
  rest i := by
    rw [← h.rest, Offers, Offers, isAvailable, isAvailable, havailable, ← q.length_files, hfiles,
      p.length_files]
  frontier := hfrontier

theorem Dealt.settle (h : p.Dealt files m) (d : Disk) : p.settle d = p := by
  by_cases hm : m < files.length
  · have hoffer := h.offer
    rw [if_pos hm] at hoffer
    unfold Pool.settle
    rw [if_neg (by simp [hoffer])]
  · have hidle := h.offer
    rw [if_neg hm] at hidle
    rw [settle_of_idle h.isOpen h.noReturn hidle]
    cases hchoice : p.choice? with
    | none => simp [select?, hchoice]
    | some i =>
      have hi := (h.rest i).1 (choice_foremost hchoice).mem
      omega

theorem Fresh.dealt (h : p.Fresh d) (hfiles : p.files = files)
    (hsizes : ∀ f ∈ files, d.size f = dataStart) : (p.settle d).Dealt files 0 := by
  refine dealt_settle h.isOpen hfiles h.noReturn h.noOffer (fun i => ?_) fun slot hslot => ?_
  · rw [← hfiles, p.length_files]
    exact ⟨fun hi => ⟨Nat.zero_le i, hi.1⟩, fun hi => ⟨hi.2, h.all i hi.2⟩⟩
  · rw [h.frontier slot hslot]
    exact hsizes _ (hfiles ▸ List.mem_map_of_mem hslot)

theorem Dealt.frontiers (h : p.Dealt files m) :
    p.frontiers = List.replicate files.length dataStart := by
  refine List.eq_replicate_iff.2 ⟨?_, fun n hn => ?_⟩
  · rw [Pool.frontiers, List.length_map, ← h.backing, p.length_files]
    rfl
  · obtain ⟨slot, hslot, rfl⟩ := List.mem_map.1 hn
    exact h.frontier slot hslot

theorem Dealt.take (h : p.Dealt files m) (d : Disk) :
    (Pool.settle d { p with selected := none, taken := m :: p.taken }).Dealt files (m + 1) :=
  dealt_settle h.isOpen h.backing h.noReturn rfl h.rest h.frontier

theorem Dealt.beginLease (h : p.Dealt files m)
    (hsize : ∀ f, files[i]? = some f → d.size f = dataStart) (owners : Nat) :
    ({ p.beginLease d i with owners } : Pool).Dealt files m := by
  refine h.congr rfl (p.like_beginLease d i).files rfl rfl rfl fun slot hslot => ?_
  obtain ⟨j, hj⟩ := List.getElem?_of_mem hslot
  obtain ⟨old, hold, ⟨rfl, rfl⟩ | ⟨-, rfl⟩⟩ := of_getElem?_modify hj
  · refine hsize old.file ?_
    rw [← h.backing, Pool.files, List.getElem?_map, hold]
    rfl
  · exact h.frontier _ (List.mem_of_getElem? hold)

theorem Dealt.read (h : p.Dealt files m) (d : Disk) (a : Address) (buffer : Bytes) :
    (p.read d a buffer).2.2.Dealt files m := by
  rcases Store.readBetween_pool d d p a buffer with hsame | ⟨slot, position, hslot, hmoved⟩
  · rw [Pool.read, hsame]
    exact h
  · rw [Pool.read, hmoved]
    have hlike := (Move.read (d := d) (n := position) hslot).like
    refine h.congr rfl hlike.files rfl rfl rfl fun other hother => ?_
    rcases List.mem_or_eq_of_mem_set hother with hother | rfl
    · exact h.frontier other hother
    · exact h.frontier slot (List.mem_of_getElem? hslot)

theorem read_of_tags (hfiles : p.files = files)
    (htags : ∀ f ∈ files, d.content? f = some (.ofBytes magic)) (a : Address) (buffer : Bytes) :
    ∃ e, (p.read d a buffer).1 = .error e := by
  cases hslot : p.slots[a.fileIndex]? with
  | none =>
    refine ⟨.invalidArgument (.unknownFile a p.fileCount), ?_⟩
    unfold read readBetween
    rw [hslot]
  | some slot =>
    by_cases hinside : a.offset < dataStart
    · refine ⟨.invalidArgument (.insideHeader a), ?_⟩
      unfold read readBetween
      rw [hslot]
      dsimp only
      rw [if_pos hinside]
    · have hmem : slot.file ∈ files := hfiles ▸ List.mem_map_of_mem (List.mem_of_getElem? hslot)
      exact ⟨_, readBetween_end hslot (Nat.le_of_not_lt hinside) (htags _ hmem)
        (Nat.le_of_not_lt hinside) buffer⟩

end Pool

/-! ## What the caller of one pool does -/

/-- What is done with a pool and with the segments that it has leased, but for giving them back. -/
inductive Use where
  | lock
  | read (a : Address) (buffer : Bytes)
  /-- A call on a segment, by the number of its lease. -/
  | call (lease : Nat) (call : Call)

namespace Use

def isLock : Use → Bool
  | lock => true
  | _ => false

def isCall : Use → Bool
  | call .. => true
  | _ => false

end Use

namespace Store

variable {s t : Store} {id : PoolId} {p : Pool} {files : List FileId} {first m : Nat}

/-- The store afterwards, when the leases of the pool are numbered from `first` on. -/
def use (s : Store) (id : PoolId) (first : SegmentId) : Use → Store
  | .lock => (s.lockWithin id).2
  | .read a buffer => (s.read id a buffer).2.2
  | .call lease call => (s.perform (first + lease) call).2

def useAll (s : Store) (id : PoolId) (first : SegmentId) (uses : List Use) : Store :=
  uses.foldl (fun s u => s.use id first u) s

/-- The first `m` files are leased, in their order, and the others hold the tag alone. -/
structure Granted (s : Store) (id : PoolId) (files : List FileId) (first m : Nat) : Prop where
  pool : ∃ p, s.pools[id]? = some p ∧ p.Dealt files m
  apart : files.Nodup
  room : m ≤ files.length
  count : s.segments.length = first + m
  leases : ∀ j < m, ∃ g, s.segments[first + j]? = some g ∧ files[j]? = some g.writer.file
  tags : ∀ {i : Nat} {f : FileId}, m ≤ i → files[i]? = some f →
    s.disk.content? f = some (.ofBytes magic)

/-- The lock call has leased file `i`, with the first record right behind the tag. -/
structure LeasesAtStart (s : Store) (id : PoolId) (i : Nat)
    (result : Except Error SegmentId × Store) : Prop where
  answer : result.1 = .ok s.segments.length
  segments : ∃ g, result.2.segments = s.segments ++ [g] ∧ g.pool = id ∧ g.fileIndex = i ∧
    g.base = dataStart ∧ g.next = dataStart

theorem settlePool_of_dealt (hp : s.pools[id]? = some p) (h : p.Dealt files m) :
    s.settlePool id = s := by
  rw [settlePool_of_pool hp, h.settle, setPool_self hp]

theorem Granted.lockWithin_eq (h : s.Granted id files first m) (hm : m < files.length)
    (hmax : files.length ≤ Address.maxFileIndex) :
    ∃ q g, q.Dealt files (m + 1) ∧ files[m]? = some g.writer.file ∧
      (g.pool = id ∧ g.fileIndex = m ∧ g.base = dataStart ∧ g.next = dataStart) ∧
      s.lockWithin id =
        (.ok s.segments.length, { s.setPool id q with segments := s.segments ++ [g] }) := by
  obtain ⟨p, hp, hdealt⟩ := h.pool
  have hoffer : p.selected = some m := by rw [hdealt.offer, if_pos hm]
  generalize hr : Pool.settle s.disk { p with selected := none, taken := m :: p.taken } = r
  have hnext : r.Dealt files (m + 1) := hr ▸ hdealt.take s.disk
  obtain ⟨f, hf⟩ : ∃ f, files[m]? = some f := ⟨_, List.getElem?_eq_getElem hm⟩
  have hslot : r.slots[m]?.elim 0 Slot.file = f := by
    have hthere := hf
    rw [← hnext.backing, Pool.files, List.getElem?_map] at hthere
    obtain ⟨slot, hslot, hsame⟩ := Option.map_eq_some_iff.1 hthere
    rw [hslot]
    exact hsame
  have hsize : s.disk.size f = dataStart := by
    rw [Disk.size, h.tags (Nat.le_refl m) hf]
    rfl
  have hroom : s.disk.size (r.slots[m]?.elim 0 Slot.file) ≤ Address.offsetMask := by
    rw [hslot, hsize]
    decide
  obtain ⟨g, hg, hlease⟩ :=
    startLease_of_room s id (r := r) (Nat.lt_of_lt_of_le hm hmax) hroom
  obtain ⟨-, -, hstart⟩ := Segment.start_ok hg
  generalize hq : ({ r.beginLease s.disk m with owners := r.owners + 1 } : Pool) = q at hlease
  have hbegun : q.Dealt files (m + 1) :=
    hq ▸ hnext.beginLease (fun f' hf' => Option.some.inj (hf.symm.trans hf') ▸ hsize) _
  refine ⟨q, g, hbegun, ?_, ?_, ?_⟩
  · rw [hstart, hslot, hf]
  · rw [hstart, hslot]
    exact ⟨rfl, rfl, hsize, hsize⟩
  · have hthere : ({ s.setPool id q with segments := s.segments ++ [g] } : Store).pools[id]? =
        some q := pools_setPool_self hp q
    rw [lockWithin, lock?_of_offer hp hdealt.isOpen hoffer hr, hlease]
    exact congrArg (Prod.mk _) (settlePool_of_dealt hthere hbegun)

theorem Granted.lock (h : s.Granted id files first m) (hm : m < files.length)
    (hmax : files.length ≤ Address.maxFileIndex) :
    s.LeasesAtStart id m (s.lockWithin id) ∧
      (s.lockWithin id).2.Granted id files first (m + 1) ∧
      (s.lockWithin id).2.disk = s.disk ∧
      (s.lockWithin id).2.failuresHeld = s.failuresHeld := by
  obtain ⟨q, g, hdealt, hfile, hlease, hlock⟩ := h.lockWithin_eq hm hmax
  obtain ⟨p, hp, -⟩ := h.pool
  rw [hlock]
  refine ⟨⟨rfl, g, rfl, hlease⟩, ⟨⟨q, pools_setPool_self hp q, hdealt⟩, h.apart, hm, ?_, ?_, ?_⟩,
    rfl, rfl⟩
  · simp [h.count, Nat.add_assoc]
  · intro j hj
    rcases Nat.lt_succ_iff_lt_or_eq.1 hj with hj | rfl
    · obtain ⟨k, hk, hkfile⟩ := h.leases j hj
      exact ⟨k, by rw [List.getElem?_append_left (List.getElem?_eq_some_iff.1 hk).1, hk], hkfile⟩
    · exact ⟨g, by rw [← h.count, List.getElem?_concat_length], hfile⟩
  · intro i f hi hf
    exact h.tags (Nat.le_of_succ_le hi) hf

theorem Granted.lock_timeout (h : s.Granted id files first files.length) :
    s.lockWithin id = (.error .lockTimeout, s) := by
  obtain ⟨p, hp, hdealt⟩ := h.pool
  have hidle := hdealt.offer
  rw [if_neg (Nat.lt_irrefl _)] at hidle
  rw [lockWithin, lock?_of_idle hp hidle]
  rfl

theorem Granted.read (h : s.Granted id files first m) (a : Address) (buffer : Bytes) :
    (s.read id a buffer).2.2.Granted id files first m ∧
      (s.read id a buffer).2.2.disk = s.disk ∧
      (s.read id a buffer).2.2.failuresHeld = s.failuresHeld := by
  obtain ⟨p, hp, hdealt⟩ := h.pool
  have hread : (s.read id a buffer).2.2 = s.setPool id (p.read s.disk a buffer).2.2 := by
    simp [Store.read, hp]
  rw [hread]
  exact ⟨⟨⟨_, pools_setPool_self hp _, hdealt.read s.disk a buffer⟩, h.apart, h.room, h.count,
    h.leases, h.tags⟩, rfl, rfl⟩

theorem dealt_dropOwner (hp : s.pools[id]? = some p) (h : p.Dealt files m) (j : PoolId) :
    ∃ q, (s.dropOwner j).pools[id]? = some q ∧ q.Dealt files m := by
  rw [pools_dropOwner, List.getElem?_modify, hp]
  by_cases hj : j = id
  · exact ⟨{ p with owners := p.owners - 1 }, by simp [hj],
      h.congr rfl rfl rfl rfl rfl h.frontier⟩
  · exact ⟨p, by simp [hj], h⟩

theorem perform_of_none {k : SegmentId} (hk : s.segments[k]? = none) (call : Call) :
    (s.perform k call).2 = s := by
  cases call <;> simp [perform, write, writeAt, flush, flushWithin, settleSegment, hk]

theorem Granted.file_of_lease (h : s.Granted id files first m) {lease : Nat} {g : Segment}
    (hg : s.segments[first + lease]? = some g) :
    lease < m ∧ files[lease]? = some g.writer.file := by
  have hlease : lease < m := by
    have hlt := (List.getElem?_eq_some_iff.1 hg).1
    have := h.count
    omega
  obtain ⟨g', hg', hfile⟩ := h.leases lease hlease
  obtain rfl := Option.some.inj (hg.symm.trans hg')
  exact ⟨hlease, hfile⟩

theorem Granted.call (h : s.Granted id files first m) (hprompt : s.failuresHeld = false)
    (lease : Nat) (call : Call) :
    (s.perform (first + lease) call).2.Granted id files first m ∧
      (s.perform (first + lease) call).2.failuresHeld = s.failuresHeld := by
  cases hg : s.segments[first + lease]? with
  | none =>
    rw [perform_of_none hg]
    exact ⟨h, rfl⟩
  | some g =>
    rw [perform_eq_act hprompt hg, act_of_some hg]
    obtain ⟨hlease, hfile⟩ := h.file_of_lease hg
    obtain ⟨p, hp, hdealt⟩ := h.pool
    have hown := Call.own_act call
    refine ⟨⟨?_, h.apart, h.room, ?_, ?_, ?_⟩, failuresHeld_install ..⟩
    · unfold install
      split
      · exact dealt_dropOwner hp hdealt g.pool
      · exact ⟨p, hp, hdealt⟩
    · rw [segments_install, List.length_set, h.count]
    · intro j hj
      obtain ⟨k, hk, hkfile⟩ := h.leases j hj
      rw [segments_install, List.getElem?_set]
      split
      · rename_i hsame
        obtain rfl : lease = j := Nat.add_left_cancel hsame
        rw [if_pos (List.getElem?_eq_some_iff.1 hg).1]
        exact ⟨_, rfl, by rw [hown.file, hfile]⟩
      · exact ⟨k, hk, hkfile⟩
    · intro i f hi hf
      have hother : f ≠ g.writer.file := by
        rintro rfl
        have hsame := (List.getElem?_inj (List.getElem?_eq_some_iff.1 hf).1 h.apart).1
          (hf.trans hfile.symm)
        omega
      rw [disk_install,
        Disk.content?_of_object? (((hown.confined g).touched s.disk).object?_ne hother)]
      exact h.tags hi hf

theorem Granted.use (h : s.Granted id files first m) (hmax : files.length ≤ Address.maxFileIndex)
    (u : Use) (hprompt : u.isCall → s.failuresHeld = false) :
    (s.use id first u).Granted id files first
        (min (m + if u.isLock then 1 else 0) files.length) ∧
      (s.use id first u).failuresHeld = s.failuresHeld ∧
      (u.isCall = false → (s.use id first u).disk = s.disk) := by
  have hroom : min m files.length = m := Nat.min_eq_left h.room
  cases u with
  | lock =>
    rcases Nat.lt_or_eq_of_le h.room with hm | rfl
    · obtain ⟨-, hnext, hdisk, hheld⟩ := h.lock hm hmax
      have hcount : min (m + 1) files.length = m + 1 := Nat.min_eq_left hm
      exact ⟨by simpa only [Store.use, Use.isLock, if_pos, hcount] using hnext, hheld,
        fun _ => hdisk⟩
    · have hsame : s.use id first .lock = s := by
        rw [Store.use, h.lock_timeout]
      have hcount : min (files.length + 1) files.length = files.length := by omega
      rw [hsame]
      exact ⟨by simpa only [Use.isLock, if_pos, hcount] using h, rfl, fun _ => rfl⟩
  | read a buffer =>
    obtain ⟨hnext, hdisk, hheld⟩ := h.read a buffer
    exact ⟨by simpa [Store.use, Use.isLock, hroom] using hnext, hheld, fun _ => hdisk⟩
  | call lease call =>
    obtain ⟨hnext, hheld⟩ := h.call (hprompt rfl) lease call
    exact ⟨by simpa [Store.use, Use.isLock, hroom] using hnext, hheld, fun hcall => by cases hcall⟩

/-- Each lock call leases one file more, until there is none left. -/
theorem Granted.useAll (h : s.Granted id files first m)
    (hmax : files.length ≤ Address.maxFileIndex) {uses : List Use}
    (hprompt : ∀ u ∈ uses, u.isCall → s.failuresHeld = false) :
    (s.useAll id first uses).Granted id files first
        (min (m + uses.countP Use.isLock) files.length) ∧
      ((∀ u ∈ uses, u.isCall = false) → (s.useAll id first uses).disk = s.disk) := by
  induction uses generalizing s m with
  | nil => exact ⟨by simpa [useAll, Nat.min_eq_left h.room] using h, fun _ => rfl⟩
  | cons u rest ih =>
    obtain ⟨hnext, hheld, hdisk⟩ := h.use hmax u (hprompt u List.mem_cons_self)
    obtain ⟨hlater, hsame⟩ := ih hnext fun v hv hcall => by
      rw [hheld]
      exact hprompt v (List.mem_cons_of_mem u hv) hcall
    constructor
    · have hcount : min (min (m + if u.isLock then 1 else 0) files.length +
          rest.countP Use.isLock) files.length =
          min (m + (u :: rest).countP Use.isLock) files.length := by
        rw [List.countP_cons]
        omega
      exact hcount ▸ hlater
    · intro hcalls
      obtain ⟨hcall, hrest⟩ := List.forall_mem_cons.1 hcalls
      exact (hsame hrest).trans (hdisk hcall)

/-- The pool has `count` files and has been locked `locks` times: the next lock call leases the file
of this index, or gets none when all are leased. -/
structure DealsNext (s : Store) (id : PoolId) (count locks : Nat) : Prop where
  next : locks < count → s.LeasesAtStart id locks (s.lockWithin id)
  none : count ≤ locks → s.lockWithin id = (.error .lockTimeout, s)

theorem Granted.dealsNext {locks : Nat}
    (h : s.Granted id files first (min locks files.length))
    (hmax : files.length ≤ Address.maxFileIndex) : s.DealsNext id files.length locks where
  next hlt := by
    rw [Nat.min_eq_left (Nat.le_of_lt hlt)] at h
    exact (h.lock hlt hmax).1
  none hle := by
    rw [Nat.min_eq_right hle] at h
    exact h.lock_timeout

/-- The pool has `count` files with the tag alone, and deals them in their order. -/
structure Deals (s : Store) (id : PoolId) (count : Nat) : Prop where
  frontiers : ∃ p, s.pools[id]? = some p ∧ p.frontiers = List.replicate count dataStart
  order : ∀ uses, (∀ u ∈ uses, u.isCall → s.failuresHeld = false) →
    (s.useAll id s.segments.length uses).DealsNext id count (uses.countP Use.isLock)
  unreadable : ∀ uses, (∀ u ∈ uses, u.isCall = false) → ∀ a buffer, ∃ e,
    ((s.useAll id s.segments.length uses).read id a buffer).1 = .error e

theorem Granted.deals (h : s.Granted id files s.segments.length 0)
    (hmax : files.length ≤ Address.maxFileIndex) : s.Deals id files.length where
  frontiers := by
    obtain ⟨p, hp, hdealt⟩ := h.pool
    exact ⟨p, hp, hdealt.frontiers⟩
  order uses hprompt := by
    have hlater := (h.useAll hmax hprompt).1
    rw [Nat.zero_add] at hlater
    exact hlater.dealsNext hmax
  unreadable uses hcalls a buffer := by
    have hprompt : ∀ u ∈ uses, u.isCall → s.failuresHeld = false := by
      intro u hu hcall
      rw [hcalls u hu] at hcall
      cases hcall
    obtain ⟨hlater, hdisk⟩ := h.useAll hmax hprompt
    obtain ⟨p, hp, hdealt⟩ := hlater.pool
    have htags : ∀ f ∈ files, (s.useAll id s.segments.length uses).disk.content? f =
        some (.ofBytes magic) := by
      intro f hf
      obtain ⟨i, hi⟩ := List.getElem?_of_mem hf
      rw [hdisk hcalls]
      exact h.tags (Nat.zero_le i) hi
    obtain ⟨e, he⟩ := Pool.read_of_tags hdealt.backing htags a buffer
    exact ⟨e, by simpa [Store.read, hp] using he⟩

/-! ## The first pool on a new database -/

variable {path : String} {config opened : Config}

theorem openOrCreate_of_not_holds {d : Disk} {name : String} {dir : FileId} {entry : Option Entry}
    (hlocate : d.locate path name = .ok (dir, entry)) (h : ¬ d.holds path name) :
    (d.openOrCreate path name).1 = .ok d.nextId := by
  rw [Disk.locate_holds hlocate] at h
  unfold Disk.openOrCreate
  rw [hlocate]
  cases entry with
  | none => rfl
  | some e =>
    cases e with
    | file j => simp [Entry.target?] at h
    | link target =>
      cases target with
      | none => rfl
      | some j => simp [Entry.target?] at h

theorem lockable_of_absent {d : Disk} {locks : List FileId} {f : FileId}
    (hfirst : d.target path (fileName 0) = .ok f) (habsent : ¬ d.holds path lockName)
    (hlocks : ∀ id ∈ locks, id < d.objects.length) : Lockable d locks path := by
  have hsize : lockName.utf8ByteSize ≤ 16 := by decide
  obtain ⟨dir, -, hlocate⟩ := locate_beside (by decide) hfirst hsize (by decide)
  exact ⟨d.nextId, openOrCreate_of_not_holds hlocate habsent,
    fun hheld => Nat.lt_irrefl _ (hlocks _ hheld)⟩

theorem openPool_deals (hnamed : path ≠ "")
    (hfiles : ∀ {i : Nat} {f : FileId}, files[i]? = some f →
      t.disk.target path (fileName i) = .ok f ∧ t.disk.content? f = some (.ofBytes magic))
    (hapart : files.Nodup) (hvalid : opened.Valid)
    (hcount : opened.fileCount.toNat = files.length) (hlock : Lockable t.disk t.locks path) :
    ∃ u, t.openPool path opened = (.ok t.pools.length, u) ∧
      u.Deals t.pools.length files.length := by
  obtain ⟨hpresent, htags⟩ := present_of_tags hfiles
  obtain ⟨p, hopen, hfresh, -, hbacking, -⟩ :=
    Pool.openAt_present hnamed hpresent hvalid hcount hlock
  have hextends := t.disk.openOrCreate_extends path lockName
  have hthere : ∀ f ∈ files, (t.disk.openOrCreate path lockName).2.content? f =
      some (.ofBytes magic) := fun f hf => hextends.content_some (htags f hf)
  have hdealt := hfresh.dealt hbacking fun f hf => by
    rw [Disk.size, hthere f hf]
    rfl
  have hmax : files.length ≤ Address.maxFileIndex := by
    rw [← hcount]
    exact Nat.le_trans (opened.valid_iff.1 hvalid).1.2 (by decide)
  refine ⟨_, openPool_of_openAt hopen, Granted.deals ?_ hmax⟩
  exact
    { pool := ⟨_, List.getElem?_concat_length, hdealt⟩
      apart := hapart
      room := Nat.zero_le _
      count := rfl
      leases := fun j hj => absurd hj (Nat.not_lt_zero j)
      tags := fun _ hf => hthere _ (List.mem_of_getElem? hf) }

/-- What a creation leaves: its files hold the tag alone, and beside them there is nothing new but
the directories on the way to them. -/
structure Created (s t : Store) (path : String) (count : Nat) : Prop where
  rest : t = { s with disk := t.disk }
  gains : s.disk.Gains t.disk fun dir name id =>
    Tagged t.disk path count dir name id ∨ ¬ (s.disk.directory path).isOk ∧
      t.disk.OnTheWay (Path.withAncestors (Path.components path)) dir name id
  files : ∀ i < count, ∃ f, t.disk.target path (fileName i) = .ok f ∧ s.disk.nextId ≤ f ∧
    t.disk.content? f = some (.ofBytes magic)
  verified : (Verification.ofDirectory t.disk path count).failures = []
  /-- Without a lock file, the lock can be had; what is locked are files that exist. -/
  unlocked : ¬ t.disk.holds path lockName → (∀ id ∈ s.locks, id < s.disk.objects.length) →
    Lockable t.disk t.locks path

theorem create_disk (hcreate : s.create path config = (.ok (), t)) :
    Layout.create s.disk path config = (.ok (), t.disk) ∧ t = { s with disk := t.disk } := by
  obtain ⟨hanswer, rfl⟩ := Prod.mk.inj hcreate
  exact ⟨Prod.ext hanswer rfl, rfl⟩

theorem created (hcreate : s.create path config = (.ok (), t)) :
    s.Created t path config.fileCount.toNat := by
  obtain ⟨hcreate, hrest⟩ := create_disk hcreate
  have hfiles := fun i (hi : i < config.fileCount.toNat) => create_files hcreate hi
  have hgains := create_gains hcreate
  refine ⟨hrest, hgains, hfiles, failures_of_tags fun i hi => ?_, fun habsent hlocks => ?_⟩
  · obtain ⟨f, htarget, -, hcontent⟩ := hfiles i hi
    exact ⟨f, htarget, hcontent⟩
  · obtain ⟨f, htarget, -, -⟩ := hfiles 0 (config.valid_iff.1 (create_ok hcreate).1).1.1
    rw [congrArg Store.locks hrest]
    exact lockable_of_absent htarget habsent fun id hid =>
      Nat.lt_of_lt_of_le (hlocks id hid) hgains.length

/-- A creation that succeeds leaves an empty database and nothing else. Any pool of valid
configuration can then be opened on its files, finds all of them empty, and leases them in order as
long as none is given back. Only the empty path, under which files are made but no directory is named,
is not opened. -/
theorem create_yields_empty_database (hcreate : s.create path config = (.ok (), t)) :
    s.Created t path config.fileCount.toNat ∧
      ∀ opened : Config, opened.Valid → opened.fileCount.toNat ≤ config.fileCount.toNat →
        (path ≠ "" → Lockable t.disk t.locks path →
          ∃ u, t.openPool path opened = (.ok s.pools.length, u) ∧
            u.Deals s.pools.length opened.fileCount.toNat) ∧
        (path = "" → ∃ q, (t.openPool path opened).1 = .error (.notCreated q)) := by
  refine ⟨created hcreate, fun opened hvalid hle => ⟨fun hnamed hlock => ?_, fun hempty => ?_⟩⟩
  · obtain ⟨hcreate, hrest⟩ := create_disk hcreate
    have hpools : s.pools.length = t.pools.length := by rw [congrArg Store.pools hrest]
    obtain ⟨files, hlength, hapart, hfiles⟩ := create_first hcreate hle
    have hopened := openPool_deals hnamed hfiles hapart hvalid hlength.symm hlock
    rwa [hlength, ← hpools] at hopened
  · obtain rfl := hempty
    exact openPool_notCreated.2 ⟨hvalid, .inl (by simp [isOk_iff])⟩

/-- Three files in a directory that was not there before. -/
def threeMade : Store :=
  ((ofDisk (.withDirectory "db")).create "db/new" { fileCount := 3 }).2

theorem two_of_three_opened :
    (ofDisk (.withDirectory "db")).Created threeMade "db/new" 3 ∧
      ∃ u, threeMade.openPool "db/new" { fileCount := 2 } = (.ok 0, u) ∧ u.Deals 0 2 := by
  have hcreate : (ofDisk (.withDirectory "db")).create "db/new" { fileCount := 3 } =
      (.ok (), threeMade) := Prod.ext (by decide +kernel) rfl
  obtain ⟨hcreated, hopen⟩ := create_yields_empty_database hcreate
  have hlock : Lockable threeMade.disk threeMade.locks "db/new" :=
    hcreated.unlocked (by decide +kernel) (by simp [ofDisk])
  obtain ⟨hdeals, -⟩ := hopen { fileCount := 2 } (by decide) (by decide)
  exact ⟨hcreated, hdeals (by decide) hlock⟩

/-- The first segment is dropped before the others are leased. -/
def dropsFirst : Store :=
  let opened := (threeMade.openPool "db/new" { fileCount := 3 }).2
  let dropped := (opened.lockWithin 0).2.drop 0
  ((dropped.lockWithin 0).2.lockWithin 0).2

/-- Under the empty path a file is made and no pool opens on it. Where one opens, a file that came
back as its segment was dropped is leased again before the last one is. -/
theorem created_not_always_dealt :
    (((ofDisk (.withDirectory "db")).create "" { fileCount := 1 }).1 = .ok () ∧
      ¬ ((ofDisk (.withDirectory "db")).create "" { fileCount := 1 }).2.disk.holds "" lockName ∧
      (((ofDisk (.withDirectory "db")).create "" { fileCount := 1 }).2.openPool ""
        { fileCount := 1 }).1 = .error (.notCreated "")) ∧
    dropsFirst.segments.map Segment.fileIndex = [0, 1, 0] := by
  decide +kernel

end Store

end RecordStore
