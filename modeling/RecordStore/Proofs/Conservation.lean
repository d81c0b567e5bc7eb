import RecordStore.Proofs.Change
import RecordStore.Proofs.Choice
import Mathlib.Data.List.Count

/-!
# Conservation of leases

Each file of a pool has one token. It lies with the scheduler, with a lock call, with a segment or in
the queue of returns, and no step makes a second one or loses it.
-/

namespace RecordStore

/-- Where the token of a file can be. -/
inductive Place where
  | available
  | selected
  /-- With a lock call that has not started its lease. -/
  | taken
  /-- With a segment that is not released. -/
  | held
  /-- In a return that the scheduler has not seen. -/
  | returned
  deriving DecidableEq, Repr

def Segment.holds (g : Segment) (id : PoolId) (i : Nat) : Bool :=
  g.pool == id && g.fileIndex == i && !g.released

namespace Store

def holders (s : Store) (id : PoolId) (i : Nat) : Nat := s.segments.countP (·.holds id i)

def tokensAt (s : Store) (id : PoolId) (p : Pool) (i : Nat) : Place → Nat
  | .available => (p.isAvailable i).toNat
  | .selected => p.selected.toList.count i
  | .taken => p.taken.count i
  | .held => s.holders id i
  | .returned => p.returns.count i

end Store

/-! ## The tokens inside a pool -/

namespace Pool

def tokens (p : Pool) (i : Nat) : Nat :=
  (p.isAvailable i).toNat + p.selected.toList.count i + p.taken.count i + p.returns.count i

/-- The pool is short of exactly the tokens that `held` counts; once it is closed, it may have lost
some. -/
structure Balanced (p : Pool) (held : Nat → Nat) : Prop where
  flags : p.available.length = p.fileCount
  atMost : ∀ i, p.tokens i + held i ≤ 1
  outside : ∀ i, p.fileCount ≤ i → p.tokens i + held i = 0
  all : p.isOpen → ∀ i < p.fileCount, p.tokens i + held i = 1

theorem isAvailable_set (p : Pool) (i j : Nat) (b : Bool) :
    ({ p with available := p.available.set i b } : Pool).isAvailable j =
      if i = j ∧ i < p.available.length then b else p.isAvailable j := by
  simp only [isAvailable, List.getElem?_set]
  by_cases hij : i = j <;> by_cases hi : i < p.available.length <;> simp [hij, hi] <;> grind

theorem count_erase_add {l : List Nat} {i : Nat} (h : i ∈ l) (j : Nat) :
    (l.erase i).count j + [i].count j = l.count j := by
  have hpos : 0 < l.count i := List.count_pos_iff.2 h
  rw [List.count_erase, List.count_singleton]
  by_cases hij : i = j
  · subst hij
    simp
    omega
  · simp [hij]

theorem lt_fileCount_of_tokens {p : Pool} {held : Nat → Nat} (h : p.Balanced held) {i : Nat}
    (hi : 0 < p.tokens i + held i) : i < p.fileCount := by
  by_contra hge
  have := h.outside i (by omega)
  omega

theorem Move.tokens_eq {d : Disk} {p q : Pool} {held : Nat → Nat} (hm : p.Move d q)
    (h : p.Balanced held) (j : Nat) : q.tokens j = p.tokens j := by
  cases hm with
  | @take i hopen hsel =>
    simp only [tokens, isAvailable, hsel, Option.toList_some, Option.toList_none, List.count_cons,
      List.count_nil]
    omega
  | @refuseUnseen i hi =>
    have := count_erase_add hi j
    simp only [tokens, isAvailable, giveBack, List.count_append]
    omega
  | @refuse i hi =>
    have := count_erase_add hi j
    simp only [tokens, isAvailable, giveBack, beginLease, List.count_append]
    omega
  | @handleReturn i rest hopen hsel hret =>
    -- the flag was down, since the token was in the queue
    have hone : i ∈ p.returns := by simp [hret]
    have hpos : 0 < p.returns.count i := List.count_pos_iff.2 hone
    have hmost := h.atMost i
    have hi := lt_fileCount_of_tokens h (i := i) (by simp only [tokens]; omega)
    have hflag : p.isAvailable i = false := by
      by_contra hf
      simp only [Bool.not_eq_false] at hf
      simp only [tokens, hf, Bool.toNat_true] at hmost
      omega
    have hset := isAvailable_set p i j true
    simp only [isAvailable] at hset
    simp only [tokens, markAvailable, isAvailable, hset, h.flags, hret, List.count_cons]
    by_cases hij : i = j
    · subst hij
      simp only [isAvailable] at hflag
      simp [hi, hflag]
      omega
    · simp [hij]
  | @select i hopen hsel hchoice =>
    have hflag := (choice_foremost hchoice).mem.2
    have hi := lt_fileCount_of_tokens h (i := i) (by simp only [tokens, hflag, Bool.toNat_true]; omega)
    have hset := isAvailable_set p i j false
    simp only [isAvailable] at hset
    simp only [tokens, isAvailable, hset, h.flags, hsel]
    by_cases hij : i = j
    · subst hij
      simp only [isAvailable] at hflag
      simp [hi, hflag]
    · simp [hij]
  | read hslot => rfl

theorem Move.fileCount_eq {d : Disk} {p q : Pool} (hm : p.Move d q) :
    q.fileCount = p.fileCount := by
  cases hm <;> simp [fileCount, giveBack, beginLease, markAvailable]

theorem Move.isOpen_eq {d : Disk} {p q : Pool} (hm : p.Move d q) : q.isOpen = p.isOpen := by
  cases hm <;> rfl

theorem Move.flags_eq {d : Disk} {p q : Pool} (hm : p.Move d q) :
    q.available.length = p.available.length := by
  cases hm <;> simp [giveBack, beginLease, markAvailable]

theorem Balanced.congr {p q : Pool} {held held' : Nat → Nat} (h : p.Balanced held)
    (hflags : q.available.length = p.available.length) (hcount : q.fileCount = p.fileCount)
    (hopen : q.isOpen → p.isOpen)
    (htokens : ∀ i, q.tokens i + held' i = p.tokens i + held i) : q.Balanced held' where
  flags := by rw [hflags, hcount, h.flags]
  atMost i := by rw [htokens]; exact h.atMost i
  outside i hi := by rw [htokens]; exact h.outside i (hcount ▸ hi)
  all ho i hi := by rw [htokens]; exact h.all (hopen ho) i (hcount ▸ hi)

theorem Balanced.move {d : Disk} {p q : Pool} {held : Nat → Nat} (h : p.Balanced held)
    (hm : p.Move d q) : q.Balanced held :=
  h.congr hm.flags_eq hm.fileCount_eq (by rw [hm.isOpen_eq]; exact id)
    fun i => by rw [hm.tokens_eq h]

theorem Balanced.close {p : Pool} {held : Nat → Nat} (h : p.Balanced held) :
    p.close.Balanced held := by
  have hle : ∀ i, p.close.tokens i ≤ p.tokens i := by
    intro i
    simp only [tokens, Pool.close, isAvailable, Option.toList_none, List.count_nil]
    omega
  refine ⟨h.flags, ?_, ?_, fun ho => by simp [Pool.close] at ho⟩
  · intro i
    have := h.atMost i
    have := hle i
    omega
  · intro i hi
    have := h.outside i hi
    have := hle i
    omega

theorem Balanced.setOwners {p : Pool} {held : Nat → Nat} (h : p.Balanced held) (n : Nat) :
    ({ p with owners := n } : Pool).Balanced held := h.congr rfl rfl id fun _ => rfl

theorem Balanced.lease {d : Disk} {p : Pool} {held held' : Nat → Nat} {i : Nat}
    (h : p.Balanced held) (hi : i ∈ p.taken) (hheld : ∀ j, held' j = held j + [i].count j) :
    (p.beginLease d i).Balanced held' := by
  refine h.congr rfl (by simp [fileCount, beginLease]) id fun j => ?_
  have := count_erase_add hi j
  simp only [tokens, beginLease, isAvailable, hheld]
  omega

theorem Balanced.giveBack {p : Pool} {held held' : Nat → Nat} {i : Nat} (h : p.Balanced held)
    (hheld : ∀ j, held' j + [i].count j = held j) : (p.giveBack i).Balanced held' := by
  refine h.congr rfl rfl id fun j => ?_
  have := hheld j
  simp only [tokens, Pool.giveBack, isAvailable, List.count_append]
  omega

theorem balanced_of_openAt {d d' : Disk} {locks locks' : List FileId} {path : String}
    {config : Config} {p : Pool} (h : openAt d locks path config = (.ok p, d', locks')) :
    p.Balanced fun _ => 0 := by
  obtain ⟨-, lockFile, slots, -, -, rfl⟩ := openAt_ok h
  have htokens : ∀ i, Pool.tokens { path, config, lockFile, slots, available := slots.map fun _ => true } i =
      if i < slots.length then 1 else 0 := by
    intro i
    by_cases hi : i < slots.length <;> simp [tokens, isAvailable, hi]
  refine ⟨by simp [fileCount], fun i => ?_, fun i hi => ?_, fun _ i hi => ?_⟩
  · rw [htokens]
    split <;> omega
  · rw [htokens, if_neg (by simpa [fileCount] using hi)]
  · rw [htokens, if_pos (by simpa [fileCount] using hi)]

end Pool

/-! ## The tokens of a store -/

theorem countP_set_add {α : Type} {l : List α} {n : Nat} {a : α} (h : l[n]? = some a) (b : α)
    (f : α → Bool) : (l.set n b).countP f + (f a).toNat = l.countP f + (f b).toNat := by
  induction l generalizing n with
  | nil => simp at h
  | cons c l ih =>
    cases n with
    | zero =>
      obtain rfl := by simpa using h
      cases hc : f c <;> cases hb : f b <;> simp [hc, hb]
    | succ n =>
      have := ih (n := n) (by simpa using h)
      simp only [List.set_cons_succ, List.countP_cons]
      omega

namespace Segment

theorem holds_toNat (g : Segment) (i : Nat) (h : g.released = false) :
    (g.holds g.pool i).toNat = [g.fileIndex].count i := by
  by_cases hi : g.fileIndex = i <;> simp [holds, h, hi]

theorem holds_other (g : Segment) {id : PoolId} (h : g.pool ≠ id) (i : Nat) :
    g.holds id i = false := by simp [holds, h]

theorem Move.frame {g g' : Segment} {d d' : Disk} {ns : List Notice} (h : g.Move d ns g' d') :
    g'.pool = g.pool ∧ g'.fileIndex = g.fileIndex ∧ g'.base = g.base ∧
      g'.released = g.released ∧ g'.writer.file = g.writer.file ∧
      g'.writer.finished = g.writer.finished := by
  cases h with
  | accept _ _ accepted =>
    obtain ⟨-, -, -, -, rfl⟩ := accept_ok accepted
    exact ⟨rfl, rfl, rfl, rfl, rfl, rfl⟩
  | _ => exact ⟨rfl, rfl, rfl, rfl, rfl, rfl⟩

end Segment

namespace Store

structure Conserved (s : Store) : Prop where
  known : ∀ g ∈ s.segments, g.pool < s.pools.length
  balanced : ∀ id (p : Pool), s.pools[id]? = some p → p.Balanced (s.holders id)

theorem conserved_ofDisk (d : Disk) : (ofDisk d).Conserved :=
  ⟨by simp [ofDisk], by simp [ofDisk]⟩

variable {s t : Store}

theorem exists_holder {id : PoolId} {i : Nat} :
    (∃ g ∈ s.segments, g.holds id i = true) ↔ s.holders id i ≠ 0 := by
  rw [← Nat.pos_iff_ne_zero, holders, List.countP_pos_iff]

theorem holders_setSegment {id : SegmentId} {g k : Segment} (hg : s.segments[id]? = some g)
    (hpool : k.pool = g.pool) (hindex : k.fileIndex = g.fileIndex)
    (hreleased : k.released = g.released) (pool : PoolId) (i : Nat) :
    (s.setSegment id k).holders pool i = s.holders pool i := by
  have := countP_set_add hg k (·.holds pool i)
  simp only [holders, segments_setSegment]
  simp only [Segment.holds, hpool, hindex, hreleased] at this ⊢
  omega

theorem known_setSegment {id : SegmentId} {g k : Segment} (hg : s.segments[id]? = some g)
    (hpool : k.pool = g.pool) (h : ∀ g ∈ s.segments, g.pool < s.pools.length) :
    ∀ g ∈ s.segments.set id k, g.pool < s.pools.length := by
  intro j hj
  rcases List.mem_or_eq_of_mem_set hj with hj | rfl
  · exact h j hj
  · rw [hpool]
    exact h g (List.mem_of_getElem? hg)

theorem holders_dropOwner (s : Store) (id : PoolId) : (s.dropOwner id).holders = s.holders := by
  unfold holders
  rw [segments_dropOwner]

theorem balanced_dropOwner {id : PoolId} {f : PoolId → Nat → Nat}
    (h : ∀ j (p : Pool), s.pools[j]? = some p → p.Balanced (f j)) :
    ∀ j (p : Pool), (s.dropOwner id).pools[j]? = some p → p.Balanced (f j) := by
  intro j q hq
  rw [pools_dropOwner] at hq
  obtain ⟨p, hp, ⟨-, rfl⟩ | ⟨-, rfl⟩⟩ := of_getElem?_modify hq
  · exact (h j p hp).setOwners _
  · exact h j q hp

theorem balanced_setPool {id : PoolId} {q : Pool} {f : PoolId → Nat → Nat}
    (hq : q.Balanced (f id))
    (h : ∀ j (p : Pool), j ≠ id → s.pools[j]? = some p → p.Balanced (f j)) :
    ∀ j (p : Pool), (s.setPool id q).pools[j]? = some p → p.Balanced (f j) := by
  intro j p hp
  rcases of_getElem?_set hp with ⟨rfl, rfl⟩ | ⟨hj, hp⟩
  · exact hq
  · exact h j p hj hp

theorem Conserved.holders_new (h : s.Conserved) : s.holders s.pools.length = fun _ => 0 := by
  funext i
  rw [holders, List.countP_eq_zero]
  intro g hg
  rw [Segment.holds_other g (Nat.ne_of_lt (h.known g hg))]
  exact Bool.false_ne_true

theorem Conserved.lease {id : PoolId} {p : Pool} {i : Nat} {g : Segment} (h : s.Conserved)
    (there : s.pools[id]? = some p) (received : i ∈ p.taken) (hpool : g.pool = id)
    (hindex : g.fileIndex = i) (hlive : g.released = false) :
    Conserved { s.setPool id { p.beginLease s.disk i with owners := p.owners + 1 } with
        segments := s.segments ++ [g] } := by
  obtain ⟨hid, -⟩ := List.getElem?_eq_some_iff.1 there
  refine ⟨?_, balanced_setPool (f := holders { s with segments := s.segments ++ [g] }) ?_ ?_⟩
  · intro k hk
    simp only [List.mem_append, List.mem_singleton] at hk
    rcases hk with hk | rfl
    · simpa using h.known k hk
    · simpa [hpool] using hid
  · refine ((h.balanced id p there).lease received fun j => ?_).setOwners _
    simp only [holders, List.countP_append, List.countP_singleton]
    by_cases hij : i = j <;> simp [Segment.holds, hpool, hindex, hlive, hij]
  · intro j q hj hq
    refine (h.balanced j q hq).congr rfl rfl (fun ho => ho) fun i => ?_
    simp only [holders, List.countP_append, List.countP_singleton]
    simp [Segment.holds, hpool, Ne.symm hj]

theorem Conserved.release {id : SegmentId} {g : Segment} (h : s.Conserved)
    (there : s.segments[id]? = some g) (live : g.released = false) : (s.release id g).Conserved := by
  have hcount : ∀ j i, (s.release id g).holders j i + (g.holds j i).toNat = s.holders j i := by
    intro j i
    have := countP_set_add there { g with released := true } (·.holds j i)
    simp only [holders, segments_release]
    simpa [Segment.holds] using this
  have hknown := known_setSegment (k := { g with released := true }) there rfl h.known
  refine ⟨by simpa using hknown, fun j q hq => ?_⟩
  rw [pools_release] at hq
  obtain ⟨p, hp, ⟨rfl, rfl⟩ | ⟨hj, rfl⟩⟩ := of_getElem?_modify hq
  · exact (h.balanced _ p hp).giveBack fun i => by rw [← Segment.holds_toNat g i live, hcount]
  · refine (h.balanced j q hp).congr rfl rfl (fun ho => ho) fun i => ?_
    have := hcount j i
    rw [Segment.holds_other g (Ne.symm hj) i] at this
    simpa using this

theorem Conserved.change {event : Event} {ns : History} (h : s.Conserved)
    (hc : s.Change event ns t) : t.Conserved := by
  cases hc with
  | same => exact h
  | create => exact ⟨h.known, h.balanced⟩
  | openRefused => exact ⟨h.known, h.balanced⟩
  | openPool isOpen opened =>
    refine ⟨fun g hg => ?_, fun id p hp => ?_⟩
    · have := h.known g hg
      simp only [List.length_append, List.length_singleton]
      omega
    · rcases of_getElem?_concat hp with hp | ⟨rfl, rfl⟩
      · exact h.balanced id p hp
      · show Pool.Balanced _ (s.holders s.pools.length)
        rw [h.holders_new]
        exact Pool.balanced_of_openAt opened
  | @closePool id p there isOpen noCall =>
    refine ⟨by simpa [pools_dropOwner] using h.known, ?_⟩
    rw [holders_dropOwner]
    refine balanced_dropOwner (balanced_setPool (f := s.holders) ?_ ?_)
    · exact (h.balanced id p there).close
    · exact fun j p _ => h.balanced j p
  | @pool id p q there move =>
    refine ⟨by simpa using h.known, balanced_setPool (f := s.holders) ?_ ?_⟩
    · exact (h.balanced id p there).move move
    · exact fun j p _ => h.balanced j p
  | lease there received started =>
    obtain ⟨-, -, rfl⟩ := Segment.start_ok started
    exact h.lease there received rfl rfl rfl
  | @segment id g g' rs d there move =>
    obtain ⟨hpool, hindex, -, hreleased, -, -⟩ := move.frame
    refine ⟨known_setSegment there hpool h.known, fun j p hp => ?_⟩
    have hheld := funext (holders_setSegment there hpool hindex hreleased j)
    show p.Balanced ((s.setSegment id g').holders j)
    rw [hheld]
    exact h.balanced j p hp
  | @finish id g there closed empty known unfinished =>
    have hknown := known_setSegment (k := g.finish) there rfl h.known
    refine ⟨by simpa [pools_dropOwner] using hknown, ?_⟩
    rw [holders_dropOwner]
    apply balanced_dropOwner
    intro j p hp
    rw [funext (holders_setSegment (k := g.finish) there rfl rfl rfl j)]
    exact h.balanced j p hp
  | release there live idle drained => exact h.release there live

theorem conserved_of_run {d : Disk} {events : List Event} (h : (ofDisk d).run? events = some s) :
    s.Conserved :=
  run_induction (P := fun s _ => s.Conserved) h (conserved_ofDisk d)
    fun _ _ _ _ _ hs hstep => hs.change (change_of_step hstep)

/-! ## Where the tokens are -/

theorem one_place (f : Place → Nat)
    (h : f .available + f .selected + f .taken + f .returned + f .held = 1) :
    ∃ place, ∀ other, f other = if other = place then 1 else 0 := by
  obtain ⟨place, hplace⟩ : ∃ place, 0 < f place := by
    by_contra hnone
    have hzero : ∀ place, f place = 0 := fun place =>
      Nat.eq_zero_of_not_pos fun hpos => hnone ⟨place, hpos⟩
    simp [hzero] at h
  refine ⟨place, fun other => ?_⟩
  cases place <;> cases other <;> simp <;> omega

theorem eq_of_countP_le_one {α : Type} {l : List α} {f : α → Bool} (h : l.countP f ≤ 1) {j k : Nat}
    {a b : α} (ha : l[j]? = some a) (hb : l[k]? = some b) (hfa : f a) (hfb : f b) : j = k := by
  induction l generalizing j k with
  | nil => simp at ha
  | cons c l ih =>
    rw [List.countP_cons] at h
    have hpos : ∀ {n : Nat} {x : α}, l[n]? = some x → f x → 0 < l.countP f := fun hx hfx =>
      List.countP_pos_iff.2 ⟨_, List.mem_of_getElem? hx, hfx⟩
    cases j with
    | zero =>
      obtain rfl := Option.some.inj ha
      rw [if_pos hfa] at h
      cases k with
      | zero => rfl
      | succ k =>
        have := hpos hb hfb
        omega
    | succ j =>
      have hj := hpos ha hfa
      cases k with
      | zero =>
        obtain rfl := Option.some.inj hb
        rw [if_pos hfb] at h
        omega
      | succ k => rw [ih (by omega) ha hb]

theorem Conserved.holder_unique (h : s.Conserved) {j k : SegmentId} {a b : Segment}
    (ha : s.segments[j]? = some a) (hb : s.segments[k]? = some b) (hpool : a.pool = b.pool)
    (hindex : a.fileIndex = b.fileIndex) (hlive : a.released = false) (hlive' : b.released = false) :
    j = k := by
  have hlt := h.known b (List.mem_of_getElem? hb)
  have hmost := (h.balanced b.pool _ (List.getElem?_eq_getElem hlt)).atMost b.fileIndex
  refine eq_of_countP_le_one (f := (·.holds b.pool b.fileIndex)) ?_ ha hb ?_ ?_
  · simp only [holders] at hmost
    omega
  · simp [Segment.holds, hpool, hindex, hlive]
  · simp [Segment.holds, hlive']

theorem Conserved.lt_fileCount_of_taken (h : s.Conserved) {id : PoolId} {p : Pool} {i : Nat}
    (hp : s.pools[id]? = some p) (hi : i ∈ p.taken) : i < p.fileCount := by
  have hpos : 0 < p.taken.count i := List.count_pos_iff.2 hi
  apply Pool.lt_fileCount_of_tokens (h.balanced id p hp)
  unfold Pool.tokens
  omega

theorem Conserved.held_not_available (h : s.Conserved) {p : Pool} {g : Segment}
    (hg : g ∈ s.segments) (hp : s.pools[g.pool]? = some p) (hlive : g.released = false) :
    g.fileIndex < p.fileCount ∧ p.isAvailable g.fileIndex = false := by
  have hb := h.balanced g.pool p hp
  have hpos : 0 < s.holders g.pool g.fileIndex :=
    List.countP_pos_iff.2 ⟨g, hg, by simp [Segment.holds, hlive]⟩
  refine ⟨Pool.lt_fileCount_of_tokens hb (i := g.fileIndex) (by omega), ?_⟩
  have hmost := hb.atMost g.fileIndex
  by_contra hf
  simp only [Bool.not_eq_false] at hf
  simp only [Pool.tokens, hf, Bool.toNat_true] at hmost
  omega

/-- In any state that a run can reach, each file of an open pool is in exactly one place. No two
segments that are not released share a file, and none of their files is available. -/
theorem lease_conservation {d : Disk} {events : List Event} {id : PoolId} {p : Pool}
    (hrun : (ofDisk d).run? events = some s) (hp : s.pools[id]? = some p) :
    (p.isOpen → ∀ i < p.fileCount,
      ∃ place, ∀ other, s.tokensAt id p i other = if other = place then 1 else 0) ∧
    (∀ (j k : SegmentId) (a b : Segment), s.segments[j]? = some a → s.segments[k]? = some b →
      a.pool = id → b.pool = id → a.released = false → b.released = false →
      a.fileIndex = b.fileIndex → j = k) ∧
    (∀ g ∈ s.segments, g.pool = id → g.released = false →
      g.fileIndex < p.fileCount ∧ p.isAvailable g.fileIndex = false) := by
  have h := conserved_of_run hrun
  refine ⟨fun hopen i hi => ?_, fun j k a b ha hb hpool hpool' hlive hlive' hindex => ?_,
    fun g hg hpool hlive => ?_⟩
  · exact one_place (s.tokensAt id p i) ((h.balanced id p hp).all hopen i hi)
  · exact h.holder_unique ha hb (hpool.trans hpool'.symm) hindex hlive hlive'
  · subst hpool
    exact h.held_not_available hg hp hlive

def leaseAndOffer : List Event :=
  [.create "db" { fileCount := 2 }, .openPool "db" { fileCount := 2 }, .select 0, .take 0,
    .startLease 0 0 none, .select 0]

theorem lease_conservation_leaseAndOffer :
    ∃ s p g, (ofDisk (.withDirectory "db")).run? leaseAndOffer = some s ∧
      s.pools[0]? = some p ∧ s.segments[0]? = some g ∧ p.isAvailable g.fileIndex = false ∧
      ∃ place, ∀ other, s.tokensAt 0 p 1 other = if other = place then 1 else 0 := by
  have hrun : (((ofDisk (.withDirectory "db")).run? leaseAndOffer).bind fun s =>
      s.pools[0]?.bind fun p => s.segments[0]?.bind fun g =>
        if p.isOpen ∧ 1 < p.fileCount ∧ g.pool = 0 ∧ g.released = false then some (s, p, g)
        else none).isSome := by decide +kernel
  obtain ⟨⟨s', p', g'⟩, hrun⟩ := Option.isSome_iff_exists.1 hrun
  obtain ⟨s, hs, hrun⟩ := Option.bind_eq_some_iff.1 hrun
  obtain ⟨p, hp, hrun⟩ := Option.bind_eq_some_iff.1 hrun
  obtain ⟨g, hg, hrun⟩ := Option.bind_eq_some_iff.1 hrun
  split at hrun
  · rename_i hc
    obtain ⟨hopen, hcount, hpool, hlive⟩ := hc
    obtain ⟨hplace, -, hheld⟩ := lease_conservation hs hp
    exact ⟨s, p, g, hs, hp, hg, (hheld g (List.mem_of_getElem? hg) hpool hlive).2,
      hplace hopen 1 hcount⟩
  · cases hrun

end Store

end RecordStore
