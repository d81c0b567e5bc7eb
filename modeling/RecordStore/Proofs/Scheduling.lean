import RecordStore.Proofs.Image
import RecordStore.Proofs.Returns

/-!
# Between two steps of a scheduler

What a step makes of a pool depends on the event. Only three events touch the offer of a pool and
the flags of its available files, and each flag that is up stands by a frontier that is the size of
the file.
-/

namespace RecordStore

namespace Pool

/-- What a pool can be after a step that begins with the disk `d`. -/
inductive Becomes (d : Disk) (event : Event) (id : PoolId) (p : Pool) : Pool → Prop where
  | same : Becomes d event id p p
  | take {i : Nat} (called : event = .take id) (offered : p.selected = some i) :
    Becomes d event id p { p with selected := none, taken := i :: p.taken }
  | refuseUnseen {i : Nat} {fault : Option Store.LeaseFault}
      (called : event = .startLease id i fault) (received : i ∈ p.taken) :
    Becomes d event id p (Pool.giveBack { p with taken := p.taken.erase i } i)
  | refuse {i : Nat} {fault : Option Store.LeaseFault} (called : event = .startLease id i fault)
      (received : i ∈ p.taken) :
    Becomes d event id p ((p.beginLease d i).giveBack i)
  | lease {i n : Nat} {fault : Option Store.LeaseFault} (called : event = .startLease id i fault)
      (received : i ∈ p.taken) :
    Becomes d event id p { p.beginLease d i with owners := n }
  | giveBack {i : Nat} : Becomes d event id p (p.giveBack i)
  | handleReturn {i : Nat} {rest : List Nat} (called : event = .handleReturn id)
      (noOffer : p.selected = none) (returned : p.returns = i :: rest) :
    Becomes d event id p { p.markAvailable d i with returns := rest }
  | select {i : Nat} (called : event = .select id) (noOffer : p.selected = none)
      (chosen : p.choice? = some i) :
    Becomes d event id p { p with available := p.available.set i false, selected := some i }
  | read {i n : Nat} {slot : Slot} (there : p.slots[i]? = some slot) :
    Becomes d event id p { p with slots := p.slots.set i { slot with position := n } }
  | owners {n : Nat} : Becomes d event id p { p with owners := n }
  | close {n : Nat} : Becomes d event id p { p.close with owners := n }

end Pool

namespace Store

variable {s t : Store} {event : Event} {id : PoolId} {p : Pool}

theorem becomes_set {j : PoolId} {p' q : Pool} (hp : s.pools[id]? = some p)
    (hp' : s.pools[j]? = some p') (hset : t.pools = s.pools.set j q)
    (h : j = id → p'.Becomes s.disk event id q) :
    ∃ r, t.pools[id]? = some r ∧ p.Becomes s.disk event id r := by
  rw [hset]
  by_cases hj : j = id
  · subst hj
    obtain rfl := Option.some.inj (hp'.symm.trans hp)
    exact ⟨q, List.getElem?_set_self (List.getElem?_eq_some_iff.1 hp).1, h rfl⟩
  · exact ⟨p, by rw [List.getElem?_set_ne hj, hp], .same⟩

theorem becomes_same (hp : s.pools[id]? = some p) (hpools : t.pools = s.pools) :
    ∃ r, t.pools[id]? = some r ∧ p.Becomes s.disk event id r :=
  ⟨p, by rw [hpools, hp], .same⟩

theorem becomes_startLease {j : PoolId} {p' : Pool} (hp : s.pools[id]? = some p)
    (hp' : s.pools[j]? = some p') {i : Nat} (received : i ∈ p'.taken)
    {fault : Option LeaseFault} (called : event = .startLease j i fault) :
    ∃ r, (s.startLease j p' i fault).2.pools[id]? = some r ∧ p.Becomes s.disk event id r := by
  unfold startLease
  split
  · exact becomes_set hp hp' rfl fun hj => .refuseUnseen (hj ▸ called) received
  · dsimp only
    split
    · exact becomes_set hp hp' rfl fun hj => .refuse (hj ▸ called) received
    · split
      · exact becomes_set hp hp' rfl fun hj => .refuse (hj ▸ called) received
      · exact becomes_set hp hp' (q := { p'.beginLease s.disk i with owners := p'.owners + 1 }) rfl
          fun hj => .lease (hj ▸ called) received

theorem becomes_of_modify {j : PoolId} {f : Pool → Pool} (hp : s.pools[id]? = some p)
    (hmodify : t.pools = s.pools.modify j f) (h : p.Becomes s.disk event id (f p)) :
    ∃ r, t.pools[id]? = some r ∧ p.Becomes s.disk event id r := by
  rw [hmodify, List.getElem?_modify, hp]
  split
  · exact ⟨f p, rfl, h⟩
  · exact ⟨p, rfl, .same⟩

theorem becomes_read (hp : s.pools[id]? = some p) (j : PoolId) (a : Address) (buffer : Bytes) :
    ∃ r, (s.read j a buffer).2.2.pools[id]? = some r ∧ p.Becomes s.disk event id r := by
  unfold read
  split
  · rename_i p' hp'
    refine becomes_set (q := (p'.readBetween s.disk s.disk a buffer).2.2) hp hp' rfl fun _ => ?_
    rcases readBetween_pool s.disk s.disk p' a buffer with h | ⟨slot, n, there, h⟩
    · rw [h]
      exact .same
    · rw [h]
      exact .read there
  · exact becomes_same hp rfl

theorem becomes_openPool (hp : s.pools[id]? = some p) (path : String) (config : Config) :
    ∃ r, (s.addPool path config).2.pools[id]? = some r ∧ p.Becomes s.disk event id r := by
  unfold addPool
  split
  · exact becomes_same hp rfl
  · refine ⟨p, ?_, .same⟩
    rw [List.getElem?_append_left (List.getElem?_eq_some_iff.1 hp).1, hp]

theorem becomes_closePool {j : PoolId} (hp : s.pools[id]? = some p) :
    ∃ r, (s.closePool j).pools[id]? = some r ∧ p.Becomes s.disk event id r := by
  unfold closePool
  split
  · rename_i p' hp'
    split
    · rw [pools_dropOwner, pools_setPool, List.getElem?_modify]
      by_cases hj : j = id
      · subst hj
        obtain rfl := Option.some.inj (hp'.symm.trans hp)
        rw [List.getElem?_set_self (List.getElem?_eq_some_iff.1 hp).1]
        exact ⟨_, congrArg some (if_pos rfl), .close⟩
      · rw [List.getElem?_set_ne hj, hp]
        exact ⟨_, congrArg some (if_neg hj), .same⟩
    · exact becomes_same hp rfl
  · exact becomes_same hp rfl

theorem pool_of_step (h : s.step? event = some t) (hp : s.pools[id]? = some p) :
    ∃ q, t.pools[id]? = some q ∧ p.Becomes s.disk event id q := by
  cases event with
  | create path config =>
    obtain rfl := Option.some.inj h
    exact becomes_same hp rfl
  | openPool path config =>
    obtain rfl := Option.some.inj h
    exact becomes_openPool hp path config
  | closePool j =>
    obtain ⟨p', -, h⟩ := Option.bind_eq_some_iff.1 h
    split at h
    · obtain rfl := Option.some.inj h
      exact becomes_closePool hp
    · cases h
  | take j =>
    obtain ⟨⟨i, q⟩, hq, h⟩ := Option.bind_eq_some_iff.1 h
    obtain ⟨p', hp', hq⟩ := Option.bind_eq_some_iff.1 hq
    obtain rfl := Option.some.inj h
    refine becomes_set hp hp' rfl ?_
    rintro rfl
    obtain ⟨-, hoffer, rfl⟩ := Pool.take?_ok hq
    exact .take rfl hoffer
  | startLease j i fault =>
    obtain ⟨p', hp', h⟩ := Option.bind_eq_some_iff.1 h
    split at h
    · obtain rfl := Option.some.inj h
      exact becomes_startLease hp hp' ‹_› rfl
    · cases h
  | handleReturn j =>
    obtain ⟨p', hp', h⟩ := Option.bind_eq_some_iff.1 h
    obtain ⟨q, hq, h⟩ := Option.bind_eq_some_iff.1 h
    obtain rfl := Option.some.inj h
    refine becomes_set hp hp' rfl ?_
    rintro rfl
    obtain ⟨-, hidle, i, rest, hreturned, rfl⟩ := Pool.handleReturn?_ok hq
    exact .handleReturn rfl hidle hreturned
  | select j =>
    obtain ⟨p', hp', h⟩ := Option.bind_eq_some_iff.1 h
    obtain ⟨q, hq, h⟩ := Option.bind_eq_some_iff.1 h
    obtain rfl := Option.some.inj h
    refine becomes_set hp hp' rfl ?_
    rintro rfl
    obtain ⟨-, hidle, i, hchoice, rfl⟩ := Pool.select?_ok hq
    exact .select rfl hidle hchoice
  | release j =>
    obtain ⟨g, -, -, -, rfl⟩ := step_release h
    exact becomes_of_modify hp rfl .giveBack
  | finish j fault =>
    obtain ⟨g, -, h⟩ := Option.bind_eq_some_iff.1 h
    obtain ⟨w, -, h⟩ := Option.bind_eq_some_iff.1 h
    obtain rfl := Option.some.inj h
    split
    · exact becomes_of_modify hp (pools_dropOwner (s.setSegment j { g with writer := w }) g.pool)
        .owners
    · exact becomes_same hp rfl
  | read j a buffer =>
    obtain rfl := Option.some.inj h
    exact becomes_read hp j a buffer
  | lockTimeout j | flushTimeout j =>
    obtain ⟨_, -, h⟩ := Option.bind_eq_some_iff.1 h
    split at h
    · obtain rfl := Option.some.inj h
      exact becomes_same hp rfl
    · cases h
  | accept j | acceptAt j | closeQueue j =>
    obtain ⟨g, -, h⟩ := Option.bind_eq_some_iff.1 h
    obtain rfl := Option.some.inj h
    exact becomes_same hp (pools_orRefused s j _)
  | enqueue j | endFlush j | receive j | record j =>
    obtain ⟨g, -, h⟩ := Option.bind_eq_some_iff.1 h
    obtain ⟨_, -, h⟩ := Option.bind_eq_some_iff.1 h
    obtain rfl := Option.some.inj h
    exact becomes_same hp rfl

end Store

namespace Pool

variable {d : Disk} {event : Event} {id : PoolId} {p q : Pool} {held : Nat → Nat} {i j : Nat}

theorem Becomes.isOpen (h : p.Becomes d event id q) (hopen : q.isOpen = true) :
    p.isOpen = true := by
  cases h with
  | close => cases hopen
  | _ => exact hopen

theorem Becomes.undisturbed (h : p.Becomes d event id q) (hopen : q.isOpen = true)
    (htake : event ≠ .take id) (hreturn : event ≠ .handleReturn id) (hselect : event ≠ .select id) :
    q.selected = p.selected ∧ q.available = p.available := by
  cases h with
  | take called => exact absurd called htake
  | handleReturn called => exact absurd called hreturn
  | select called => exact absurd called hselect
  | close => cases hopen
  | _ => exact ⟨rfl, rfl⟩

/-! ## Files at hand -/

/-- The scheduler has the file, or will have it when it has seen its returns. -/
def AtHand (p : Pool) (i : Nat) : Prop := p.isAvailable i = true ∨ i ∈ p.returns

theorem AtHand.tokens_pos (h : p.AtHand i) :
    0 < (p.isAvailable i).toNat + p.returns.count i := by
  rcases h with h | h
  · rw [h, Bool.toNat_true]
    omega
  · have := List.count_pos_iff.2 h
    omega

theorem AtHand.lt_fileCount (h : p.AtHand i) (hb : p.Balanced held) : i < p.fileCount := by
  have := h.tokens_pos
  apply lt_fileCount_of_tokens hb
  unfold tokens
  omega

theorem AtHand.not_held (h : p.AtHand i) (hb : p.Balanced held) : held i = 0 := by
  have hpos := h.tokens_pos
  have hmost := hb.atMost i
  unfold tokens at hmost
  omega

/-- A file of an open pool that nobody has is on offer, or the scheduler will have it. -/
theorem Balanced.offered_or_atHand (hb : p.Balanced held) (hopen : p.isOpen = true)
    (hlt : i < p.fileCount) (htaken : i ∉ p.taken) (hheld : held i = 0) :
    p.selected = some i ∨ p.AtHand i := by
  have hone := hb.all hopen i hlt
  have hcall : p.taken.count i = 0 := List.count_eq_zero.2 htaken
  unfold tokens at hone
  rw [hcall, hheld] at hone
  by_cases hoffer : 0 < p.selected.toList.count i
  · left
    simpa using List.count_pos_iff.1 hoffer
  right
  cases hflag : p.isAvailable i with
  | true => exact .inl hflag
  | false =>
    right
    rw [hflag, Bool.toNat_false] at hone
    apply List.count_pos_iff.1
    omega

theorem Balanced.atHand_iff (hb : p.Balanced held) (hopen : p.isOpen = true)
    (hidle : p.selected = none) : p.AtHand i ↔ i < p.fileCount ∧ i ∉ p.taken ∧ held i = 0 := by
  constructor
  · intro h
    refine ⟨h.lt_fileCount hb, ?_, h.not_held hb⟩
    intro htaken
    have hpos := h.tokens_pos
    have hmost := hb.atMost i
    have hcall : 0 < p.taken.count i := List.count_pos_iff.2 htaken
    unfold tokens at hmost
    omega
  · rintro ⟨hlt, htaken, hheld⟩
    rcases hb.offered_or_atHand hopen hlt htaken hheld with hoffer | h
    · rw [hidle] at hoffer
      cases hoffer
    · exact h

theorem atHand_handleReturn {d : Disk} {rest : List Nat} (hb : p.Balanced held)
    (hreturned : p.returns = i :: rest) :
    ({ p.markAvailable d i with returns := rest } : Pool).AtHand j ↔ p.AtHand j := by
  have hi : p.AtHand i := .inr (by simp [hreturned])
  have hlt : i < p.available.length := by
    rw [hb.flags]
    exact hi.lt_fileCount hb
  have hset : ({ p.markAvailable d i with returns := rest } : Pool).isAvailable j =
      if i = j ∧ i < p.available.length then true else p.isAvailable j :=
    isAvailable_set p i j true
  unfold AtHand
  rw [hset, hreturned, List.mem_cons]
  by_cases hij : i = j
  · subst hij
    simp [hlt]
  · simp [hij, Ne.symm hij]

theorem Becomes.atHand_of_available (h : p.Becomes d event id q) (hj : q.isAvailable j = true) :
    p.AtHand j := by
  cases h with
  | @handleReturn i rest called noOffer returned =>
    have hset : Pool.isAvailable { p.markAvailable d i with returns := rest } j =
      if i = j ∧ i < p.available.length then true else p.isAvailable j :=
      isAvailable_set p i j true
    rw [hset] at hj
    split at hj
    · rename_i hij
      rw [← hij.1]
      exact .inr (by simp [returned])
    · exact .inl hj
  | @select i called noOffer chosen =>
    have hset : Pool.isAvailable
        { p with available := p.available.set i false, selected := some i } j =
      if i = j ∧ i < p.available.length then false else p.isAvailable j :=
      isAvailable_set p i j false
    rw [hset] at hj
    split at hj
    · cases hj
    · exact .inl hj
  | _ => exact .inl hj

/-! ## Frontiers of available files -/

/-- The frontier of each available file is its size. -/
def Informed (d : Disk) (p : Pool) : Prop :=
  ∀ (i : Nat) (slot : Slot), p.slots[i]? = some slot → p.isAvailable i = true →
    slot.frontier = d.size slot.file

theorem Informed.of_modify (h : p.Informed d)
    (hslots : q.slots = p.slots.modify i fun slot => { slot with frontier := d.size slot.file })
    (havailable : ∀ j, j ≠ i → q.isAvailable j = true → p.isAvailable j = true) :
    q.Informed d := by
  intro j slot hslot hj
  rw [hslots] at hslot
  obtain ⟨old, hold, ⟨-, rfl⟩ | ⟨hne, rfl⟩⟩ := of_getElem?_modify hslot
  · rfl
  · exact h j slot hold (havailable j hne hj)

theorem Becomes.informed (h : p.Becomes d event id q) (hp : p.Informed d) : q.Informed d := by
  cases h with
  | refuse called received => exact hp.of_modify rfl fun _ _ hj => hj
  | lease called received => exact hp.of_modify rfl fun _ _ hj => hj
  | @handleReturn i rest called noOffer returned =>
    refine hp.of_modify (i := i) rfl fun j hne hj => ?_
    have hset := isAvailable_set p i j true
    rw [if_neg (fun h => hne h.1.symm)] at hset
    exact hset ▸ hj
  | @select i called noOffer chosen =>
    intro j slot hslot hj
    apply hp j slot hslot
    have hset := isAvailable_set p i j false
    have hj : ({ p with available := p.available.set i false } : Pool).isAvailable j = true := hj
    rw [hset] at hj
    split at hj
    · cases hj
    · exact hj
  | @read i n slot there =>
    intro j slot' hslot hj
    rcases of_getElem?_set hslot with ⟨rfl, rfl⟩ | ⟨-, hslot⟩
    · exact hp j slot there hj
    · exact hp j slot' hslot hj
  | _ => exact hp

end Pool

namespace Store

variable {d : Disk} {dir : FileId} {files : List FileId} {s t : Store} {h : History}
  {event : Event} {id : PoolId} {p : Pool} {i : Nat} {slot : Slot}

theorem Sound.file_of_slot (hs : s.Sound d dir files h) (hp : s.pools[id]? = some p)
    (hslot : p.slots[i]? = some slot) : files[i]? = some slot.file := by
  obtain ⟨more, hmore⟩ := hs.placed.pools hp
  have hfile : p.files[i]? = some slot.file := by simp [Pool.files, hslot]
  rw [← hmore, List.getElem?_append_left (List.getElem?_eq_some_iff.1 hfile).1, hfile]

theorem Sound.size_of_unheld {ns : History} {f : FileId} (hs : s.Sound d dir files h)
    (hdb : d.Database dir files) (hc : s.Change event ns t) (hp : s.pools[id]? = some p)
    (hopen : p.isOpen = true) (hfile : files[i]? = some f) (hheld : s.holders id i = 0) :
    t.disk.size f = s.disk.size f := by
  have hlt : f < s.disk.objects.length :=
    Nat.lt_of_lt_of_le (hdb.there (List.mem_of_getElem? hfile)) hs.placed.grows.length
  suffices hcontent : t.disk.content? f = s.disk.content? f by
    unfold Disk.size
    rw [hcontent]
  rcases hc.content with hkeep | ⟨k, g, r, rest, fault, hg, queued, -, -, hdisk⟩
  · cases hcontent : s.disk.content? f with
    | some c => exact hkeep hcontent
    | none =>
      have hregular := hc.grows.regular hlt
      rw [hcontent] at hregular
      simpa using hregular
  · rw [hdisk, Disk.content?_write]
    split
    · rename_i hsame
      subst hsame
      -- the writer's pool has owners, so it is this one, and here a segment has its file
      have hunfinished := (hs.orderly.each hg).unfinished (by simp [queued])
      have hlive := (hs.orderly.each hg).live_of_unfinished hunfinished
      have hpool := List.getElem?_eq_getElem (hs.conserved.known g (List.mem_of_getElem? hg))
      have howned : 0 < p.owners := by
        rw [hs.owned.owners hp, hopen, Bool.toNat_true]
        omega
      obtain rfl := hs.owner_unique hp hpool howned
        (hs.owned.owner_of_unfinished hg hpool hunfinished)
      have hpos : 0 < s.holders g.pool g.fileIndex :=
        List.countP_pos_iff.2 ⟨g, List.mem_of_getElem? hg, by simp [Segment.holds, hlive]⟩
      have hne : i ≠ g.fileIndex := by
        rintro rfl
        omega
      cases hcontent : s.disk.content? g.writer.file with
      | none => rfl
      | some c =>
        have hregular : (s.disk.content? g.writer.file).isSome := by
          rw [hcontent]
          rfl
        exact absurd ((hdb.grows hs.placed.grows).apart hfile (hs.placed.segments hg) hregular) hne
    · rfl

/-- What is known of every state of a run over a database, the frontiers included. -/
structure Steady (d : Disk) (dir : FileId) (files : List FileId) (s : Store) : Prop where
  sound : ∃ h, s.Sound d dir files h
  informed : ∀ (id : PoolId) (p : Pool), s.pools[id]? = some p → p.isOpen = true →
    p.Informed s.disk

theorem Steady.conserved (hs : s.Steady d dir files) : s.Conserved :=
  hs.sound.choose_spec.conserved

theorem Steady.step (hs : s.Steady d dir files) (hdb : d.Database dir files)
    (hadmits : s.Admits dir files.length event) (hstep : s.step? event = some t) :
    t.Steady d dir files := by
  obtain ⟨⟨h, hsound⟩, hinformed⟩ := hs
  have hc := change_of_step hstep
  refine ⟨⟨_, hsound.change hdb hadmits hc⟩, ?_⟩
  intro id q hq hopen
  cases hp : s.pools[id]? with
  | some p =>
    obtain ⟨q', hq', hbecomes⟩ := pool_of_step hstep hp
    obtain rfl := Option.some.inj (hq'.symm.trans hq)
    have hwas := hbecomes.isOpen hopen
    intro i slot hslot havailable
    rw [hbecomes.informed (hinformed id p hp hwas) i slot hslot havailable]
    have hfile := (hsound.change hdb hadmits hc).file_of_slot hq hslot
    exact (hsound.size_of_unheld hdb hc hp hwas hfile
      ((hbecomes.atHand_of_available havailable).not_held (hsound.conserved.balanced id p hp))).symm
  | none =>
    obtain ⟨p, hp', -⟩ | ⟨_, _, _, -, -, hopened⟩ := hc.pool_like hq
    · rw [hp] at hp'
      cases hp'
    · intro i slot hslot _
      exact (Pool.fresh_of_openAt hopened).frontier slot (List.mem_of_getElem? hslot)

end Store

end RecordStore
