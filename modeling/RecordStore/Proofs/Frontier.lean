import RecordStore.Proofs.HeaderClear
import RecordStore.Proofs.GrantOrder

/-!
# What the frontiers say

A frontier is a file size that was seen some time ago. For a file that the scheduler or a lock call
has, it is the size still; for any other it is the size at the beginning of the latest lease. So the
scheduler compares sizes that are right, and no frontier ever goes back.
-/

namespace RecordStore

namespace Pool

variable {d : Disk} {event : Event} {id : PoolId} {p q : Pool} {held : Nat → Nat} {i j : Nat}

/-- The scheduler or a lock call has the file. -/
def Keeps (p : Pool) (i : Nat) : Prop :=
  p.isAvailable i = true ∨ p.selected = some i ∨ i ∈ p.taken

theorem Keeps.tokens_pos (h : p.Keeps i) :
    0 < (p.isAvailable i).toNat + p.selected.toList.count i + p.taken.count i := by
  rcases h with h | h | h
  · rw [h, Bool.toNat_true]
    omega
  · rw [h, Option.toList_some, List.count_singleton_self]
    omega
  · have := List.count_pos_iff.2 h
    omega

theorem Keeps.lt_fileCount (h : p.Keeps i) (hb : p.Balanced held) : i < p.fileCount := by
  have hpos := h.tokens_pos
  apply lt_fileCount_of_tokens hb
  unfold tokens
  omega

theorem Keeps.not_held (h : p.Keeps i) (hb : p.Balanced held) : held i = 0 := by
  have hpos := h.tokens_pos
  have hmost := hb.atMost i
  unfold tokens at hmost
  omega

/-! ## Files on their way -/

theorem keeps_take (hoffer : p.selected = some i) :
    Keeps { p with selected := none, taken := i :: p.taken } j ↔ p.Keeps j := by
  unfold Keeps
  rw [hoffer, List.mem_cons, Option.some_inj]
  constructor
  · rintro (h | h | rfl | h)
    · exact .inl h
    · cases h
    · exact .inr (.inl rfl)
    · exact .inr (.inr h)
  · rintro (h | rfl | h)
    · exact .inl h
    · exact .inr (.inr (.inl rfl))
    · exact .inr (.inr (.inr h))

theorem keeps_select (hidle : p.selected = none) (hchoice : p.choice? = some i) :
    Keeps { p with available := p.available.set i false, selected := some i } j ↔ p.Keeps j := by
  have hflag := (choice_foremost hchoice).mem.2
  have hset : Pool.isAvailable
      { p with available := p.available.set i false, selected := some i } j =
      if i = j ∧ i < p.available.length then false else p.isAvailable j :=
    isAvailable_set p i j false
  unfold Keeps
  rw [hset, hidle]
  by_cases hij : i = j
  · subst hij
    simp [hflag]
  · simp [hij]

theorem keeps_handleReturn {rest : List Nat} (hb : p.Balanced held)
    (hreturned : p.returns = i :: rest) :
    Keeps { p.markAvailable d i with returns := rest } j ↔ p.Keeps j ∨ j = i := by
  have hi : p.AtHand i := .inr (by simp [hreturned])
  have hlt : i < p.available.length := by
    rw [hb.flags]
    exact hi.lt_fileCount hb
  have hset : Pool.isAvailable { p.markAvailable d i with returns := rest } j =
      if i = j ∧ i < p.available.length then true else p.isAvailable j :=
    isAvailable_set p i j true
  unfold Keeps
  rw [hset]
  show _ ∨ p.selected = some j ∨ j ∈ p.taken ↔ _
  by_cases hij : i = j
  · subst hij
    simp [hlt]
  · simp [hij, Ne.symm hij]

theorem keeps_erase (hb : p.Balanced held) (hi : i ∈ p.taken)
    (havailable : q.available = p.available) (hselected : q.selected = p.selected)
    (htaken : q.taken = p.taken.erase i) : q.Keeps j ↔ p.Keeps j ∧ j ≠ i := by
  have hmost := hb.atMost i
  have hcall : 0 < p.taken.count i := List.count_pos_iff.2 hi
  unfold tokens at hmost
  have hq : q.Keeps j ↔ p.isAvailable j = true ∨ p.selected = some j ∨ j ∈ p.taken.erase i := by
    unfold Keeps isAvailable
    rw [havailable, hselected, htaken]
  rw [hq]
  by_cases hij : j = i
  · subst hij
    have hflag : p.isAvailable j = false := by
      by_contra hup
      simp only [Bool.not_eq_false] at hup
      rw [hup, Bool.toNat_true] at hmost
      omega
    have hoffer : p.selected ≠ some j := by
      intro hoffer
      rw [hoffer, Option.toList_some, List.count_singleton_self] at hmost
      omega
    have herased : j ∉ p.taken.erase j := by
      rw [← List.count_eq_zero, List.count_erase_self]
      omega
    simp [hflag, hoffer, herased]
  · simp [Keeps, List.mem_erase_of_ne hij, hij]

/-! ## What is known of the frontiers -/

/-- The frontier of a file that the pool keeps is its size, that of any other what the log of its
leases says last. -/
structure Reports (d : Disk) (log : Nat → List Nat) (p : Pool) : Prop where
  kept : ∀ {i : Nat} {slot : Slot}, p.slots[i]? = some slot → p.Keeps i →
    slot.frontier = d.size slot.file
  away : ∀ {i : Nat} {slot : Slot}, p.slots[i]? = some slot → ¬ p.Keeps i →
    (log i).getLast? = some slot.frontier

variable {log more : Nat → List Nat}

theorem Reports.calm (hr : p.Reports d log) (hkeeps : ∀ j, q.Keeps j ↔ p.Keeps j)
    (hmore : ∀ j, ¬ p.Keeps j → more j = log j)
    (hslots : ∀ {j : Nat} {slot : Slot}, q.slots[j]? = some slot →
      ∃ old, p.slots[j]? = some old ∧ slot.file = old.file ∧ slot.frontier = old.frontier) :
    q.Reports d more := by
  constructor
  · intro j slot hslot hj
    obtain ⟨old, hold, hfile, hfrontier⟩ := hslots hslot
    rw [hfrontier, hfile]
    exact hr.kept hold ((hkeeps j).1 hj)
  · intro j slot hslot hj
    obtain ⟨old, hold, -, hfrontier⟩ := hslots hslot
    rw [hkeeps] at hj
    rw [hfrontier, hmore j hj]
    exact hr.away hold hj

theorem Reports.seen (hr : p.Reports d log) (hkeeps : ∀ j, q.Keeps j ↔ p.Keeps j ∨ j = i)
    (hmore : ∀ j, more j = log j)
    (hslots : q.slots = p.slots.modify i fun slot => { slot with frontier := d.size slot.file }) :
    q.Reports d more := by
  constructor
  · intro j slot hslot hj
    rw [hslots] at hslot
    obtain ⟨old, hold, ⟨-, rfl⟩ | ⟨hne, rfl⟩⟩ := of_getElem?_modify hslot
    · rfl
    · exact hr.kept hold (((hkeeps j).1 hj).resolve_right hne)
  · intro j slot hslot hj
    rw [hkeeps, not_or] at hj
    rw [hslots] at hslot
    obtain ⟨old, hold, ⟨heq, -⟩ | ⟨-, rfl⟩⟩ := of_getElem?_modify hslot
    · exact absurd heq hj.2
    · rw [hmore]
      exact hr.away hold hj.1

theorem Reports.leased (hr : p.Reports d log) (hi : p.Keeps i)
    (hkeeps : ∀ j, q.Keeps j ↔ p.Keeps j ∧ j ≠ i) (hmore : ∀ j, j ≠ i → more j = log j)
    (hlogged : ∀ slot, p.slots[i]? = some slot → (more i).getLast? = some (d.size slot.file))
    (hslots : q.slots = p.slots ∨
      q.slots = p.slots.modify i fun slot => { slot with frontier := d.size slot.file }) :
    q.Reports d more := by
  have hslot : ∀ {j : Nat} {slot : Slot}, q.slots[j]? = some slot →
      ∃ old, p.slots[j]? = some old ∧ slot.file = old.file ∧
        (slot.frontier = old.frontier ∨ j = i ∧ slot.frontier = d.size old.file) := by
    intro j slot hslot
    rcases hslots with hsame | hmodify
    · rw [hsame] at hslot
      exact ⟨slot, hslot, rfl, .inl rfl⟩
    · rw [hmodify] at hslot
      obtain ⟨old, hold, ⟨heq, rfl⟩ | ⟨-, rfl⟩⟩ := of_getElem?_modify hslot
      · exact ⟨old, hold, rfl, .inr ⟨heq, rfl⟩⟩
      · exact ⟨_, hold, rfl, .inl rfl⟩
  constructor
  · intro j slot hj hkept
    obtain ⟨hkept, hne⟩ := (hkeeps j).1 hkept
    obtain ⟨old, hold, hfile, hsame | ⟨heq, -⟩⟩ := hslot hj
    · rw [hsame, hfile]
      exact hr.kept hold hkept
    · exact absurd heq hne
  · intro j slot hj haway
    obtain ⟨old, hold, -, hfrontier⟩ := hslot hj
    by_cases heq : j = i
    · subst heq
      rw [hlogged old hold]
      rcases hfrontier with hsame | ⟨-, hnew⟩
      · rw [hsame, hr.kept hold hi]
      · rw [hnew]
    · have hsame : slot.frontier = old.frontier := hfrontier.resolve_right fun h => heq h.1
      rw [hmore j heq, hsame]
      apply hr.away hold
      intro hkept
      exact haway ((hkeeps j).2 ⟨hkept, heq⟩)

/-- A frontier changes only when a lock call or the scheduler looks at the size of the file. -/
theorem Becomes.slot (h : p.Becomes d event id q) {slot : Slot} (hslot : q.slots[i]? = some slot) :
    ∃ old, p.slots[i]? = some old ∧ slot.file = old.file ∧
      (slot.frontier = old.frontier ∨
        slot.frontier = d.size old.file ∧ (i ∈ p.taken ∨ i ∈ p.returns)) := by
  cases h with
  | refuse called received | lease called received =>
    obtain ⟨old, hold, ⟨rfl, rfl⟩ | ⟨-, rfl⟩⟩ := of_getElem?_modify hslot
    · exact ⟨old, hold, rfl, .inr ⟨rfl, .inl received⟩⟩
    · exact ⟨_, hold, rfl, .inl rfl⟩
  | handleReturn called noOffer returned =>
    obtain ⟨old, hold, ⟨rfl, rfl⟩ | ⟨-, rfl⟩⟩ := of_getElem?_modify hslot
    · exact ⟨old, hold, rfl, .inr ⟨rfl, .inr (by simp [returned])⟩⟩
    · exact ⟨_, hold, rfl, .inl rfl⟩
  | read there =>
    rcases of_getElem?_set hslot with ⟨rfl, rfl⟩ | ⟨-, hslot⟩
    · exact ⟨_, there, rfl, .inl rfl⟩
    · exact ⟨_, hslot, rfl, .inl rfl⟩
  | _ => exact ⟨_, hslot, rfl, .inl rfl⟩

end Pool

namespace Store

/-! ## The log of leases -/

def begun (s : Store) (id : PoolId) (i : Nat) : Event → List Nat
  | .startLease j k _ => if j = id ∧ k = i then [s.fileSize id i] else []
  | _ => []

/-- The sizes with which the leases of a file begin in a run, oldest first. Leases that are refused
count too. -/
def bases (s : Store) (id : PoolId) (i : Nat) : List Event → List Nat
  | [] => []
  | event :: rest => s.begun id i event ++ (s.step? event).elim [] fun t => t.bases id i rest

variable {s t : Store} {event : Event} {id : PoolId} {p q : Pool} {i : Nat}

theorem bases_concat {before : List Event} (h : s.run? before = some t) :
    s.bases id i (before ++ [event]) = s.bases id i before ++ t.begun id i event := by
  induction before generalizing s with
  | nil =>
    obtain rfl := Option.some.inj h
    rw [List.nil_append, bases, bases]
    cases s.step? event <;> simp [bases]
  | cons first rest ih =>
    obtain ⟨u, hu, h⟩ := Option.bind_eq_some_iff.1 h
    simp only [List.cons_append, bases, hu, Option.elim_some, ih h, List.append_assoc]

theorem begun_of_ne (h : ∀ fault, event ≠ .startLease id i fault) : s.begun id i event = [] := by
  unfold begun
  split
  · rename_i j k fault
    rw [if_neg]
    rintro ⟨rfl, rfl⟩
    exact h fault rfl
  · rfl

theorem taken_of_startLease {fault : Option LeaseFault}
    (hstep : s.step? (.startLease id i fault) = some t) (hp : s.pools[id]? = some p) :
    i ∈ p.taken := by
  obtain ⟨p', hp', h⟩ := Option.bind_eq_some_iff.1 hstep
  obtain rfl := Option.some.inj (hp'.symm.trans hp)
  split at h
  · assumption
  · cases h

theorem begun_of_away (hstep : s.step? event = some t) (hp : s.pools[id]? = some p)
    (haway : ¬ p.Keeps i) : s.begun id i event = [] := by
  apply begun_of_ne
  rintro fault rfl
  exact haway (.inr (.inr (taken_of_startLease hstep hp)))

/-! ## One step -/

theorem reports_of_becomes {log : Nat → List Nat} (hs : s.Conserved)
    (hstep : s.step? event = some t) (hp : s.pools[id]? = some p) (hopen : q.isOpen = true)
    (hbecomes : p.Becomes s.disk event id q) (hr : p.Reports s.disk log) :
    q.Reports s.disk fun i => log i ++ s.begun id i event := by
  have hb := hs.balanced id p hp
  have hquiet : ∀ j, ¬ p.Keeps j → log j ++ s.begun id j event = log j := by
    intro j hj
    rw [begun_of_away hstep hp hj, List.append_nil]
  -- what a lock call adds to the log when it starts its lease
  have hothers : ∀ {i : Nat} {fault : Option LeaseFault}, event = .startLease id i fault →
      ∀ j, j ≠ i → log j ++ s.begun id j event = log j := by
    rintro i fault rfl j hj
    rw [begun, if_neg fun h => hj h.2.symm, List.append_nil]
  have hlogged : ∀ {i : Nat} {fault : Option LeaseFault}, event = .startLease id i fault →
      ∀ slot, p.slots[i]? = some slot →
        (log i ++ s.begun id i event).getLast? = some (s.disk.size slot.file) := by
    rintro i fault rfl slot hslot
    rw [begun, if_pos ⟨rfl, rfl⟩, List.getLast?_concat, fileSize_of_pool hp, Pool.files,
      List.getElem?_map, hslot]
    rfl
  cases hbecomes with
  | same | giveBack | owners =>
    exact hr.calm (fun _ => Iff.rfl) hquiet fun hslot => ⟨_, hslot, rfl, rfl⟩
  | take called offered =>
    exact hr.calm (fun _ => Pool.keeps_take offered) hquiet fun hslot => ⟨_, hslot, rfl, rfl⟩
  | select called noOffer chosen =>
    exact hr.calm (fun _ => Pool.keeps_select noOffer chosen) hquiet
      fun hslot => ⟨_, hslot, rfl, rfl⟩
  | read there =>
    refine hr.calm (fun _ => Iff.rfl) hquiet fun hslot => ?_
    rcases of_getElem?_set hslot with ⟨rfl, rfl⟩ | ⟨-, hslot⟩
    · exact ⟨_, there, rfl, rfl⟩
    · exact ⟨_, hslot, rfl, rfl⟩
  | handleReturn called noOffer returned =>
    refine hr.seen (fun _ => Pool.keeps_handleReturn hb returned) (fun j => ?_) rfl
    rw [begun_of_ne (by simp [called]), List.append_nil]
  | refuseUnseen called received =>
    exact hr.leased (.inr (.inr received)) (fun _ => Pool.keeps_erase hb received rfl rfl rfl)
      (hothers called) (hlogged called) (.inl rfl)
  | refuse called received =>
    exact hr.leased (.inr (.inr received)) (fun _ => Pool.keeps_erase hb received rfl rfl rfl)
      (hothers called) (hlogged called) (.inr rfl)
  | lease called received =>
    exact hr.leased (.inr (.inr received)) (fun _ => Pool.keeps_erase hb received rfl rfl rfl)
      (hothers called) (hlogged called) (.inr rfl)
  | close => cases hopen

theorem Conserved.unheld_of_keeps (hs : s.Conserved) (hp : s.pools[id]? = some p)
    (hopen : q.isOpen = true) (hbecomes : p.Becomes s.disk event id q) (hkept : q.Keeps i) :
    s.holders id i = 0 := by
  have hb := hs.balanced id p hp
  suffices h : p.Keeps i ∨ p.AtHand i from h.elim (·.not_held hb) (·.not_held hb)
  cases hbecomes with
  | same | giveBack | owners | read => exact .inl hkept
  | take called offered => exact .inl ((Pool.keeps_take offered).1 hkept)
  | select called noOffer chosen => exact .inl ((Pool.keeps_select noOffer chosen).1 hkept)
  | handleReturn called noOffer returned =>
    rcases (Pool.keeps_handleReturn hb returned).1 hkept with h | rfl
    · exact .inl h
    · exact .inr (.inr (by simp [returned]))
  | refuseUnseen called received | refuse called received | lease called received =>
    refine .inl ((Pool.keeps_erase hb received ?_ ?_ ?_).1 hkept).1 <;> rfl
  | close => cases hopen

/-! ## No frontier goes back -/

/-- No frontier is past the end of its file. -/
def Behind (s : Store) : Prop :=
  ∀ (id : PoolId) (p : Pool) (i : Nat) (slot : Slot), s.pools[id]? = some p →
    p.slots[i]? = some slot → slot.frontier ≤ s.disk.size slot.file

theorem pool_before (hstep : s.step? event = some t) (hq : t.pools[id]? = some q) :
    (∃ p, s.pools[id]? = some p ∧ p.Becomes s.disk event id q) ∨ q.Fresh t.disk := by
  cases hp : s.pools[id]? with
  | some p =>
    obtain ⟨q', hq', hbecomes⟩ := pool_of_step hstep hp
    obtain rfl := Option.some.inj (hq'.symm.trans hq)
    exact .inl ⟨p, rfl, hbecomes⟩
  | none =>
    obtain ⟨p, hp', -⟩ | ⟨_, _, _, -, -, hopened⟩ := (change_of_step hstep).pool_like hq
    · rw [hp] at hp'
      cases hp'
    · exact .inr (Pool.fresh_of_openAt hopened)

theorem Behind.step (hs : s.Behind) (hstep : s.step? event = some t) : t.Behind := by
  intro id q i slot hq hslot
  rcases pool_before hstep hq with ⟨p, hp, hbecomes⟩ | hfresh
  · have hgrown := (change_of_step hstep).size_le slot.file
    obtain ⟨old, hold, hfile, hsame | ⟨hnew, -⟩⟩ := hbecomes.slot hslot
    · have := hs id p i old hp hold
      rw [hsame]
      rw [hfile] at hgrown ⊢
      omega
    · rw [hnew, ← hfile]
      exact hgrown
  · exact Nat.le_of_eq (hfresh.frontier slot (List.mem_of_getElem? hslot))

section Runs

variable {d : Disk} {dir : FileId} {files : List FileId} {events : List Event}

/-- What is known of the frontiers after a run. -/
structure Tracked (d : Disk) (dir : FileId) (files : List FileId) (s : Store)
    (events : List Event) : Prop where
  sound : ∃ h, s.Sound d dir files h
  behind : s.Behind
  reports : ∀ {id : PoolId} {p : Pool}, s.pools[id]? = some p → p.isOpen = true →
    p.Reports s.disk fun i => (ofDisk d).bases id i events
  /-- The frontier of a leased file is where the lease began. -/
  based : ∀ {g : Segment} {p : Pool} {slot : Slot}, g ∈ s.segments → g.released = false →
    s.pools[g.pool]? = some p → p.slots[g.fileIndex]? = some slot → slot.frontier = g.base

theorem Tracked.reports_step (h : s.Tracked d dir files events) (hdb : d.Database dir files)
    (hrun : (ofDisk d).run? events = some s) (hstep : s.step? event = some t)
    (hq : t.pools[id]? = some q) (hopen : q.isOpen = true) :
    q.Reports t.disk fun i => (ofDisk d).bases id i (events ++ [event]) := by
  obtain ⟨k, hs⟩ := h.sound
  simp only [bases_concat hrun]
  rcases pool_before hstep hq with ⟨p, hp, hbecomes⟩ | hfresh
  · have hwas := hbecomes.isOpen hopen
    have hr := reports_of_becomes hs.conserved hstep hp hopen hbecomes (h.reports hp hwas)
    refine ⟨fun {i} {slot} hslot hkept => ?_, hr.away⟩
    obtain ⟨old, hold, hfile, -⟩ := hbecomes.slot hslot
    have hplace := hs.file_of_slot hp hold
    rw [← hfile] at hplace
    -- a file that the pool keeps is in no segment, and so nobody has written to it
    have hheld := hs.conserved.unheld_of_keeps hp hopen hbecomes hkept
    rw [hr.kept hslot hkept,
      hs.size_of_unheld hdb (change_of_step hstep) hp hwas hplace hheld]
  · constructor
    · intro i slot hslot _
      exact hfresh.frontier slot (List.mem_of_getElem? hslot)
    · intro i slot hslot haway
      exact absurd (.inl (hfresh.all i (List.getElem?_eq_some_iff.1 hslot).1)) haway

theorem Tracked.based_step (h : s.Tracked d dir files events) (hstep : s.step? event = some t)
    {g : Segment} {slot : Slot} (hg : g ∈ t.segments) (hlive : g.released = false)
    (hq : t.pools[g.pool]? = some q) (hslot : q.slots[g.fileIndex]? = some slot) :
    slot.frontier = g.base := by
  obtain ⟨k, hs⟩ := h.sound
  obtain ⟨n, hg⟩ := List.getElem?_of_mem hg
  rcases (change_of_step hstep).segment_later hg with
    ⟨g', hg', hlater⟩ | ⟨p, -, hp, htaken, hbase, hfile⟩
  · have hwas : g'.released = false := by
      by_contra hreleased
      rw [hlater.released (by simpa using hreleased)] at hlive
      cases hlive
    have hmem := List.mem_of_getElem? hg'
    have hp := List.getElem?_eq_getElem (hs.conserved.known g' hmem)
    obtain ⟨q', hq', hbecomes⟩ := pool_of_step hstep hp
    rw [hlater.pool] at hq
    obtain rfl := Option.some.inj (hq'.symm.trans hq)
    rw [hlater.fileIndex] at hslot
    obtain ⟨old, hold, -, hsame | ⟨-, hout⟩⟩ := hbecomes.slot hslot
    · rw [hsame, hlater.base]
      exact h.based hmem hwas hp hold
    · -- the token of the file is with the segment
      have hmost := (hs.conserved.balanced g'.pool _ hp).atMost g'.fileIndex
      have hheld : 0 < s.holders g'.pool g'.fileIndex :=
        List.countP_pos_iff.2 ⟨g', hmem, by simp [Segment.holds, hwas]⟩
      unfold Pool.tokens at hmost
      rcases hout with hout | hout
      · have := List.count_pos_iff.2 hout
        omega
      · have := List.count_pos_iff.2 hout
        omega
  · obtain ⟨q', hq', hbecomes⟩ := pool_of_step hstep hp
    obtain rfl := Option.some.inj (hq'.symm.trans hq)
    have hopen := hs.owned.calling hp (List.ne_nil_of_mem htaken)
    obtain ⟨old, hold, -, hfrontier⟩ := hbecomes.slot hslot
    rw [hold, Option.elim_some] at hfile
    rw [hbase, hfile]
    rcases hfrontier with hsame | ⟨hnew, -⟩
    · rw [hsame]
      exact (h.reports hp hopen).kept hold (.inr (.inr htaken))
    · exact hnew

theorem Tracked.step (h : s.Tracked d dir files events) (hdb : d.Database dir files)
    (hadmits : s.Admits dir files.length event) (hrun : (ofDisk d).run? events = some s)
    (hstep : s.step? event = some t) : t.Tracked d dir files (events ++ [event]) where
  sound := by
    obtain ⟨k, hs⟩ := h.sound
    exact ⟨_, hs.change hdb hadmits (change_of_step hstep)⟩
  behind := h.behind.step hstep
  reports hq hopen := h.reports_step hdb hrun hstep hq hopen
  based hg hlive hq hslot := h.based_step hstep hg hlive hq hslot

end Runs

end Store

end RecordStore
