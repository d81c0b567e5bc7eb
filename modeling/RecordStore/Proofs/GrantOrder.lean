import RecordStore.Proofs.Scheduling

/-!
# The order of grants

A scheduler that is run until it waits after each step chooses its next offer as soon as the last
one was taken. So a lock call gets the file that was foremost then, whatever has come back since. If
no file was left, it gets the first that comes back.
-/

namespace RecordStore

open Return

namespace Pool

variable {p : Pool}

theorem returns_of_handleReturn?_none {d : Disk} (hopen : p.isOpen = true)
    (hidle : p.selected = none) (h : p.handleReturn? d = none) : p.returns = [] := by
  unfold handleReturn? at h
  rw [if_pos ⟨hopen, hidle⟩] at h
  split at h
  · assumption
  · cases h

theorem choice_of_select?_none (hopen : p.isOpen = true) (hidle : p.selected = none)
    (h : p.select? = none) : p.choice? = none := by
  unfold select? at h
  rw [if_pos ⟨hopen, hidle⟩] at h
  exact Option.map_eq_none_iff.1 h

theorem Balanced.offers_iff {held : Nat → Nat} {i : Nat} (hb : p.Balanced held)
    (hseen : p.returns = []) : p.Offers i ↔ p.AtHand i := by
  constructor
  · exact fun h => .inl h.2
  · intro h
    refine ⟨h.lt_fileCount hb, ?_⟩
    rcases h with h | h
    · exact h
    · rw [hseen] at h
      cases h

end Pool

namespace Store

/-! ## Schedulers that are run until they wait -/

/-- The scheduler waits for a lock call or a return. -/
def Waits (s : Store) (id : PoolId) : Prop :=
  s.step? (.handleReturn id) = none ∧ s.step? (.select id) = none

instance decidableWaits (s : Store) (id : PoolId) : Decidable (s.Waits id) :=
  inferInstanceAs (Decidable (_ ∧ _))

/-- While the scheduler has something to do, nothing else happens, and it sees all returns before it
offers a file. -/
def Prompt (id : PoolId) (s : Store) (event : Event) : Prop :=
  s.Waits id ∨ event = .handleReturn id ∨
    event = .select id ∧ s.step? (.handleReturn id) = none

instance decidablePrompt (id : PoolId) (s : Store) (event : Event) :
    Decidable (s.Prompt id event) := inferInstanceAs (Decidable (_ ∨ _))

def offer? (s : Store) (id : PoolId) : Option Nat := (s.pools[id]?.bind Pool.take?).map Prod.fst

def Free (s : Store) (id : PoolId) (i : Nat) : Prop :=
  ∃ p, s.pools[id]? = some p ∧ i < p.fileCount ∧ i ∉ p.taken ∧ s.holders id i = 0

def fileSize (s : Store) (id : PoolId) (i : Nat) : Nat :=
  (s.pools[id]?.bind fun p => p.files[i]?).elim 0 s.disk.size

variable {s t w : Store} {event : Event} {id : PoolId} {p q : Pool} {sent : List Nat} {i : Nat}

theorem offer?_eq_selected (hp : s.pools[id]? = some p) (hopen : p.isOpen = true) :
    s.offer? id = p.selected := by
  unfold offer? Pool.take?
  rw [hp, Option.bind_some, if_pos hopen]
  cases p.selected <;> rfl

theorem fileSize_of_pool (hp : s.pools[id]? = some p) :
    s.fileSize id i = p.files[i]?.elim 0 s.disk.size := by
  rw [fileSize, hp, Option.bind_some]

theorem fileSize_setPool (hp : s.pools[id]? = some p) (hfiles : q.files = p.files) :
    (s.setPool id q).fileSize id i = s.fileSize id i := by
  rw [fileSize_of_pool (pools_setPool_self hp q), fileSize_of_pool hp, hfiles, disk_setPool]

theorem frontier_of_informed (hp : s.pools[id]? = some p) (hinformed : p.Informed s.disk)
    (hi : p.Offers i) : p.frontier i = s.fileSize id i := by
  have hslot : p.slots[i]? = some _ := List.getElem?_eq_getElem hi.1
  rw [fileSize_of_pool hp, Pool.frontier, Pool.files, List.getElem?_map, hslot]
  exact hinformed i _ hslot hi.2

theorem returns_of_step_none (h : s.step? (.handleReturn id) = none) (hp : s.pools[id]? = some p)
    (hopen : p.isOpen = true) (hidle : p.selected = none) : p.returns = [] := by
  apply Pool.returns_of_handleReturn?_none (d := s.disk) hopen hidle
  apply Option.eq_none_iff_forall_ne_some.2
  simpa [step?, hp] using h

theorem Waits.not_atHand (h : s.Waits id) (hs : s.Conserved) (hp : s.pools[id]? = some p)
    (hopen : p.isOpen = true) (hidle : p.selected = none) :
    p.returns = [] ∧ ∀ i, ¬ p.AtHand i := by
  obtain ⟨hreturn, hselect⟩ := h
  have hseen := returns_of_step_none hreturn hp hopen hidle
  have hnone : p.choice? = none := by
    apply Pool.choice_of_select?_none hopen hidle
    apply Option.eq_none_iff_forall_ne_some.2
    simpa [step?, hp] using hselect
  refine ⟨hseen, fun i hi => ?_⟩
  exact Pool.choice_none hnone i (((hs.balanced id p hp).offers_iff hseen).2 hi)

/-! ## Messages of one step -/

theorem length_sentTo_returning (s : Store) (event : Event) (id : PoolId) :
    (sentTo id (s.returning event)).length ≤ 1 := by
  have hone : (s.returning event).length ≤ 1 := by
    cases event with
    | release j => cases hg : s.segments[j]? <;> simp [returning, hg]
    | startLease j i fault =>
      cases hp : s.pools[j]? with
      | none => simp [returning, hp]
      | some p =>
        simp only [returning, hp, Option.elim_some]
        split <;> simp
    | _ => exact Nat.zero_le 1
  unfold sentTo
  rw [List.length_map]
  exact Nat.le_trans (List.length_filter_le _ _) hone

theorem returns_of_step (hs : s.Conserved) (hstep : s.step? event = some t)
    (hne : event ≠ .handleReturn id) (hp : s.pools[id]? = some p) (hq : t.pools[id]? = some q) :
    q.returns = p.returns ++ sentTo id (s.returning event) := by
  obtain ⟨seen, hqueue, hseen⟩ := forwards_of_step hs hstep id
  rw [List.count_singleton] at hseen
  obtain rfl : seen = [] := by
    apply List.eq_nil_of_length_eq_zero
    simpa [hne] using hseen
  simpa [queued, hp, hq] using hqueue.symm

/-! ## What is owed to the next lock call -/

/-- What the next lock call is to get: the foremost of the files that were free in the state `w`,
and if none was, the first of those `sent` back since. -/
structure Due (w : Store) (id : PoolId) (sent : List Nat) (i : Nat) : Prop where
  foremost : (∃ j, w.Free id j) → Foremost (w.fileSize id) (w.Free id) i
  first : (∀ j, ¬ w.Free id j) → sent.head? = some i

theorem Due.append (h : Due w id sent i) (more : List Nat) : Due w id (sent ++ more) i := by
  refine ⟨h.foremost, fun hnone => ?_⟩
  rw [List.head?_append, h.first hnone]
  rfl

/-- Nothing has been offered since the state `w`. If no file was free then, at most one has been
sent back, and else nothing has happened but that the scheduler has looked at returns. -/
structure Pending (w : Store) (id : PoolId) (sent : List Nat) (s : Store) (p : Pool) : Prop where
  idle : p.selected = none
  atHand : ∀ i, p.AtHand i ↔ w.Free id i ∨ i ∈ sent
  undisturbed : (∃ i, w.Free id i) → sent = []
  single : sent.length ≤ 1
  size : ∀ i, w.Free id i → s.fileSize id i = w.fileSize id i

theorem Pending.of_waits (h : Pending w id sent s p) (hs : s.Conserved)
    (hp : s.pools[id]? = some p) (hopen : p.isOpen = true) (hwaits : s.Waits id) :
    (∀ i, ¬ w.Free id i) ∧ sent = [] := by
  obtain ⟨-, hnone⟩ := hwaits.not_atHand hs hp hopen h.idle
  constructor
  · intro i hfree
    exact hnone i ((h.atHand i).2 (.inl hfree))
  · apply List.eq_nil_iff_forall_not_mem.2
    intro i hi
    exact hnone i ((h.atHand i).2 (.inr hi))

theorem Pending.step (h : Pending w id sent s p) (hs : s.Conserved)
    (hp : s.pools[id]? = some p) (hopen : p.isOpen = true) (hwaits : s.Waits id)
    (hselected : q.selected = p.selected) (havailable : q.available = p.available)
    (hreturns : q.returns = p.returns ++ sentTo id (s.returning event)) :
    Pending w id (sent ++ sentTo id (s.returning event)) t q := by
  obtain ⟨hseen, hnone⟩ := hwaits.not_atHand hs hp hopen h.idle
  obtain ⟨hfree, rfl⟩ := h.of_waits hs hp hopen hwaits
  rw [hseen, List.nil_append] at hreturns
  rw [List.nil_append]
  refine ⟨by rw [hselected, h.idle], fun i => ?_, ?_, length_sentTo_returning s event id, ?_⟩
  · have hflag : q.isAvailable i = p.isAvailable i := by
      unfold Pool.isAvailable
      rw [havailable]
    have hdown : ¬ p.isAvailable i = true := fun hup => hnone i (.inl hup)
    unfold Pool.AtHand
    rw [hflag, hreturns]
    simp [hdown, hfree i]
  · rintro ⟨i, hi⟩
    exact absurd hi (hfree i)
  · intro i hi
    exact absurd hi (hfree i)

theorem Pending.handleReturn {rest : List Nat} (h : Pending w id sent s p) (hs : s.Conserved)
    (hp : s.pools[id]? = some p) (hreturned : p.returns = i :: rest) :
    Pending w id sent (s.setPool id { p.markAvailable s.disk i with returns := rest })
      { p.markAvailable s.disk i with returns := rest } := by
  refine ⟨h.idle, fun j => ?_, h.undisturbed, h.single, fun j hj => ?_⟩
  · rw [Pool.atHand_handleReturn (hs.balanced id p hp) hreturned]
    exact h.atHand j
  · refine Eq.trans (fileSize_setPool hp ?_) (h.size j hj)
    exact (Pool.like_markAvailable s.disk p i).files

theorem Pending.select (h : Pending w id sent s p) (hs : s.Conserved)
    (hp : s.pools[id]? = some p) (hinformed : p.Informed s.disk) (hseen : p.returns = [])
    (hchoice : p.choice? = some i) : Due w id sent i := by
  have hforemost := Pool.choice_foremost hchoice
  have hoffers : ∀ j, p.Offers j ↔ w.Free id j ∨ j ∈ sent := by
    intro j
    rw [(hs.balanced id p hp).offers_iff hseen]
    exact h.atHand j
  constructor
  · intro hfree
    have hnothing := h.undisturbed hfree
    subst hnothing
    refine hforemost.congr (fun j => by simp [hoffers]) fun j hj => ?_
    have hj' : w.Free id j := by simpa [hoffers] using hj
    rw [frontier_of_informed hp hinformed hj, h.size j hj']
  · intro hnone
    have hi : i ∈ sent := by simpa [hnone] using (hoffers i).1 hforemost.mem
    have hsingle := h.single
    match sent, hsingle, hi with
    | [j], _, hi => simpa using (List.mem_singleton.1 hi).symm

/-- Either nothing has been offered yet, or what is due is on offer. -/
inductive Owes (w : Store) (id : PoolId) (sent : List Nat) (s : Store) (p : Pool) : Prop where
  | waiting (pending : Pending w id sent s p)
  | offered {i : Nat} (offer : p.selected = some i) (due : Due w id sent i)

theorem step_handleReturn (hstep : s.step? (.handleReturn id) = some t)
    (hp : s.pools[id]? = some p) :
    p.selected = none ∧ ∃ i rest, p.returns = i :: rest ∧
      t = s.setPool id { p.markAvailable s.disk i with returns := rest } := by
  obtain ⟨p', hp', h⟩ := Option.bind_eq_some_iff.1 hstep
  obtain rfl := Option.some.inj (hp'.symm.trans hp)
  obtain ⟨q, hq, h⟩ := Option.bind_eq_some_iff.1 h
  obtain rfl := Option.some.inj h
  obtain ⟨-, hidle, i, rest, hreturned, rfl⟩ := Pool.handleReturn?_ok hq
  exact ⟨hidle, i, rest, hreturned, rfl⟩

theorem step_select_ok (hstep : s.step? (.select id) = some t) (hp : s.pools[id]? = some p) :
    p.isOpen = true ∧ p.selected = none ∧ ∃ i, p.choice? = some i ∧
      t = s.setPool id { p with available := p.available.set i false, selected := some i } := by
  obtain ⟨p', hp', h⟩ := Option.bind_eq_some_iff.1 hstep
  obtain rfl := Option.some.inj (hp'.symm.trans hp)
  obtain ⟨q, hq, h⟩ := Option.bind_eq_some_iff.1 h
  obtain rfl := Option.some.inj h
  obtain ⟨hopen, hidle, i, hchoice, rfl⟩ := Pool.select?_ok hq
  exact ⟨hopen, hidle, i, hchoice, rfl⟩

theorem Owes.handleReturn (h : Owes w id sent s p) (hs : s.Conserved)
    (hstep : s.step? (.handleReturn id) = some t) (hp : s.pools[id]? = some p)
    (hq : t.pools[id]? = some q) : Owes w id sent t q := by
  obtain ⟨hidle, i, rest, hreturned, rfl⟩ := step_handleReturn hstep hp
  obtain rfl := Option.some.inj ((pools_setPool_self hp _).symm.trans hq)
  cases h with
  | waiting pending => exact .waiting (pending.handleReturn hs hp hreturned)
  | offered offer =>
    rw [hidle] at offer
    cases offer

theorem Owes.select (h : Owes w id sent s p) (hs : s.Conserved)
    (hinformed : p.isOpen = true → p.Informed s.disk) (hseen : s.step? (.handleReturn id) = none)
    (hstep : s.step? (.select id) = some t) (hp : s.pools[id]? = some p)
    (hq : t.pools[id]? = some q) : Owes w id sent t q := by
  obtain ⟨hopen, hidle, i, hchoice, rfl⟩ := step_select_ok hstep hp
  obtain rfl := Option.some.inj ((pools_setPool_self hp _).symm.trans hq)
  cases h with
  | waiting pending =>
    exact .offered rfl
      (pending.select hs hp (hinformed hopen) (returns_of_step_none hseen hp hopen hidle) hchoice)
  | offered offer =>
    rw [hidle] at offer
    cases offer

theorem Owes.others (h : Owes w id sent s p) (hs : s.Conserved) (hwaits : s.Waits id)
    (hp : s.pools[id]? = some p) (hopen : p.isOpen = true) (hselected : q.selected = p.selected)
    (havailable : q.available = p.available)
    (hreturns : q.returns = p.returns ++ sentTo id (s.returning event)) :
    Owes w id (sent ++ sentTo id (s.returning event)) t q := by
  cases h with
  | waiting pending =>
    exact .waiting (pending.step hs hp hopen hwaits hselected havailable hreturns)
  | offered offer due => exact .offered (by rw [hselected, offer]) (due.append _)

theorem Owes.step (h : Owes w id sent s p) (hs : s.Conserved)
    (hinformed : p.isOpen = true → p.Informed s.disk) (hprompt : s.Prompt id event)
    (hne : event ≠ .take id) (hstep : s.step? event = some t) (hp : s.pools[id]? = some p)
    (hq : t.pools[id]? = some q) (hopen : q.isOpen = true) :
    Owes w id (sent ++ sentTo id (s.returning event)) t q := by
  by_cases hreturn : event = .handleReturn id
  · subst hreturn
    have hnext := h.handleReturn hs hstep hp hq
    rwa [← List.append_nil sent] at hnext
  by_cases hselect : event = .select id
  · subst hselect
    have hseen : s.step? (.handleReturn id) = none := by
      rcases hprompt with hwaits | hcalled | hcalled
      · exact hwaits.1
      · cases hcalled
      · exact hcalled.2
    have hnext := h.select hs hinformed hseen hstep hp hq
    rwa [← List.append_nil sent] at hnext
  have hwaits : s.Waits id := by
    rcases hprompt with hwaits | hcalled | hcalled
    · exact hwaits
    · exact absurd hcalled hreturn
    · exact absurd hcalled.1 hselect
  obtain ⟨q', hq', hbecomes⟩ := pool_of_step hstep hp
  obtain rfl := Option.some.inj (hq'.symm.trans hq)
  obtain ⟨hselected, havailable⟩ := hbecomes.undisturbed hopen hne hreturn hselect
  exact h.others hs hwaits hp (hbecomes.isOpen hopen) hselected havailable
    (returns_of_step hs hstep hreturn hp hq)

/-! ## Runs -/

section Runs

variable {d : Disk} {dir : FileId} {files : List FileId} {events : List Event}

theorem Owes.offer (h : Owes w id sent t q) (ht : t.Conserved) (hq : t.pools[id]? = some q)
    (hopen : q.isOpen = true) (hwaits : t.Waits id) :
    ((∃ i, w.Free id i) → ∃ i, t.offer? id = some i ∧ Foremost (w.fileSize id) (w.Free id) i) ∧
      ((∀ i, ¬ w.Free id i) → t.offer? id = sent.head?) := by
  rw [offer?_eq_selected hq hopen]
  cases h with
  | waiting pending =>
    obtain ⟨hnone, rfl⟩ := pending.of_waits ht hq hopen hwaits
    constructor
    · rintro ⟨i, hi⟩
      exact absurd hi (hnone i)
    · intro _
      rw [pending.idle]
      rfl
  | @offered i offer due =>
    rw [offer]
    constructor
    · intro hfree
      exact ⟨i, rfl, due.foremost hfree⟩
    · intro hnone
      exact (due.first hnone).symm

def twoFiles : Disk := (Layout.create (.withDirectory "db") "db" { fileCount := 2 }).2

theorem twoFiles_created :
    Layout.create (.withDirectory "db") "db" { fileCount := 2 } = (.ok (), twoFiles) := by
  have hcreate : (Layout.create (.withDirectory "db") "db" { fileCount := 2 }).1 = .ok () := by
    decide +kernel
  rw [twoFiles, ← hcreate]

end Runs

end Store

end RecordStore
