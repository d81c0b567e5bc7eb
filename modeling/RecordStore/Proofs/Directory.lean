import RecordStore.Proofs.Growth
import RecordStore.Proofs.Lifecycle
import RecordStore.Proofs.Ownership

/-!
# The files of a directory

A database is a directory in which the names of the backing files lead to different files. Pools that
are opened on it have its first files, and their segments write to those.
-/

namespace RecordStore

/-- The names of the backing files lead from the directory to these objects. Two names may share what
is not a regular file. -/
structure Disk.Database (d : Disk) (dir : FileId) (files : List FileId) : Prop where
  names : ∀ {i : Nat} {f : FileId}, files[i]? = some f →
    d.leadsTo dir (Layout.fileName i) = some f
  there : ∀ {f : FileId}, f ∈ files → f < d.objects.length
  apart : ∀ {i j : Nat} {f : FileId}, files[i]? = some f → files[j]? = some f →
    (d.content? f).isSome → i = j

theorem Disk.Database.grows {d d' : Disk} {dir : FileId} {files : List FileId}
    (h : d.Database dir files) (hg : d.Grows d') : d'.Database dir files where
  names hf := hg.target (h.names hf)
  there hf := Nat.lt_of_lt_of_le (h.there hf) hg.length
  apart hi hj hc := h.apart hi hj (by rwa [hg.regular (h.there (List.mem_of_getElem? hi))] at hc)

/-! ## Creating -/

namespace Layout

open Disk

theorem length_createIn (d : Disk) (dir : FileId) (name : String) (o : Object) :
    (d.createIn dir name o).objects.length = d.objects.length + 1 := by
  simp [createIn, link, setObject, add]

theorem createFiles_ok {d d' : Disk} {path : String} {is : List Nat} {dir : FileId}
    (hdir : d.directoryAt (Path.components path) = .ok dir)
    (h : createFiles d path is = (.ok (), d')) {k i : Nat} (hk : is[k]? = some i) :
    d'.leadsTo dir (fileName i) = some (d.nextId + k) ∧
      d'.target path (fileName i) = .ok (d.nextId + k) ∧
      d'.content? (d.nextId + k) = some (.ofBytes magic) := by
  induction is generalizing d k with
  | nil => simp at hk
  | cons j rest ih =>
    unfold createFiles at h
    split at h
    · rename_i d₁ hnew
      obtain ⟨dir', hat, hisdir, rfl, hlead, htarget⟩ := createNew_ok hnew
      obtain rfl := Except.ok.inj (hat.symm.trans hdir)
      have hgrows := extends_createIn (fileName j) (.regular (.ofBytes magic)) hisdir
      have hrest := createFiles_extends (d.createIn dir' (fileName j) (.regular (.ofBytes magic)))
        path rest
      rw [h] at hrest
      cases k with
      | zero =>
        obtain rfl := Option.some.inj hk
        refine ⟨hrest.target hlead, hrest.target_ok htarget, ?_⟩
        rw [Nat.add_zero, hrest.content (by rw [length_createIn]; exact Nat.lt_succ_self _)]
        exact content?_createIn _ hisdir
      | succ k =>
        have := ih (hgrows.directoryAt hdir) h hk
        rwa [nextId, length_createIn, Nat.add_assoc, Nat.add_comm 1 k] at this
    · cases h
    · cases h

theorem createFiles_directory {d d' : Disk} {path : String} {is : List Nat} (hne : is ≠ [])
    (h : createFiles d path is = (.ok (), d')) :
    ∃ dir, d.directoryAt (Path.components path) = .ok dir := by
  cases is with
  | nil => exact absurd rfl hne
  | cons i rest =>
    unfold createFiles at h
    split at h
    · rename_i hnew
      obtain ⟨dir, hat, -⟩ := createNew_ok hnew
      exact ⟨dir, hat⟩
    · cases h
    · cases h

theorem makeDirectories_check {d d' : Disk} {path : String}
    (h : d.makeDirectories path = (.ok (), d')) : Path.check path = .ok () := by
  unfold makeDirectories at h
  split at h
  · cases h
  · assumption

/-- A directory that was just made is a database, and each of its files holds the tag alone. -/
theorem create_ok {d d' : Disk} {path : String} {config : Config}
    (h : create d path config = (.ok (), d')) :
    config.Valid ∧ ∃ dir files, d'.directory path = .ok dir ∧ d'.Database dir files ∧
      files.length = config.fileCount.toNat ∧
      ∀ {i : Nat} {f : FileId}, files[i]? = some f →
        d'.target path (fileName i) = .ok f ∧ d'.content? f = some (.ofBytes magic) := by
  unfold create at h
  split at h
  · cases h
  · rename_i hvalid
    split at h
    · cases h
    · rename_i d₁ hmake
      split at h
      · cases h
      · have hsome : List.range config.fileCount.toNat ≠ [] := fun hnil => by
          have hpos := (config.valid_iff.1 hvalid).1.1
          rw [List.range_eq_nil] at hnil
          omega
        obtain ⟨dir, hdir⟩ := createFiles_directory hsome h
        have hgrows := createFiles_extends d₁ path (List.range config.fileCount.toNat)
        rw [h] at hgrows
        have hfile : ∀ {i : Nat} {f : FileId},
            (List.range' d₁.nextId config.fileCount.toNat)[i]? = some f →
            f = d₁.nextId + i ∧ d'.leadsTo dir (fileName i) = some f ∧
              d'.target path (fileName i) = .ok f ∧ d'.content? f = some (.ofBytes magic) := by
          intro i f hf
          obtain ⟨hi, rfl⟩ := List.getElem?_eq_some_iff.1 hf
          rw [List.length_range'] at hi
          rw [List.getElem_range', Nat.one_mul]
          exact ⟨rfl, createFiles_ok hdir h (by rw [List.getElem?_range hi])⟩
        refine ⟨hvalid, dir, List.range' d₁.nextId config.fileCount.toNat,
          directory_ok.2 ⟨makeDirectories_check hmake, hgrows.directoryAt hdir⟩,
          ⟨fun hf => (hfile hf).2.1, fun {f} hf => ?_, fun {i} {j} {f} hi hj _ => ?_⟩,
          List.length_range', fun hf => (hfile hf).2.2⟩
        · obtain ⟨i, hi⟩ := List.getElem?_of_mem hf
          exact (List.getElem?_eq_some_iff.1 (content?_eq_some.1 (hfile hi).2.2.2)).1
        · have := (hfile hi).1.symm.trans (hfile hj).1
          exact Nat.add_left_cancel this

end Layout

/-! ## Opening -/

namespace Pool

open Disk

def files (p : Pool) : List FileId := p.slots.map Slot.file

theorem openSlots_ok {d : Disk} {path : String} {is : List Nat} {slots : List Slot}
    (h : openSlots d path is = .ok slots) :
    slots.length = is.length ∧ ∀ {k i : Nat} {slot : Slot}, is[k]? = some i →
      slots[k]? = some slot → d.target path (Layout.fileName i) = .ok slot.file := by
  induction is generalizing slots with
  | nil =>
    cases h
    exact ⟨rfl, fun hk => by simp at hk⟩
  | cons j rest ih =>
    obtain ⟨file, hfile, h⟩ := bind_eq_ok.1 h
    obtain ⟨others, hothers, h⟩ := bind_eq_ok.1 h
    cases h
    obtain ⟨hlength, hslots⟩ := ih hothers
    refine ⟨by rw [List.length_cons, List.length_cons, hlength], fun {k} {i} {slot} hk hslot => ?_⟩
    cases k with
    | zero =>
      obtain rfl := Option.some.inj hk
      obtain rfl := Option.some.inj hslot
      unfold Layout.openFile at hfile
      split at hfile
      · rename_i hopen
        cases hfile
        exact openWrite_ok hopen
      · cases hfile
      · cases hfile
    | succ k => exact hslots hk hslot

theorem openSlots_frontier {d : Disk} {path : String} {is : List Nat} {slots : List Slot}
    (h : openSlots d path is = .ok slots) : ∀ slot ∈ slots, slot.frontier = d.size slot.file := by
  induction is generalizing slots with
  | nil =>
    cases h
    simp
  | cons j rest ih =>
    obtain ⟨file, -, h⟩ := bind_eq_ok.1 h
    obtain ⟨others, hothers, h⟩ := bind_eq_ok.1 h
    cases h
    intro slot hslot
    rcases List.mem_cons.1 hslot with rfl | hslot
    · rfl
    · exact ih hothers slot hslot

/-- A pool whose scheduler has not run yet. -/
structure Fresh (d : Disk) (p : Pool) : Prop where
  valid : p.config.Valid
  count : p.fileCount = p.config.fileCount.toNat
  isOpen : p.isOpen = true
  noOffer : p.selected = none
  noCall : p.taken = []
  noReturn : p.returns = []
  all : ∀ i < p.fileCount, p.isAvailable i = true
  frontier : ∀ slot ∈ p.slots, slot.frontier = d.size slot.file

theorem fresh_of_openAt {d d' : Disk} {locks locks' : List FileId} {path : String}
    {config : Config} {p : Pool} (h : openAt d locks path config = (.ok p, d', locks')) :
    p.Fresh d' := by
  obtain ⟨hvalid, lockFile, slots, -, hopen, rfl⟩ := openAt_ok h
  have hlength := (openSlots_ok hopen).1
  rw [List.length_range] at hlength
  refine ⟨hvalid, hlength, rfl, rfl, rfl, rfl, fun i hi => ?_, openSlots_frontier hopen⟩
  have hi : i < slots.length := hi
  simp [isAvailable, hi]

theorem openAt_extends {d d' : Disk} {locks locks' : List FileId} {path : String} {config : Config}
    {answer : Except Error Pool} (h : openAt d locks path config = (answer, d', locks')) :
    d.Extends d' := by
  cases answer with
  | error e =>
    obtain ⟨rfl | rfl, -⟩ := openAt_error h
    · exact .refl d'
    · exact d.openOrCreate_extends path Layout.lockName
  | ok p =>
    obtain ⟨-, lockFile, slots, hlock, -, -⟩ := openAt_ok h
    obtain ⟨hlock, -, -⟩ := Layout.acquireLock_ok hlock
    have hextends := d.openOrCreate_extends path Layout.lockName
    rwa [hlock] at hextends

theorem openAt_lock {d d' : Disk} {locks locks' : List FileId} {path : String} {config : Config}
    {p : Pool} {dir : FileId} (hdir : d.directory path = .ok dir)
    (h : openAt d locks path config = (.ok p, d', locks')) :
    d'.leadsTo dir Layout.lockName = some p.lockFile := by
  obtain ⟨-, lockFile, slots, hlock, -, rfl⟩ := openAt_ok h
  obtain ⟨hlock, -, -⟩ := Layout.acquireLock_ok hlock
  obtain ⟨dir', hat, hlead⟩ := openOrCreate_ok hlock
  obtain rfl := Except.ok.inj (hat.symm.trans (directory_ok.1 hdir).2)
  exact hlead

theorem openAt_database {d d' : Disk} {locks locks' : List FileId} {path : String}
    {config : Config} {p : Pool} {dir : FileId} {files : List FileId}
    (hdb : d.Database dir files) (hat : d.directory path = .ok dir)
    (hcount : config.fileCount.toNat ≤ files.length)
    (h : openAt d locks path config = (.ok p, d', locks')) :
    d.Extends d' ∧ p.config.Valid ∧ d'.leadsTo dir Layout.lockName = some p.lockFile ∧
      p.files <+: files := by
  have hextends := openAt_extends h
  have hlead := openAt_lock hat h
  obtain ⟨hvalid, lockFile, slots, -, hopen, rfl⟩ := openAt_ok h
  refine ⟨hextends, hvalid, hlead, ?_⟩
  obtain ⟨hlength, hslots⟩ := openSlots_ok hopen
  rw [List.length_range] at hlength
  rw [List.prefix_iff_getElem?]
  intro i hi
  have hi' : i < slots.length := by simpa [Pool.files] using hi
  have hslot : slots[i]? = some slots[i] := List.getElem?_eq_getElem hi'
  obtain ⟨-, dir'', hat'', htarget⟩ :=
    target_ok.1 (hslots (List.getElem?_range (hlength ▸ hi')) hslot)
  obtain rfl := Except.ok.inj (hat''.symm.trans (hextends.directoryAt (directory_ok.1 hat).2))
  have hfile : files[i]? = some files[i] :=
    List.getElem?_eq_getElem (Nat.lt_of_lt_of_le (hlength ▸ hi') hcount)
  have := Option.some.inj (((hdb.grows hextends.toGrows).names hfile).symm.trans htarget)
  simp [Pool.files, hfile, this]

/-! ### What stays of a pool -/

/-- The pools differ only in what a scheduler, leases and reads change. -/
structure Like (p q : Pool) : Prop where
  lockFile : q.lockFile = p.lockFile
  config : q.config = p.config
  files : q.files = p.files

theorem Like.refl (p : Pool) : p.Like p := ⟨rfl, rfl, rfl⟩

theorem length_files (p : Pool) : p.files.length = p.fileCount := List.length_map Slot.file

theorem Like.fileCount {p q : Pool} (h : p.Like q) : q.fileCount = p.fileCount := by
  rw [← p.length_files, ← q.length_files, h.files]

theorem map_file_modify {f : Slot → Slot} (hf : ∀ slot, (f slot).file = slot.file)
    (slots : List Slot) (i : Nat) : (slots.modify i f).map Slot.file = slots.map Slot.file := by
  refine List.ext_getElem? fun j => ?_
  rw [List.getElem?_map, List.getElem?_map, List.getElem?_modify]
  split <;> cases slots[j]? <;> simp [hf]

theorem like_beginLease (d : Disk) (p : Pool) (i : Nat) : p.Like (p.beginLease d i) :=
  ⟨rfl, rfl, map_file_modify (f := fun slot => { slot with frontier := d.size slot.file })
    (fun _ => rfl) p.slots i⟩

theorem like_markAvailable (d : Disk) (p : Pool) (i : Nat) : p.Like (p.markAvailable d i) :=
  ⟨rfl, rfl, map_file_modify (f := fun slot => { slot with frontier := d.size slot.file })
    (fun _ => rfl) p.slots i⟩

theorem Move.like {d : Disk} {p q : Pool} (hm : p.Move d q) : p.Like q := by
  cases hm with
  | take isOpen offered => exact ⟨rfl, rfl, rfl⟩
  | refuseUnseen received => exact ⟨rfl, rfl, rfl⟩
  | refuse received =>
    obtain ⟨hlock, hconfig, hfiles⟩ := like_beginLease d p _
    exact ⟨hlock, hconfig, hfiles⟩
  | handleReturn isOpen noOffer returned =>
    obtain ⟨hlock, hconfig, hfiles⟩ := like_markAvailable d p _
    exact ⟨hlock, hconfig, hfiles⟩
  | select isOpen noOffer chosen => exact ⟨rfl, rfl, rfl⟩
  | @read i n slot there =>
    refine ⟨rfl, rfl, ?_⟩
    show (p.slots.set i { slot with position := n }).map Slot.file = p.slots.map Slot.file
    refine List.ext_getElem? fun j => ?_
    rw [List.getElem?_map, List.getElem?_map, List.getElem?_set]
    split
    · rename_i hij
      obtain ⟨hi, rfl⟩ := List.getElem?_eq_some_iff.1 there
      simp [← hij, hi]
    · rfl

end Pool

structure Segment.Later (g k : Segment) : Prop where
  pool : k.pool = g.pool
  fileIndex : k.fileIndex = g.fileIndex
  base : k.base = g.base
  file : k.writer.file = g.writer.file
  finished : g.writer.finished = true → k.writer.finished = true
  released : g.released = true → k.released = true

theorem Segment.Later.refl (g : Segment) : g.Later g := ⟨rfl, rfl, rfl, rfl, id, id⟩

theorem Segment.Later.trans {g k l : Segment} (h : g.Later k) (h' : k.Later l) : g.Later l where
  pool := h'.pool.trans h.pool
  fileIndex := h'.fileIndex.trans h.fileIndex
  base := h'.base.trans h.base
  file := h'.file.trans h.file
  finished hf := h'.finished (h.finished hf)
  released hr := h'.released (h.released hr)

theorem Segment.Move.later {g k : Segment} {d d' : Disk} {ns : List Notice}
    (hm : g.Move d ns k d') : g.Later k := by
  obtain ⟨hpool, hindex, hbase, hreleased, hfile, hfinished⟩ := hm.frame
  exact ⟨hpool, hindex, hbase, hfile, fun h => hfinished ▸ h, fun h => hreleased ▸ h⟩

theorem Segment.later_kept (g : Segment) : Kept fun k _ => g.Later k where
  move h hm := h.trans hm.later
  finish h _ _ _ _ := h.trans ⟨rfl, rfl, rfl, rfl, fun _ => rfl, id⟩
  release h _ _ _ := h.trans ⟨rfl, rfl, rfl, rfl, id, fun _ => rfl⟩

namespace Store

variable {s t : Store}

theorem Change.pool_like {event : Event} {ns : History} (hc : s.Change event ns t) {id : PoolId}
    {q : Pool} (hq : t.pools[id]? = some q) :
    (∃ p, s.pools[id]? = some p ∧ p.Like q) ∨
      ∃ path config locks, id = s.pools.length ∧ event = .openPool path config ∧
        Pool.openAt s.disk s.locks path config = (.ok q, t.disk, locks) := by
  cases hc with
  | same => exact .inl ⟨q, hq, .refl q⟩
  | create => exact .inl ⟨q, hq, .refl q⟩
  | openRefused => exact .inl ⟨q, hq, .refl q⟩
  | openPool isOpen opened =>
    rcases of_getElem?_concat hq with hq | ⟨hnew, rfl⟩
    · exact .inl ⟨q, hq, .refl q⟩
    · exact .inr ⟨_, _, _, hnew, isOpen, opened⟩
  | closePool there isOpen noCall =>
    rw [pools_dropOwner] at hq
    obtain ⟨r, hr, hrq⟩ := of_getElem?_modify hq
    have hlike : r.Like q := by
      obtain ⟨-, rfl⟩ | ⟨-, rfl⟩ := hrq <;> exact ⟨rfl, rfl, rfl⟩
    rcases of_getElem?_set hr with ⟨rfl, rfl⟩ | ⟨-, hr⟩
    · exact .inl ⟨_, there, hlike.lockFile, hlike.config, hlike.files⟩
    · exact .inl ⟨r, hr, hlike⟩
  | pool there move =>
    rcases of_getElem?_set hq with ⟨rfl, rfl⟩ | ⟨-, hq⟩
    · exact .inl ⟨_, there, move.like⟩
    · exact .inl ⟨q, hq, .refl q⟩
  | @lease _ p i g there received started =>
    rcases of_getElem?_set hq with ⟨rfl, rfl⟩ | ⟨-, hq⟩
    · obtain ⟨hlock, hconfig, hfiles⟩ := Pool.like_beginLease s.disk p i
      exact .inl ⟨_, there, hlock, hconfig, hfiles⟩
    · exact .inl ⟨q, hq, .refl q⟩
  | segment there move => exact .inl ⟨q, hq, .refl q⟩
  | finish there closed empty known unfinished =>
    rw [pools_dropOwner] at hq
    obtain ⟨p, hp, ⟨-, rfl⟩ | ⟨-, rfl⟩⟩ := of_getElem?_modify hq <;>
      exact .inl ⟨_, hp, rfl, rfl, rfl⟩
  | release there live idle drained =>
    rw [pools_release] at hq
    obtain ⟨p, hp, ⟨-, rfl⟩ | ⟨-, rfl⟩⟩ := of_getElem?_modify hq <;>
      exact .inl ⟨_, hp, rfl, rfl, rfl⟩

theorem Change.pools_length {event : Event} {ns : History} (hc : s.Change event ns t) :
    s.pools.length ≤ t.pools.length := by
  cases hc with
  | closePool | finish => simp [pools_dropOwner]
  | openPool | pool | lease | release => simp
  | _ => exact Nat.le_refl _

theorem Change.pool_kept {event : Event} {ns : History} (hc : s.Change event ns t) {id : PoolId}
    {p : Pool} (hp : s.pools[id]? = some p) : ∃ q, t.pools[id]? = some q ∧ p.Like q := by
  have hlt := (List.getElem?_eq_some_iff.1 hp).1
  have hq := List.getElem?_eq_getElem (Nat.lt_of_lt_of_le hlt hc.pools_length)
  refine ⟨_, hq, ?_⟩
  obtain ⟨p', hp', hlike⟩ | ⟨_, _, _, hnew, -⟩ := hc.pool_like hq
  · obtain rfl := Option.some.inj (hp'.symm.trans hp)
    exact hlike
  · exact absurd hnew (Nat.ne_of_lt hlt)

theorem Change.segment_later {event : Event} {ns : History} (hc : s.Change event ns t)
    {id : SegmentId} {k : Segment} (hk : t.segments[id]? = some k) :
    (∃ g, s.segments[id]? = some g ∧ g.Later k) ∨
      ∃ p, id = s.segments.length ∧ s.pools[k.pool]? = some p ∧ k.fileIndex ∈ p.taken ∧
        k.base = s.disk.size k.writer.file ∧
        k.writer.file = p.slots[k.fileIndex]?.elim 0 Slot.file := by
  cases hc with
  | same => exact .inl ⟨k, hk, .refl k⟩
  | create => exact .inl ⟨k, hk, .refl k⟩
  | openRefused => exact .inl ⟨k, hk, .refl k⟩
  | openPool => exact .inl ⟨k, hk, .refl k⟩
  | closePool =>
    rw [segments_dropOwner] at hk
    exact .inl ⟨k, hk, .refl k⟩
  | pool => exact .inl ⟨k, hk, .refl k⟩
  | lease there received started =>
    obtain ⟨-, -, rfl⟩ := Segment.start_ok started
    rcases of_getElem?_concat hk with hk | ⟨rfl, rfl⟩
    · exact .inl ⟨k, hk, .refl k⟩
    · exact .inr ⟨_, rfl, there, received, rfl, rfl⟩
  | segment there move =>
    rcases of_getElem?_set hk with ⟨rfl, rfl⟩ | ⟨-, hk⟩
    · exact .inl ⟨_, there, move.later⟩
    · exact .inl ⟨k, hk, .refl k⟩
  | finish there closed empty known unfinished =>
    rw [segments_dropOwner] at hk
    rcases of_getElem?_set hk with ⟨rfl, rfl⟩ | ⟨-, hk⟩
    · exact .inl ⟨_, there, rfl, rfl, rfl, rfl, fun _ => rfl, fun hr => hr⟩
    · exact .inl ⟨k, hk, .refl k⟩
  | release there live idle drained =>
    rcases of_getElem?_set hk with ⟨rfl, rfl⟩ | ⟨-, hk⟩
    · exact .inl ⟨_, there, rfl, rfl, rfl, rfl, fun hf => hf, fun _ => rfl⟩
    · exact .inl ⟨k, hk, .refl k⟩

end Store

/-! ## Runs over a database -/

theorem Segment.Move.grows {g k : Segment} {d d' : Disk} {ns : List Notice}
    (hm : g.Move d ns k d') : d.Grows d' := by
  cases hm with
  | @store r rest fault d' queued known sound written =>
    have hgrows := d.write_grows g.writer.file r.offset r.bytes fault
    rwa [written] at hgrows
  | @fail r rest fault e d' queued known sound written =>
    have hgrows := d.write_grows g.writer.file r.offset r.bytes fault
    rwa [written] at hgrows
  | _ => exact .refl d

namespace Store

variable {s t : Store}

theorem Change.grows {event : Event} {ns : History} (hc : s.Change event ns t) :
    s.disk.Grows t.disk := by
  cases hc with
  | create => exact (Layout.create_extends s.disk _ _).toGrows
  | openRefused refused => exact (Pool.openAt_extends refused).toGrows
  | openPool isOpen opened => exact (Pool.openAt_extends opened).toGrows
  | segment there move => exact move.grows
  | closePool => simpa using Disk.Grows.refl s.disk
  | finish => simpa using Disk.Grows.refl s.disk
  | _ => exact .refl s.disk

end Store

/-- Pools are opened on one directory only, and with no more files than it has. What is refused does
not count. -/
def Store.Admits (dir : FileId) (count : Nat) (s : Store) (event : Event) : Prop :=
  ∀ path config, event = .openPool path config → (s.addPool path config).1.isOk →
    s.disk.directory path = .ok dir ∧ config.fileCount.toNat ≤ count

/-- Pools are opened by paths that lead to one directory from the start. -/
def Event.Within (d : Disk) (dir : FileId) (count : Nat) (event : Event) : Prop :=
  ∀ path config, event = .openPool path config →
    d.directory path = .ok dir ∧ config.fileCount.toNat ≤ count

theorem Store.addPool_isOk {s : Store} {path : String} {config : Config} {p : Pool} {d : Disk}
    {locks : List FileId} (h : Pool.openAt s.disk s.locks path config = (.ok p, d, locks)) :
    (s.addPool path config).1.isOk := by
  unfold addPool
  rw [h]
  rfl

theorem Store.addPool_ok {s t : Store} {path : String} {config : Config} {id : PoolId}
    (h : s.addPool path config = (.ok id, t)) :
    id = s.pools.length ∧ t.segments = s.segments ∧
      ∃ p, t.pools = s.pools ++ [p] ∧ p.config = config ∧ p.Fresh t.disk := by
  unfold addPool at h
  split at h
  · cases h
  · rename_i p d locks hopen
    obtain ⟨hid, rfl⟩ := Prod.mk.inj h
    refine ⟨(Except.ok.inj hid).symm, rfl, p, rfl, ?_, Pool.fresh_of_openAt hopen⟩
    obtain ⟨-, lockFile, slots, -, -, rfl⟩ := Pool.openAt_ok hopen
    rfl

theorem Store.run?_addPool {s t u : Store} {events : List Event} {path : String} {config : Config}
    {answer : Except Error PoolId} (hrun : s.run? events = some t)
    (h : t.addPool path config = (answer, u)) :
    s.run? (events ++ [.openPool path config]) = some u := by
  rw [run?_concat, hrun, Option.bind_some]
  show some (t.addPool path config).2 = some u
  rw [h]

theorem Event.Within.admits {d : Disk} {dir : FileId} {count : Nat} {event : Event} {s : Store}
    (h : event.Within d dir count) (hgrows : d.Grows s.disk) : s.Admits dir count event := by
  intro path config hevent _
  obtain ⟨hdir, hcount⟩ := h path config hevent
  exact ⟨hgrows.directory_ok hdir, hcount⟩

namespace Store

variable {d : Disk} {dir : FileId} {files : List FileId} {s t : Store}

/-- Pools and segments have files of the database at the places that their indices say. -/
structure Placed (d : Disk) (dir : FileId) (files : List FileId) (s : Store) : Prop where
  grows : d.Grows s.disk
  lock : ∀ {id : PoolId} {p : Pool}, s.pools[id]? = some p →
    s.disk.leadsTo dir Layout.lockName = some p.lockFile
  valid : ∀ {id : PoolId} {p : Pool}, s.pools[id]? = some p → p.config.Valid
  pools : ∀ {id : PoolId} {p : Pool}, s.pools[id]? = some p → p.files <+: files
  segments : ∀ {id : SegmentId} {g : Segment}, s.segments[id]? = some g →
    files[g.fileIndex]? = some g.writer.file

theorem placed_ofDisk (d : Disk) (dir : FileId) (files : List FileId) :
    (ofDisk d).Placed d dir files :=
  ⟨.refl d, by simp [ofDisk], by simp [ofDisk], by simp [ofDisk], by simp [ofDisk]⟩

theorem Placed.change {event : Event} {ns : History} (h : s.Placed d dir files)
    (hdb : d.Database dir files) (hadmits : s.Admits dir files.length event) (hs : s.Conserved)
    (hc : s.Change event ns t) : t.Placed d dir files := by
  have hpool : ∀ {id : PoolId} {q : Pool}, t.pools[id]? = some q →
      q.config.Valid ∧ t.disk.leadsTo dir Layout.lockName = some q.lockFile ∧
        q.files <+: files := by
    intro id q hq
    obtain ⟨p, hp, hlock, hconfig, hfiles⟩ | ⟨path, config, locks, -, hevent, hopen⟩ :=
      hc.pool_like hq
    · rw [hlock, hconfig, hfiles]
      exact ⟨h.valid hp, hc.grows.target (h.lock hp), h.pools hp⟩
    · obtain ⟨hdir, hcount⟩ := hadmits path config hevent (addPool_isOk hopen)
      exact (Pool.openAt_database (hdb.grows h.grows) hdir hcount hopen).2
  refine ⟨h.grows.trans hc.grows, fun hq => (hpool hq).2.1, fun hq => (hpool hq).1,
    fun hq => (hpool hq).2.2, fun {id} {k} hk => ?_⟩
  rcases hc.segment_later hk with ⟨g, hg, hlater⟩ | ⟨p, -, hp, htaken, -, hfile⟩
  · rw [hlater.fileIndex, hlater.file]
    exact h.segments hg
  · -- a lock call has received one of the pool's files
    have hlt := hs.lt_fileCount_of_taken hp htaken
    have hslot : p.slots[k.fileIndex]? = some p.slots[k.fileIndex] :=
      List.getElem?_eq_getElem hlt
    obtain ⟨rest, rfl⟩ := h.pools hp
    rw [hfile, List.getElem?_append_left (by simpa [Pool.files, Pool.fileCount] using hlt)]
    simp [Pool.files, hslot]

theorem admitted_of_within {events : List Event} {count : Nat} (hgrows : d.Grows s.disk)
    (hwithin : ∀ event ∈ events, event.Within d dir count) :
    s.Throughout (Admits dir count) events := by
  induction events generalizing s with
  | nil => trivial
  | cons event rest ih =>
    refine ⟨(hwithin event List.mem_cons_self).admits hgrows, fun t ht => ?_⟩
    exact ih (hgrows.trans (change_of_step ht).grows) fun e he =>
      hwithin e (List.mem_cons_of_mem _ he)

end Store

end RecordStore
