import RecordStore.Proofs.Choice
import RecordStore.Proofs.Image

/-!
# Records stay clear of the file header

A record gets an offset inside the header of its file exactly when a pool is opened over a file that
is shorter than the tag. Opening does not look at the tag, and the shortest file is leased first.
-/

namespace RecordStore

/-! ## Files do not get shorter -/

theorem Content.size_le_write (offset : Nat) (bs : Bytes) (c : Content) :
    c.size ≤ (c.write offset bs).size := by
  by_cases hnil : bs = []
  · rw [hnil]
    exact Nat.le_refl _
  · rw [← length_bytes, ← length_bytes, bytes_write offset bs c hnil]
    simp only [List.length_append, List.length_take, List.length_replicate, List.length_drop,
      length_bytes]
    omega

namespace Store

variable {s t : Store} {event : Event} {ns : History}

theorem Change.size_le (hc : s.Change event ns t) (f : FileId) :
    s.disk.size f ≤ t.disk.size f := by
  unfold Disk.size
  cases hf : s.disk.content? f with
  | none => exact Nat.zero_le _
  | some c =>
    rcases hc.content with hkeep | ⟨_, g, r, _, fault, -, -, -, -, hdisk⟩
    · exact Nat.le_of_eq (by rw [hkeep hf])
    · rw [hdisk, Disk.content?_write]
      split
      · rename_i hsame
        rw [hsame, hf]
        apply Content.size_le_write
      · exact Nat.le_of_eq (by rw [hf])

/-! ## Pools over files that are long enough -/

/-- The files of the pool hold `n` bytes at least, and its leases begin past those. -/
def Filled (n : Nat) (id : PoolId) (s : Store) : Prop :=
  ∃ p, s.pools[id]? = some p ∧ (∀ f ∈ p.files, n ≤ s.disk.size f) ∧
    ∀ (k : SegmentId) (g : Segment), s.segments[k]? = some g → g.pool = id →
      n ≤ g.base ∧ g.fileIndex < p.files.length

variable {n : Nat} {id : PoolId}

theorem Filled.change (h : s.Filled n id) (hs : s.Conserved) (hc : s.Change event ns t) :
    t.Filled n id := by
  obtain ⟨p, hp, hfiles, hleases⟩ := h
  obtain ⟨q, hq, hlike⟩ := hc.pool_kept hp
  refine ⟨q, hq, ?_, ?_⟩
  · intro f hf
    rw [hlike.files] at hf
    exact Nat.le_trans (hfiles f hf) (hc.size_le f)
  · intro k g hg hpool
    rw [hlike.files]
    rcases hc.segment_later hg with ⟨g', hg', hlater⟩ | ⟨p', -, hp', htaken, hbase, hfile⟩
    · rw [hlater.base, hlater.fileIndex]
      apply hleases k g' hg'
      rw [← hlater.pool, hpool]
    · -- the lock call has just looked at the size of one of the files
      rw [hpool] at hp'
      obtain rfl := Option.some.inj (hp'.symm.trans hp)
      have hlt : g.fileIndex < p'.slots.length := hs.lt_fileCount_of_taken hp' htaken
      refine ⟨?_, by unfold Pool.files; rwa [List.length_map]⟩
      rw [hbase, hfile, List.getElem?_eq_getElem hlt]
      apply hfiles
      unfold Pool.files
      exact List.mem_map_of_mem (List.getElem_mem hlt)

theorem Filled.run {events : List Event} (h : s.Filled n id) (hs : s.Conserved)
    (hrun : s.run? events = some t) : t.Filled n id :=
  (run_rec (P := fun t _ => t.Conserved ∧ t.Filled n id) hrun ⟨hs, h⟩
    fun _ _ _ _ _ _ hu hstep =>
      ⟨hu.1.change (change_of_step hstep), hu.2.change hu.1 (change_of_step hstep)⟩).2

end Store

/-! ## Reads that are not refused -/

theorem Reader.readRecord_ne_refused (first second : Disk) (size i offset : Nat) (buffer : Bytes)
    (handle : Handle) (refusal : Refusal) :
    (readRecord first second size i offset buffer handle).answer ≠
      .error (.invalidArgument refusal) := by
  unfold readRecord readRest
  dsimp only
  split
  · simp
  · split
    · simp
    · split
      · simp
      · split
        · simp
        · split
          · simp
          · split <;> simp

theorem Pool.read_ne_refused {d : Disk} {p : Pool} {a : Address}
    (hindex : a.fileIndex < p.fileCount) (hoffset : Layout.dataStart ≤ a.offset) (buffer : Bytes) (refusal : Refusal) :
    (p.read d a buffer).1 ≠ .error (.invalidArgument refusal) := by
  unfold read readBetween
  rw [List.getElem?_eq_getElem (show a.fileIndex < p.slots.length from hindex)]
  dsimp only
  rw [if_neg (Nat.not_lt_of_le hoffset)]
  apply Reader.readRecord_ne_refused

theorem Segment.accept_of_room {g : Segment} {data : Bytes} {a : Address}
    (hlength : data.length ≤ Record.maxLength)
    (hroom : g.nextAddress.offsetBy (Record.encodedLength data.length) = .ok a)
    (sound : g.writer.failure = none) (unclosed : g.writer.closed = false) :
    g.accept data = .ok { g with pending := some ⟨g.next, Record.header data.length, data⟩ } := by
  unfold accept
  rw [Record.encodeHeader, if_neg (Nat.not_lt_of_le hlength), hroom, sound, unclosed]
  rfl

theorem Address.ne_null_of_offset {a : Address} (h : 0 < a.offset) : a ≠ .null := by
  rintro rfl
  exact absurd h (by decide)

namespace Store

/-- The address lies behind the tag of its file, and a read there is not refused. -/
structure Clear (s : Store) (id : PoolId) (a : Address) : Prop where
  offset : Layout.dataStart ≤ a.offset
  notNull : a ≠ .null
  accepted : ∀ buffer refusal, (s.read id a buffer).1 ≠ .error (.invalidArgument refusal)

theorem Filled.clear {s : Store} {id : PoolId} (h : s.Filled Layout.dataStart id) {k : SegmentId}
    {g : Segment} {ns : List Notice} (hg : s.segments[k]? = some g) (hpool : g.pool = id)
    (hcarrying : g.Carrying ns) {a : Address} {data : Bytes} (hwrote : .wrote a data ∈ ns) :
    s.Clear id a := by
  obtain ⟨p, hp, -, hleases⟩ := h
  obtain ⟨hbase, hindex⟩ := hleases k g hg hpool
  obtain ⟨-, handled, waiting, hcarries⟩ := hcarrying
  obtain ⟨before, after, -, haddress, hoffset, -⟩ := hcarries.mem_writes hwrote
  have hclear : Layout.dataStart ≤ a.offset := by omega
  refine ⟨hclear, Address.ne_null_of_offset (Nat.lt_of_lt_of_le (by decide) hclear), ?_⟩
  intro buffer refusal
  unfold read
  rw [hp]
  refine Pool.read_ne_refused ?_ hclear buffer refusal
  rw [haddress]
  unfold Pool.files at hindex
  rwa [List.length_map] at hindex

/-! ## The first lease of a pool -/

variable {s t : Store} {id : PoolId} {p : Pool} {i : Nat}

theorem step_select (hp : s.pools[id]? = some p) (hopen : p.isOpen = true)
    (hidle : p.selected = none) (hchoice : p.choice? = some i) :
    s.step? (.select id) = some (s.setPool id
      { p with available := p.available.set i false, selected := some i }) := by
  simp [step?, hp, Pool.select?, hopen, hidle, hchoice]

theorem step_take (hp : s.pools[id]? = some p) (hopen : p.isOpen = true)
    (hoffer : p.selected = some i) :
    s.step? (.take id) = some (s.setPool id { p with selected := none, taken := i :: p.taken }) := by
  simp [step?, hp, Pool.take?, hopen, hoffer]

theorem step_startLease {g : Segment} {slot : Slot} (hp : s.pools[id]? = some p)
    (hi : i ∈ p.taken) (hslot : p.slots[i]? = some slot)
    (started : Segment.start id i (s.disk.size slot.file) slot.file p.config = .ok g) :
    ∃ t, s.step? (.startLease id i none) = some t ∧ t.segments = s.segments ++ [g] := by
  have hstart : Segment.start id i (s.disk.size (p.slots[i]?.elim 0 Slot.file))
      (p.slots[i]?.elim 0 Slot.file) (p.beginLease s.disk i).config = .ok g := by
    rw [hslot]
    exact started
  refine ⟨_, by simp [step?, hp, hi]; rfl, ?_⟩
  unfold startLease
  dsimp only
  rw [hstart]

theorem exists_lease {slot : Slot} (hp : s.pools[id]? = some p) (hfresh : p.Fresh s.disk)
    (hchoice : p.choice? = some i) (hslot : p.slots[i]? = some slot)
    (hroom : s.disk.size slot.file ≤ Address.offsetMask) :
    ∃ t g, s.run? [.select id, .take id, .startLease id i none] = some t ∧
      t.segments = s.segments ++ [g] ∧
      Segment.start id i (s.disk.size slot.file) slot.file p.config = .ok g := by
  have hindex : i < Address.maxFileIndex := by
    have hlt := (Pool.choice_foremost hchoice).mem.1
    have hcount := (p.config.valid_iff.1 hfresh.valid).1.2
    rw [hfresh.count] at hlt
    rw [Config.maxFileCount] at hcount
    rw [Address.maxFileIndex_eq]
    omega
  obtain ⟨g, started⟩ := Segment.exists_start id slot.file p.config hindex hroom
  have hselect := step_select hp hfresh.isOpen hfresh.noOffer hchoice
  have hoffer := pools_setPool_self hp
    { p with available := p.available.set i false, selected := some i }
  have htake := step_take hoffer hfresh.isOpen rfl
  have hcall := pools_setPool_self hoffer
    { p with available := p.available.set i false, selected := none, taken := i :: p.taken }
  obtain ⟨t, hlease, hsegments⟩ := step_startLease hcall List.mem_cons_self hslot started
  refine ⟨t, g, ?_, hsegments, started⟩
  rw [run?_cons, hselect, Option.bind_some, run?_cons, htake, Option.bind_some, run?_cons, hlease]
  rfl

theorem step_enqueue {k : SegmentId} {g : Segment} {r : Request} (hg : s.segments[k]? = some g)
    (pending : g.pending = some r) (unclosed : g.writer.closed = false)
    (space : g.writer.queue.length < g.writer.depth) :
    ∃ t, s.step? (.enqueue k) = some t ∧
      s.notices (.enqueue k) = [(k, .wrote g.nextAddress r.data)] := by
  rw [notices, noticesOn_of_some hg, pending]
  simp [step?, hg, Segment.enqueue?, pending, unclosed, space]

theorem exists_wrote {k : SegmentId} {g : Segment} {a : Address} (data : Bytes)
    (hg : s.segments[k]? = some g) (live : g.released = false) (idle : g.pending = none)
    (sound : g.writer.failure = none) (unclosed : g.writer.closed = false)
    (space : g.writer.queue.length < g.writer.depth) (hlength : data.length ≤ Record.maxLength)
    (hroom : g.nextAddress.offsetBy (Record.encodedLength data.length) = .ok a) :
    ∃ t, s.run? [.accept k data, .enqueue k] = some t ∧
      (k, .wrote g.nextAddress data) ∈ s.history [.accept k data, .enqueue k] := by
  have hidle : s.idle? k = some g := idle?_eq_some.2 ⟨hg, live, idle⟩
  have haccept := Segment.accept_of_room hlength hroom sound unclosed
  have hfirst : s.step? (.accept k data) = some (s.setSegment k
      { g with pending := some ⟨g.next, Record.header data.length, data⟩ }) := by
    simp [step?, hidle, haccept, orRefused]
  have hpending : (s.setSegment k
      { g with pending := some ⟨g.next, Record.header data.length, data⟩ }).segments[k]? =
      some { g with pending := some ⟨g.next, Record.header data.length, data⟩ } := by
    rw [segments_setSegment, List.getElem?_set_self (List.getElem?_eq_some_iff.1 hg).1]
  obtain ⟨t, hsecond, hnotice⟩ := step_enqueue hpending rfl unclosed space
  refine ⟨t, ?_, ?_⟩
  · rw [run?_cons, hfirst, Option.bind_some, run?_cons, hsecond]
    rfl
  · rw [history, hfirst, Option.elim_some, history, hnotice]
    apply List.mem_append_right
    exact List.mem_cons_self

theorem exists_wrote_at_base {k : SegmentId} {g : Segment} {base : Nat} {file : FileId}
    {config : Config} (hg : s.segments[k]? = some g)
    (started : Segment.start id i base file config = .ok g) (hvalid : config.Valid)
    (hroom : base + Record.encodedLength 0 ≤ Address.offsetMask) :
    ∃ t a, s.run? [.accept k [], .enqueue k] = some t ∧
      (k, .wrote a []) ∈ s.history [.accept k [], .enqueue k] ∧ a.offset = base := by
  obtain ⟨hindex, hbase, rfl⟩ := Segment.start_ok started
  obtain ⟨-, hdepth, -⟩ := config.valid_iff.1 hvalid
  obtain ⟨t, hrun, hwrote⟩ := exists_wrote [] hg rfl rfl rfl rfl hdepth
    (Nat.zero_le _) (Address.offsetBy_ofParts hindex hroom)
  exact ⟨t, _, hrun, hwrote, Address.offset_ofParts hindex hbase⟩

/-- If a pool is opened over a short file, the first record of its first lease stands in the
header. -/
theorem exists_wrote_in_header {j : Nat} {slot : Slot} (hp : s.pools[id]? = some p)
    (hfresh : p.Fresh s.disk) (hslot : p.slots[j]? = some slot)
    (hshort : s.disk.size slot.file < Layout.dataStart) :
    ∃ events t k g a data, s.run? events = some t ∧ t.segments[k]? = some g ∧ g.pool = id ∧
      (k, .wrote a data) ∈ s.history events ∧ a.offset < Layout.dataStart := by
  have hfrontier : ∀ {n : Nat} {slot : Slot}, p.slots[n]? = some slot →
      p.frontier n = s.disk.size slot.file := by
    intro n slot hslot
    rw [Pool.frontier, hslot]
    exact hfresh.frontier slot (List.mem_of_getElem? hslot)
  have hj := (List.getElem?_eq_some_iff.1 hslot).1
  obtain ⟨i, hchoice⟩ := Pool.exists_choice ⟨hj, hfresh.all j hj⟩
  have hfirst := Pool.choice_foremost hchoice
  obtain ⟨first, hfirstSlot⟩ : ∃ first, p.slots[i]? = some first :=
    ⟨_, List.getElem?_eq_getElem hfirst.mem.1⟩
  -- no file is shorter than the one that is chosen
  have hle := hfirst.size_le ⟨hj, hfresh.all j hj⟩
  rw [hfrontier hslot, hfrontier hfirstSlot] at hle
  have hbase : s.disk.size first.file < Layout.dataStart := Nat.lt_of_le_of_lt hle hshort
  have hroom : s.disk.size first.file + Record.encodedLength 0 ≤ Address.offsetMask := by
    have hstart : Layout.dataStart = 8 := rfl
    have hheader : Record.encodedLength 0 = 2 := rfl
    rw [Address.offsetMask_eq]
    omega
  obtain ⟨t, g, hlease, hsegments, started⟩ := exists_lease hp hfresh hchoice hfirstSlot
    (Nat.le_trans (Nat.le_add_right _ _) hroom)
  have hg : t.segments[s.segments.length]? = some g := by
    rw [hsegments]
    exact List.getElem?_concat_length
  obtain ⟨u, a, hwrite, hwrote, haddress⟩ := exists_wrote_at_base hg started hfresh.valid hroom
  obtain ⟨g', hg', hlater⟩ := kept_of_run (Segment.later_kept g) hwrite hg (.refl g)
  refine ⟨[.select id, .take id, .startLease id i none] ++
      [.accept s.segments.length [], .enqueue s.segments.length],
    u, s.segments.length, g', a, [], ?_, hg', ?_, ?_, by rwa [haddress]⟩
  · rw [run?_append, hlease]
    exact hwrite
  · obtain ⟨-, -, rfl⟩ := Segment.start_ok started
    exact hlater.pool
  · rw [history_append hlease]
    exact List.mem_append_right _ hwrote

/-! ## When records stay clear -/

/-- All records of a pool stay clear of the file headers, whatever its run, exactly if it was opened
over files that each have room for the tag. -/
theorem header_clear_iff {d : Disk} {before : List Event} {s t : Store} {path : String}
    {config : Config} {id : PoolId} (hrun : (ofDisk d).run? before = some s)
    (hopen : s.addPool path config = (.ok id, t)) :
    (∀ p, t.pools[id]? = some p → ∀ f ∈ p.files, Layout.dataStart ≤ t.disk.size f) ↔
      ∀ events u, t.run? events = some u → ∀ (k : SegmentId) (g : Segment) (a : Address)
        (data : Bytes), u.segments[k]? = some g → g.pool = id →
        (k, .wrote a data) ∈ t.history events → u.Clear id a := by
  have hopened := run?_addPool hrun hopen
  have hconserved := conserved_of_run hopened
  obtain ⟨rfl, hsegments, p, hpools, -, hfresh⟩ := addPool_ok hopen
  have hp : t.pools[s.pools.length]? = some p := by
    rw [hpools]
    exact List.getElem?_concat_length
  constructor
  · intro hlong events u hevents k g a data hg hpool hwrote
    have hfilled : t.Filled Layout.dataStart s.pools.length := by
      refine ⟨p, hp, hlong p hp, ?_⟩
      intro j g' hg' hpool'
      have hknown := (conserved_of_run hrun).known g' (by
        rw [hsegments] at hg'
        exact List.mem_of_getElem? hg')
      rw [hpool'] at hknown
      exact absurd hknown (Nat.lt_irrefl _)
    have hall : (ofDisk d).run? ((before ++ [.openPool path config]) ++ events) = some u := by
      rw [run?_append, hopened]
      exact hevents
    have hcarrying := (along_of_run Segment.carrying_invariant hall).each hg
    have hmem : .wrote a data ∈ ((ofDisk d).history
        ((before ++ [.openPool path config]) ++ events)).on k := by
      rw [History.mem_on, history_append hopened]
      exact List.mem_append_right _ hwrote
    exact (hfilled.run hconserved hevents).clear hg hpool hcarrying hmem
  · intro hclear q hq f hf
    obtain rfl := Option.some.inj (hq.symm.trans hp)
    apply Nat.le_of_not_lt
    intro hshort
    obtain ⟨slot, hslot, rfl⟩ := List.mem_map.1 hf
    obtain ⟨j, hslot⟩ := List.getElem?_of_mem hslot
    obtain ⟨events, u, k, g, a, data, hevents, hg, hpool, hwrote, hoffset⟩ :=
      exists_wrote_in_header hp hfresh hslot hshort
    exact absurd (hclear events u hevents k g a data hg hpool hwrote).offset
      (Nat.not_le_of_lt hoffset)

theorem header_clear_created :
    ∃ s t, (ofDisk (.withDirectory "db")).run? [.create "db" { fileCount := 2 }] = some s ∧
      s.addPool "db" { fileCount := 2 } = (.ok 0, t) ∧
      ∀ events u, t.run? events = some u → ∀ (k : SegmentId) (g : Segment) (a : Address)
        (data : Bytes), u.segments[k]? = some g → g.pool = 0 →
        (k, .wrote a data) ∈ t.history events → u.Clear 0 a := by
  have hrun : (((ofDisk (.withDirectory "db")).run? [.create "db" { fileCount := 2 }]).bind fun s =>
      if (s.addPool "db" { fileCount := 2 }).1 = .ok 0 ∧
        ((s.addPool "db" { fileCount := 2 }).2.pools[0]?.all fun p => p.files.all fun f =>
          Layout.dataStart ≤ (s.addPool "db" { fileCount := 2 }).2.disk.size f) = true then some s
      else none).isSome := by
    decide +kernel
  obtain ⟨r, hrun⟩ := Option.isSome_iff_exists.1 hrun
  obtain ⟨s, hs, hrun⟩ := Option.bind_eq_some_iff.1 hrun
  split at hrun
  · rename_i hc
    obtain ⟨hanswer, hfiles⟩ := hc
    have hopen : s.addPool "db" { fileCount := 2 } =
        (.ok 0, (s.addPool "db" { fileCount := 2 }).2) := by
      rw [← hanswer]
    refine ⟨s, _, hs, hopen, (header_clear_iff hs hopen).1 ?_⟩
    intro p hp f hf
    rw [hp] at hfiles
    simpa using List.all_eq_true.1 hfiles f hf
  · cases hrun

/-- A directory whose only backing file is empty, as a creation that broke off may leave it. -/
def emptyFile : Disk := ((Disk.withDirectory "db").openOrCreate "db" (Layout.fileName 0)).2

/-- The directory is opened, and one record written, flushed and unlocked. -/
def recordOnEmpty : List Event :=
  [.openPool "db" { fileCount := 1 }, .select 0, .take 0, .startLease 0 0 none, .accept 0 [120],
    .enqueue 0, .receive 0 none, .closeQueue 0, .finish 0 none, .endFlush 0, .release 0]

/-- The record has the null address and is lost, although its unlock succeeds. -/
theorem null_address_on_emptyFile :
    ∃ s, (ofDisk emptyFile).run? recordOnEmpty = some s ∧
      (0, .wrote .null [120]) ∈ (ofDisk emptyFile).history recordOnEmpty ∧
      (0, .unlocked (.ok ())) ∈ (ofDisk emptyFile).history recordOnEmpty ∧
      (s.readRecord 0 .null).1 = .error (.invalidArgument (.insideHeader .null)) := by
  have hwrote : (0, .wrote .null [120]) ∈ (ofDisk emptyFile).history recordOnEmpty := by
    decide +kernel
  have hunlocked : (0, .unlocked (.ok ())) ∈ (ofDisk emptyFile).history recordOnEmpty := by
    decide +kernel
  have hrun : (((ofDisk emptyFile).run? recordOnEmpty).bind fun s =>
      if (s.readRecord 0 .null).1 = .error (.invalidArgument (.insideHeader .null)) then some s
      else none).isSome := by
    decide +kernel
  obtain ⟨r, hrun⟩ := Option.isSome_iff_exists.1 hrun
  obtain ⟨s, hs, hrun⟩ := Option.bind_eq_some_iff.1 hrun
  split at hrun
  · exact ⟨s, hs, hwrote, hunlocked, ‹_›⟩
  · cases hrun

end Store

end RecordStore
