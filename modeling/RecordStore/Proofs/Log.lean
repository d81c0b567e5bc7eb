import RecordStore.Proofs.Durability

/-!
# The log of a file

As long as no write fails, a backing file is the log of what was written to it, lease after lease and
call after call. Reading one record after the other gives the log back.
-/

namespace RecordStore

open Record

/-! ## Walking over a file -/

namespace Store

/-- Reads at most `n` records, each at the address where the one before it ends. The walk stops at
the first read that fails. -/
def walk (pool : PoolId) : Nat → Store → Address → List (Address × Bytes) × Option Error
  | 0, _, _ => ([], none)
  | n + 1, s, a =>
    match s.readRecord pool a with
    | (.error e, _) => ([], some e)
    | (.ok data, s) =>
      match a.offsetBy (encodedLength data.length) with
      | .error fault => ([(a, data)], some (.invalidArgument (.address fault)))
      | .ok next => ((a, data) :: (walk pool n s next).1, (walk pool n s next).2)

variable {s : Store} {pool : PoolId} {p : Pool}

theorem readRecord_keeps (hp : s.pools[pool]? = some p) (a : Address) :
    (s.readRecord pool a).2.disk = s.disk ∧
      ∃ q, (s.readRecord pool a).2.pools[pool]? = some q ∧ p.Like q :=
  s.read_keeps pool a [] hp

theorem readRecord_answer (hp : s.pools[pool]? = some p) (a : Address) :
    (s.readRecord pool a).1 = (p.readBetween s.disk s.disk a []).1 := by
  unfold readRecord read
  rw [hp]
  rfl

theorem walk_error {a : Address} {e : Error} (h : (s.readRecord pool a).1 = .error e) (n : Nat) :
    walk pool (n + 1) s a = ([], some e) := by
  rw [walk]
  generalize s.readRecord pool a = result at h
  obtain ⟨answer, t⟩ := result
  obtain rfl : answer = _ := h
  rfl

theorem walk_ok {a next : Address} {data : Bytes} (h : (s.readRecord pool a).1 = .ok data)
    (hnext : a.offsetBy (encodedLength data.length) = .ok next) (n : Nat) :
    walk pool (n + 1) s a = ((a, data) :: (walk pool n (s.readRecord pool a).2 next).1,
      (walk pool n (s.readRecord pool a).2 next).2) := by
  rw [walk]
  generalize s.readRecord pool a = result at h
  obtain ⟨answer, t⟩ := result
  obtain rfl : answer = _ := h
  dsimp only
  rw [hnext]

/-! ### Over records that stand end to end -/

section Records

variable {c : Content} {f : FileId} {i : Nat} {before : Bytes}

theorem read_record {data after : Bytes} (hp : s.pools[pool]? = some p) (hvalid : p.config.Valid)
    (hfile : p.files[i]? = some f) (hc : s.disk.content? f = some c)
    (hbytes : c.bytes = before ++ (encode data ++ after)) (hstart : Layout.dataStart ≤ before.length)
    (hi : i < Address.maxFileIndex) (hroom : c.size ≤ Address.offsetMask)
    (hlength : data.length ≤ maxLength) :
    (s.readRecord pool (.ofParts i before.length)).1 = .ok data ∧
      (Address.ofParts i before.length).offsetBy (encodedLength data.length) =
        .ok (.ofParts i (before ++ encode data).length) := by
  have hsize := congrArg List.length hbytes
  rw [Content.length_bytes, List.length_append, List.length_append, length_encode] at hsize
  have hplace : before.length ≤ Address.offsetMask := by omega
  have hnext : before.length + encodedLength data.length ≤ Address.offsetMask := by omega
  obtain ⟨slot, hslot, rfl⟩ := Option.map_eq_some_iff.1 (by rwa [Pool.files, List.getElem?_map] at hfile)
  have hstands : s.disk.Stands slot.file before.length data := by
    refine ⟨c, hc, after, ?_⟩
    rw [hbytes, List.drop_left]
  rw [readRecord_answer hp, List.length_append, length_encode]
  refine ⟨?_, Address.offsetBy_ofParts hi hnext⟩
  rw [← Address.offset_ofParts hi hplace] at hstart hstands
  rw [← Address.fileIndex_ofParts hi hplace] at hslot
  exact Pool.readBetween_stands hvalid hslot hstart hstands hstands hlength []

theorem read_end (hp : s.pools[pool]? = some p) (hfile : p.files[i]? = some f)
    (hc : s.disk.content? f = some c) (hstart : Layout.dataStart ≤ c.size)
    (hi : i < Address.maxFileIndex) (hroom : c.size ≤ Address.offsetMask) :
    (s.readRecord pool (.ofParts i c.size)).1 = .error (.corruption i c.size (.noHeader 0)) := by
  have hindex := Address.fileIndex_ofParts hi hroom
  have hoffset := Address.offset_ofParts hi hroom
  obtain ⟨slot, hslot, rfl⟩ := Option.map_eq_some_iff.1 (by rwa [Pool.files, List.getElem?_map] at hfile)
  rw [← hindex] at hslot
  rw [readRecord_answer hp,
    Pool.readBetween_end hslot (by rwa [hoffset]) hc (Nat.le_of_eq hoffset.symm), hindex, hoffset]

theorem walk_eq {records : List Bytes} (hp : s.pools[pool]? = some p) (hvalid : p.config.Valid)
    (hfile : p.files[i]? = some f) (hc : s.disk.content? f = some c)
    (hbytes : c.bytes = before ++ encodeAll records) (hstart : Layout.dataStart ≤ before.length)
    (hi : i < Address.maxFileIndex) (hroom : c.size ≤ Address.offsetMask)
    (hlengths : ∀ data ∈ records, data.length ≤ maxLength) (n : Nat) :
    walk pool n s (.ofParts i before.length) =
      (((placed before.length records).map fun w => (.ofParts i w.1, w.2)).take n,
        if records.length < n then some (.corruption i c.size (.noHeader 0)) else none) := by
  -- a read leaves another store, with another pool, so both are general
  induction n generalizing s p before records with
  | zero => simp [walk]
  | succ n ih =>
    cases records with
    | nil =>
      have hend : before.length = c.size := by
        rw [← Content.length_bytes, hbytes]
        simp
      rw [hend] at hstart ⊢
      rw [walk_error (read_end hp hfile hc hstart hi hroom)]
      rfl
    | cons data rest =>
      have hsplit : c.bytes = before ++ (encode data ++ encodeAll rest) := hbytes
      obtain ⟨hread, hnext⟩ := read_record hp hvalid hfile hc hsplit hstart hi hroom
        (hlengths data List.mem_cons_self)
      obtain ⟨hdisk, q, hq, hlike⟩ := readRecord_keeps hp (.ofParts i before.length)
      have hrest := ih hq (hlike.config ▸ hvalid) (hlike.files ▸ hfile) (hdisk ▸ hc)
        (by rw [hsplit, List.append_assoc]) (by rw [List.length_append]; omega)
        fun data hdata => hlengths data (List.mem_cons_of_mem _ hdata)
      rw [walk_ok hread hnext, hrest, placed, List.map_cons, List.take_succ_cons, List.length_cons,
        List.length_append, length_encode]
      simp only [Nat.add_lt_add_iff_right]

end Records

end Store

/-! ## Logs -/

/-- The records that the leases were given, with the addresses that the writes returned. -/
def History.log (h : History) (ids : List SegmentId) : List (Address × Bytes) :=
  ids.flatMap fun id => Notice.writes (h.on id)

/-- The bytes are the log, from `start` on in file `i`. -/
structure IsLog (i start : Nat) (log : List (Address × Bytes)) (bytes : Bytes) : Prop where
  addresses : log = (placed start (log.map Prod.snd)).map fun w => (.ofParts i w.1, w.2)
  image : bytes = encodeAll (log.map Prod.snd)
  room : start + bytes.length ≤ Address.offsetMask
  lengths : ∀ data ∈ log.map Prod.snd, data.length ≤ maxLength

theorem IsLog.nil {i start : Nat} (h : start ≤ Address.offsetMask) : IsLog i start [] [] :=
  ⟨rfl, rfl, h, by simp⟩

theorem IsLog.append {i start : Nat} {log others : List (Address × Bytes)} {bytes rest : Bytes}
    (h : IsLog i start log bytes) (k : IsLog i (start + bytes.length) others rest) :
    IsLog i start (log ++ others) (bytes ++ rest) where
  addresses := by
    rw [List.map_append, placed_append, ← h.image, List.map_append, ← h.addresses, ← k.addresses]
  image := by rw [List.map_append, encodeAll_append, ← h.image, ← k.image]
  room := by
    rw [List.length_append, ← Nat.add_assoc]
    exact k.room
  lengths data hdata := by
    rw [List.map_append, List.mem_append] at hdata
    exact hdata.elim (h.lengths data) (k.lengths data)

theorem Segment.Carries.isLog {g : Segment} {ns : List Notice} {handled waiting : List Bytes}
    (h : g.Carries ns handled waiting) (hqueue : g.writer.queue = [])
    (hfailed : Notice.failedWrites ns = []) :
    IsLog g.fileIndex g.base (Notice.writes ns) (Notice.landings ns) := by
  obtain ⟨rfl, hlanded⟩ := h.all_landed hqueue hfailed
  have hwrites := h.writes
  have hnext := h.next
  rw [List.append_nil] at hwrites hnext
  have hpayloads : (Notice.writes ns).map Prod.snd = handled := by
    rw [hwrites, map_snd_written]
  refine ⟨?_, by rw [hpayloads, hlanded], ?_, ?_⟩
  · rw [hpayloads]
    exact hwrites
  · rw [hlanded, ← hnext]
    exact h.room
  · rw [hpayloads]
    exact fun data hdata => h.lengths data (List.mem_append_left _ hdata)

namespace Store

variable {d : Disk} {dir : FileId} {files : List FileId} {s : Store} {h : History}

theorem Logged.isLog (hl : s.Logged d dir files h) {i : Nat} {f : FileId} {c : Content}
    (hf : files[i]? = some f) (hc : d.content? f = some c) (hstart : c.size ≤ Address.offsetMask)
    (hquiet : ∀ id f, (id, .failed f) ∉ h)
    (hidle : ∀ g ∈ s.segments, g.fileIndex = i → g.writer.queue = []) {n : Nat}
    (hn : n ≤ s.segments.length) :
    IsLog i c.size (h.log (s.leases i n)) (h.image (s.leases i n)) := by
  induction n with
  | zero => exact .nil hstart
  | succ n ih =>
    have hprefix := ih (Nat.le_of_succ_le hn)
    have hg : s.segments[n]? = some s.segments[n] := List.getElem?_eq_getElem hn
    generalize s.segments[n] = g at hg
    rw [leases_succ]
    have hlease := lease?_of_some hg
    by_cases hi : g.fileIndex = i
    · subst hi
      obtain ⟨-, handled, waiting, hcarries⟩ := hl.carrying.each hg
      have hfailed : Notice.failedWrites (h.on n) = [] := by
        refine List.eq_nil_iff_forall_not_mem.2 fun f hf => hquiet n f ?_
        exact History.mem_on.1 (Notice.mem_failedWrites.1 hf)
      have hown := hcarries.isLog (hidle g (List.mem_of_getElem? hg) rfl) hfailed
      rw [hl.imaged.base hf hc hlease] at hown
      have happend := hprefix.append hown
      simpa [hlease, History.log, image_append, History.image] using happend
    · simpa [hlease, hi] using hprefix

/-- The log of a file: lease after lease, and call after call. -/
def logOf (s : Store) (h : History) (i : Nat) : List (Address × Bytes) := h.log (s.leasesOf i)

/-- If no write fails, then a file none of whose records is queued is the tag followed by its log, and
a walk over it finds the log and then the end of the file. -/
theorem file_is_log {d₀ d : Disk} {path : String} {config : Config} {events : List Event}
    {s : Store} {i : Nat} (hcreate : Layout.create d₀ path config = (.ok (), d))
    (hon : ∀ event ∈ events, event.On d path config.fileCount.toNat)
    (hrun : (ofDisk d).run? events = some s) (hi : i < config.fileCount.toNat)
    (hquiet : ∀ id f, (id, .failed f) ∉ (ofDisk d).history events)
    (hidle : ∀ g ∈ s.segments, g.fileIndex = i → g.writer.queue = []) :
    ∃ f c, s.disk.target path (Layout.fileName i) = .ok f ∧ s.disk.content? f = some c ∧
      c.bytes = Layout.magic ++
        encodeAll ((s.logOf ((ofDisk d).history events) i).map Prod.snd) ∧
      ∀ pool p, s.pools[pool]? = some p → i < p.fileCount → ∀ n,
        walk pool n s (.ofParts i Layout.dataStart) =
          ((s.logOf ((ofDisk d).history events) i).take n,
            if (s.logOf ((ofDisk d).history events) i).length < n then
              some (.corruption i c.size (.noHeader 0)) else none) := by
  obtain ⟨hvalid, dir, files, hdir, hdb, hlength, hfiles⟩ := Layout.create_ok hcreate
  have hl := logged_of_run hdb (fun event he => hlength ▸ (hon event he).within hdir) hrun
  have hf : files[i]? = some files[i] := List.getElem?_eq_getElem (hlength ▸ hi)
  generalize files[i] = f at hf
  obtain ⟨htarget, hc⟩ := hfiles hf
  obtain ⟨c, hc', hbytes⟩ := hl.imaged.bytes hf hc
  obtain ⟨haddresses, himage, hroom, hlengths⟩ :=
    hl.isLog hf hc (by decide) hquiet hidle (Nat.le_refl _)
  rw [Content.bytes_ofBytes, leasesOf, himage] at hbytes
  have hindex : i < Address.maxFileIndex := by
    have hmost := (config.valid_iff.1 hvalid).1.2
    rw [Address.maxFileIndex_eq]
    unfold Config.maxFileCount at hmost
    omega
  have hsize : c.size ≤ Address.offsetMask := by
    rw [← Content.length_bytes, hbytes, ← himage, List.length_append]
    exact hroom
  refine ⟨f, c, hl.sound.placed.grows.target_ok htarget, hc', hbytes, fun pool p hp hcount n => ?_⟩
  obtain ⟨slot, hslot, rfl⟩ := hl.sound.placed.slot_file hp hcount hf
  have hfile : p.files[i]? = some slot.file := by simp [Pool.files, hslot]
  have hwalk := walk_eq hp (hl.sound.placed.valid hp) hfile hc' hbytes (Nat.le_refl _) hindex hsize
    hlengths n
  rw [List.length_map] at hwalk
  refine hwalk.trans ?_
  rw [logOf, leasesOf]
  exact congrArg (fun log => (log.take n, _)) haddresses.symm

/-- A file is leased twice, and each lease writes a record. -/
def twoLeases : List Event :=
  flushedRecord ++ [.release 0, .handleReturn 0, .select 0, .take 0, .startLease 0 0 none,
    .accept 1 [8, 9], .enqueue 1, .receive 1 none]

theorem file_is_log_twoLeases :
    ∃ s f c, (ofDisk oneFile).run? twoLeases = some s ∧ s.disk.content? f = some c ∧
      c.bytes = Layout.magic ++
        encodeAll ((s.logOf ((ofDisk oneFile).history twoLeases) 0).map Prod.snd) := by
  have hquiet : ∀ r ∈ (ofDisk oneFile).history twoLeases, r.2.failedWrite? = none := by
    decide +kernel
  have hrun : (((ofDisk oneFile).run? twoLeases).bind fun s =>
      if ∀ g ∈ s.segments, g.fileIndex = 0 → g.writer.queue = [] then some s else none).isSome := by
    decide +kernel
  obtain ⟨s', hrun⟩ := Option.isSome_iff_exists.1 hrun
  obtain ⟨s, hs, hrun⟩ := Option.bind_eq_some_iff.1 hrun
  split at hrun
  · obtain ⟨f, c, -, hc, hbytes, -⟩ := file_is_log (i := 0) oneFile_created
      (on_of_opensOne (by decide)) hs (by decide)
      (fun id f hf => by simpa [Notice.failedWrite?] using hquiet _ hf) ‹_›
    exact ⟨s, f, c, hs, hc, hbytes⟩
  · cases hrun

end Store

end RecordStore
