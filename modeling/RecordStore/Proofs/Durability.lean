import RecordStore.Proofs.ReadBack

/-!
# Durability

Once a flush or an unlock has succeeded, the records of the segment are read back in every later
state, whatever other segments write, fail to write or read, and whichever pool is asked.
-/

namespace RecordStore

/-- If the event opens a pool, then on the directory that `path` named on `d`, and on no more than
`count` of its files. -/
def Event.On (d : Disk) (path : String) (count : Nat) (event : Event) : Prop :=
  ∀ other config, event = .openPool other config →
    d.directory other = d.directory path ∧ config.fileCount.toNat ≤ count

theorem Event.On.within {d : Disk} {path : String} {dir : FileId} {count : Nat} {event : Event}
    (h : event.On d path count) (hdir : d.directory path = .ok dir) :
    event.Within d dir count := by
  intro other config hevent
  obtain ⟨hsame, hcount⟩ := h other config hevent
  exact ⟨hsame.trans hdir, hcount⟩

namespace Store

variable {d : Disk} {dir : FileId} {files : List FileId} {s : Store} {h : History}

theorem Placed.slot_file (hp : s.Placed d dir files) {id : PoolId} {p : Pool} {i : Nat} {f : FileId}
    (hpool : s.pools[id]? = some p) (hi : i < p.fileCount) (hf : files[i]? = some f) :
    ∃ slot, p.slots[i]? = some slot ∧ slot.file = f := by
  have hslot : p.slots[i]? = some p.slots[i] := List.getElem?_eq_getElem hi
  obtain ⟨rest, rfl⟩ := hp.pools hpool
  have hfile : p.files[i]? = some p.slots[i].file := by simp [Pool.files, hslot]
  rw [List.getElem?_append_left (List.getElem?_eq_some_iff.1 hfile).1, hfile] at hf
  exact ⟨_, hslot, Option.some.inj hf⟩

theorem Along.exists_of_mem {P : Segment → List Notice → Prop} (ha : s.Along P h) {id : SegmentId}
    {r : Notice} (hr : (id, r) ∈ h) : ∃ g, s.segments[id]? = some g := by
  have hmem := History.mem_on.2 hr
  have hlt : id < s.segments.length := Nat.lt_of_not_le fun hle => by
    simp [ha.later hle] at hmem
  exact ⟨_, List.getElem?_eq_getElem hlt⟩

/-- A record stands in its file once the writer has dealt with it and its segment saw no failed
write. -/
theorem Logged.stands_of_wrote (hl : s.Logged d dir files h)
    (hfiles : ∀ {i : Nat} {f : FileId}, files[i]? = some f →
      d.content? f = some (.ofBytes Layout.magic)) {id : SegmentId} {g : Segment} {a : Address}
    {data : Bytes} (hg : s.segments[id]? = some g) (hqueue : g.writer.queue = [])
    (hquiet : Notice.failedWrites (h.on id) = []) (hwrote : (id, .wrote a data) ∈ h) :
    ∃ f, files[a.fileIndex]? = some f ∧ s.disk.Stands f a.offset data ∧
      Layout.dataStart ≤ a.offset ∧ data.length ≤ Record.maxLength := by
  obtain ⟨-, handled, waiting, hc⟩ := hl.carrying.each hg
  obtain ⟨rfl, hlanded⟩ := hc.all_landed hqueue hquiet
  obtain ⟨before, after, hall, hindex, hoffset, hlength⟩ := hc.mem_writes (History.mem_on.2 hwrote)
  rw [List.append_nil] at hall
  have hfile := hl.sound.placed.segments hg
  have hinitial := hfiles hfile
  have hlease := lease?_of_some hg
  have hland : Notice.landings (h.on id) =
      Record.encodeAll before ++ Record.encode data ++ Record.encodeAll after := by
    rw [hlanded, hall, Record.encodeAll_append, List.append_assoc]
    rfl
  refine ⟨g.writer.file, by rw [hindex, hfile], ?_, ?_, hlength⟩
  · rw [hoffset]
    exact hl.imaged.stands hlease hfile hinitial hland
  · rw [hoffset, hl.imaged.base hfile hinitial hlease]
    have hmagic : (Content.ofBytes Layout.magic).size = Layout.dataStart := rfl
    omega

theorem Logged.stands_of_answer (hl : s.Logged d dir files h)
    (ha : s.Along (fun g ns => g.Orderly ∧ g.Answered ns) h)
    (hfiles : ∀ {i : Nat} {f : FileId}, files[i]? = some f →
      d.content? f = some (.ofBytes Layout.magic)) {id : SegmentId}
    {a : Address} {data : Bytes} (hwrote : (id, .wrote a data) ∈ h)
    (hanswer : (id, .flushed (.ok ())) ∈ h ∨ (id, .unlocked (.ok ())) ∈ h) :
    ∃ f, files[a.fileIndex]? = some f ∧ s.disk.Stands f a.offset data ∧
      Layout.dataStart ≤ a.offset ∧ data.length ≤ Record.maxLength := by
  obtain ⟨g, hg⟩ := hl.carrying.exists_of_mem hwrote
  obtain ⟨-, handled, waiting, hc⟩ := hl.carrying.each hg
  obtain ⟨horderly, hanswered⟩ := ha.each hg
  obtain ⟨hfinished, hok⟩ := hanswered _ (by rwa [History.mem_on, History.mem_on])
  have hsound : g.writer.failure = none := by
    unfold Segment.checkWriter at hok
    cases hf : g.writer.failure with
    | none => rfl
    | some f => simp [hf] at hok
  obtain ⟨-, hqueue, hknown⟩ := horderly.finished hfinished
  exact hl.stands_of_wrote hfiles hg hqueue (Notice.failedWrites_eq_nil (hc.sound hknown hsound))
    hwrote

theorem stands_after {events later : List Event} {t : Store} {id : SegmentId} {a : Address}
    {data : Bytes}
    (hdb : d.Database dir files)
    (hfiles : ∀ {i : Nat} {f : FileId}, files[i]? = some f →
      d.content? f = some (.ofBytes Layout.magic))
    (hwithin : ∀ event ∈ events ++ later, event.Within d dir files.length)
    (hrun : (ofDisk d).run? events = some s) (hlater : s.run? later = some t)
    (hwrote : (id, .wrote a data) ∈ (ofDisk d).history events)
    (hanswer : (id, .flushed (.ok ())) ∈ (ofDisk d).history events ∨
      (id, .unlocked (.ok ())) ∈ (ofDisk d).history events) :
    t.Placed d dir files ∧ ∃ f, files[a.fileIndex]? = some f ∧ t.disk.Stands f a.offset data ∧
      Layout.dataStart ≤ a.offset ∧ data.length ≤ Record.maxLength := by
  have hall : (ofDisk d).run? (events ++ later) = some t := by rw [run?_append, hrun]; exact hlater
  have hlogged := logged_of_run hdb hwithin hall
  have hkeep : ∀ {r : SegmentId × Notice}, r ∈ (ofDisk d).history events →
      r ∈ (ofDisk d).history (events ++ later) := fun hr => by
    rw [history_append hrun]
    exact List.mem_append_left _ hr
  exact ⟨hlogged.sound.placed, hlogged.stands_of_answer
    (along_of_run Segment.answered_invariant hall) hfiles (hkeep hwrote) (hanswer.imp hkeep hkeep)⟩

/-- Once a flush or an unlock has succeeded, the records of the segment are read back from any pool
over the directory in every later state, also when the second phase of the read comes later still. -/
theorem durable_read_back {d₀ d : Disk} {path : String} {config : Config}
    {events later during : List Event} {s t u : Store} {id : SegmentId} {a : Address} {data : Bytes}
    {pool : PoolId} {p : Pool} (hcreate : Layout.create d₀ path config = (.ok (), d))
    (hon : ∀ event ∈ events ++ (later ++ during), event.On d path config.fileCount.toNat)
    (hrun : (ofDisk d).run? events = some s)
    (hwrote : (id, .wrote a data) ∈ (ofDisk d).history events)
    (hanswer : (id, .flushed (.ok ())) ∈ (ofDisk d).history events ∨
      (id, .unlocked (.ok ())) ∈ (ofDisk d).history events)
    (hlater : s.run? later = some t) (hduring : t.run? during = some u)
    (hp : t.pools[pool]? = some p) (hcount : a.fileIndex < p.fileCount) :
    (∀ buffer, (t.read pool a buffer).1 = .ok data) ∧ (t.readRecord pool a).1 = .ok data ∧
      ∀ buffer, (p.readBetween t.disk u.disk a buffer).1 = .ok data := by
  obtain ⟨-, dir, files, hdir, hdb, hlength, hfiles⟩ := Layout.create_ok hcreate
  have hwithin : ∀ event ∈ events ++ (later ++ during), event.Within d dir files.length :=
    fun event he => hlength ▸ (hon event he).within hdir
  obtain ⟨hplaced, f, hf, hstands, hoffset, hsize⟩ := stands_after hdb (fun hf => (hfiles hf).2)
    (fun event he => hwithin event (by
      rw [← List.append_assoc]
      exact List.mem_append_left _ he)) hrun hlater hwrote hanswer
  obtain ⟨-, f', hf', hstands', -, -⟩ := stands_after hdb (fun hf => (hfiles hf).2) hwithin hrun
    (by rw [run?_append, hlater]; exact hduring) hwrote hanswer
  obtain rfl := Option.some.inj (hf'.symm.trans hf)
  obtain ⟨slot, hslot, rfl⟩ := hplaced.slot_file hp hcount hf
  have hread : ∀ buffer, (t.read pool a buffer).1 = .ok data := by
    intro buffer
    unfold read
    rw [hp]
    exact Pool.readBetween_stands (hplaced.valid hp) hslot hoffset hstands hstands hsize buffer
  exact ⟨hread, hread [],
    Pool.readBetween_stands (hplaced.valid hp) hslot hoffset hstands hstands' hsize⟩

/-! ### One file -/

def oneFile : Disk := (Layout.create (.withDirectory "db") "db" { fileCount := 1 }).2

theorem oneFile_created :
    Layout.create (.withDirectory "db") "db" { fileCount := 1 } = (.ok (), oneFile) := by
  have hcreate : (Layout.create (.withDirectory "db") "db" { fileCount := 1 }).1 = .ok () := by
    decide +kernel
  rw [oneFile, ← hcreate]

def opensOne : Event → Bool
  | .openPool path config => path == "db" && config == { fileCount := 1 }
  | _ => true

theorem on_of_opensOne {events : List Event} (h : events.all opensOne) :
    ∀ event ∈ events, event.On oneFile "db" 1 := by
  rintro event he path config rfl
  have hone := List.all_eq_true.1 h _ he
  simp only [opensOne, Bool.and_eq_true, beq_iff_eq] at hone
  obtain ⟨rfl, rfl⟩ := hone
  exact ⟨rfl, by decide⟩

/-- A record is written and flushed. -/
def flushedRecord : List Event :=
  [.openPool "db" { fileCount := 1 }, .select 0, .take 0, .startLease 0 0 none, .accept 0 [7],
    .enqueue 0, .receive 0 none, .closeQueue 0, .finish 0 none, .endFlush 0]

/-- The file is leased once more, and one byte of a record gets into it. -/
def tornRecord : List Event :=
  [.release 0, .handleReturn 0, .select 0, .take 0, .startLease 0 0 none, .accept 1 [8, 9],
    .enqueue 1, .receive 1 (some ⟨1, .storageFull⟩)]

theorem durable_read_back_beside_torn :
    ∃ s t, (ofDisk oneFile).run? flushedRecord = some s ∧ s.run? tornRecord = some t ∧
      (t.readRecord 0 (.ofParts 0 8)).1 = .ok [7] := by
  have hwrote : (0, .wrote (.ofParts 0 8) [7]) ∈ (ofDisk oneFile).history flushedRecord := by
    decide +kernel
  have hflushed : (0, .flushed (.ok ())) ∈ (ofDisk oneFile).history flushedRecord := by
    decide +kernel
  have hrun : (((ofDisk oneFile).run? flushedRecord).bind fun s => (s.run? tornRecord).bind fun t =>
      t.pools[0]?.bind fun p =>
        if (Address.ofParts 0 8).fileIndex < p.fileCount then some p else none).isSome := by
    decide +kernel
  obtain ⟨p', hrun⟩ := Option.isSome_iff_exists.1 hrun
  obtain ⟨s, hs, hrun⟩ := Option.bind_eq_some_iff.1 hrun
  obtain ⟨t, ht, hrun⟩ := Option.bind_eq_some_iff.1 hrun
  obtain ⟨p, hp, hrun⟩ := Option.bind_eq_some_iff.1 hrun
  split at hrun
  · rename_i hcount
    exact ⟨s, t, hs, ht, (durable_read_back oneFile_created (on_of_opensOne (by decide)) hs hwrote
      (.inl hflushed) ht (run?_nil t) hp hcount).2.1⟩
  · cases hrun

end Store

end RecordStore
