import RecordStore.Proofs.AppendOnly
import RecordStore.Proofs.Errand

/-!
# What put and get do to a directory

On a directory of regular files whose lock is free, `put` adds its record to the smallest file, or
nothing at all, and `get` finds what stands at its address. Both leave the lock free.
-/

namespace RecordStore

/-! ## Disks with the same names -/

namespace Disk

variable {d d' : Disk} {path name : String} {id : FileId}

/-- The same names lead to the same objects, and the same objects are directories. -/
structure SameNames (d d' : Disk) : Prop where
  directories : ∀ id, d'.isDirectory id = d.isDirectory id
  names : ∀ dir name, d'.lookup dir name = d.lookup dir name

namespace SameNames

theorem descend_eq (h : d.SameNames d') : d'.descend = d.descend := by
  funext stack component
  unfold descend find
  simp only [h.directories, h.names]

theorem target_eq (h : d.SameNames d') (path name : String) :
    d'.target path name = d.target path name := by
  unfold target locate directoryAt resolve find
  simp only [h.descend_eq, h.directories, h.names]

theorem openWrite_eq (h : d.SameNames d') (path name : String) :
    d'.openWrite path name = d.openWrite path name := by
  unfold openWrite
  simp only [h.target_eq, h.directories]

end SameNames

theorem sameNames_setObject {c : Content} (hc : d.content? id = some c) (c' : Content) :
    d.SameNames (d.setObject id (.regular c')) := by
  have hobject := content?_eq_some.1 hc
  have hid := content?_lt hc
  constructor
  · intro j
    by_cases hsame : id = j
    · subst hsame
      simp [isDirectory, object?_setObject, hid, hobject]
    · simp [isDirectory, object?_setObject, hsame]
  · intro j name
    by_cases hsame : id = j
    · subst hsame
      simp [lookup, entries, object?_setObject, hid, hobject]
    · simp [lookup, entries, object?_setObject, hsame]

theorem openOrCreate_of_openWrite (h : d.openWrite path name = .ok id) :
    d.openOrCreate path name = (.ok id, d) := by
  have htarget := openWrite_ok h
  obtain ⟨⟨dir, entry⟩, hlocate, hentry⟩ := bind_eq_ok.1 htarget
  unfold openOrCreate
  rw [hlocate]
  split at hentry
  · rename_i hleads
    dsimp only at hleads
    cases entry with
    | none => cases hleads
    | some e =>
      cases e with
      | file j => rw [← h]
      | link target =>
        cases target with
        | none => cases hleads
        | some j => rw [← h]
  · cases hentry

theorem openWrite_of_openOrCreate (h : (d.openOrCreate path name).1 = .ok id) :
    (d.openOrCreate path name).2.openWrite path name = .ok id := by
  have hmade : ∀ {dir : FileId} {entry : Option Entry} {d' : Disk},
      d.locate path name = .ok (dir, entry) → d.GainsFile d' dir name →
      d'.openWrite path name = .ok d.nextId := by
    intro dir entry d' hlocate hgains
    obtain ⟨hname, hat, -⟩ := locate_ok.1 hlocate
    refine openWrite_of_regular ?_ (by rw [hgains.empty]; rfl)
    exact target_ok.2 ⟨hname, dir, hgains.directoryAt hat, hgains.added⟩
  unfold openOrCreate at h ⊢
  split at h
  · cases h
  · rename_i dir hlocate
    cases h
    exact hmade hlocate (gainsFile_createIn (locate_isDirectory hlocate) (locate_ok.1 hlocate).2.2)
  · rename_i dir hlocate
    cases h
    exact hmade hlocate
      (gainsFile_createBehind (locate_isDirectory hlocate) (locate_ok.1 hlocate).2.2)
  · exact h

end Disk

/-! ## Directories of regular files -/

namespace Layout

open Disk

variable {d d' : Disk} {locks : List FileId} {path : String} {files : List FileId} {f : FileId}

/-- The names of the backing files lead to regular files. -/
structure Present (d : Disk) (path : String) (files : List FileId) : Prop where
  names : ∀ {i : Nat} {f : FileId}, files[i]? = some f → d.target path (fileName i) = .ok f
  regular : ∀ {f : FileId}, f ∈ files → (d.content? f).isSome

theorem Present.extends (h : Present d path files) (hextends : d.Extends d') :
    Present d' path files where
  names hf := hextends.target_ok (h.names hf)
  regular {f} hf := by
    obtain ⟨c, hc⟩ := Option.isSome_iff_exists.1 (h.regular hf)
    rw [hextends.content_some hc]
    rfl

theorem present_of_tags (hfiles : ∀ {i : Nat} {f : FileId}, files[i]? = some f →
      d.target path (fileName i) = .ok f ∧ d.content? f = some (.ofBytes magic)) :
    Present d path files ∧ ∀ f ∈ files, d.content? f = some (.ofBytes magic) := by
  have hcontent : ∀ f ∈ files, d.content? f = some (.ofBytes magic) := by
    intro f hf
    obtain ⟨i, hi⟩ := List.getElem?_of_mem hf
    exact (hfiles hi).2
  exact ⟨⟨fun hf => (hfiles hf).1, fun hf => by rw [hcontent _ hf]; rfl⟩, hcontent⟩

theorem Present.setObject (h : Present d path files) {c : Content} (hc : d.content? f = some c)
    (c' : Content) : Present (d.setObject f (.regular c')) path files where
  names hf := by
    rw [(sameNames_setObject hc c').target_eq]
    exact h.names hf
  regular {j} hj := by
    rw [content?_setObject d f c' j (content?_lt hc)]
    split
    · rfl
    · exact h.regular hj

theorem Lockable.again (h : Lockable d locks path) :
    Lockable (d.openOrCreate path lockName).2 locks path := by
  obtain ⟨id, hopen, hfree⟩ := h
  exact ⟨id, by rw [openOrCreate_of_openWrite (openWrite_of_openOrCreate hopen)], hfree⟩

theorem Lockable.setObject (h : Lockable d locks path) {c : Content} (hc : d.content? f = some c)
    (c' : Content) :
    Lockable ((d.openOrCreate path lockName).2.setObject f (.regular c')) locks path := by
  obtain ⟨id, hopen, hfree⟩ := h
  have hc' := (d.openOrCreate_extends path lockName).content_some hc
  have hthere := openWrite_of_openOrCreate hopen
  rw [← (sameNames_setObject hc' c').openWrite_eq] at hthere
  exact ⟨id, by rw [openOrCreate_of_openWrite hthere], hfree⟩

end Layout

/-! ## Opening the directory -/

def Disk.sizeOf (d : Disk) (files : List FileId) (i : Nat) : Nat := files[i]?.elim 0 d.size

namespace Pool

open Layout

variable {p : Pool} {d : Disk} {locks : List FileId} {path : String} {config : Config}
  {files : List FileId}

theorem Fresh.settle (h : p.Fresh d) (hpos : 0 < p.fileCount) :
    ∃ i, Foremost p.frontier (· < p.fileCount) i ∧
      p.settle d = { p with available := p.available.set i false, selected := some i } := by
  obtain ⟨i, hchoice⟩ := exists_choice ⟨hpos, h.all 0 hpos⟩
  refine ⟨i, (choice_foremost hchoice).congr (fun j => ⟨fun hj => ⟨hj, h.all j hj⟩, And.left⟩)
    fun _ _ => rfl, ?_⟩
  have hseen : ({ p.returns.foldl (markAvailable d) p with returns := [] } : Pool) = p := by
    rw [h.noReturn, List.foldl_nil, ← h.noReturn]
  have hselect : p.select? =
      some { p with available := p.available.set i false, selected := some i } := by
    simp [select?, h.isOpen, h.noOffer, hchoice]
  unfold Pool.settle
  rw [if_pos ⟨h.isOpen, h.noOffer⟩]
  dsimp only
  rw [hseen, hselect]
  rfl

/-- A directory of regular files whose lock is free opens as a pool of these files. -/
theorem openAt_present (hnamed : path ≠ "") (h : Present d path files) (hvalid : config.Valid)
    (hcount : config.fileCount.toNat = files.length) (hlock : Lockable d locks path) :
    ∃ p, openAt d locks path config =
        (.ok p, (d.openOrCreate path lockName).2, p.lockFile :: locks) ∧
      p.Fresh (d.openOrCreate path lockName).2 ∧ p.config = config ∧ p.files = files ∧
      p.owners = 1 := by
  have hregular : ∀ i < config.fileCount.toNat, d.isRegularAt path (fileName i) := by
    intro i hi
    rw [hcount] at hi
    have hf := List.getElem?_eq_getElem hi
    exact Disk.isRegularAt_iff.2 ⟨_, h.names hf, h.regular (List.mem_of_getElem? hf)⟩
  have hok := openAt_of_regular hnamed hvalid hregular hlock
  obtain ⟨answer, d', locks', hopen⟩ : ∃ answer d' locks',
      openAt d locks path config = (answer, d', locks') := ⟨_, _, _, rfl⟩
  rw [hopen] at hok
  obtain ⟨p, rfl⟩ := isOk_iff.1 hok
  have hfresh := fresh_of_openAt hopen
  have hextends := openAt_extends hopen
  obtain ⟨-, lockFile, slots, hacquire, hslots, rfl⟩ := openAt_ok hopen
  obtain ⟨hcreate, -, rfl⟩ := acquireLock_ok hacquire
  obtain ⟨hlength, htargets⟩ := openSlots_ok hslots
  rw [List.length_range] at hlength
  rw [hcreate]
  refine ⟨_, hopen, hfresh, rfl, ?_, rfl⟩
  refine List.ext_getElem (by simp [Pool.files, hlength, hcount]) fun i hi hi' => ?_
  have hslot : i < slots.length := by rwa [hlength, hcount]
  have htarget := htargets (List.getElem?_range (hlength ▸ hslot)) (List.getElem?_eq_getElem hslot)
  have hname := hextends.target_ok (h.names (List.getElem?_eq_getElem hi'))
  rw [htarget] at hname
  simpa [Pool.files] using Except.ok.inj hname

end Pool

namespace Store

open Layout

variable {s : Store} {path : String} {config : Config} {files : List FileId}

theorem openPool_of_openAt {p : Pool} {d : Disk} {locks : List FileId}
    (h : Pool.openAt s.disk s.locks path config = (.ok p, d, locks)) :
    s.openPool path config = (.ok s.pools.length,
      { s with disk := d, locks, pools := s.pools ++ [p.settle d] }) := by
  have hthere : (s.pools ++ [p])[s.pools.length]? = some p := List.getElem?_concat_length
  have hadd : s.addPool path config =
      (.ok s.pools.length, { s with disk := d, locks, pools := s.pools ++ [p] }) := by
    unfold addPool
    rw [h]
  unfold openPool
  rw [hadd]
  dsimp only
  rw [settlePool_of_pool hthere]
  simp [setPool]

/-- The pool of a command offers the smallest file, and among equals the first. -/
theorem openPool_present (hnamed : path ≠ "") (h : Present s.disk path files)
    (hvalid : config.Valid)
    (hcount : config.fileCount.toNat = files.length) (hlock : Lockable s.disk s.locks path)
    (hprompt : s.failuresHeld = false) :
    ∃ p i t, s.openPool path config = (.ok s.pools.length, t) ∧
      t.disk = (s.disk.openOrCreate path lockName).2 ∧ t.Serving s.pools.length s.locks 1 ∧
      t.pools[s.pools.length]? = some p ∧ p.config = config ∧ p.files = files ∧
      p.selected = some i ∧ Foremost (s.disk.sizeOf files) (· < files.length) i := by
  obtain ⟨p, hopen, hfresh, hconfig, hfiles, howners⟩ :=
    Pool.openAt_present hnamed h hvalid hcount hlock
  have hlength : p.fileCount = files.length := by rw [← p.length_files, hfiles]
  have hextends := s.disk.openOrCreate_extends path lockName
  have hsizes : ∀ j, j < p.fileCount → s.disk.sizeOf files j = p.frontier j := by
    intro j hj
    have hslot : p.slots[j]? = some p.slots[j] := List.getElem?_eq_getElem hj
    have hf : files[j]? = some p.slots[j].file := by
      rw [← hfiles, Pool.files, List.getElem?_map, hslot]
      rfl
    obtain ⟨c, hc⟩ := Option.isSome_iff_exists.1 (h.regular (List.mem_of_getElem? hf))
    rw [Disk.sizeOf, hf, Pool.frontier, hslot]
    show s.disk.size p.slots[j].file = p.slots[j].frontier
    rw [hfresh.frontier _ (List.mem_of_getElem? hslot), Disk.size, Disk.size,
      hextends.content_some hc, hc]
  obtain ⟨i, hforemost, hsettle⟩ :=
    hfresh.settle (by rw [hlength, ← hcount]; exact (config.valid_iff.1 hvalid).1.1)
  have hoffers := hforemost.congr (fun j => by rw [hlength]) hsizes
  rw [openPool_of_openAt hopen, hsettle]
  exact ⟨_, i, _, rfl, rfl, ⟨hprompt, _, List.getElem?_concat_length, hfresh.isOpen, howners, rfl⟩,
    List.getElem?_concat_length, hconfig, hfiles, rfl, hoffers⟩

end Store

/-! ## The commands -/

namespace Command

open Layout Record

variable {s t u : Store} {path : String} {config : Config} {files : List FileId} {id : PoolId}
  {data : String} {hex : Bool} {payload : Bytes} {logs : List String}

theorem openPool_of_ok (h : s.openPool path config = (.ok id, t)) :
    openPool s path config = (.ok id, t) := by
  unfold openPool
  rw [h]

theorem put_of_record {a : Address} (hpayload : putPayload data hex = .ok payload)
    (hopen : s.openPool path config = (.ok id, t))
    (hput : putRecord t id payload = (.ok a, logs, u)) :
    put s path config data hex =
      ({ out := line a.text, logs := openedLog path config.fileCount :: logs }, u.closePool id) := by
  unfold put
  rw [hpayload]
  dsimp only
  rw [openPool_of_ok hopen]
  dsimp only
  rw [hput]

theorem put_of_error {e : Error} (hpayload : putPayload data hex = .ok payload)
    (hopen : s.openPool path config = (.ok id, t))
    (hput : putRecord t id payload = (.error e, logs, u)) :
    put s path config data hex =
      (failed e.debugText (openedLog path config.fileCount :: logs), u.closePool id) := by
  unfold put
  rw [hpayload]
  dsimp only
  rw [openPool_of_ok hopen]
  dsimp only
  rw [hput]

theorem put_of_refused {e : Error} (hpayload : putPayload data hex = .ok payload)
    (hopen : s.openPool path config = (.error e, t)) :
    (put s path config data hex).1.exit = 1 ∧ (put s path config data hex).2 = t := by
  unfold put openPool
  rw [hpayload, hopen]
  cases e <;> exact ⟨rfl, rfl⟩

theorem get_of_record {text : String} {a : Address} (htext : Address.ofText text.toList = .ok a)
    (hopen : s.openPool path config = (.ok id, t)) (hread : t.readRecord id a = (.ok payload, u)) :
    get s path config text hex =
      ({ out := line (payloadText payload hex), logs := [openedLog path config.fileCount] },
        u.closePool id) := by
  unfold get
  rw [htext]
  dsimp only
  rw [openPool_of_ok hopen]
  dsimp only
  rw [hread]

/-- What a put of a payload does when `c` is in the smallest file, the first among equals: a record
that fits goes behind it and its address is printed, and any other is refused and no file changes. The
lock is free again either way. -/
structure PutEffect (s : Store) (path : String) (config : Config) (files : List FileId)
    (payload : Bytes) (result : Outcome × Store) (i : Nat) (f : FileId) (c : Content) : Prop where
  file : files[i]? = some f
  content : s.disk.content? f = some c
  foremost : Foremost (s.disk.sizeOf files) (· < files.length) i
  locks : result.2.locks = s.locks
  prompt : result.2.failuresHeld = false
  fits : Fits c.size payload →
    result.1 = { out := line (Address.ofParts i c.size).text
                 logs := [openedLog path config.fileCount] } ∧
      result.2.disk = (s.disk.openOrCreate path lockName).2.setObject f
        (.regular (c.write c.size (encode payload)))
  refused : ¬ Fits c.size payload →
    (∃ debug, result.1 = failed debug [openedLog path config.fileCount]) ∧
      result.2.disk = (s.disk.openOrCreate path lockName).2

theorem lt_maxFileIndex (hvalid : config.Valid) (hcount : config.fileCount.toNat = files.length)
    {i : Nat} (hi : i < files.length) : i < Address.maxFileIndex := by
  have hmax := (config.valid_iff.1 hvalid).1.2
  rw [Config.maxFileCount] at hmax
  rw [Address.maxFileIndex_eq]
  omega

theorem put_effect (hnamed : path ≠ "") (h : Present s.disk path files) (hvalid : config.Valid)
    (hcount : config.fileCount.toNat = files.length) (hlock : Lockable s.disk s.locks path)
    (hprompt : s.failuresHeld = false) (hpayload : putPayload data hex = .ok payload) :
    ∃ i f c, PutEffect s path config files payload (put s path config data hex) i f c := by
  obtain ⟨p, i, t, hopen, hdisk, ht, hp, hconfig, hfiles, hoffer, hforemost⟩ :=
    Store.openPool_present hnamed h hvalid hcount hlock hprompt
  have hi := lt_maxFileIndex hvalid hcount hforemost.mem
  obtain ⟨f, hf⟩ : ∃ f, files[i]? = some f := ⟨_, List.getElem?_eq_getElem hforemost.mem⟩
  obtain ⟨c, hc⟩ := Option.isSome_iff_exists.1 (h.regular (List.mem_of_getElem? hf))
  have hc' : t.disk.content? f = some c := by
    rw [hdisk]
    exact (s.disk.openOrCreate_extends path lockName).content_some hc
  by_cases hfits : Fits c.size payload
  · obtain ⟨u, hput, hadded, hu⟩ :=
      putRecord_of_fits ht hp hoffer (hfiles ▸ hf) hi (hconfig ▸ hvalid) hc' hfits
    obtain ⟨hsame, hlocks, hprompt'⟩ := hu.closePool
    rw [put_of_record hpayload hopen hput]
    refine ⟨i, f, c, hf, hc, hforemost, hlocks, hprompt', fun _ => ⟨rfl, ?_⟩,
      fun hnot => absurd hfits hnot⟩
    rw [hsame, hadded, hdisk]
  · obtain ⟨e, u, hput, hkept, hu⟩ :=
      putRecord_of_not_fits ht hp hoffer (hfiles ▸ hf) hi hc' hfits
    obtain ⟨hsame, hlocks, hprompt'⟩ := hu.closePool
    rw [put_of_error hpayload hopen hput]
    refine ⟨i, f, c, hf, hc, hforemost, hlocks, hprompt', fun hfits' => absurd hfits' hfits,
      fun _ => ⟨⟨e.debugText, rfl⟩, ?_⟩⟩
    rw [hsame, hkept, hdisk]

theorem get_effect (hnamed : path ≠ "") (h : Present s.disk path files) (hvalid : config.Valid)
    (hcount : config.fileCount.toNat = files.length) (hlock : Lockable s.disk s.locks path)
    (hprompt : s.failuresHeld = false) {text : String} {a : Address} {f : FileId}
    (htext : Address.ofText text.toList = .ok a) (hf : files[a.fileIndex]? = some f)
    (hoffset : dataStart ≤ a.offset) (hstands : s.disk.Stands f a.offset payload)
    (hlength : payload.length ≤ maxLength) (hex : Bool) :
    (get s path config text hex).1 =
        { out := line (payloadText payload hex)
          logs := [openedLog path config.fileCount] } ∧
      (get s path config text hex).2.disk = (s.disk.openOrCreate path lockName).2 ∧
      (get s path config text hex).2.locks = s.locks := by
  obtain ⟨p, i, t, hopen, hdisk, ht, hp, hconfig, hfiles, -, -⟩ :=
    Store.openPool_present hnamed h hvalid hcount hlock hprompt
  have hstands' : t.disk.Stands f a.offset payload := by
    obtain ⟨c, hc, hrecord⟩ := hstands
    rw [hdisk]
    exact ⟨c, (s.disk.openOrCreate_extends path lockName).content_some hc, hrecord⟩
  rw [← hfiles, Pool.files, List.getElem?_map] at hf
  obtain ⟨slot, hslot, rfl⟩ := Option.map_eq_some_iff.1 hf
  have hanswer : (t.readRecord s.pools.length a).1 = .ok payload := by
    have hread := Pool.readBetween_stands (hconfig ▸ hvalid) hslot hoffset hstands' hstands'
      hlength []
    simpa [Store.readRecord, Store.read, hp, Pool.read] using hread
  have hsame : (t.readRecord s.pools.length a).2.disk = t.disk := by
    simp [Store.readRecord, Store.read, hp]
  obtain ⟨hclosed, hlocks, -⟩ := (ht.readRecord a).closePool
  rw [get_of_record htext hopen (Prod.ext hanswer rfl)]
  exact ⟨rfl, (hclosed.trans hsame).trans hdisk, hlocks⟩

end Command

end RecordStore
