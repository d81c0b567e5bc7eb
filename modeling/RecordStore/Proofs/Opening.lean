import RecordStore.Proofs.Creation
import RecordStore.Store.Call

/-!
# A refused open

An open that is refused leaves the store as it was, but for a lock file that may be new. It says that
the database is not there when the directory or its first file is missing, or when it holds the lock
and a later file leads nowhere.
-/

namespace RecordStore

theorem isOk_iff {ε α : Type} {x : Except ε α} : x.isOk ↔ ∃ a, x = .ok a := by
  cases x <;> simp [Except.isOk, Except.toBool]

/-! ## Texts of paths -/

namespace Path

theorem check_ok {path : String} :
    check path = .ok () ↔ '\x00' ∉ path.toList ∧ path.utf8ByteSize ≤ maxSize := by
  unfold check
  constructor
  · intro h
    split at h
    · cases h
    · split at h
      · cases h
      · exact ⟨‹_›, by omega⟩
  · rintro ⟨htext, hsize⟩
    rw [if_neg htext, if_neg (by omega)]

theorem join_eq (dir : String) :
    ∃ slash, slash.utf8ByteSize ≤ 1 ∧ ∀ other, join dir other = dir ++ slash ++ other := by
  by_cases h : dir.isEmpty || dir.endsWith "/"
  · exact ⟨"", by decide, fun other => by simp [join, h]⟩
  · exact ⟨"/", by decide, fun other => by simp only [join, if_neg h]⟩

theorem check_of_join {dir name : String} (h : check (join dir name) = .ok ()) :
    check dir = .ok () := by
  obtain ⟨slash, -, hjoin⟩ := join_eq dir
  obtain ⟨htext, hsize⟩ := check_ok.1 h
  rw [hjoin] at htext hsize
  simp only [String.toList_append, List.mem_append, not_or] at htext
  simp only [String.utf8ByteSize_append] at hsize
  exact check_ok.2 ⟨htext.1.1, by omega⟩

theorem check_join_of_le {dir a b : String} (hsize : b.utf8ByteSize ≤ a.utf8ByteSize)
    (htext : '\x00' ∉ b.toList) (h : check (join dir a) = .ok ()) :
    check (join dir b) = .ok () := by
  obtain ⟨slash, -, hjoin⟩ := join_eq dir
  obtain ⟨hdir, hlength⟩ := check_ok.1 h
  rw [hjoin] at hdir hlength
  rw [check_ok, hjoin]
  simp only [String.toList_append, List.mem_append, not_or, String.utf8ByteSize_append] at *
  exact ⟨⟨hdir.1, htext⟩, by omega⟩

end Path

/-! ## A file that is new -/

namespace Disk

variable {d d' : Disk}

/-- All that is new is an empty file, under a name that led nowhere. -/
structure GainsFile (d d' : Disk) (dir : FileId) (name : String) : Prop extends Extends d d' where
  absent : d.leadsTo dir name = none
  added : d'.leadsTo dir name = some d.nextId
  empty : d'.content? d.nextId = some {}
  count : d'.objects.length = d.objects.length + 1
  names : ∀ other, other ≠ name → d'.lookup dir other = d.lookup dir other
  others : ∀ id < d.objects.length, id ≠ dir → d'.object? id = d.object? id

theorem gainsFile_relist {dir : FileId} {name : String} {es : List (String × Entry)}
    (hdir : d.isDirectory dir) (habsent : d.leadsTo dir name = none)
    (hadded : (es.lookup name).bind Entry.target? = some d.nextId)
    (hnames : ∀ other, other ≠ name → es.lookup other = d.lookup dir other) :
    d.GainsFile (d.relist dir (.regular {}) es) dir name := by
  have hlt := lt_of_isDirectory hdir
  have hdirectory : (d.relist dir (.regular {}) es).entries dir = es := by
    simp [entries, object?_relist _ es hdir dir hlt]
  refine ⟨extends_relist _ hdir fun {other} {id} hid => ?_, habsent, ?_, ?_, ?_, fun other hne => ?_,
    fun id hid hne => ?_⟩
  · have hne : other ≠ name := by
      rintro rfl
      simp [habsent] at hid
    rw [hnames other hne]
    exact hid
  · rw [leadsTo, lookup, hdirectory]
    exact hadded
  · have hne : dir ≠ d.nextId := Nat.ne_of_lt hlt
    rw [relist, content?, object?_setObject, if_neg hne, object?_add_new]
  · simp [relist, add, setObject]
  · rw [lookup, hdirectory]
    exact hnames other hne
  · rw [object?_relist _ es hdir id hid, if_neg hne.symm]

theorem gainsFile_createIn {dir : FileId} {name : String} (hdir : d.isDirectory dir)
    (hentry : d.lookup dir name = none) :
    d.GainsFile (d.createIn dir name (.regular {})) dir name := by
  rw [createIn_eq_relist _ hdir]
  refine gainsFile_relist hdir (by simp [leadsTo, hentry]) ?_ fun other hne => ?_
  · rw [lookup] at hentry
    simp [List.lookup_append, hentry, Entry.target?]
  · have hother : (other == name) = false := by simpa using hne
    simp [lookup, List.lookup_append, List.lookup_cons, hother]

theorem gainsFile_createBehind {dir : FileId} {name : String} (hdir : d.isDirectory dir)
    (hentry : d.lookup dir name = some (.link none)) :
    d.GainsFile (d.createBehind dir name (.regular {})) dir name := by
  rw [createBehind_eq_relist _ hdir]
  refine gainsFile_relist hdir (by simp [leadsTo, hentry, Entry.target?]) ?_ fun other hne => ?_
  · have hgone : ((d.entries dir).filter fun e => e.1 != name).lookup name = none := by
      simpa using fun a b _ (hne : ¬ a = name) hsame => hne hsame.symm
    simp [List.lookup_append, hgone, Entry.target?]
  · have hother : (other == name) = false := by simpa using hne
    simp [lookup, List.lookup_append, List.lookup_cons, lookup_filter_ne hne, hother]

theorem openOrCreate_cases (d : Disk) (path name : String) :
    (d.openOrCreate path name).2 = d ∨
      ∃ dir, d.directoryAt (Path.components path) = .ok dir ∧
        d.GainsFile (d.openOrCreate path name).2 dir name := by
  unfold openOrCreate
  split
  · exact .inl rfl
  · rename_i dir hlocate
    obtain ⟨-, hat, hentry⟩ := locate_ok.1 hlocate
    exact .inr ⟨dir, hat, gainsFile_createIn (locate_isDirectory hlocate) hentry⟩
  · rename_i dir hlocate
    obtain ⟨-, hat, hentry⟩ := locate_ok.1 hlocate
    exact .inr ⟨dir, hat, gainsFile_createBehind (locate_isDirectory hlocate) hentry⟩
  · exact .inl rfl

theorem isRegularAt_iff {path name : String} :
    d.isRegularAt path name ↔ ∃ id, d.target path name = .ok id ∧ (d.content? id).isSome := by
  unfold isRegularAt
  constructor
  · intro h
    split at h
    · exact ⟨_, ‹_›, h⟩
    · cases h
  · rintro ⟨id, htarget, hregular⟩
    rw [htarget]
    exact hregular

theorem openWrite_of_regular {path name : String} {id : FileId}
    (htarget : d.target path name = .ok id) (hregular : (d.content? id).isSome) :
    d.openWrite path name = .ok id := by
  obtain ⟨c, hc⟩ := Option.isSome_iff_exists.1 hregular
  have hfile : ¬ d.isDirectory id := by
    simp [isDirectory, content?_eq_some.1 hc]
  exact bind_eq_ok.2 ⟨id, htarget, if_neg hfile⟩

theorem openWrite_notFound {path name : String} {dir : FileId} {entry : Option Entry}
    (h : d.locate path name = .ok (dir, entry)) :
    d.openWrite path name = .error .notFound ↔ ¬ d.holds path name := by
  unfold openWrite holds target
  rw [h]
  dsimp only [bind, Except.bind]
  cases entry.bind Entry.target? with
  | none => simp [isOk_iff]
  | some id =>
    dsimp only
    split <;> simp [isOk_iff]

namespace GainsFile

variable {dir : FileId} {name other path : String}

theorem isDirectory_eq (h : d.GainsFile d' dir name) (hdir : d.isDirectory dir) (id : FileId) :
    d'.isDirectory id = d.isDirectory id := by
  rcases Nat.lt_trichotomy id d.objects.length with hid | rfl | hid
  · by_cases hsame : id = dir
    · rw [hsame, hdir, h.directory hdir]
    · exact isDirectory_of_object? (h.others id hid hsame)
  · have hnew := content?_eq_some.1 h.empty
    have hold : d.object? d.objects.length = none := List.getElem?_eq_none_iff.2 (Nat.le_refl _)
    rw [nextId] at hnew
    simp [isDirectory, hnew, hold]
  · have hnew : d'.object? id = none := by
      apply List.getElem?_eq_none_iff.2
      rw [h.count]
      omega
    have hold : d.object? id = none := List.getElem?_eq_none_iff.2 (Nat.le_of_lt hid)
    simp [isDirectory, hnew, hold]

theorem target_eq (h : d.GainsFile d' dir name)
    (hat : d.directoryAt (Path.components path) = .ok dir) (hne : other ≠ name) :
    d'.target path other = d.target path other := by
  unfold target locate find
  rw [hat, h.directoryAt hat]
  dsimp only [bind, Except.bind]
  rw [h.names other hne]

theorem openWrite_eq (h : d.GainsFile d' dir name)
    (hat : d.directoryAt (Path.components path) = .ok dir) (hne : other ≠ name) :
    d'.openWrite path other = d.openWrite path other := by
  unfold openWrite
  rw [h.target_eq hat hne]
  simp only [h.isDirectory_eq (directoryAt_ok.1 hat).2]

end GainsFile

end Disk

/-! ## The names in a storage directory -/

namespace Layout

open Disk

variable {d : Disk} {locks : List FileId} {path : String}

theorem padded_plain : ∀ i < 256, (String.ofList (Hex.padded 2 i)).utf8ByteSize = 2 ∧
    '\x00' ∉ Hex.padded 2 i := by
  decide +kernel

theorem fileName_plain (i : Nat) (hi : i < 256) : (fileName i).utf8ByteSize = 16 ∧
    '\x00' ∉ (fileName i).toList ∧ fileName i ≠ lockName := by
  obtain ⟨hdigits, htext⟩ := padded_plain i hi
  have hsize : (fileName i).utf8ByteSize = 16 := by
    simp only [fileName, String.utf8ByteSize_append, hdigits]
    decide
  refine ⟨hsize, by simp [fileName, htext], fun hlock => ?_⟩
  rw [hlock] at hsize
  revert hsize
  decide

theorem locate_beside {i : Nat} {file : FileId} {name : String} (hi : i < 256)
    (h : d.target path (fileName i) = .ok file) (hsize : name.utf8ByteSize ≤ 16)
    (htext : '\x00' ∉ name.toList) :
    ∃ dir, d.directory path = .ok dir ∧ d.locate path name = .ok (dir, d.lookup dir name) := by
  obtain ⟨⟨hcheck, -⟩, dir, hat, -⟩ := target_ok.1 h
  refine ⟨dir, directory_ok.2 ⟨Path.check_of_join hcheck, hat⟩, locate_ok.2 ⟨⟨?_, ?_⟩, hat, rfl⟩⟩
  · exact Path.check_join_of_le (by rw [(fileName_plain i hi).1]; exact hsize) htext hcheck
  · exact Nat.le_trans hsize (by decide)

theorem locate_fileName {i j : Nat} {file : FileId} (hi : i < 256) (hj : j < 256)
    (h : d.target path (fileName i) = .ok file) :
    ∃ dir, d.directory path = .ok dir ∧
      d.locate path (fileName j) = .ok (dir, d.lookup dir (fileName j)) := by
  obtain ⟨hsize, htext, -⟩ := fileName_plain j hj
  exact locate_beside hi h (Nat.le_of_eq hsize) htext

/-- Only the empty path has files inside it and names no directory. -/
theorem directoryNamed_of_first (hnamed : path ≠ "") (h : d.isRegularAt path (fileName 0)) :
    (d.directoryNamed path).isOk := by
  obtain ⟨file, htarget, -⟩ := isRegularAt_iff.1 h
  obtain ⟨dir, hdir, -⟩ := locate_fileName (j := 0) (by omega) (by omega) htarget
  exact isOk_iff.2 ⟨dir, directoryNamed_ok.2 ⟨hnamed, hdir⟩⟩

/-- The lock file can be opened or made, and nobody has locked it. -/
def Lockable (d : Disk) (locks : List FileId) (path : String) : Prop :=
  ∃ id, (d.openOrCreate path lockName).1 = .ok id ∧ id ∉ locks

theorem acquireLock_of_lockable (h : Lockable d locks path) :
    ∃ id, acquireLock d locks path = (.ok id, (d.openOrCreate path lockName).2, id :: locks) := by
  obtain ⟨id, hopen, hfree⟩ := h
  have hpair : d.openOrCreate path lockName = (.ok id, (d.openOrCreate path lockName).2) :=
    Prod.ext hopen rfl
  refine ⟨id, ?_⟩
  unfold acquireLock
  rw [hpair]
  simp [hfree]

theorem acquireLock_of_not_lockable (h : ¬ Lockable d locks path) :
    ∃ e, acquireLock d locks path = (.error e, (d.openOrCreate path lockName).2, locks) ∧
      (∀ q, e ≠ .notCreated q) ∧ ∀ refusal, e ≠ .invalidArgument refusal := by
  obtain ⟨answer, d', hopen⟩ : ∃ answer d', d.openOrCreate path lockName = (answer, d') :=
    ⟨_, _, rfl⟩
  unfold Lockable at h
  unfold acquireLock
  rw [hopen] at h ⊢
  cases answer with
  | error e => exact ⟨_, rfl, by simp⟩
  | ok id =>
    have hlocked : id ∈ locks := by
      by_contra hfree
      exact h ⟨id, rfl, hfree⟩
    dsimp only
    rw [if_pos (by simpa using hlocked)]
    exact ⟨_, rfl, by simp⟩

theorem openWrite_openOrCreate {i : Nat} (hi : i < 256) :
    (d.openOrCreate path lockName).2.openWrite path (fileName i) =
      d.openWrite path (fileName i) := by
  rcases d.openOrCreate_cases path lockName with h | ⟨dir, hat, hgains⟩
  · rw [h]
  · exact hgains.openWrite_eq hat (fileName_plain i hi).2.2

theorem openFile_isOk {i : Nat} :
    (openFile d path i).isOk ↔ (d.openWrite path (fileName i)).isOk := by
  unfold openFile
  split <;> simp_all [isOk_iff]

theorem openFile_notCreated {i : Nat} {q : String} :
    openFile d path i = .error (.notCreated q) ↔
      d.openWrite path (fileName i) = .error .notFound ∧ q = filePath path i := by
  unfold openFile
  split
  · simp_all
  · simp_all [eq_comm]
  · simp_all

end Layout

/-! ## Opening the files in turn -/

namespace Pool

open Disk Layout

variable {d : Disk} {locks : List FileId} {path q : String} {config : Config}

theorem openSlots_notCreated {is : List Nat} :
    openSlots d path is = .error (.notCreated q) ↔
      ∃ before i after, is = before ++ i :: after ∧
        (∀ j ∈ before, (d.openWrite path (fileName j)).isOk) ∧
        d.openWrite path (fileName i) = .error .notFound ∧ q = filePath path i := by
  induction is with
  | nil => simp [openSlots]
  | cons k rest ih =>
    rw [openSlots, bind_eq_error, openFile_notCreated]
    constructor
    · rintro (⟨hmissing, rfl⟩ | ⟨file, hfile, h⟩)
      · exact ⟨[], k, rest, rfl, by simp, hmissing, rfl⟩
      · have hk : (d.openWrite path (fileName k)).isOk := by
          rw [← openFile_isOk, hfile]
          rfl
        rcases bind_eq_error.1 h with h | ⟨slots, -, h⟩
        · obtain ⟨before, i, after, rfl, hbefore, hmissing⟩ := ih.1 h
          exact ⟨k :: before, i, after, rfl, by simpa [hk] using hbefore, hmissing⟩
        · cases h
    · rintro ⟨before, i, after, hsplit, hbefore, hmissing⟩
      cases before with
      | nil =>
        obtain ⟨rfl, -⟩ := List.cons.inj hsplit
        exact .inl hmissing
      | cons j before =>
        obtain ⟨rfl, rfl⟩ := List.cons.inj hsplit
        right
        obtain ⟨file, hfile⟩ := isOk_iff.1 (openFile_isOk.2 (hbefore k List.mem_cons_self))
        refine ⟨file, hfile, bind_eq_error.2 (.inl (ih.2 ⟨before, i, after, rfl, ?_, hmissing⟩))⟩
        exact fun j hj => hbefore j (List.mem_cons_of_mem _ hj)

theorem openSlots_range_notCreated {count : Nat} :
    openSlots d path (List.range count) = .error (.notCreated q) ↔
      ∃ i < count, (∀ j < i, (d.openWrite path (fileName j)).isOk) ∧
        d.openWrite path (fileName i) = .error .notFound ∧ q = filePath path i := by
  rw [openSlots_notCreated]
  constructor
  · rintro ⟨before, i, after, hsplit, hbefore, hmissing⟩
    obtain ⟨rfl, hi⟩ := range_eq_append_cons hsplit
    exact ⟨i, hi, fun j hj => hbefore j (List.mem_range.2 hj), hmissing⟩
  · rintro ⟨i, hi, hbefore, hmissing⟩
    obtain ⟨after, hsplit⟩ := range_eq_append_of_lt hi
    exact ⟨_, i, after, hsplit, fun j hj => hbefore j (List.mem_range.1 hj), hmissing⟩

theorem openSlots_missing {count : Nat} (hcount : count ≤ 256)
    (hfirst : d.isRegularAt path (fileName 0)) :
    openSlots (d.openOrCreate path lockName).2 path (List.range count) =
        .error (.notCreated q) ↔
      ∃ i, 0 < i ∧ i < count ∧
        (∀ j, 0 < j → j < i → (d.openWrite path (fileName j)).isOk) ∧
        ¬ d.holds path (fileName i) ∧ q = filePath path i := by
  obtain ⟨file, htarget, hregular⟩ := isRegularAt_iff.1 hfirst
  have hmissing : ∀ i < 256, d.openWrite path (fileName i) = .error .notFound ↔
      ¬ d.holds path (fileName i) := by
    intro i hi
    obtain ⟨dir, -, hlocate⟩ := locate_fileName (by omega) hi htarget
    exact openWrite_notFound hlocate
  rw [openSlots_range_notCreated]
  constructor
  · rintro ⟨i, hi, hbefore, hnot, rfl⟩
    rw [openWrite_openOrCreate (by omega), hmissing i (by omega)] at hnot
    refine ⟨i, ?_, hi, fun j _ hj => ?_, hnot, rfl⟩
    · apply Nat.pos_of_ne_zero
      rintro rfl
      simp [holds, htarget, isOk_iff] at hnot
    · have hopen := hbefore j hj
      rwa [openWrite_openOrCreate (by omega)] at hopen
  · rintro ⟨i, hpos, hi, hbefore, hnot, rfl⟩
    refine ⟨i, hi, fun j hj => ?_, ?_, rfl⟩
    · rw [openWrite_openOrCreate (by omega)]
      rcases Nat.eq_zero_or_pos j with rfl | hj0
      · rw [openWrite_of_regular htarget hregular]
        rfl
      · exact hbefore j hj0 hj
    · rw [openWrite_openOrCreate (by omega), hmissing i (by omega)]
      exact hnot

/-- The three ways in which an open finds that the database is not there, and what it names. -/
theorem openAt_notCreated :
    (openAt d locks path config).1 = .error (.notCreated q) ↔ config.Valid ∧
      (¬ (d.directoryNamed path).isOk ∧ q = path ∨
        (d.directoryNamed path).isOk ∧ ¬ d.isRegularAt path (fileName 0) ∧ q = filePath path 0 ∨
        (d.directoryNamed path).isOk ∧ d.isRegularAt path (fileName 0) ∧ Lockable d locks path ∧
          ∃ i, 0 < i ∧ i < config.fileCount.toNat ∧
            (∀ j, 0 < j → j < i → (d.openWrite path (fileName j)).isOk) ∧
            ¬ d.holds path (fileName i) ∧ q = filePath path i) := by
  unfold openAt
  cases hfault : config.fault? with
  | some fault => simp [Config.Valid, hfault]
  | none =>
    have hvalid : config.Valid := hfault
    have hcount := (config.valid_iff.1 hvalid).1.2
    dsimp only
    by_cases hdir : (d.directoryNamed path).isOk
    · rw [if_neg (by simpa using hdir)]
      by_cases hfirst : d.isRegularAt path (fileName 0)
      · rw [if_neg (by simpa using hfirst), ← openSlots_missing hcount hfirst]
        by_cases hlock : Lockable d locks path
        · obtain ⟨id, hacquire⟩ := acquireLock_of_lockable hlock
          rw [hacquire]
          dsimp only
          split <;> simp_all
        · obtain ⟨e, hacquire, hother, -⟩ := acquireLock_of_not_lockable hlock
          rw [hacquire]
          simp [hdir, hfirst, hlock, hother]
      · rw [if_pos (by simpa using hfirst)]
        simp only [hvalid, hdir, hfirst, Error.notCreated.injEq, Except.error.injEq]
        simpa using eq_comm
    · rw [if_pos (by simpa using hdir)]
      simp only [hvalid, hdir, Error.notCreated.injEq, Except.error.injEq]
      simpa using eq_comm

end Pool

namespace Store

open Layout

theorem openPool_answer (s : Store) (path : String) (config : Config) :
    (s.openPool path config).1 =
      (Pool.openAt s.disk s.locks path config).1.map fun _ => s.pools.length := by
  unfold openPool addPool
  split
  · rename_i hadd
    split at hadd
    · rename_i hopen
      cases hadd
      rw [hopen]
      rfl
    · cases hadd
  · rename_i hadd
    split at hadd
    · cases hadd
    · rename_i hopen
      cases hadd
      rw [hopen]
      rfl

theorem openPool_error {s t : Store} {path : String} {config : Config} {e : Error}
    (h : s.openPool path config = (.error e, t)) :
    Pool.openAt s.disk s.locks path config = (.error e, t.disk, t.locks) ∧
      t = { s with disk := t.disk, locks := t.locks } := by
  unfold openPool addPool at h
  split at h
  · rename_i hadd
    split at hadd
    · rename_i hopen
      cases hadd
      cases h
      exact ⟨hopen, rfl⟩
    · cases hadd
  · cases h

theorem openPool_notCreated {s : Store} {path : String} {config : Config} :
    (∃ q, (s.openPool path config).1 = .error (.notCreated q)) ↔ config.Valid ∧
      (¬ (s.disk.directoryNamed path).isOk ∨ ¬ s.disk.isRegularAt path (fileName 0) ∨
        Lockable s.disk s.locks path ∧ ∃ i, 0 < i ∧ i < config.fileCount.toNat ∧
          (∀ j, 0 < j → j < i → (s.disk.openWrite path (fileName j)).isOk) ∧
          ¬ s.disk.holds path (fileName i)) := by
  have hanswer : ∀ q, (s.openPool path config).1 = .error (.notCreated q) ↔
      (Pool.openAt s.disk s.locks path config).1 = .error (.notCreated q) := by
    intro q
    rw [openPool_answer]
    cases (Pool.openAt s.disk s.locks path config).1 <;> simp [Except.map]
  simp only [hanswer, Pool.openAt_notCreated]
  constructor
  · rintro ⟨q, hvalid, ⟨hdir, -⟩ | ⟨-, hfirst, -⟩ | ⟨-, -, hlock, i, hpos, hi, hbefore, hnot, -⟩⟩
    · exact ⟨hvalid, .inl hdir⟩
    · exact ⟨hvalid, .inr (.inl hfirst)⟩
    · exact ⟨hvalid, .inr (.inr ⟨hlock, i, hpos, hi, hbefore, hnot⟩)⟩
  · rintro ⟨hvalid, hmissing⟩
    by_cases hdir : (s.disk.directoryNamed path).isOk
    · by_cases hfirst : s.disk.isRegularAt path (fileName 0)
      · obtain ⟨hlock, i, hpos, hi, hbefore, hnot⟩ :=
          (hmissing.resolve_left (not_not.2 hdir)).resolve_left (not_not.2 hfirst)
        exact ⟨_, hvalid, .inr (.inr ⟨hdir, hfirst, hlock, i, hpos, hi, hbefore, hnot, rfl⟩)⟩
      · exact ⟨_, hvalid, .inr (.inl ⟨hdir, hfirst, rfl⟩)⟩
    · exact ⟨_, hvalid, .inl ⟨hdir, rfl⟩⟩

end Store

end RecordStore
