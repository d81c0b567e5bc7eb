import Mathlib.Data.List.TakeWhile
import RecordStore.Proofs.Directory

/-!
# A creation that finds a database

Creation looks first whether any of its names leads to something, and then makes the files one by
one. A link to a place where nothing is does not count in the first pass and stops the second, which
by then may have made files.
-/

namespace RecordStore

namespace Disk

variable {d d' : Disk}

/-! ## Directories that are there already -/

theorem descend_ok {stack up : List FileId} {component : String}
    (h : d.descend stack component = .ok up) :
    ∃ dir above, stack = dir :: above ∧ d.isDirectory dir ∧
      (Path.isStay component ∨ component = ".." ∨
        ∃ entry, d.find dir component = .ok (some entry)) := by
  cases stack with
  | nil => cases h
  | cons dir above =>
    refine ⟨dir, above, rfl, ?_⟩
    rw [descend] at h
    split at h
    · cases h
    · rename_i hdir
      refine ⟨by simpa using hdir, ?_⟩
      split at h
      · exact .inl ‹_›
      · split at h
        · exact .inr (.inl ‹_›)
        · obtain ⟨e, he, h⟩ := bind_eq_ok.1 h
          cases e with
          | none => cases h
          | some entry => exact .inr (.inr ⟨entry, he⟩)

theorem directoryAt_of_foldlM {path blanks : List String} {name : String} {stack : List FileId}
    (h : (path ++ name :: blanks).foldlM d.descend [root] = .ok stack) :
    ∃ dir, d.directoryAt path = .ok dir ∧
      (Path.isStay name ∨ name = ".." ∨ ∃ entry, d.find dir name = .ok (some entry)) := by
  rw [List.foldlM_append] at h
  obtain ⟨up, hup, h⟩ := bind_eq_ok.1 h
  rw [List.foldlM_cons] at h
  obtain ⟨next, hnext, -⟩ := bind_eq_ok.1 h
  obtain ⟨dir, above, rfl, hdir, hname⟩ := descend_ok hnext
  refine ⟨dir, directoryAt_ok.2 ⟨?_, hdir⟩, hname⟩
  exact bind_eq_ok.2 ⟨dir :: above, hup, rfl⟩

theorem makeDirectory_of_directoryAt {path : List String} {id : FileId}
    (h : d.directoryAt path = .ok id) :
    d.makeDirectory path = .error .alreadyExists ∨
      d.makeDirectory path = .error .notFound ∧ ∀ component ∈ path, component = "" := by
  obtain ⟨stack, hstack, -⟩ := bind_eq_ok.1 (directoryAt_ok.1 h).1
  have hcut := List.takeWhile_append_dropWhile (p := (· == "")) (l := path.reverse)
  unfold makeDirectory
  dsimp only
  cases hplain : path.reverse.dropWhile (· == "") with
  | nil =>
    right
    refine ⟨rfl, fun component hc => ?_⟩
    rw [List.dropWhile_eq_nil_iff] at hplain
    simpa using hplain component (List.mem_reverse.2 hc)
  | cons name rest =>
    left
    have hpath : path = rest.reverse ++ name :: (path.reverse.takeWhile (· == "")).reverse := by
      rw [hplain] at hcut
      simpa using (congrArg List.reverse hcut).symm
    have hname : name ≠ "" := by
      have := List.head?_dropWhile_not (· == "") path.reverse
      rw [hplain] at this
      simpa using this
    rw [hpath] at hstack
    obtain ⟨dir, hdir, hentry⟩ := directoryAt_of_foldlM hstack
    rw [List.reverse_cons, List.getLast?_concat, List.dropLast_concat]
    dsimp only
    rw [hdir]
    by_cases hdots : name = "." ∨ name = ".."
    · exact if_pos hdots
    · have hstay : ¬ Path.isStay name := by
        simpa [Path.isStay, hname] using fun h => hdots (.inl h)
      obtain ⟨entry, hfind⟩ : ∃ entry, d.find dir name = .ok (some entry) := by
        rcases hentry with h | h | h
        · exact absurd h hstay
        · exact absurd (.inr h) hdots
        · exact h
      refine (if_neg hdots).trans ?_
      rw [hfind]
      rfl

theorem makeDirectories_of_directory {path : String} {dir : FileId}
    (h : d.directory path = .ok dir) : d.makeDirectories path = (.ok (), d) := by
  obtain ⟨hcheck, hdir⟩ := directory_ok.1 h
  have hthere : d.hasDirectory (Path.components path) := by
    rw [hasDirectory, hdir]
    rfl
  unfold makeDirectories
  rw [hcheck]
  dsimp only
  rw [Path.withAncestors, makeTree]
  rcases makeDirectory_of_directoryAt hdir with hmake | ⟨hmake, hblank⟩
  · rw [hmake]
    simp [hthere]
  · -- a path of blanks has no directory above it
    have hnone : (Path.components path).filter (fun component => !Path.isStay component) = [] := by
      rw [List.filter_eq_nil_iff]
      intro component hc
      simp [hblank component hc, Path.isStay]
    rw [hmake, hnone]
    simp [makeTree, hmake, hthere]

/-! ## What a name stands for -/

theorem find_error {dir : FileId} {name : String} {e : OsError} (h : d.find dir name = .error e) :
    e = .nameTooLong := by
  unfold find at h
  split at h
  · cases h
    rfl
  · cases h

theorem check_error {path : String} {e : OsError} (h : Path.check path = .error e) :
    e = .nulInPath ∨ e = .nameTooLong := by
  unfold Path.check at h
  split at h
  · cases h
    exact .inl rfl
  · split at h
    · cases h
      exact .inr rfl
    · cases h

theorem descend_error {stack : List FileId} {component : String} {e : OsError}
    (h : d.descend stack component = .error e) : e ≠ .alreadyExists := by
  unfold descend at h
  split at h
  · cases h
    simp
  · split at h
    · cases h
      simp
    · split at h
      · cases h
      · split at h
        · cases h
        · rcases bind_eq_error.1 h with h | ⟨entry, -, h⟩
          · simp [find_error h]
          · split at h
            · cases h
            · cases h
              simp

theorem foldlM_descend_error {path : List String} {stack : List FileId} {e : OsError}
    (h : path.foldlM d.descend stack = .error e) : e ≠ .alreadyExists := by
  induction path generalizing stack with
  | nil => cases h
  | cons component rest ih =>
    rw [List.foldlM_cons] at h
    rcases bind_eq_error.1 h with h | ⟨up, -, h⟩
    · exact descend_error h
    · exact ih h

theorem directoryAt_error {path : List String} {e : OsError}
    (h : d.directoryAt path = .error e) : e ≠ .alreadyExists := by
  rcases bind_eq_error.1 h with h | ⟨id, -, h⟩
  · rcases bind_eq_error.1 h with h | ⟨stack, -, h⟩
    · exact foldlM_descend_error h
    · split at h
      · cases h
      · cases h
        simp
  · split at h
    · cases h
    · cases h
      simp

theorem locate_error {path name : String} {e : OsError} (h : d.locate path name = .error e) :
    e ≠ .alreadyExists := by
  rcases bind_eq_error.1 h with h | ⟨-, -, h⟩
  · obtain rfl | rfl := check_error h <;> simp
  · rcases bind_eq_error.1 h with h | ⟨dir, -, h⟩
    · exact directoryAt_error h
    · rcases bind_eq_error.1 h with h | ⟨entry, -, h⟩
      · simp [find_error h]
      · cases h

theorem createNew_alreadyExists {path name : String} {bs : Bytes}
    (h : d.createNew path name bs = .error .alreadyExists) :
    ∃ dir entry, d.locate path name = .ok (dir, some entry) := by
  unfold createNew at h
  split at h
  · cases h
    exact absurd rfl (locate_error ‹_›)
  · cases h
  · exact ⟨_, _, ‹_›⟩

theorem createNew_absent {path name : String} {bs : Bytes}
    (h : d.createNew path name bs = .ok d') : ∃ dir, d.locate path name = .ok (dir, none) := by
  unfold createNew at h
  split at h
  · cases h
  · exact ⟨_, ‹_›⟩
  · cases h

theorem locate_holds {path name : String} {dir : FileId} {entry : Option Entry}
    (h : d.locate path name = .ok (dir, entry)) :
    d.holds path name ↔ (entry.bind Entry.target?).isSome := by
  unfold holds target
  rw [h]
  cases htarget : entry.bind Entry.target? with
  | none =>
    simp [bind, Except.bind, htarget, Except.isOk, Except.toBool]
  | some id =>
    simp [bind, Except.bind, htarget, Except.isOk, Except.toBool]

theorem lookup_createIn_ne {dir : FileId} {name other : String} (o : Object)
    (hdir : d.isDirectory dir) (hne : other ≠ name) :
    (d.createIn dir name o).lookup dir other = d.lookup dir other := by
  have hother : (other == name) = false := by simpa using hne
  rw [createIn_eq_relist o hdir, lookup, entries,
    object?_relist o _ hdir dir (lt_of_isDirectory hdir), if_pos rfl]
  simp [lookup, List.lookup_append, List.lookup_cons, hother]

theorem locate_of_createNew {path name other : String} {bs : Bytes} {dir : FileId}
    {entry : Option Entry} (hnew : d.createNew path name bs = .ok d') (hne : other ≠ name)
    (h : d'.locate path other = .ok (dir, entry)) : d.locate path other = .ok (dir, entry) := by
  obtain ⟨home, hat, hdir, rfl, -⟩ := createNew_ok hnew
  obtain ⟨hname, hat', hentry⟩ := locate_ok.1 h
  have hgrown := (extends_createIn name (.regular (.ofBytes bs)) hdir).directoryAt hat
  obtain rfl := Except.ok.inj (hgrown.symm.trans hat')
  rw [lookup_createIn_ne _ hdir hne] at hentry
  exact locate_ok.2 ⟨hname, hat, hentry⟩

end Disk

namespace Layout

open Disk

variable {d d' : Disk} {path q : String}

/-! ## The names of the files -/

theorem read_padded : ∀ i < 256, Numeral.read 16 255 (Hex.padded 2 i) = .ok i := by
  decide +kernel

theorem fileName_ne {i j : Nat} (hi : i < 256) (hj : j < 256) (hne : i ≠ j) :
    fileName i ≠ fileName j := by
  intro h
  have hchars : Hex.padded 2 i = Hex.padded 2 j := by
    have := congrArg String.toList h
    simpa [fileName] using this
  have := (read_padded i hi).symm.trans (hchars ▸ read_padded j hj)
  exact hne (Except.ok.inj this)

/-! ## Creating the files in turn -/

theorem createFiles_append (d : Disk) (path : String) (is js : List Nat) :
    createFiles d path (is ++ js) =
      match createFiles d path is with
      | (.ok (), made) => createFiles made path js
      | (.error e, made) => (.error e, made) := by
  induction is generalizing d with
  | nil => rfl
  | cons i rest ih =>
    rw [List.cons_append, createFiles, createFiles]
    split
    · exact ih _
    · rfl
    · rfl

theorem createFiles_alreadyExists {is : List Nat}
    (h : createFiles d path is = (.error (.alreadyExists q), d')) :
    ∃ before i after, is = before ++ i :: after ∧ q = filePath path i ∧
      createFiles d path before = (.ok (), d') ∧
      ∃ dir entry, d'.locate path (fileName i) = .ok (dir, some entry) := by
  induction is generalizing d with
  | nil => cases h
  | cons i rest ih =>
    rw [createFiles] at h
    split at h
    · rename_i made hnew
      obtain ⟨before, j, after, rfl, hq, hmade, hentry⟩ := ih h
      refine ⟨i :: before, j, after, rfl, hq, ?_, hentry⟩
      rw [createFiles, hnew]
      exact hmade
    · rename_i hnew
      cases h
      exact ⟨[], i, rest, rfl, rfl, rfl, createNew_alreadyExists hnew⟩
    · cases h

theorem createFiles_locate {is : List Nat} {name : String} {dir : FileId} {entry : Option Entry}
    (hmade : createFiles d path is = (.ok (), d')) (hname : ∀ i ∈ is, name ≠ fileName i)
    (h : d'.locate path name = .ok (dir, entry)) : d.locate path name = .ok (dir, entry) := by
  induction is generalizing d with
  | nil =>
    cases hmade
    exact h
  | cons i rest ih =>
    rw [createFiles] at hmade
    split at hmade
    · rename_i next hnew
      have hnext := ih hmade fun j hj => hname j (List.mem_cons_of_mem i hj)
      exact locate_of_createNew hnew (hname i List.mem_cons_self) hnext
    · cases hmade
    · cases hmade

theorem range_eq_append_cons {n i : Nat} {before after : List Nat}
    (h : List.range n = before ++ i :: after) : before = List.range i ∧ i < n := by
  rw [List.range_eq_range', List.range'_eq_append_iff] at h
  obtain ⟨k, -, hbefore, hafter⟩ := h
  obtain ⟨hi, hpos, -⟩ := List.range'_eq_cons_iff.1 hafter.symm
  obtain rfl : k = i := by omega
  exact ⟨by rw [hbefore, List.range_eq_range'], by omega⟩

theorem range_eq_append_of_lt {n i : Nat} (h : i < n) :
    ∃ after, List.range n = List.range i ++ i :: after := by
  refine ⟨List.range' (i + 1) (n - i - 1), ?_⟩
  rw [List.range_eq_range', List.range_eq_range', List.range'_eq_append_iff]
  refine ⟨i, Nat.le_of_lt h, rfl, ?_⟩
  rw [Eq.comm, List.range'_eq_cons_iff]
  refine ⟨by omega, by omega, by congr 1⟩

theorem createFiles_absent {count i : Nat} (hcount : count ≤ 256) (hi : i < count)
    (h : createFiles d path (List.range count) = (.ok (), d')) :
    ∃ dir, d.locate path (fileName i) = .ok (dir, none) := by
  obtain ⟨after, hsplit⟩ := range_eq_append_of_lt hi
  rw [hsplit, createFiles_append] at h
  split at h
  · rename_i made hmade
    rw [createFiles] at h
    split at h
    · rename_i hnew
      obtain ⟨dir, habsent⟩ := createNew_absent hnew
      refine ⟨dir, createFiles_locate hmade (fun j hj => ?_) habsent⟩
      have hj := List.mem_range.1 hj
      exact fileName_ne (by omega) (by omega) (by omega)
    · cases h
    · cases h
  · cases h

/-! ## A refused creation -/

theorem firstExisting?_some {count i : Nat} (h : firstExisting? d path count = some i) :
    i < count ∧ d.holds path (fileName i) :=
  ⟨List.mem_range.1 (List.mem_of_find?_eq_some h),
    List.find?_some (p := fun i => d.holds path (fileName i)) h⟩

theorem firstExisting?_none {count i : Nat} (h : firstExisting? d path count = none)
    (hi : i < count) : ¬ d.holds path (fileName i) :=
  List.find?_eq_none.1 h i (List.mem_range.2 hi)

/-- What creation leaves when it meets a dead link under the name of file `i`: the files before it
are there, under names that were free, and each of them holds the tag alone. -/
structure StoppedAtLink (d d' : Disk) (path : String) (i : Nat) : Prop where
  link : ∃ dir, d.locate path (fileName i) = .ok (dir, some (.link none))
  free : ∀ j < i, ∃ dir, d.locate path (fileName j) = .ok (dir, none)
  made : ∀ j < i, d'.target path (fileName j) = .ok (d.nextId + j) ∧
    d'.content? (d.nextId + j) = some (.ofBytes magic)

theorem StoppedAtLink.not_holds {i j : Nat} (h : StoppedAtLink d d' path i) (hj : j ≤ i) :
    ¬ d.holds path (fileName j) := by
  rcases Nat.lt_or_eq_of_le hj with hj | rfl
  · obtain ⟨dir, hfree⟩ := h.free j hj
    simp [locate_holds hfree]
  · obtain ⟨dir, hlink⟩ := h.link
    simp [locate_holds hlink, Entry.target?]

theorem StoppedAtLink.changed {i : Nat} (h : StoppedAtLink d d' path i) (hi : 0 < i) : d' ≠ d := by
  rintro rfl
  apply h.not_holds (Nat.zero_le i)
  rw [holds, (h.made 0 hi).1]
  rfl

theorem createFiles_stopped {count : Nat} (hcount : count ≤ 256)
    (hnone : firstExisting? d path count = none)
    (h : createFiles d path (List.range count) = (.error (.alreadyExists q), d')) :
    ∃ i < count, q = filePath path i ∧ createFiles d path (List.range i) = (.ok (), d') ∧
      StoppedAtLink d d' path i := by
  obtain ⟨before, i, after, hsplit, hq, hmade, dir, entry, hentry⟩ := createFiles_alreadyExists h
  obtain ⟨rfl, hi⟩ := range_eq_append_cons hsplit
  have hbefore : ∀ j ∈ List.range i, fileName i ≠ fileName j := by
    intro j hj
    have hj := List.mem_range.1 hj
    exact fileName_ne (by omega) (by omega) (by omega)
  have hlocate := createFiles_locate hmade hbefore hentry
  refine ⟨i, hi, hq, hmade, ⟨dir, ?_⟩, fun j hj => ?_, fun j hj => ?_⟩
  · -- the first pass has found nothing behind this name
    have hdead := firstExisting?_none hnone hi
    rw [locate_holds hlocate] at hdead
    cases entry with
    | file id => simp [Entry.target?] at hdead
    | link target =>
      obtain rfl : target = none := by simpa [Entry.target?] using hdead
      exact hlocate
  · exact createFiles_absent (by omega) hj hmade
  · have hsome : List.range i ≠ [] := by
      rw [Ne, List.range_eq_nil]
      omega
    obtain ⟨home, hhome⟩ := createFiles_directory hsome hmade
    exact (createFiles_ok hhome hmade (List.getElem?_range hj)).2

/-- Creation says that a file exists when one of the names leads to something, and then it has
changed nothing but for directories on the way that were missing. Else the first name in use is a
dead link, and the files before it have been made. -/
theorem create_alreadyExists {config : Config}
    (h : create d path config = (.error (.alreadyExists q), d')) :
    ∃ made, d.makeDirectories path = (.ok (), made) ∧
      (∀ dir, d.directory path = .ok dir → made = d) ∧
      ∃ i < config.fileCount.toNat, q = filePath path i ∧
        (d' = made ↔ i = 0 ∨ made.holds path (fileName i)) ∧
        (¬ made.holds path (fileName i) →
          createFiles made path (List.range i) = (.ok (), d') ∧ StoppedAtLink made d' path i) := by
  unfold create at h
  split at h
  · cases h
  · rename_i hvalid
    have hcount : config.fileCount.toNat ≤ 256 := (config.valid_iff.1 hvalid).1.2
    split at h
    · cases h
    · rename_i made hmake
      refine ⟨made, hmake, fun dir hdir => ?_, ?_⟩
      · rw [makeDirectories_of_directory hdir] at hmake
        exact (Prod.mk.inj hmake).2.symm
      · split at h
        · rename_i i hfirst
          obtain ⟨hi, hholds⟩ := firstExisting?_some hfirst
          cases h
          exact ⟨i, hi, rfl, by simp [hholds], fun hnot => absurd hholds hnot⟩
        · rename_i hnone
          obtain ⟨i, hi, hq, hmade, hstopped⟩ := createFiles_stopped hcount hnone h
          refine ⟨i, hi, hq, ?_, fun _ => ⟨hmade, hstopped⟩⟩
          constructor
          · intro hsame
            left
            apply Nat.eq_zero_of_not_pos
            exact fun hpos => hstopped.changed hpos hsame
          · rintro (rfl | hholds)
            · cases hmade
              rfl
            · exact absurd hholds (firstExisting?_none hnone hi)

/-! A link to nothing under the second of three names. -/

def deadLinkDisk : Disk := (Disk.withDirectory "db").link 1 (fileName 1) (.link none)

def threeFiles : Config := { fileCount := 3 }

theorem create_alreadyExists_deadLink :
    (create deadLinkDisk "db" threeFiles).2 ≠ deadLinkDisk ∧
      StoppedAtLink deadLinkDisk (create deadLinkDisk "db" threeFiles).2 "db" 1 := by
  have hrefused : create deadLinkDisk "db" threeFiles =
      (.error (.alreadyExists (filePath "db" 1)), (create deadLinkDisk "db" threeFiles).2) := by
    decide +kernel
  obtain ⟨made, -, hsame, i, hi, hq, hiff, hstopped⟩ := create_alreadyExists hrefused
  have hpaths : ∀ i < 3, filePath "db" 1 = filePath "db" i → i = 1 := by decide +kernel
  obtain rfl := hpaths i hi hq
  obtain rfl := hsame 1 (by decide +kernel)
  have hdead : ¬ deadLinkDisk.holds "db" (fileName 1) := by decide +kernel
  refine ⟨fun hunchanged => ?_, (hstopped hdead).2⟩
  rcases hiff.1 hunchanged with h | h
  · cases h
  · exact hdead h

/-- A refusal that says a file exists, after which the directory has a file more. -/
theorem deadLink_leaves_file :
    (create deadLinkDisk "db" threeFiles).1 = .error (.alreadyExists (filePath "db" 1)) ∧
      (create deadLinkDisk "db" threeFiles).2 ≠ deadLinkDisk ∧
      ¬ deadLinkDisk.holds "db" (fileName 0) ∧
      (create deadLinkDisk "db" threeFiles).2.holds "db" (fileName 0) := by
  decide +kernel

end Layout

end RecordStore
