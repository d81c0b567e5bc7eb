import RecordStore.Command.Run
import RecordStore.Proofs.MagicTag
import RecordStore.Proofs.Opening

/-!
# What the bootstrap commands promise

`makedb` succeeds as soon as one of the files is there, and `verify` does not look at the
configuration. So their success says less than an open asks for.
-/

namespace RecordStore

/-! ## What an open needs -/

namespace Layout

open Disk

variable {d : Disk} {path : String}

theorem isRegularAt_of_marked {i : Nat} (h : Marked d path i) :
    d.isRegularAt path (fileName i) := by
  obtain ⟨f, c, hopen, hc, -⟩ := h
  exact isRegularAt_iff.2 ⟨f, hopen, by rw [hc]; rfl⟩

theorem openFile_refused {i : Nat} {e : Error} (h : openFile d path i = .error e) :
    ∀ refusal, e ≠ .invalidArgument refusal := by
  unfold openFile at h
  split at h
  · cases h
  · cases h
    simp
  · cases h
    simp

end Layout

namespace Pool

open Disk Layout

variable {d : Disk} {locks : List FileId} {path : String} {config : Config}

theorem openSlots_isOk {is : List Nat} :
    (openSlots d path is).isOk ↔ ∀ i ∈ is, (d.openWrite path (fileName i)).isOk := by
  induction is with
  | nil => simp [openSlots, isOk_iff]
  | cons i rest ih =>
    rw [List.forall_mem_cons, ← ih, ← openFile_isOk, openSlots]
    simp only [isOk_iff, bind_eq_ok]
    constructor
    · rintro ⟨all, file, hfile, slots, hslots, -⟩
      exact ⟨⟨file, hfile⟩, slots, hslots⟩
    · rintro ⟨⟨file, hfile⟩, slots, hslots⟩
      exact ⟨_, file, hfile, slots, hslots, rfl⟩

theorem openSlots_error {is : List Nat} {e : Error} (h : openSlots d path is = .error e) :
    ∃ i ∈ is, openFile d path i = .error e := by
  induction is with
  | nil => cases h
  | cons i rest ih =>
    rcases bind_eq_error.1 h with h | ⟨file, -, h⟩
    · exact ⟨i, List.mem_cons_self, h⟩
    · rcases bind_eq_error.1 h with h | ⟨slots, -, h⟩
      · obtain ⟨j, hj, hfile⟩ := ih h
        exact ⟨j, List.mem_cons_of_mem _ hj, hfile⟩
      · cases h

theorem openAt_of_regular (hnamed : path ≠ "") (hvalid : config.Valid)
    (hfiles : ∀ i < config.fileCount.toNat, d.isRegularAt path (fileName i))
    (hlock : Lockable d locks path) : (openAt d locks path config).1.isOk := by
  obtain ⟨hpos, hcount⟩ := (config.valid_iff.1 hvalid).1
  have hcount : config.fileCount.toNat ≤ 256 := hcount
  have hfirst := hfiles 0 hpos
  obtain ⟨dir, hdir⟩ := isOk_iff.1 (directoryNamed_of_first hnamed hfirst)
  obtain ⟨id, hacquire⟩ := acquireLock_of_lockable hlock
  have hslots : (openSlots (d.openOrCreate path lockName).2 path
      (List.range config.fileCount.toNat)).isOk := by
    rw [openSlots_isOk]
    intro i hi
    have hi := List.mem_range.1 hi
    obtain ⟨file, htarget, hregular⟩ := isRegularAt_iff.1 (hfiles i hi)
    rw [openWrite_openOrCreate (by omega), openWrite_of_regular htarget hregular]
    rfl
  obtain ⟨slots, hslots⟩ := isOk_iff.1 hslots
  have hfault : config.fault? = none := hvalid
  unfold openAt
  rw [hfault, hdir, hfirst, hacquire]
  dsimp only
  rw [hslots]
  rfl

theorem named_of_openAt (h : (openAt d locks path config).1.isOk) : path ≠ "" := by
  rintro rfl
  unfold openAt at h
  rw [directoryNamed_empty] at h
  split at h <;> cases h

theorem openAt_invalidArgument :
    (∃ refusal, (openAt d locks path config).1 = .error (.invalidArgument refusal)) ↔
      ¬ config.Valid := by
  unfold openAt Config.Valid
  cases hfault : config.fault? with
  | some fault => simp
  | none =>
    dsimp only
    split
    · simp
    · split
      · simp
      · by_cases hlock : Lockable d locks path
        · obtain ⟨id, hacquire⟩ := acquireLock_of_lockable hlock
          rw [hacquire]
          dsimp only
          split
          · rename_i e hslots
            obtain ⟨i, -, hfile⟩ := openSlots_error hslots
            simp [openFile_refused hfile]
          · simp
        · obtain ⟨e, hacquire, -, hother⟩ := acquireLock_of_not_lockable hlock
          rw [hacquire]
          simp [hother]

end Pool

namespace Store

theorem openPool_isOk {s : Store} {path : String} {config : Config} :
    (s.openPool path config).1.isOk ↔ (Pool.openAt s.disk s.locks path config).1.isOk := by
  rw [openPool_answer]
  cases (Pool.openAt s.disk s.locks path config).1 <;> rfl

theorem openPool_invalidArgument {s : Store} {path : String} {config : Config} :
    (∃ refusal, (s.openPool path config).1 = .error (.invalidArgument refusal)) ↔
      ¬ config.Valid := by
  have hopen : (∃ refusal, (Pool.openAt s.disk s.locks path config).1 =
      .error (.invalidArgument refusal)) ↔ ¬ config.Valid := Pool.openAt_invalidArgument
  rw [openPool_answer, ← hopen]
  cases (Pool.openAt s.disk s.locks path config).1 <;> simp [Except.map]

end Store

/-! ## What the commands look at -/

namespace Command

open Layout

variable {s t : Store} {path : String} {config : Config} {outcome : Outcome}

theorem create_valid {d : Disk} (h : (Layout.create d path config).1 = .ok () ∨
    ∃ q, (Layout.create d path config).1 = .error (.alreadyExists q)) : config.Valid := by
  unfold Layout.create at h
  split at h
  · simp at h
  · assumption

theorem create_regular (h : (s.create path config).1 = .ok ()) :
    ∀ i < config.fileCount.toNat, (s.create path config).2.disk.isRegularAt path (fileName i) := by
  intro i hi
  have hcreate : Layout.create s.disk path config = (.ok (), (s.create path config).2.disk) :=
    Prod.ext h rfl
  obtain ⟨-, dir, files, -, -, hcount, hfile⟩ := create_ok hcreate
  obtain ⟨htarget, hcontent⟩ := hfile (List.getElem?_eq_getElem (hcount ▸ hi))
  exact Disk.isRegularAt_iff.2 ⟨_, htarget, by rw [hcontent]; rfl⟩

/-- `makedb` succeeds when it has made the files, and when one of them was there. -/
theorem makedb_exit (h : makedb s path config = (outcome, t)) (hexit : outcome.exit = 0) :
    t = (s.create path config).2 ∧ config.Valid ∧
      ((s.create path config).1 = .ok () ∨
        ∃ q, (s.create path config).1 = .error (.alreadyExists q)) := by
  have hresult : t = (s.create path config).2 ∧ ((s.create path config).1 = .ok () ∨
      ∃ q, (s.create path config).1 = .error (.alreadyExists q)) := by
    unfold makedb at h
    split at h
    · rename_i hcreate
      cases h
      rw [hcreate]
      exact ⟨rfl, .inl rfl⟩
    · rename_i hcreate
      cases h
      rw [hcreate]
      exact ⟨rfl, .inr ⟨_, rfl⟩⟩
    · cases h
      cases hexit
  exact ⟨hresult.1, create_valid hresult.2, hresult.2⟩

theorem makedb_created (h : makedb s path config = (outcome, t)) :
    outcome.out = line s!"Created {config.fileCount.toNat} backing files in {path}" ↔
      (s.create path config).1 = .ok () := by
  have hother : ∀ text : String, text.toList.head? ≠ some 'C' →
      ¬ text = line s!"Created {config.fileCount.toNat} backing files in {path}" := by
    rintro text hhead rfl
    dsimp only [toString] at hhead
    simp [line] at hhead
  unfold makedb at h
  split at h
  · rename_i hcreate
    cases h
    rw [hcreate]
    exact ⟨fun _ => rfl, fun _ => rfl⟩
  · rename_i hcreate
    cases h
    have htext := hother (line ("Database already exists at " ++ path)) (by simp [line])
    rw [hcreate]
    exact ⟨fun h => absurd h htext, by simp⟩
  · rename_i hcreate
    cases h
    have htext := hother "" (by simp)
    rw [hcreate]
    exact ⟨fun h => absurd h htext, by simp⟩

theorem verify_exit (h : (verify s path config).exit = 0) :
    ∀ i < config.fileCount.toNat, s.disk.isRegularAt path (fileName i) := by
  have hpassed : (Verification.ofDirectory s.disk path config.fileCount.toNat).passed := by
    unfold verify at h
    dsimp only at h
    split at h
    · assumption
    · cases h
  exact fun i hi => isRegularAt_of_marked (Verification.passed_iff.1 hpassed i hi)

/-! ## What their success is worth -/

/-- After a `makedb` that succeeded an open never refuses its arguments. If the lock can be had, it
says that the database is not created when the path is empty, the first file is not regular or the
first later one that cannot be opened leads nowhere; when `makedb` has made the files, only the empty
path is refused. After a `verify` that passed an open succeeds, if the lock can be had, the
configuration is valid and the path is not empty; it refuses the configurations that are not. -/
theorem bootstrap_then_open (s : Store) (path : String) (config : Config) :
    (∀ outcome t, makedb s path config = (outcome, t) → outcome.exit = 0 →
      (∀ refusal, (t.openPool path config).1 ≠ .error (.invalidArgument refusal)) ∧
      (Lockable t.disk t.locks path →
        ((∃ q, (t.openPool path config).1 = .error (.notCreated q)) ↔
          path = "" ∨ ¬ t.disk.isRegularAt path (fileName 0) ∨
            ∃ i, 0 < i ∧ i < config.fileCount.toNat ∧
              (∀ j, 0 < j → j < i → (t.disk.openWrite path (fileName j)).isOk) ∧
              ¬ t.disk.holds path (fileName i)) ∧
        (outcome.out = line s!"Created {config.fileCount.toNat} backing files in {path}" →
          ((t.openPool path config).1.isOk ↔ path ≠ "")))) ∧
    ((verify s path config).exit = 0 →
      (config.Valid → Lockable s.disk s.locks path →
        ((s.openPool path config).1.isOk ↔ path ≠ "")) ∧
      (¬ config.Valid ↔
        ∃ refusal, (s.openPool path config).1 = .error (.invalidArgument refusal))) := by
  constructor
  · intro outcome t h hexit
    have hvalid := (makedb_exit h hexit).2.1
    refine ⟨fun refusal hrefused => Store.openPool_invalidArgument.1 ⟨refusal, hrefused⟩ hvalid,
      fun hlock => ⟨?_, fun hout => ?_⟩⟩
    · rw [Store.openPool_notCreated]
      constructor
      · rintro ⟨-, hdir | hfirst | ⟨-, hlater⟩⟩
        · by_cases hnamed : path = ""
          · exact .inl hnamed
          · exact .inr (.inl fun hfirst => hdir (directoryNamed_of_first hnamed hfirst))
        · exact .inr (.inl hfirst)
        · exact .inr (.inr hlater)
      · rintro (rfl | hfirst | hlater)
        · exact ⟨hvalid, .inl (by simp [isOk_iff])⟩
        · exact ⟨hvalid, .inr (.inl hfirst)⟩
        · exact ⟨hvalid, .inr (.inr ⟨hlock, hlater⟩)⟩
    · rw [Store.openPool_isOk]
      obtain ⟨rfl, -, -⟩ := makedb_exit h hexit
      exact ⟨Pool.named_of_openAt, fun hnamed =>
        Pool.openAt_of_regular hnamed hvalid (create_regular ((makedb_created h).1 hout)) hlock⟩
  · intro hexit
    refine ⟨fun hvalid hlock => ?_, Store.openPool_invalidArgument.symm⟩
    rw [Store.openPool_isOk]
    exact ⟨Pool.named_of_openAt,
      fun hnamed => Pool.openAt_of_regular hnamed hvalid (verify_exit hexit) hlock⟩

/-! A directory that holds the second of two files, and no file. -/

def partlyMade : Store :=
  Store.ofDisk ((Disk.withDirectory "db").createIn 1 (fileName 1) (.regular (.ofBytes magic)))

theorem bootstrap_then_open_partlyMade :
    (makedb partlyMade "db" { fileCount := 2 }).1.exit = 0 ∧
      ∃ q, ((makedb partlyMade "db" { fileCount := 2 }).2.openPool "db" { fileCount := 2 }).1 =
        .error (.notCreated q) := by
  have hexit : (makedb partlyMade "db" { fileCount := 2 }).1.exit = 0 := by decide +kernel
  have hlock : Lockable (makedb partlyMade "db" { fileCount := 2 }).2.disk
      (makedb partlyMade "db" { fileCount := 2 }).2.locks "db" :=
    ⟨3, by decide +kernel, by decide +kernel⟩
  obtain ⟨-, hopen⟩ := (bootstrap_then_open partlyMade "db" { fileCount := 2 }).1 _ _ rfl hexit
  exact ⟨hexit, (hopen hlock).1.2 (.inr (.inl (by decide +kernel)))⟩

/-- `makedb` reports success where an open then asks to run it, and `verify` passes a file count that
an open refuses; the lock is free and there is no lock file. -/
theorem bootstrap_without_open :
    ((run partlyMade ["makedb", "-p", "db", "--files", "2"]).1.exit = 0 ∧
      (run partlyMade ["makedb", "-p", "db", "--files", "2"]).2 = partlyMade ∧
      (partlyMade.openPool "db" { fileCount := 2 }).1 =
        .error (.notCreated (filePath "db" 0))) ∧
    ((run partlyMade ["verify", "-p", "db", "--files", "0"]).1.exit = 0 ∧
      (partlyMade.openPool "db" { fileCount := 0 }).1 =
        .error (.invalidArgument (.config (.fileCount 0)))) ∧
    partlyMade.locks = [] ∧ partlyMade.disk.leadsTo 1 lockName = none := by
  decide +kernel

end Command

end RecordStore
