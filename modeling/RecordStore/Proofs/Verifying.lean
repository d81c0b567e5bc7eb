import RecordStore.Proofs.Effect
import RecordStore.Proofs.MagicTag

/-!
# What a verification reports

A verification reports each file below the count that does not start with the tag, once and in order,
with the reason. It sees the first bytes of these files and nothing else, and changes nothing.
-/

namespace RecordStore

open Layout

/-! ## What a look at the first bytes does not see -/

namespace Disk

variable {d : Disk} {path name : String} {f dir : FileId} {c c' : Content} {n : Nat}

/-- Another content of a file is not seen if it starts with the same bytes, or if the name does not
lead to this file. -/
theorem bytesAt_setObject (hc : d.content? f = some c)
    (hsame : d.openRead path name = .ok f → c'.bytes.take n = c.bytes.take n) :
    (d.setObject f (.regular c')).bytesAt path name 0 n = d.bytesAt path name 0 n := by
  have hopen : (d.setObject f (.regular c')).openRead path name = d.openRead path name :=
    (sameNames_setObject hc c').target_eq path name
  cases hold : d.openRead path name with
  | error e => rw [bytesAt_closed (hopen.trans hold), bytesAt_closed hold]
  | ok j =>
    rw [bytesAt_open (hopen.trans hold), bytesAt_open hold, object?_setObject]
    by_cases hj : f = j
    · subst hj
      rw [if_pos rfl, if_pos (content?_lt hc), content?_eq_some.1 hc]
      simp only [Content.slice_eq, List.drop_zero, hsame hold]
    · rw [if_neg hj]

theorem bytesAt_relist {entries : List (String × Entry)}
    (hat : d.directoryAt (Path.components path) = .ok dir)
    (hstill : (d.setObject dir (.directory entries)).directoryAt (Path.components path) = .ok dir)
    (hname : entries.lookup name = (d.entries dir).lookup name) :
    (d.setObject dir (.directory entries)).bytesAt path name 0 n = d.bytesAt path name 0 n := by
  have hdir := (directoryAt_ok.1 hat).2
  have hentries : (d.setObject dir (.directory entries)).entries dir = entries := by
    rw [Disk.entries, object?_setObject, if_pos rfl, if_pos (lt_of_isDirectory hdir)]
  have hopen : (d.setObject dir (.directory entries)).openRead path name =
      d.openRead path name := by
    unfold openRead target locate find lookup
    rw [hat, hstill]
    dsimp only [bind, Except.bind]
    rw [hentries, hname]
  cases hold : d.openRead path name with
  | error e => rw [bytesAt_closed (hopen.trans hold), bytesAt_closed hold]
  | ok j =>
    rw [bytesAt_open (hopen.trans hold), bytesAt_open hold, object?_setObject]
    by_cases hj : dir = j
    · subst hj
      rw [if_pos rfl, if_pos (lt_of_isDirectory hdir), object?_eq_entries hdir]
    · rw [if_neg hj]

end Disk

/-! ## The report -/

namespace Verification

variable {d d' : Disk} {path : String} {count i : Nat} {e : Error}

theorem failures_ordered (d : Disk) (path : String) (count : Nat) :
    (ofDirectory d path count).failures.Pairwise fun a b => a.1 < b.1 := by
  simp only [ofDirectory, List.pairwise_filterMap]
  refine List.pairwise_lt_range.imp fun {i j} hless => ?_
  intro a ha b hb
  rwa [(failure?_eq_some.1 ha).1, (failure?_eq_some.1 hb).1]

theorem ofDirectory_congr (h : ∀ i < count, d'.bytesAt path (fileName i) 0 magic.length =
    d.bytesAt path (fileName i) 0 magic.length) :
    ofDirectory d' path count = ofDirectory d path count := by
  unfold ofDirectory
  congr 1
  refine List.filterMap_congr fun i hi => ?_
  unfold failure?
  rw [checkMagic_eq, checkMagic_eq, h i (List.mem_range.1 hi)]

end Verification

namespace Command

variable {s : Store} {args : List String} {invocation : Invocation} {path : String}

theorem run_verify (hargs : readArguments args = .ok invocation)
    (hverify : invocation.action = .verify) : (run s args).2 = s := by
  unfold run
  rw [hargs]
  dsimp only [runInvocation]
  rw [hverify]
  cases invocation.path <;> rfl

theorem run_verify_exit (hargs : readArguments args = .ok invocation)
    (hverify : invocation.action = .verify) (hpath : invocation.path = some path) :
    (run s args).1.exit = 0 ↔
      (Verification.ofDirectory s.disk path invocation.files.toNat).passed := by
  unfold run
  rw [hargs]
  dsimp only [runInvocation]
  rw [hverify, hpath]
  dsimp only [runAt, verify]
  split
  · rename_i hpassed
    simpa using hpassed
  · rename_i hfailed
    simpa using hfailed

end Command

/-! ## What it is worth -/

namespace Verification

/-- A verification checks each file below the count and reports those that do not start with the tag,
in the order of their indices: as missing, as damaged if the first bytes are too few or not the tag,
and else with the failure of the operating system. Only these bytes count: what else a file holds, what
other files hold and which other names the directory has make no difference. The command leaves the
store as it is, and succeeds when there is nothing to report. -/
theorem failures_exact (d : Disk) (path : String) (count : Nat) :
    (ofDirectory d path count).filesChecked = count ∧
    (ofDirectory d path count).failures.Pairwise (fun a b => a.1 < b.1) ∧
    (∀ i, (∃ e, (i, e) ∈ (ofDirectory d path count).failures) ↔ i < count ∧ ¬ Marked d path i) ∧
    (∀ i e, (i, e) ∈ (ofDirectory d path count).failures ↔ i < count ∧ Bad d path i e) ∧
    (ofDirectory d path count).errors = (ofDirectory d path count).failures.map
      (fun failure => fileName failure.1 ++ ": " ++ failure.2.message) ∧
    (∀ d' : Disk, (∀ i < count, d'.bytesAt path (fileName i) 0 magic.length =
        d.bytesAt path (fileName i) 0 magic.length) →
      ofDirectory d' path count = ofDirectory d path count) ∧
    (∀ f c c', d.content? f = some c →
      (∀ i < count, d.openRead path (fileName i) = .ok f →
        c'.bytes.take magic.length = c.bytes.take magic.length) →
      ofDirectory (d.setObject f (.regular c')) path count = ofDirectory d path count) ∧
    (∀ dir entries, d.directoryAt (Path.components path) = .ok dir →
      (d.setObject dir (.directory entries)).directoryAt (Path.components path) = .ok dir →
      (∀ i < count, entries.lookup (fileName i) = (d.entries dir).lookup (fileName i)) →
      ofDirectory (d.setObject dir (.directory entries)) path count = ofDirectory d path count) ∧
    ∀ s args invocation, Command.readArguments args = .ok invocation →
      invocation.action = .verify → (Command.run s args).2 = s ∧
        (s.disk = d → invocation.path = some path → invocation.files.toNat = count →
          ((Command.run s args).1.exit = 0 ↔ ∀ i < count, Marked d path i)) := by
  refine ⟨rfl, failures_ordered d path count, ?_, fun _ _ => mem_failures, rfl,
    fun _ => ofDirectory_congr, ?_, ?_, ?_⟩
  · intro i
    simp only [mem_failures, exists_and_left, exists_bad_iff]
  · intro f c c' hc hsame
    exact ofDirectory_congr fun i hi => Disk.bytesAt_setObject hc (hsame i hi)
  · intro dir entries hat hstill hnames
    exact ofDirectory_congr fun i hi => Disk.bytesAt_relist hat hstill (hnames i hi)
  · intro s args invocation hargs hverify
    refine ⟨Command.run_verify hargs hverify, ?_⟩
    rintro rfl hpath rfl
    rw [Command.run_verify_exit hargs hverify hpath, passed_iff]

/-- A good file, no file, a short one, a dead link, a device and a directory. -/
example : (ofDirectory ⟨[.directory [("db", .file 1)],
      .directory [(fileName 0, .file 2), (fileName 2, .file 3), (fileName 3, .link none),
        (fileName 4, .link (some 4)), (fileName 5, .file 5)],
      .regular (.ofBytes (magic ++ [7])), .regular (.ofBytes [0x51]), .endless, .directory []]⟩
      "db" 6).failures =
    [(1, .notCreated (filePath "db" 1)), (2, .corruption 2 0 .shortMagic),
      (3, .notCreated (filePath "db" 3)), (4, .corruption 4 0 .badMagic),
      (5, .fileIo (filePath "db" 5) (.os .isADirectory))] := by
  decide +kernel

end Verification

end RecordStore
