import RecordStore.Proofs.Creation
import RecordStore.Proofs.MagicTag

/-!
# What a creation adds

A creation that succeeds adds the backing files to the storage directory, each with the tag alone,
and before that the directories on the way that were missing. Nothing that was there is changed.
-/

namespace RecordStore

namespace Disk

variable {d d' d'' : Disk} {New New' : FileId → String → FileId → Prop} {dir : FileId}
  {name : String}

/-! ## Disks that gain names -/

/-- Directories have got names behind those they had, each for a new object as `New` says. All else
is as it was. -/
structure Gains (d d' : Disk) (New : FileId → String → FileId → Prop) : Prop
    extends Extends d d' where
  kept : ∀ {id : FileId} {o : Object}, d.object? id = some o → ¬ d.isDirectory id →
    d'.object? id = some o
  entries : ∀ dir, ∃ added, d'.entries dir = d.entries dir ++ added ∧
    ∀ e ∈ added, ∃ id, e.2 = .file id ∧ d.nextId ≤ id ∧ New dir e.1 id

theorem gains_refl (d : Disk) (New : FileId → String → FileId → Prop) : d.Gains d New where
  toExtends := .refl d
  kept ho _ := ho
  entries dir := ⟨[], by simp, by simp⟩

theorem Gains.mono (h : d.Gains d' New)
    (himp : ∀ {dir : FileId} {name : String} {id : FileId}, New dir name id → New' dir name id) :
    d.Gains d' New' where
  toExtends := h.toExtends
  kept := h.kept
  entries dir := by
    obtain ⟨added, hadded, hnew⟩ := h.entries dir
    refine ⟨added, hadded, fun e he => ?_⟩
    obtain ⟨id, hid, hle, hallowed⟩ := hnew e he
    exact ⟨id, hid, hle, himp hallowed⟩

theorem Gains.trans (h : d.Gains d' New) (k : d'.Gains d'' New) : d.Gains d'' New where
  toExtends := h.toExtends.trans k.toExtends
  kept {id o} ho hdir := by
    have ho' := h.kept ho hdir
    refine k.kept ho' ?_
    rwa [isDirectory_of_object? (ho'.trans ho.symm)]
  entries dir := by
    obtain ⟨first, hfirst, hnew⟩ := h.entries dir
    obtain ⟨second, hsecond, hnew'⟩ := k.entries dir
    refine ⟨first ++ second, by rw [hsecond, hfirst, List.append_assoc], fun e he => ?_⟩
    rcases List.mem_append.1 he with he | he
    · exact hnew e he
    · obtain ⟨id, hid, hle, hallowed⟩ := hnew' e he
      exact ⟨id, hid, Nat.le_trans h.length hle, hallowed⟩

theorem entries_createIn {o : Object} (hdir : d.isDirectory dir)
    (hempty : ∀ es, o = .directory es → es = []) (j : FileId) :
    (d.createIn dir name o).entries j =
      d.entries j ++ if dir = j then [(name, .file d.nextId)] else [] := by
  rw [createIn_eq_relist o hdir]
  rcases Nat.lt_or_ge j d.objects.length with hj | hj
  · by_cases hsame : dir = j
    · subst hsame
      simp [Disk.entries, object?_relist o _ hdir dir hj]
    · simp [Disk.entries, object?_relist o _ hdir j hj, hsame]
  · have hne : dir ≠ j := Nat.ne_of_lt (Nat.lt_of_lt_of_le (lt_of_isDirectory hdir) hj)
    have hold : d.object? j = none := List.getElem?_eq_none_iff.2 hj
    generalize d.entries dir ++ [(name, .file d.nextId)] = es
    rw [if_neg hne, relist, Disk.entries, Disk.entries, hold, object?_setObject, if_neg hne]
    rcases Nat.eq_or_lt_of_le hj with rfl | hj
    · have hthere : (d.add o).object? d.objects.length = some o := object?_add_new d o
      rw [hthere]
      cases o with
      | directory es => simp [hempty es rfl]
      | _ => rfl
    · have hnone : (d.add o).object? j = none := by
        apply List.getElem?_eq_none_iff.2
        rw [add, List.length_append]
        exact hj
      rw [hnone]
      rfl

theorem gains_createIn {o : Object} (hdir : d.isDirectory dir)
    (hempty : ∀ es, o = .directory es → es = []) (hnew : New dir name d.nextId) :
    d.Gains (d.createIn dir name o) New where
  toExtends := extends_createIn name o hdir
  kept {id o'} ho hfile := by
    have hne : dir ≠ id := by
      rintro rfl
      exact hfile hdir
    have hlt := (List.getElem?_eq_some_iff.1 ho).1
    rw [createIn_eq_relist o hdir, object?_relist o _ hdir id hlt, if_neg hne, ho]
  entries j := by
    refine ⟨_, entries_createIn hdir hempty j, fun e he => ?_⟩
    split at he
    · rename_i hsame
      subst hsame
      rw [List.mem_singleton.1 he]
      exact ⟨d.nextId, rfl, Nat.le_refl _, hnew⟩
    · cases he

/-! ## Directories on the way -/

/-- The name is where one of the paths ends, but for empty parts, and `id` is a directory. -/
structure OnTheWay (d : Disk) (paths : List (List String)) (dir : FileId) (name : String)
    (id : FileId) : Prop where
  directory : d.isDirectory id
  path : ∃ before blanks, before ++ name :: blanks ∈ paths ∧ (∀ part ∈ blanks, part = "") ∧
    d.directoryAt before = .ok dir

theorem OnTheWay.grows {paths : List (List String)} {id : FileId}
    (h : d.OnTheWay paths dir name id) (hgrows : d.Grows d') : d'.OnTheWay paths dir name id := by
  obtain ⟨hdir, before, blanks, hpath, hblanks, hat⟩ := h
  exact ⟨hgrows.directory hdir, before, blanks, hpath, hblanks, hgrows.directoryAt hat⟩

theorem makeDirectory_ok {path : List String} (h : d.makeDirectory path = .ok d') :
    ∃ before name blanks dir, path = before ++ name :: blanks ∧ (∀ part ∈ blanks, part = "") ∧
      d.directoryAt before = .ok dir ∧ d' = d.createIn dir name (.directory []) := by
  have hcut := List.takeWhile_append_dropWhile (p := (· == "")) (l := path.reverse)
  have hblanks : ∀ part ∈ (path.reverse.takeWhile (· == "")).reverse, part = "" := by
    intro part hpart
    simpa using List.mem_takeWhile_imp (List.mem_reverse.1 hpart)
  unfold makeDirectory at h
  dsimp only at h
  cases hplain : path.reverse.dropWhile (· == "") with
  | nil =>
    rw [hplain] at h
    cases h
  | cons name rest =>
    have hpath : path = rest.reverse ++ name :: (path.reverse.takeWhile (· == "")).reverse := by
      rw [hplain] at hcut
      simpa using (congrArg List.reverse hcut).symm
    rw [hplain, List.reverse_cons, List.getLast?_concat, List.dropLast_concat] at h
    dsimp only at h
    obtain ⟨dir, hat, h⟩ := bind_eq_ok.1 h
    split at h
    · cases h
    · obtain ⟨entry, -, h⟩ := bind_eq_ok.1 h
      split at h
      · cases h
      · exact ⟨rest.reverse, name, _, dir, hpath, hblanks, hat, (Except.ok.inj h).symm⟩

theorem makeDirectory_gains {path : List String} {paths : List (List String)}
    (h : d.makeDirectory path = .ok d') (hpath : path ∈ paths) :
    d.Gains d' (d'.OnTheWay paths) := by
  have hextends := makeDirectory_extends h
  obtain ⟨before, name, blanks, dir, rfl, hblanks, hat, rfl⟩ := makeDirectory_ok h
  have hdir := (directoryAt_ok.1 hat).2
  refine gains_createIn hdir (by simp) ⟨?_, before, blanks, hpath, hblanks,
    hextends.directoryAt hat⟩
  have hne : dir ≠ d.nextId := Nat.ne_of_lt (lt_of_isDirectory hdir)
  have hnew : (d.createIn dir name (.directory [])).object? d.nextId = some (.directory []) := by
    rw [createIn_eq_relist _ hdir, relist, object?_setObject, if_neg hne, object?_add_new]
  simp [isDirectory, hnew]

theorem makeTree_gains {paths : List (List String)} {answer : Except OsError Unit}
    (h : d.makeTree paths = (answer, d')) : d.Gains d' (d'.OnTheWay paths) := by
  induction paths generalizing answer d' with
  | nil =>
    obtain ⟨-, rfl⟩ := Prod.mk.inj h
    exact gains_refl d _
  | cons path above ih =>
    have hmore : ∀ {e : Disk} {dir : FileId} {name : String} {id : FileId},
        e.OnTheWay above dir name id → e.OnTheWay (path :: above) dir name id := by
      rintro e dir name id ⟨hdir, before, blanks, hpath, hrest⟩
      exact ⟨hdir, before, blanks, List.mem_cons_of_mem path hpath, hrest⟩
    unfold makeTree at h
    split at h
    · rename_i hmake
      obtain ⟨-, rfl⟩ := Prod.mk.inj h
      exact makeDirectory_gains hmake List.mem_cons_self
    · split at h
      · rename_i htree
        obtain ⟨-, rfl⟩ := Prod.mk.inj h
        exact (ih htree).mono hmore
      · rename_i tree htree
        split at h
        · rename_i hmake
          obtain ⟨-, rfl⟩ := Prod.mk.inj h
          have hlast := makeDirectory_gains hmake (List.mem_cons_self (l := above))
          exact ((ih htree).mono fun hway => hmore (hway.grows hlast.toGrows)).trans hlast
        · obtain ⟨-, rfl⟩ := Prod.mk.inj h
          exact (ih htree).mono hmore
    · obtain ⟨-, rfl⟩ := Prod.mk.inj h
      exact gains_refl d _

theorem makeDirectories_gains {path : String} {answer : Except OsError Unit}
    (h : d.makeDirectories path = (answer, d')) :
    d.Gains d' (d'.OnTheWay (Path.withAncestors (Path.components path))) := by
  unfold makeDirectories at h
  split at h
  · obtain ⟨-, rfl⟩ := Prod.mk.inj h
    exact gains_refl d _
  · exact makeTree_gains h

end Disk

/-! ## Backing files -/

namespace Layout

open Disk

variable {d d' : Disk} {path : String} {config : Config}

/-- The name is one of the first `count` backing files of the storage directory, and leads to the
tag alone. -/
structure Tagged (d : Disk) (path : String) (count : Nat) (dir : FileId) (name : String)
    (id : FileId) : Prop where
  directory : d.directory path = .ok dir
  name : ∃ i < count, name = fileName i
  content : d.content? id = some (.ofBytes magic)

theorem createFiles_gains {is : List Nat} {count : Nat} (hcheck : Path.check path = .ok ())
    (h : createFiles d path is = (.ok (), d')) (his : ∀ i ∈ is, i < count) :
    d.Gains d' (Tagged d' path count) := by
  induction is generalizing d with
  | nil =>
    obtain ⟨-, rfl⟩ := Prod.mk.inj h
    exact gains_refl d _
  | cons i rest ih =>
    unfold createFiles at h
    split at h
    · rename_i hnew
      obtain ⟨dir, hat, hdir, rfl, -⟩ := createNew_ok hnew
      have hrest := ih h fun j hj => his j (List.mem_cons_of_mem i hj)
      have hat' := hrest.directoryAt ((extends_createIn _ _ hdir).directoryAt hat)
      refine (gains_createIn hdir (by simp) ?_).trans hrest
      exact ⟨directory_ok.2 ⟨hcheck, hat'⟩, ⟨i, his i List.mem_cons_self, rfl⟩,
        hrest.content_some (content?_createIn _ hdir)⟩
    · cases h
    · cases h

theorem create_steps (h : create d path config = (.ok (), d')) :
    config.Valid ∧ ∃ made, d.makeDirectories path = (.ok (), made) ∧
      createFiles made path (List.range config.fileCount.toNat) = (.ok (), d') := by
  unfold create at h
  split at h
  · cases h
  · rename_i hvalid
    split at h
    · cases h
    · rename_i made hmake
      split at h
      · cases h
      · exact ⟨hvalid, made, hmake, h⟩

/-- Each new name is that of a backing file, or, where there was no storage directory, of a
directory on the way to it. -/
theorem create_gains (h : create d path config = (.ok (), d')) :
    d.Gains d' fun dir name id =>
      Tagged d' path config.fileCount.toNat dir name id ∨
        ¬ (d.directory path).isOk ∧
          d'.OnTheWay (Path.withAncestors (Path.components path)) dir name id := by
  obtain ⟨-, made, hmake, hfiles⟩ := create_steps h
  have hgains := createFiles_gains (makeDirectories_check hmake) hfiles
    fun i hi => List.mem_range.1 hi
  refine Gains.trans ?_ (hgains.mono .inl)
  by_cases hthere : (d.directory path).isOk
  · have hsame : made = d := by
      cases hdir : d.directory path with
      | error e =>
        rw [hdir] at hthere
        cases hthere
      | ok dir =>
        rw [makeDirectories_of_directory hdir] at hmake
        exact (Prod.mk.inj hmake).2.symm
    rw [hsame]
    exact gains_refl d _
  · exact (makeDirectories_gains hmake).mono fun hway => .inr ⟨hthere, hway.grows hgains.toGrows⟩

theorem create_files (h : create d path config = (.ok (), d')) {i : Nat}
    (hi : i < config.fileCount.toNat) :
    ∃ f, d'.target path (fileName i) = .ok f ∧ d.nextId ≤ f ∧
      d'.content? f = some (.ofBytes magic) := by
  obtain ⟨-, made, hmake, hfiles⟩ := create_steps h
  have hsome : List.range config.fileCount.toNat ≠ [] := by
    rw [Ne, List.range_eq_nil]
    omega
  obtain ⟨dir, hdir⟩ := createFiles_directory hsome hfiles
  obtain ⟨-, htarget, hcontent⟩ := createFiles_ok hdir hfiles (List.getElem?_range hi)
  exact ⟨_, htarget, Nat.le_trans (makeDirectories_gains hmake).length (Nat.le_add_right _ i),
    hcontent⟩

theorem create_first (h : create d path config = (.ok (), d')) {n : Nat}
    (hn : n ≤ config.fileCount.toNat) :
    ∃ files : List FileId, files.length = n ∧ files.Nodup ∧
      ∀ {i : Nat} {f : FileId}, files[i]? = some f →
        d'.target path (fileName i) = .ok f ∧ d'.content? f = some (.ofBytes magic) := by
  obtain ⟨-, dir, files, -, hdatabase, hlength, hfiles⟩ := create_ok h
  have hapart : files.Nodup := by
    refine List.pairwise_iff_getElem.2 fun i j hi hj hlt hsame => ?_
    have hith := hsame ▸ List.getElem?_eq_getElem hi
    have hjth := List.getElem?_eq_getElem hj
    have hcontent := (hfiles hjth).2
    have := hdatabase.apart hith hjth (by rw [hcontent]; rfl)
    omega
  refine ⟨files.take n, ?_, hapart.sublist (List.take_sublist n files), fun {i f} hf => ?_⟩
  · rw [List.length_take, hlength, Nat.min_eq_left hn]
  · rw [List.getElem?_take] at hf
    split at hf
    · exact hfiles hf
    · cases hf

/-! ## Checking the tags -/

theorem failures_of_tags {count : Nat}
    (h : ∀ i < count, ∃ f, d.target path (fileName i) = .ok f ∧
      d.content? f = some (.ofBytes magic)) :
    (Verification.ofDirectory d path count).failures = [] := by
  refine List.isEmpty_iff.1 (Verification.passed_iff.2 fun i hi => ?_)
  obtain ⟨f, htarget, hcontent⟩ := h i hi
  exact ⟨f, _, htarget, hcontent, by simp⟩

end Layout

end RecordStore
