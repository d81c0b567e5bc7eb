import RecordStore.Proofs.History

/-!
# Growth of the disk

Calls of the library never take away a directory, a name that leads somewhere, or a file. Paths that
were found once are found again.
-/

namespace RecordStore

theorem bind_eq_ok {ε α β : Type} {x : Except ε α} {f : α → Except ε β} {b : β} :
    (x >>= f) = .ok b ↔ ∃ a, x = .ok a ∧ f a = .ok b := by
  cases x with
  | error e =>
    constructor
    · intro h
      cases h
    · rintro ⟨a, h, -⟩
      cases h
  | ok a =>
    constructor
    · exact fun h => ⟨a, rfl, h⟩
    · rintro ⟨b, h, k⟩
      cases h
      exact k

theorem bind_eq_error {ε α β : Type} {x : Except ε α} {f : α → Except ε β} {e : ε} :
    (x >>= f) = .error e ↔ x = .error e ∨ ∃ a, x = .ok a ∧ f a = .error e := by
  cases x with
  | error e' =>
    constructor
    · intro h
      left
      cases h
      rfl
    · rintro (h | ⟨a, h, -⟩)
      · cases h
        rfl
      · cases h
  | ok a =>
    constructor
    · intro h
      exact .inr ⟨a, rfl, h⟩
    · rintro (h | ⟨b, h, k⟩)
      · cases h
      · cases h
        exact k

namespace Disk

/-- The object under a name of a directory, links followed. -/
def leadsTo (d : Disk) (dir : FileId) (name : String) : Option FileId :=
  (d.lookup dir name).bind Entry.target?

structure Grows (d d' : Disk) : Prop where
  length : d.objects.length ≤ d'.objects.length
  directory : ∀ {id : FileId}, d.isDirectory id → d'.isDirectory id
  target : ∀ {dir : FileId} {name : String} {id : FileId},
    d.leadsTo dir name = some id → d'.leadsTo dir name = some id
  regular : ∀ {id : FileId}, id < d.objects.length →
    (d'.content? id).isSome = (d.content? id).isSome

/-- Growth that leaves the content of each file as it is. -/
structure Extends (d d' : Disk) : Prop extends Grows d d' where
  content : ∀ {id : FileId}, id < d.objects.length → d'.content? id = d.content? id

variable {d d' d'' : Disk}

theorem Grows.refl (d : Disk) : d.Grows d := ⟨Nat.le_refl _, id, id, fun _ => rfl⟩

theorem Grows.trans (h : d.Grows d') (k : d'.Grows d'') : d.Grows d'' where
  length := Nat.le_trans h.length k.length
  directory hid := k.directory (h.directory hid)
  target hid := k.target (h.target hid)
  regular hid := (k.regular (Nat.lt_of_lt_of_le hid h.length)).trans (h.regular hid)

theorem Extends.refl (d : Disk) : d.Extends d := ⟨.refl d, fun _ => rfl⟩

theorem Extends.trans (h : d.Extends d') (k : d'.Extends d'') : d.Extends d'' :=
  ⟨h.toGrows.trans k.toGrows, fun hid =>
    (k.content (Nat.lt_of_lt_of_le hid h.length)).trans (h.content hid)⟩

theorem content?_lt {id : FileId} {c : Content} (h : d.content? id = some c) :
    id < d.objects.length := by
  apply Decidable.byContradiction
  intro hlt
  have hnone : d.object? id = none := List.getElem?_eq_none_iff.2 (Nat.le_of_not_lt hlt)
  simp [content?, hnone] at h

theorem Extends.content_some (h : d.Extends d') {id : FileId} {c : Content}
    (hc : d.content? id = some c) : d'.content? id = some c := by
  rw [h.content (content?_lt hc), hc]

/-! ## Objects -/

theorem object?_setObject (d : Disk) (id : FileId) (o : Object) (j : FileId) :
    (d.setObject id o).object? j =
      if id = j then (if id < d.objects.length then some o else none) else d.object? j := by
  simp only [object?, setObject, List.getElem?_set]

theorem object?_add (d : Disk) (o : Object) (j : FileId) (h : j < d.objects.length) :
    (d.add o).object? j = d.object? j := by
  simp only [object?, add]
  exact List.getElem?_append_left h

theorem object?_add_new (d : Disk) (o : Object) : (d.add o).object? d.nextId = some o := by
  simp [object?, add, nextId]

theorem lt_of_isDirectory {id : FileId} (h : d.isDirectory id) : id < d.objects.length := by
  unfold isDirectory at h
  split at h
  · rename_i es he
    exact (List.getElem?_eq_some_iff.1 he).1
  · cases h

theorem object?_eq_entries {id : FileId} (h : d.isDirectory id) :
    d.object? id = some (.directory (d.entries id)) := by
  unfold isDirectory at h
  split at h
  · rename_i es he
    simp [entries, he]
  · cases h

theorem content?_of_object? {id : FileId} (h : d'.object? id = d.object? id) :
    d'.content? id = d.content? id := by
  unfold content?
  rw [h]

theorem leadsTo_of_object? {dir : FileId} (h : d'.object? dir = d.object? dir) (name : String) :
    d'.leadsTo dir name = d.leadsTo dir name := by
  unfold leadsTo lookup entries
  rw [h]

theorem isDirectory_of_object? {id : FileId} (h : d'.object? id = d.object? id) :
    d'.isDirectory id = d.isDirectory id := by
  unfold isDirectory
  rw [h]

theorem lt_of_leadsTo {dir id : FileId} {name : String} (h : d.leadsTo dir name = some id) :
    dir < d.objects.length := by
  apply Decidable.byContradiction
  intro hlt
  have hnone : d.object? dir = none := List.getElem?_eq_none_iff.2 (Nat.le_of_not_lt hlt)
  simp [leadsTo, lookup, entries, hnone] at h

/-! ## A directory gets a name for a new object -/

/-- What a disk is after a new object has got a name in a directory. -/
def relist (d : Disk) (dir : FileId) (o : Object) (es : List (String × Entry)) : Disk :=
  (d.add o).setObject dir (.directory es)

theorem object?_relist {dir : FileId} (o : Object) (es : List (String × Entry))
    (hdir : d.isDirectory dir) (j : FileId) (hj : j < d.objects.length) :
    (d.relist dir o es).object? j = if dir = j then some (.directory es) else d.object? j := by
  have hlt : dir < (d.add o).objects.length :=
    Nat.lt_of_lt_of_le (lt_of_isDirectory hdir) (by simp [add])
  rw [relist, object?_setObject, object?_add d o j hj, if_pos hlt]

theorem extends_relist {dir : FileId} (o : Object) {es : List (String × Entry)}
    (hdir : d.isDirectory dir)
    (hnames : ∀ {name : String} {id : FileId}, d.leadsTo dir name = some id →
      (es.lookup name).bind Entry.target? = some id) :
    d.Extends (d.relist dir o es) := by
  have hobject := fun {j : FileId} (hj : j < d.objects.length) => object?_relist o es hdir j hj
  have hcontent : ∀ {id : FileId}, id < d.objects.length →
      (d.relist dir o es).content? id = d.content? id := by
    intro id hid
    by_cases hsame : dir = id
    · subst hsame
      simp [content?, hobject hid, object?_eq_entries hdir]
    · exact content?_of_object? (by rw [hobject hid, if_neg hsame])
  refine ⟨⟨by simp [relist, add, setObject], fun {id} hid => ?_, fun {dir'} {name} {id} hid => ?_,
    fun hid => by rw [hcontent hid]⟩, hcontent⟩
  · have hlt := lt_of_isDirectory hid
    by_cases hsame : dir = id
    · subst hsame
      simp [isDirectory, hobject hlt]
    · rw [isDirectory_of_object? (d := d) (by rw [hobject hlt, if_neg hsame])]
      exact hid
  · have hlt := lt_of_leadsTo hid
    by_cases hsame : dir = dir'
    · subst hsame
      have hentries : (d.relist dir o es).entries dir = es := by simp [entries, hobject hlt]
      rw [leadsTo, lookup, hentries]
      exact hnames hid
    · rw [leadsTo_of_object? (d := d) (by rw [hobject hlt, if_neg hsame])]
      exact hid

theorem entries_add {dir : FileId} (o : Object) (hdir : d.isDirectory dir) :
    (d.add o).entries dir = d.entries dir := by
  unfold entries
  rw [object?_add d o dir (lt_of_isDirectory hdir)]

theorem createIn_eq_relist {dir : FileId} {name : String} (o : Object) (hdir : d.isDirectory dir) :
    d.createIn dir name o = d.relist dir o (d.entries dir ++ [(name, .file d.nextId)]) := by
  rw [createIn, link, entries_add o hdir]
  rfl

theorem createBehind_eq_relist {dir : FileId} {name : String} (o : Object)
    (hdir : d.isDirectory dir) :
    d.createBehind dir name o =
      d.relist dir o (((d.entries dir).filter fun e => e.1 != name) ++
        [(name, .link (some d.nextId))]) := by
  have hlt : dir < (d.add o).objects.length :=
    Nat.lt_of_lt_of_le (lt_of_isDirectory hdir) (by simp [add])
  rw [createBehind, unlink, entries_add o hdir]
  simp [link, relist, setObject, entries, object?, hlt]

theorem extends_createIn {dir : FileId} (name : String) (o : Object) (hdir : d.isDirectory dir) :
    d.Extends (d.createIn dir name o) := by
  rw [createIn_eq_relist o hdir]
  refine extends_relist o hdir fun {name'} {id} hid => ?_
  obtain ⟨e, he, hid⟩ := Option.bind_eq_some_iff.1 hid
  rw [lookup] at he
  simp [List.lookup_append, he, hid]

theorem lookup_filter_ne {es : List (String × Entry)} {name other : String} (h : other ≠ name) :
    (es.filter fun e => e.1 != name).lookup other = es.lookup other := by
  induction es with
  | nil => rfl
  | cons e es ih =>
    obtain ⟨key, value⟩ := e
    by_cases hkey : key = name
    · have hother : (other == key) = false := by simpa [hkey] using h
      rw [List.filter_cons_of_neg (by simpa using hkey), ih, List.lookup_cons, hother]
    · rw [List.filter_cons_of_pos (by simpa using hkey), List.lookup_cons, List.lookup_cons, ih]

theorem extends_createBehind {dir : FileId} {name : String} (o : Object) (hdir : d.isDirectory dir)
    (hdead : d.leadsTo dir name = none) : d.Extends (d.createBehind dir name o) := by
  rw [createBehind_eq_relist o hdir]
  refine extends_relist o hdir fun {name'} {id} hid => ?_
  have hne : name' ≠ name := by
    rintro rfl
    simp [hdead] at hid
  obtain ⟨e, he, hid⟩ := Option.bind_eq_some_iff.1 hid
  rw [lookup] at he
  simp [List.lookup_append, lookup_filter_ne hne, he, hid]

/-! ## Paths that are found again -/

theorem find_target {dir id : FileId} {name : String} :
    (∃ e, d.find dir name = .ok e ∧ e.bind Entry.target? = some id) ↔
      ¬ Path.maxNameSize < name.utf8ByteSize ∧ d.leadsTo dir name = some id := by
  unfold find leadsTo
  split
  · rename_i hlong
    constructor
    · rintro ⟨e, he, -⟩
      cases he
    · exact fun h => absurd hlong h.1
  · rename_i hshort
    constructor
    · rintro ⟨e, he, hid⟩
      cases he
      exact ⟨hshort, hid⟩
    · exact fun h => ⟨_, rfl, h.2⟩

theorem Grows.descend (h : d.Grows d') {stack up : List FileId} {component : String}
    (hd : d.descend stack component = .ok up) : d'.descend stack component = .ok up := by
  cases stack with
  | nil => cases hd
  | cons dir above =>
    rw [Disk.descend] at hd
    split at hd
    · cases hd
    · rename_i hdir
      have hdir : d.isDirectory dir := by simpa using hdir
      rw [Disk.descend, if_neg (by simpa using h.directory hdir)]
      split at hd
      · rename_i hstay
        rw [if_pos hstay]
        exact hd
      · rename_i hstay
        rw [if_neg hstay]
        split at hd
        · rename_i hup
          rw [if_pos hup]
          exact hd
        · rename_i hup
          rw [if_neg hup]
          obtain ⟨e, he, hd⟩ := bind_eq_ok.1 hd
          split at hd
          · rename_i id hid
            obtain ⟨hshort, hlead⟩ := find_target.1 ⟨e, he, hid⟩
            obtain ⟨e', he', hid'⟩ := find_target.2 ⟨hshort, h.target hlead⟩
            refine bind_eq_ok.2 ⟨e', he', ?_⟩
            rw [hid']
            exact hd
          · cases hd

theorem Grows.resolve (h : d.Grows d') {path : List String} {id : FileId}
    (hr : d.resolve path = .ok id) : d'.resolve path = .ok id := by
  obtain ⟨stack, hstack, hid⟩ := bind_eq_ok.1 hr
  refine bind_eq_ok.2 ⟨stack, ?_, hid⟩
  clear hr hid
  generalize [root] = start at hstack ⊢
  induction path generalizing start with
  | nil => exact hstack
  | cons component rest ih =>
    rw [List.foldlM_cons] at hstack ⊢
    obtain ⟨up, hup, hstack⟩ := bind_eq_ok.1 hstack
    exact bind_eq_ok.2 ⟨up, h.descend hup, ih _ hstack⟩

theorem directoryAt_ok {path : List String} {id : FileId} :
    d.directoryAt path = .ok id ↔ d.resolve path = .ok id ∧ d.isDirectory id := by
  unfold directoryAt
  rw [bind_eq_ok]
  constructor
  · rintro ⟨j, hj, h⟩
    split at h
    · rename_i hdir
      cases h
      exact ⟨hj, hdir⟩
    · cases h
  · rintro ⟨hr, hdir⟩
    exact ⟨id, hr, by rw [if_pos hdir]⟩

theorem Grows.directoryAt (h : d.Grows d') {path : List String} {id : FileId}
    (hd : d.directoryAt path = .ok id) : d'.directoryAt path = .ok id := by
  obtain ⟨hr, hdir⟩ := directoryAt_ok.1 hd
  exact directoryAt_ok.2 ⟨h.resolve hr, h.directory hdir⟩

theorem directory_ok {path : String} {id : FileId} :
    d.directory path = .ok id ↔
      Path.check path = .ok () ∧ d.directoryAt (Path.components path) = .ok id := by
  unfold directory
  rw [bind_eq_ok]
  constructor
  · rintro ⟨⟨⟩, hcheck, h⟩
    exact ⟨hcheck, h⟩
  · rintro ⟨hcheck, h⟩
    exact ⟨(), hcheck, h⟩

theorem Grows.directory_ok (h : d.Grows d') {path : String} {id : FileId}
    (hd : d.directory path = .ok id) : d'.directory path = .ok id := by
  obtain ⟨hcheck, hd⟩ := Disk.directory_ok.1 hd
  exact Disk.directory_ok.2 ⟨hcheck, h.directoryAt hd⟩

@[simp] theorem directoryNamed_empty (d : Disk) : d.directoryNamed "" = .error .notFound := rfl

theorem directoryNamed_ok {path : String} {id : FileId} :
    d.directoryNamed path = .ok id ↔ path ≠ "" ∧ d.directory path = .ok id := by
  unfold directoryNamed
  split <;> simp_all

theorem locate_ok {path name : String} {dir : FileId} {e : Option Entry} :
    d.locate path name = .ok (dir, e) ↔
      (Path.check (Path.join path name) = .ok () ∧ name.utf8ByteSize ≤ Path.maxNameSize) ∧
        d.directoryAt (Path.components path) = .ok dir ∧ d.lookup dir name = e := by
  have hfind : d.find dir name = .ok e ↔
      name.utf8ByteSize ≤ Path.maxNameSize ∧ d.lookup dir name = e := by
    unfold find
    split
    · rename_i hlong
      exact ⟨fun h => (by cases h), fun h => absurd hlong (Nat.not_lt_of_le h.1)⟩
    · rename_i hshort
      exact ⟨fun h => ⟨Nat.le_of_not_lt hshort, Except.ok.inj h⟩, fun h => by rw [h.2]⟩
  unfold locate
  rw [bind_eq_ok]
  constructor
  · rintro ⟨⟨⟩, hcheck, h⟩
    obtain ⟨dir', hdir, h⟩ := bind_eq_ok.1 h
    obtain ⟨e', he, h⟩ := bind_eq_ok.1 h
    obtain ⟨rfl, rfl⟩ := Prod.mk.inj (Except.ok.inj h)
    exact ⟨⟨hcheck, (hfind.1 he).1⟩, hdir, (hfind.1 he).2⟩
  · rintro ⟨⟨hcheck, hshort⟩, hdir, he⟩
    exact ⟨(), hcheck, bind_eq_ok.2 ⟨dir, hdir, bind_eq_ok.2 ⟨e, hfind.2 ⟨hshort, he⟩, rfl⟩⟩⟩

theorem locate_isDirectory {path name : String} {dir : FileId} {e : Option Entry}
    (h : d.locate path name = .ok (dir, e)) : d.isDirectory dir :=
  (directoryAt_ok.1 (locate_ok.1 h).2.1).2

theorem target_ok {path name : String} {id : FileId} :
    d.target path name = .ok id ↔
      (Path.check (Path.join path name) = .ok () ∧ name.utf8ByteSize ≤ Path.maxNameSize) ∧
        ∃ dir, d.directoryAt (Path.components path) = .ok dir ∧ d.leadsTo dir name = some id := by
  unfold target
  rw [bind_eq_ok]
  constructor
  · rintro ⟨⟨dir, e⟩, hlocate, h⟩
    obtain ⟨hname, hdir, rfl⟩ := locate_ok.1 hlocate
    split at h
    · rename_i j hj
      cases h
      exact ⟨hname, dir, hdir, hj⟩
    · cases h
  · rintro ⟨hname, dir, hdir, hlead⟩
    refine ⟨(dir, d.lookup dir name), locate_ok.2 ⟨hname, hdir, rfl⟩, ?_⟩
    dsimp only
    rw [leadsTo] at hlead
    rw [hlead]

theorem Grows.target_ok (h : d.Grows d') {path name : String} {id : FileId}
    (ht : d.target path name = .ok id) : d'.target path name = .ok id := by
  obtain ⟨hname, dir, hdir, hlead⟩ := Disk.target_ok.1 ht
  exact Disk.target_ok.2 ⟨hname, dir, h.directoryAt hdir, h.target hlead⟩

theorem openWrite_ok {path name : String} {id : FileId} (h : d.openWrite path name = .ok id) :
    d.target path name = .ok id := by
  obtain ⟨j, hj, h⟩ := bind_eq_ok.1 h
  split at h
  · cases h
  · cases h
    exact hj

/-! ## Calls that make files and directories -/

theorem lookup_createIn {dir : FileId} {name : String} (o : Object) (hdir : d.isDirectory dir)
    (hfree : d.lookup dir name = none) :
    (d.createIn dir name o).leadsTo dir name = some d.nextId := by
  rw [createIn_eq_relist o hdir, leadsTo, lookup, entries,
    object?_relist o _ hdir dir (lt_of_isDirectory hdir), if_pos rfl]
  rw [lookup] at hfree
  simp [List.lookup_append, hfree, Entry.target?]

theorem lookup_createBehind {dir : FileId} {name : String} (o : Object)
    (hdir : d.isDirectory dir) :
    (d.createBehind dir name o).leadsTo dir name = some d.nextId := by
  rw [createBehind_eq_relist o hdir, leadsTo, lookup, entries,
    object?_relist o _ hdir dir (lt_of_isDirectory hdir), if_pos rfl]
  have hgone : ((d.entries dir).filter fun e => e.1 != name).lookup name = none := by
    simpa using fun a b _ (hne : ¬ a = name) hsame => hne hsame.symm
  simp [List.lookup_append, hgone, Entry.target?]

theorem content?_createIn {dir : FileId} {name : String} (c : Content)
    (hdir : d.isDirectory dir) : (d.createIn dir name (.regular c)).content? d.nextId = some c := by
  have hne : dir ≠ d.nextId := Nat.ne_of_lt (lt_of_isDirectory hdir)
  rw [createIn, content?, link, object?_setObject, if_neg hne, object?_add_new]

theorem openOrCreate_extends (d : Disk) (path name : String) :
    d.Extends (d.openOrCreate path name).2 := by
  unfold openOrCreate
  split
  · exact .refl d
  · exact extends_createIn _ _ (locate_isDirectory ‹_›)
  · rename_i dir hlocate
    have hentry := (locate_ok.1 hlocate).2.2
    exact extends_createBehind _ (locate_isDirectory hlocate)
      (by simp [leadsTo, hentry, Entry.target?])
  · exact .refl d

theorem openOrCreate_ok {path name : String} {id : FileId}
    (h : d.openOrCreate path name = (.ok id, d')) :
    ∃ dir, d.directoryAt (Path.components path) = .ok dir ∧ d'.leadsTo dir name = some id := by
  unfold openOrCreate at h
  split at h
  · cases h
  · rename_i dir hlocate
    obtain ⟨-, hat, hentry⟩ := locate_ok.1 hlocate
    cases h
    exact ⟨dir, hat, lookup_createIn _ (locate_isDirectory hlocate) hentry⟩
  · rename_i dir hlocate
    cases h
    exact ⟨dir, (locate_ok.1 hlocate).2.1, lookup_createBehind _ (locate_isDirectory hlocate)⟩
  · obtain ⟨hopen, rfl⟩ := Prod.mk.inj h
    exact (target_ok.1 (openWrite_ok hopen)).2

theorem createNew_ok {path name : String} {bs : Bytes} (h : d.createNew path name bs = .ok d') :
    ∃ dir, d.directoryAt (Path.components path) = .ok dir ∧ d.isDirectory dir ∧
      d' = d.createIn dir name (.regular (.ofBytes bs)) ∧ d'.leadsTo dir name = some d.nextId ∧
      d'.target path name = .ok d.nextId := by
  unfold createNew at h
  split at h
  · cases h
  · rename_i dir hlocate
    obtain ⟨hname, hat, hentry⟩ := locate_ok.1 hlocate
    have hdir := locate_isDirectory hlocate
    have hgrows := extends_createIn name (.regular (.ofBytes bs)) hdir
    have hlead := lookup_createIn (.regular (.ofBytes bs)) hdir hentry
    cases h
    exact ⟨dir, hat, hdir, rfl, hlead,
      target_ok.2 ⟨hname, dir, hgrows.directoryAt hat, hlead⟩⟩
  · cases h

theorem makeDirectory_extends {path : List String} (h : d.makeDirectory path = .ok d') :
    d.Extends d' := by
  unfold makeDirectory at h
  dsimp only at h
  split at h
  · cases h
  · obtain ⟨dir, hat, h⟩ := bind_eq_ok.1 h
    split at h
    · cases h
    · obtain ⟨e, -, h⟩ := bind_eq_ok.1 h
      split at h
      · cases h
      · cases h
        exact extends_createIn _ _ (directoryAt_ok.1 hat).2

theorem makeTree_extends (d : Disk) (paths : List (List String)) :
    d.Extends (d.makeTree paths).2 := by
  induction paths with
  | nil => exact .refl d
  | cons path above ih =>
    unfold makeTree
    split
    · exact makeDirectory_extends ‹_›
    · split
      · rename_i hup
        rw [hup] at ih
        exact ih
      · rename_i hup
        rw [hup] at ih
        split
        · exact ih.trans (makeDirectory_extends ‹_›)
        · exact ih
    · exact .refl d

theorem makeDirectories_extends (d : Disk) (path : String) :
    d.Extends (d.makeDirectories path).2 := by
  unfold makeDirectories
  split
  · exact .refl d
  · exact makeTree_extends d _

end Disk

namespace Layout

open Disk

theorem createFiles_extends (d : Disk) (path : String) (is : List Nat) :
    d.Extends (createFiles d path is).2 := by
  induction is generalizing d with
  | nil => exact .refl d
  | cons i rest ih =>
    unfold createFiles
    split
    · rename_i d' hnew
      obtain ⟨dir, -, hdir, rfl, -⟩ := createNew_ok hnew
      exact (extends_createIn _ _ hdir).trans (ih _)
    · exact .refl d
    · exact .refl d

theorem create_extends (d : Disk) (path : String) (config : Config) :
    d.Extends (create d path config).2 := by
  unfold create
  split
  · exact .refl d
  · have hmake := makeDirectories_extends d path
    split
    · rename_i hdirs
      rw [hdirs] at hmake
      exact hmake
    · rename_i hdirs
      rw [hdirs] at hmake
      split
      · exact hmake
      · exact hmake.trans (createFiles_extends _ path _)

end Layout

/-! ## Writing -/

namespace Disk

variable {d d' : Disk}

theorem content?_eq_some {id : FileId} {c : Content} :
    d.content? id = some c ↔ d.object? id = some (.regular c) := by
  unfold content?
  constructor
  · intro h
    split at h
    · rwa [← Option.some.inj h]
    · cases h
  · intro h
    rw [h]

theorem write_regular {id : FileId} {c : Content} (h : d.content? id = some c) (offset : Nat)
    (bs : Bytes) (fault : Option Fault) :
    d.write id offset bs fault = (fault.elim (.ok ()) fun f => .error f.error,
      d.setObject id (.regular (c.write offset (d.landing id bs fault)))) := by
  rw [content?_eq_some] at h
  unfold write landing
  rw [h]
  cases fault <;> rfl

theorem write_irregular {id : FileId} (h : d.content? id = none) (offset : Nat) (bs : Bytes)
    (fault : Option Fault) :
    (∃ e, d.write id offset bs fault = (.error e, d)) ∧ d.landing id bs fault = [] := by
  unfold content? at h
  unfold write landing
  cases ho : d.object? id with
  | none => exact ⟨⟨_, rfl⟩, rfl⟩
  | some o =>
    cases o with
    | regular c => simp [ho] at h
    | _ => exact ⟨⟨_, rfl⟩, rfl⟩

theorem content?_setObject (d : Disk) (id : FileId) (c : Content) (j : FileId)
    (hid : id < d.objects.length) :
    (d.setObject id (.regular c)).content? j = if id = j then some c else d.content? j := by
  unfold content?
  rw [object?_setObject, if_pos hid]
  by_cases hj : id = j
  · rw [if_pos hj, if_pos hj]
  · rw [if_neg hj, if_neg hj]

theorem content?_write (d : Disk) (id : FileId) (offset : Nat) (bs : Bytes) (fault : Option Fault)
    (j : FileId) :
    (d.write id offset bs fault).2.content? j =
      if id = j then (d.content? id).map (·.write offset (d.landing id bs fault))
      else d.content? j := by
  cases hc : d.content? id with
  | some c =>
    have hlt := (List.getElem?_eq_some_iff.1 (content?_eq_some.1 hc)).1
    rw [write_regular hc, content?_setObject d id _ j hlt]
    rfl
  | none =>
    obtain ⟨⟨e, he⟩, -⟩ := write_irregular hc offset bs fault
    rw [he]
    split
    · rename_i hj
      rw [← hj, hc]
      rfl
    · rfl

theorem write_grows (d : Disk) (id : FileId) (offset : Nat) (bs : Bytes) (fault : Option Fault) :
    d.Grows (d.write id offset bs fault).2 := by
  cases hc : d.content? id with
  | none =>
    obtain ⟨⟨e, he⟩, -⟩ := write_irregular hc offset bs fault
    rw [he]
    exact .refl d
  | some c =>
    have hobject := content?_eq_some.1 hc
    have hlt := (List.getElem?_eq_some_iff.1 hobject).1
    have hother : ∀ {j : FileId}, d.object? j ≠ some (.regular c) →
        (d.write id offset bs fault).2.object? j = d.object? j := by
      intro j hj
      rw [write_regular hc, object?_setObject, if_neg]
      rintro rfl
      exact hj hobject
    refine ⟨?_, fun {j} hj => ?_, fun {dir} {name} {j} hj => ?_, fun {j} _ => ?_⟩
    · rw [write_regular hc]
      simp [setObject]
    · rw [isDirectory_of_object? (hother (j := j) (by simp [object?_eq_entries hj]))]
      exact hj
    · by_cases hdir : d.object? dir = some (.regular c)
      · simp [leadsTo, lookup, entries, hdir] at hj
      · rw [leadsTo_of_object? (hother hdir)]
        exact hj
    · rw [content?_write]
      split
      · rename_i hj
        rw [Option.isSome_map, hj]
      · rfl

end Disk

end RecordStore
