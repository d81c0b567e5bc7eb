import RecordStore.Proofs.Exclusion
import RecordStore.Proofs.Pipeline
import Mathlib.Data.List.Basic

/-!
# What a backing file holds

A backing file holds what it held at first, followed by what each of its leases got into it, lease
after lease. A lease starts where the file ends, and nobody else writes until its writer is done.
-/

namespace RecordStore

/-- All that the leases got into their file, one after the other. -/
def History.image (h : History) (ids : List SegmentId) : Bytes :=
  ids.flatMap fun id => Notice.landings (h.on id)

namespace Store

def lease? (s : Store) (id : SegmentId) : Option (Nat × Nat) :=
  s.segments[id]?.map fun g => (g.fileIndex, g.base)

/-- The leases of a file among the first `n`, in the order they were granted. -/
def leases (s : Store) (i n : Nat) : List SegmentId :=
  (List.range n).filter fun id => (s.lease? id).any (·.1 == i)

def leasesOf (s : Store) (i : Nat) : List SegmentId := s.leases i s.segments.length

variable {s t : Store} {h k : History} {i n : Nat} {id : SegmentId}

theorem lease?_of_some {g : Segment} (hg : s.segments[id]? = some g) :
    s.lease? id = some (g.fileIndex, g.base) := by
  rw [lease?, hg]
  rfl

theorem leases_succ (s : Store) (i n : Nat) :
    s.leases i (n + 1) = s.leases i n ++ if (s.lease? n).any (·.1 == i) then [n] else [] := by
  rw [leases, List.range_succ, List.filter_append, List.filter_cons, List.filter_nil]
  rfl

theorem leases_congr (hsame : ∀ j < n, t.lease? j = s.lease? j) : t.leases i n = s.leases i n :=
  List.filter_congr fun j hj => by rw [hsame j (List.mem_range.1 hj)]

theorem mem_leases {j : SegmentId} (hj : j ∈ s.leases i n) : j < n ∧ ∃ b, s.lease? j = some (i, b) := by
  obtain ⟨hlt, hany⟩ := List.mem_filter.1 hj
  refine ⟨List.mem_range.1 hlt, ?_⟩
  cases hl : s.lease? j with
  | none => simp [hl] at hany
  | some l =>
    rw [hl] at hany
    exact ⟨l.2, by rw [← beq_iff_eq.1 hany]⟩

theorem leases_eq_append {b : Nat} (hlease : s.lease? id = some (i, b)) (hid : id < n)
    (hlast : ∀ j, id < j → ∀ b, s.lease? j ≠ some (i, b)) :
    s.leases i n = s.leases i id ++ [id] := by
  induction n with
  | zero => exact absurd hid (Nat.not_lt_zero _)
  | succ n ih =>
    rw [leases_succ]
    rcases Nat.lt_succ_iff_lt_or_eq.1 hid with hlt | rfl
    · have hnone : ((s.lease? n).any (·.1 == i)) = false := by
        cases hn : s.lease? n with
        | none => rfl
        | some l =>
          refine Bool.eq_false_iff.2 fun hi => hlast n hlt l.2 ?_
          rw [hn, ← beq_iff_eq.1 hi]
      rw [ih hlt, hnone]
      exact List.append_nil _
    · rw [hlease]
      simp

theorem image_append (h : History) (ids others : List SegmentId) :
    h.image (ids ++ others) = h.image ids ++ h.image others := List.flatMap_append

theorem image_singleton (h : History) (id : SegmentId) :
    h.image [id] = Notice.landings (h.on id) := by
  simp [History.image]

theorem image_congr {ids : List SegmentId}
    (hsame : ∀ j ∈ ids, Notice.landings (k.on j) = Notice.landings (h.on j)) :
    k.image ids = h.image ids := by
  unfold History.image
  rw [List.flatMap_congr hsame]

theorem image_of_not_mem {ids : List SegmentId} {ns : List Notice} (hid : id ∉ ids) :
    (h ++ ns.map (id, ·)).image ids = h.image ids := by
  apply image_congr
  intro j hj
  have hne : id ≠ j := fun hsame => hid (hsame ▸ hj)
  rw [History.on_append, History.on_map_ne ns hne, List.append_nil]

theorem leasesOf_split {b : Nat} (hlease : s.lease? id = some (i, b)) :
    ∃ later, s.leasesOf i = s.leases i id ++ id :: later := by
  have hid : id < s.segments.length := by
    obtain ⟨g, hg, -⟩ := Option.map_eq_some_iff.1 hlease
    exact (List.getElem?_eq_some_iff.1 hg).1
  have hrange : List.range (id + 1) <+: List.range s.segments.length := by
    have htake : (List.range s.segments.length).take (id + 1) = List.range (id + 1) := by
      rw [List.take_range, Nat.min_eq_left hid]
    exact htake ▸ List.take_prefix _ _
  obtain ⟨later, hlater⟩ : s.leases i (id + 1) <+: s.leasesOf i := hrange.filter _
  refine ⟨later, ?_⟩
  rw [← hlater, leases_succ, hlease]
  simp

/-! ## The invariant -/

structure Imaged (d : Disk) (files : List FileId) (s : Store) (h : History) : Prop where
  bytes : ∀ {i : Nat} {f : FileId} {c : Content}, files[i]? = some f → d.content? f = some c →
    ∃ c', s.disk.content? f = some c' ∧ c'.bytes = c.bytes ++ h.image (s.leasesOf i)
  base : ∀ {i : Nat} {f : FileId} {c : Content} {id : SegmentId} {b : Nat}, files[i]? = some f →
    d.content? f = some c → s.lease? id = some (i, b) →
    b = c.size + (h.image (s.leases i id)).length

variable {d : Disk} {dir : FileId} {files : List FileId}

theorem imaged_ofDisk (d : Disk) (files : List FileId) : (ofDisk d).Imaged d files [] :=
  ⟨fun {i f c} _ hc => ⟨c, hc, by simp [leasesOf, leases, ofDisk, History.image]⟩,
    fun _ _ hl => by simp [lease?, ofDisk] at hl⟩

theorem lease?_lt {l : Nat × Nat} (hl : s.lease? id = some l) : id < s.segments.length := by
  obtain ⟨g, hg, -⟩ := Option.map_eq_some_iff.1 hl
  exact (List.getElem?_eq_some_iff.1 hg).1

theorem lease?_set {g k : Segment} (hg : s.segments[id]? = some g)
    (hindex : k.fileIndex = g.fileIndex) (hbase : k.base = g.base)
    (hsegments : t.segments = s.segments.set id k) : t.lease? = s.lease? := by
  funext j
  simp only [lease?, hsegments, List.getElem?_set]
  split
  · rename_i hj
    subst hj
    obtain ⟨hid, rfl⟩ := List.getElem?_eq_some_iff.1 hg
    simp [hid, hindex, hbase]
  · rfl

theorem Imaged.keep (hi : s.Imaged d files h) (hlease : t.lease? = s.lease?)
    (hlength : t.segments.length = s.segments.length)
    (hcontent : ∀ {f : FileId} {c : Content}, s.disk.content? f = some c →
      t.disk.content? f = some c)
    (hland : ∀ j, Notice.landings (k.on j) = []) : t.Imaged d files (h ++ k) := by
  have hleases : ∀ i n, t.leases i n = s.leases i n := fun i n =>
    leases_congr fun j _ => by rw [hlease]
  have himage : ∀ ids, (h ++ k).image ids = h.image ids := fun ids => image_congr fun j _ => by
    rw [History.on_append, Notice.landings_append, hland, List.append_nil]
  refine ⟨fun {i f c} hf hc => ?_, fun {i f c id b} hf hc hl => ?_⟩
  · rw [leasesOf, hleases, hlength, himage]
    obtain ⟨c', hc', hbytes⟩ := hi.bytes hf hc
    exact ⟨c', hcontent hc', hbytes⟩
  · rw [hleases, himage]
    rw [hlease] at hl
    exact hi.base hf hc hl

theorem Imaged.lease (hi : s.Imaged d files h) {g : Segment}
    (hsegments : t.segments = s.segments ++ [g]) (hdisk : t.disk = s.disk)
    (hfile : files[g.fileIndex]? = some g.writer.file)
    (hbase : g.base = s.disk.size g.writer.file) (hnew : h.on s.segments.length = []) :
    t.Imaged d files (h ++ []) := by
  rw [List.append_nil]
  have hold : ∀ j < s.segments.length, t.lease? j = s.lease? j := fun j hj => by
    rw [lease?, hsegments, List.getElem?_append_left hj, lease?]
  have hleases : ∀ i n, n ≤ s.segments.length → t.leases i n = s.leases i n := fun i n hn =>
    leases_congr fun j hj => hold j (Nat.lt_of_lt_of_le hj hn)
  refine ⟨fun {i f c} hf hc => ?_, fun {i f c id b} hf hc hl => ?_⟩
  · obtain ⟨c', hc', hbytes⟩ := hi.bytes hf hc
    refine ⟨c', by rw [hdisk]; exact hc', ?_⟩
    rw [leasesOf, hsegments, List.length_append, List.length_singleton, leases_succ,
      hleases i _ (Nat.le_refl _), image_append, hbytes]
    have hnothing : h.image (if (t.lease? s.segments.length).any (·.1 == i) then
        [s.segments.length] else []) = [] := by
      split
      · simp [History.image, hnew, Notice.landings]
      · rfl
    rw [hnothing, List.append_nil]
    rfl
  · obtain hlt | heq := Nat.lt_or_eq_of_le (Nat.lt_succ_iff.1 (show id < s.segments.length + 1 by
      have := lease?_lt hl
      rwa [hsegments, List.length_append] at this))
    · rw [hleases i id (Nat.le_of_lt hlt)]
      rw [hold id hlt] at hl
      exact hi.base hf hc hl
    · subst heq
      have hg : t.segments[s.segments.length]? = some g := by rw [hsegments]; simp
      rw [lease?, hg] at hl
      obtain ⟨rfl, rfl⟩ := Prod.mk.inj (Option.some.inj hl)
      obtain ⟨c', hc', hbytes⟩ := hi.bytes hf hc
      obtain rfl := Option.some.inj (hfile.symm.trans hf)
      rw [hleases _ _ (Nat.le_refl _), hbase, Disk.size, hc']
      show c'.size = _
      rw [← Content.length_bytes, hbytes, List.length_append, Content.length_bytes]
      rfl

theorem Sound.last_of_unfinished (hs : s.Sound d dir files h) {g : Segment}
    (hg : s.segments[id]? = some g) (hun : g.writer.finished = false) (j : SegmentId) (hj : id < j)
    (b : Nat) : s.lease? j ≠ some (g.fileIndex, b) := by
  intro hl
  obtain ⟨k, hk, hkl⟩ := Option.map_eq_some_iff.1 hl
  rw [hs.sequential hj hg hk (Prod.mk.inj hkl).1.symm] at hun
  cases hun

theorem Imaged.size_eq (hi : s.Imaged d files h) {g : Segment} {f : FileId} {c c' : Content}
    (hg : s.segments[id]? = some g) (hf : files[g.fileIndex]? = some f)
    (hc : d.content? f = some c) (hc' : s.disk.content? f = some c')
    (hlast : ∀ j, id < j → ∀ b, s.lease? j ≠ some (g.fileIndex, b)) :
    c'.size = g.base + (Notice.landings (h.on id)).length := by
  obtain ⟨c'', hc'', hbytes⟩ := hi.bytes hf hc
  obtain rfl := Option.some.inj (hc''.symm.trans hc')
  have hlease := lease?_of_some hg
  rw [← Content.length_bytes, hbytes, leasesOf, leases_eq_append hlease (lease?_lt hlease) hlast,
    hi.base hf hc hlease, image_append, image_singleton, List.length_append, List.length_append,
    Content.length_bytes, Nat.add_assoc]

/-- The writer of a segment gets bytes of its oldest record into the file. No later lease of the file
is there yet, so the bytes come to stand at the end. -/
theorem Imaged.land (hi : s.Imaged d files h) (hs : s.Sound d dir files h)
    (hdb : d.Database dir files) (hcarry : s.Along Segment.Carrying h) {g g' : Segment}
    {ns : List Notice} {r : Request} {rest : List Request} {fault : Option Disk.Fault}
    (hg : s.segments[id]? = some g) (queued : g.writer.queue = r :: rest)
    (known : g.writer.failing = none) (sound : g.writer.failure = none)
    (hland : Notice.landings ns = s.disk.landing g.writer.file r.bytes fault)
    (hlater : g.Later g') (hsegments : t.segments = s.segments.set id g')
    (hdisk : t.disk = (s.disk.write g.writer.file r.offset r.bytes fault).2) :
    t.Imaged d files (h ++ ns.map (id, ·)) := by
  obtain ⟨horderly, handled, waiting, hc⟩ := hcarry.each hg
  have hfile := hs.placed.segments hg
  have hown := lease?_of_some hg
  have hlast := hs.last_of_unfinished hg (horderly.unfinished (by simp [queued]))
  have hlease := lease?_set hg hlater.fileIndex hlater.base hsegments
  have hleases : ∀ i n, t.leases i n = s.leases i n := fun i n => leases_congr fun j _ => by
    rw [hlease]
  refine ⟨fun {i f c} hf hfc => ?_, fun {i f c j b} hf hfc hl => ?_⟩
  · obtain ⟨c', hc', hbytes⟩ := hi.bytes hf hfc
    have hof : t.leasesOf i = s.leasesOf i := by
      rw [leasesOf, hleases, hsegments, List.length_set]
      rfl
    rw [hof, hdisk, Disk.content?_write]
    by_cases hsame : i = g.fileIndex
    · subst hsame
      obtain rfl := Option.some.inj (hfile.symm.trans hf)
      have hend : r.offset = c'.size := by
        rw [hc.offset_of_sound queued known sound, hi.size_eq hg hf hfc hc' hlast]
      have hall : s.leasesOf g.fileIndex = s.leases g.fileIndex id ++ [id] :=
        leases_eq_append hown (lease?_lt hown) hlast
      have hbefore : id ∉ s.leases g.fileIndex id := fun hmem =>
        absurd (mem_leases hmem).1 (Nat.lt_irrefl _)
      refine ⟨_, by rw [if_pos rfl, hc']; rfl, ?_⟩
      rw [hend, Content.bytes_write_size, hbytes, hall, image_append, image_append,
        image_of_not_mem hbefore, image_singleton, image_singleton, History.on_append,
        History.on_map_self, Notice.landings_append, hland, List.append_assoc, List.append_assoc]
    · have hne : ¬ g.writer.file = f := fun hsame' =>
        hsame (hdb.apart hf (hsame' ▸ hfile) (by rw [hfc]; rfl))
      refine ⟨c', by rw [if_neg hne]; exact hc', ?_⟩
      rw [hbytes, image_of_not_mem]
      intro hmem
      obtain ⟨-, b, hb⟩ := mem_leases hmem
      rw [hown] at hb
      exact hsame (Prod.mk.inj (Option.some.inj hb)).1.symm
  · rw [hlease] at hl
    rw [hleases, image_of_not_mem, hi.base hf hfc hl]
    intro hmem
    obtain ⟨hlt, b', hb'⟩ := mem_leases hmem
    rw [hown] at hb'
    obtain ⟨rfl, -⟩ := Prod.mk.inj (Option.some.inj hb')
    exact hlast j hlt b hl

theorem move_effect {g g' : Segment} {d d' : Disk} {ns : List Notice} (hm : g.Move d ns g' d') :
    (d' = d ∧ Notice.landings ns = []) ∨
      ∃ r rest fault, g.writer.queue = r :: rest ∧ g.writer.failing = none ∧
        g.writer.failure = none ∧ Notice.landings ns = d.landing g.writer.file r.bytes fault ∧
        d' = (d.write g.writer.file r.offset r.bytes fault).2 := by
  cases hm with
  | store queued known sound written =>
    exact .inr ⟨_, _, _, queued, known, sound, List.append_nil _, by rw [written]⟩
  | fail queued known sound written =>
    exact .inr ⟨_, _, _, queued, known, sound, List.append_nil _, by rw [written]⟩
  | _ => exact .inl ⟨rfl, rfl⟩

theorem Change.content {event : Event} {ns : History} (hc : s.Change event ns t) :
    (∀ {f : FileId} {c : Content}, s.disk.content? f = some c → t.disk.content? f = some c) ∨
      ∃ (id : SegmentId) (g : Segment) (r : Request) (rest : List Request)
        (fault : Option Disk.Fault), s.segments[id]? = some g ∧ g.writer.queue = r :: rest ∧
        g.writer.failing = none ∧ g.writer.failure = none ∧
        t.disk = (s.disk.write g.writer.file r.offset r.bytes fault).2 := by
  cases hc with
  | create => exact .inl (Layout.create_extends s.disk _ _).content_some
  | openRefused refused => exact .inl (Pool.openAt_extends refused).content_some
  | openPool isOpen opened => exact .inl (Pool.openAt_extends opened).content_some
  | @segment id g g' ns d there move =>
    rcases move_effect move with ⟨rfl, -⟩ | ⟨r, rest, fault, queued, known, sound, -, hdisk⟩
    · exact .inl fun hf => hf
    · exact .inr ⟨id, g, r, rest, fault, there, queued, known, sound, hdisk⟩
  | closePool => exact .inl (by simp)
  | finish => exact .inl (by simp)
  | _ => exact .inl fun hf => hf

theorem Imaged.change {event : Event} {ns : History} (hi : s.Imaged d files h)
    (hs : s.Sound d dir files h) (hdb : d.Database dir files)
    (hcarry : s.Along Segment.Carrying h) (hadmits : s.Admits dir files.length event)
    (hc : s.Change event ns t) : t.Imaged d files (h ++ ns) := by
  cases hc with
  | same => exact hi.keep rfl rfl (fun hc => hc) fun _ => rfl
  | create => exact hi.keep rfl rfl (Layout.create_extends s.disk _ _).content_some fun _ => rfl
  | openRefused refused =>
    exact hi.keep rfl rfl (Pool.openAt_extends refused).content_some fun _ => rfl
  | openPool isOpen opened =>
    exact hi.keep rfl rfl (Pool.openAt_extends opened).content_some fun _ => rfl
  | closePool =>
    refine hi.keep ?_ (by simp) (by simp) fun _ => rfl
    funext j
    rw [lease?, segments_dropOwner]
    rfl
  | pool => exact hi.keep rfl rfl (fun hc => hc) fun _ => rfl
  | @lease id p i g there received started =>
    obtain ⟨-, -, rfl⟩ := Segment.start_ok started
    have ht := hs.placed.change hdb hadmits hs.conserved (.lease there received started)
    exact hi.lease rfl rfl (ht.segments List.getElem?_concat_length) rfl
      (hcarry.later (Nat.le_refl _))
  | @segment id g g' ns d' there move =>
    rcases move_effect move with ⟨rfl, hland⟩ | ⟨r, rest, fault, queued, known, sound, hland, hdisk⟩
    · refine hi.keep (lease?_set there move.later.fileIndex move.later.base rfl)
        List.length_set (fun hc => hc) fun j => ?_
      by_cases hj : id = j
      · rw [← hj, History.on_map_self, hland]
      · rw [History.on_map_ne ns hj]
        rfl
    · exact hi.land hs hdb hcarry there queued known sound hland move.later rfl hdisk
  | @finish id g there closed empty known unfinished =>
    have hsegments : ((s.setSegment id g.finish).dropOwner g.pool).segments =
        s.segments.set id g.finish := segments_dropOwner _ _
    exact hi.keep (lease?_set (k := g.finish) there rfl rfl hsegments) (by simp) (by simp) fun _ => rfl
  | @release id g there live idle drained =>
    refine hi.keep (lease?_set (k := { g with released := true }) there rfl rfl rfl) (by simp)
      (fun hc => hc) fun j => ?_
    by_cases hj : id = j
    · subst hj
      rw [History.on, List.filterMap_cons]
      simp [Notice.landings, Notice.landing]
    · simp [History.on, hj, Notice.landings]

theorem Imaged.stands (hi : s.Imaged d files h) {b : Nat} {f : FileId} {c : Content}
    {before after data : Bytes} (hlease : s.lease? id = some (i, b)) (hf : files[i]? = some f)
    (hc : d.content? f = some c)
    (hland : Notice.landings (h.on id) = before ++ Record.encode data ++ after) :
    s.disk.Stands f (b + before.length) data := by
  obtain ⟨c', hc', hbytes⟩ := hi.bytes hf hc
  obtain ⟨later, hsplit⟩ := leasesOf_split hlease
  refine ⟨c', hc', after ++ h.image later, ?_⟩
  have hfront : c'.bytes = (c.bytes ++ h.image (s.leases i id) ++ before) ++
      (Record.encode data ++ (after ++ h.image later)) := by
    rw [hbytes, hsplit, image_append]
    show _ ++ (_ ++ (Notice.landings (h.on id) ++ h.image later)) = _
    rw [hland]
    simp only [List.append_assoc]
  have hplace : b + before.length =
      (c.bytes ++ h.image (s.leases i id) ++ before).length := by
    rw [hi.base hf hc hlease, List.length_append, List.length_append, Content.length_bytes]
  rw [hfront, hplace, List.drop_left]

/-! ## Runs over a database -/

/-- A state of a run together with the history that led to it. -/
structure Logged (d : Disk) (dir : FileId) (files : List FileId) (s : Store) (h : History) :
    Prop where
  sound : s.Sound d dir files h
  carrying : s.Along Segment.Carrying h
  imaged : s.Imaged d files h

theorem Logged.change {event : Event} {ns : History} (hl : s.Logged d dir files h)
    (hdb : d.Database dir files) (hadmits : s.Admits dir files.length event)
    (hc : s.Change event ns t) : t.Logged d dir files (h ++ ns) where
  sound := hl.sound.change hdb hadmits hc
  carrying := hl.carrying.change Segment.carrying_invariant hc
  imaged := hl.imaged.change hl.sound hdb hl.carrying hadmits hc

theorem logged_of_admitted {events : List Event} (hdb : d.Database dir files)
    (hadmitted : (ofDisk d).Throughout (Admits dir files.length) events)
    (hrun : (ofDisk d).run? events = some s) :
    s.Logged d dir files ((ofDisk d).history events) :=
  throughout_induction (P := fun s h => s.Logged d dir files h) hadmitted hrun
    ⟨sound_ofDisk d dir files, along_ofDisk d, imaged_ofDisk d files⟩
    fun _ _ _ _ hadmits hs hstep => hs.change hdb hadmits (change_of_step hstep)

theorem logged_of_run {events : List Event} (hdb : d.Database dir files)
    (hwithin : ∀ event ∈ events, event.Within d dir files.length)
    (hrun : (ofDisk d).run? events = some s) :
    s.Logged d dir files ((ofDisk d).history events) :=
  logged_of_admitted hdb (admitted_of_within (.refl d) hwithin) hrun

end Store

end RecordStore
