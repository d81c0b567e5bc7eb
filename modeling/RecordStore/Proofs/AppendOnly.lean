import RecordStore.Proofs.Durability

/-!
# Backing files are append-only

A write goes to the offset that its record was given when it was queued, and nothing in the call
makes it append. But as long as a writer has not failed, its oldest record belongs at the end of the
file, and after a failure it writes no more.
-/

namespace RecordStore

/-- The file is regular on both disks, and its bytes on the first are a prefix of those on the
second. -/
def Disk.Appends (d d' : Disk) (f : FileId) : Prop :=
  ∃ c c', d.content? f = some c ∧ d'.content? f = some c' ∧ c.bytes <+: c'.bytes

namespace Disk

variable {d d' d'' : Disk} {f : FileId}

theorem appends_of_content? {c : Content} (hc : d.content? f = some c)
    (hkeep : d'.content? f = some c) : d.Appends d' f := ⟨c, c, hc, hkeep, List.prefix_refl _⟩

theorem Appends.trans (h : d.Appends d' f) (k : d'.Appends d'' f) : d.Appends d'' f := by
  obtain ⟨c, c', hc, hc', hfirst⟩ := h
  obtain ⟨c₁, c'', hc₁, hc'', hthen⟩ := k
  obtain rfl := Option.some.inj (hc₁.symm.trans hc')
  exact ⟨c, c'', hc, hc'', hfirst.trans hthen⟩

theorem appends_write {c : Content} (hc : d.content? f = some c) (bs : Bytes)
    (fault : Option Fault) : d.Appends (d.write f c.size bs fault).2 f := by
  refine ⟨c, c.write c.size (d.landing f bs fault), hc, ?_, ?_⟩
  · rw [content?_write, if_pos rfl, hc]
    rfl
  · rw [Content.bytes_write_size]
    apply List.prefix_append

end Disk

namespace Store

variable {d : Disk} {dir : FileId} {files : List FileId} {s t : Store} {h : History} {i : Nat}
  {f : FileId}

theorem Logged.regular (hl : s.Logged d dir files h) (hf : files[i]? = some f)
    (hregular : (d.content? f).isSome) : ∃ c, s.disk.content? f = some c := by
  obtain ⟨c₀, hstart⟩ := Option.isSome_iff_exists.1 hregular
  obtain ⟨c, hc, -⟩ := hl.imaged.bytes hf hstart
  exact ⟨c, hc⟩

theorem Logged.offset_eq_size (hl : s.Logged d dir files h) {id : SegmentId} {g : Segment}
    {r : Request} {rest : List Request} {c : Content} (hg : s.segments[id]? = some g)
    (queued : g.writer.queue = r :: rest) (known : g.writer.failing = none)
    (sound : g.writer.failure = none) (hregular : (d.content? g.writer.file).isSome)
    (hc : s.disk.content? g.writer.file = some c) : r.offset = c.size := by
  obtain ⟨c₀, hstart⟩ := Option.isSome_iff_exists.1 hregular
  obtain ⟨horderly, handled, waiting, hcarries⟩ := hl.carrying.each hg
  have hlast := hl.sound.last_of_unfinished hg (horderly.unfinished (by simp [queued]))
  rw [hcarries.offset_of_sound queued known sound,
    hl.imaged.size_eq hg (hl.sound.placed.segments hg) hstart hc hlast]

theorem Logged.appends (hl : s.Logged d dir files h) {event : Event} {ns : History}
    (hc : s.Change event ns t) (hf : files[i]? = some f) (hregular : (d.content? f).isSome) :
    s.disk.Appends t.disk f := by
  obtain ⟨c, hcontent⟩ := hl.regular hf hregular
  rcases hc.content with hkeep | ⟨id, g, r, rest, fault, hg, queued, known, sound, hdisk⟩
  · exact Disk.appends_of_content? hcontent (hkeep hcontent)
  · by_cases hsame : g.writer.file = f
    · subst hsame
      rw [hdisk, hl.offset_eq_size hg queued known sound hregular hcontent]
      exact Disk.appends_write hcontent r.bytes fault
    · apply Disk.appends_of_content? hcontent
      rw [hdisk, Disk.content?_write, if_neg hsame, hcontent]

/-! ## Runs -/

theorem Logged.appends_run (hl : s.Logged d dir files h) {later : List Event}
    (hdb : d.Database dir files) (hadmitted : s.Throughout (Admits dir files.length) later)
    (hrun : s.run? later = some t) (hf : files[i]? = some f) (hregular : (d.content? f).isSome) :
    t.Logged d dir files (h ++ s.history later) ∧ s.disk.Appends t.disk f := by
  obtain ⟨c, hc⟩ := hl.regular hf hregular
  refine throughout_induction
    (P := fun u k => u.Logged d dir files (h ++ k) ∧ s.disk.Appends u.disk f) hadmitted hrun ?_ ?_
  · rw [List.append_nil]
    exact ⟨hl, Disk.appends_of_content? hc hc⟩
  · rintro u k event v hadmits ⟨hu, happends⟩ hstep
    have hchange := change_of_step hstep
    refine ⟨?_, happends.trans (hu.appends hchange hf hregular)⟩
    rw [← List.append_assoc]
    exact hu.change hdb hadmits hchange

theorem shows_of_run {before after : List Event} (hdb : d.Database dir files)
    (hwithin : ∀ event ∈ before ++ after, event.Within d dir files.length)
    (hbefore : (ofDisk d).run? before = some s) (hafter : s.run? after = some t)
    {c₀ : Content} (hf : files[i]? = some f) (hstart : d.content? f = some c₀) :
    ∃ c c', s.disk.content? f = some c ∧ t.disk.content? f = some c' ∧ c.bytes <+: c'.bytes := by
  obtain ⟨hadmitted, hthen⟩ := (admitted_of_within (.refl d) hwithin).append hbefore
  exact ((logged_of_admitted hdb hadmitted hbefore).appends_run hdb hthen hafter hf
    (by rw [hstart]; rfl)).2

theorem Logged.base_le_size (hl : s.Logged d dir files h) {id : SegmentId} {g : Segment}
    {c : Content} (hg : s.segments[id]? = some g) (hregular : (d.content? g.writer.file).isSome)
    (hc : s.disk.content? g.writer.file = some c) : g.base ≤ c.size := by
  obtain ⟨c₀, hstart⟩ := Option.isSome_iff_exists.1 hregular
  have hfile := hl.sound.placed.segments hg
  have hlease := lease?_of_some hg
  obtain ⟨c', hc', hbytes⟩ := hl.imaged.bytes hfile hstart
  obtain rfl := Option.some.inj (hc'.symm.trans hc)
  obtain ⟨later, hsplit⟩ := leasesOf_split hlease
  rw [hl.imaged.base hfile hstart hlease, ← Content.length_bytes c', hbytes, hsplit, image_append,
    List.length_append, List.length_append, Content.length_bytes]
  omega

/-- Of any two states of a run over a database the earlier one has a prefix of the bytes that the
later one has of each regular backing file, under the same name. So its tag stays, and all that it
held when it was leased. -/
theorem append_only {d : Disk} {dir : FileId} {files : List FileId} {events later : List Event}
    {s t : Store} {i : Nat} {f : FileId} (hdb : d.Database dir files)
    (hadmitted : (ofDisk d).Throughout (Admits dir files.length) (events ++ later))
    (hrun : (ofDisk d).run? events = some s) (hlater : s.run? later = some t)
    (hf : files[i]? = some f) (hregular : (d.content? f).isSome) :
    t.disk.leadsTo dir (Layout.fileName i) = some f ∧ s.disk.Appends t.disk f ∧
      ∀ c c', s.disk.content? f = some c → t.disk.content? f = some c' →
        (Layout.magic <+: c.bytes → Layout.magic <+: c'.bytes) ∧
        ∀ (id : SegmentId) (g : Segment), s.segments[id]? = some g → g.fileIndex = i →
          g.base ≤ c.size ∧ c'.bytes.take g.base = c.bytes.take g.base := by
  obtain ⟨hbefore, hafter⟩ := hadmitted.append hrun
  have hl := logged_of_admitted hdb hbefore hrun
  obtain ⟨hl', happends⟩ := hl.appends_run hdb hafter hlater hf hregular
  refine ⟨hl'.sound.placed.grows.target (hdb.names hf), happends, fun c c' hc hc' => ?_⟩
  obtain ⟨c₁, c₂, hc₁, hc₂, hprefix⟩ := happends
  obtain rfl := Option.some.inj (hc₁.symm.trans hc)
  obtain rfl := Option.some.inj (hc₂.symm.trans hc')
  refine ⟨fun hmagic => hmagic.trans hprefix, fun id g hg hindex => ?_⟩
  subst hindex
  obtain rfl := Option.some.inj ((hl.sound.placed.segments hg).symm.trans hf)
  have hbase := hl.base_le_size hg hregular hc
  refine ⟨hbase, ?_⟩
  obtain ⟨more, hmore⟩ := hprefix
  rw [← hmore, List.take_append_of_le_length (by rw [Content.length_bytes]; exact hbase)]

/-- The record that was flushed stays while one byte of the next gets in behind it. -/
theorem append_only_tornRecord :
    ∃ s t c c', (ofDisk oneFile).run? flushedRecord = some s ∧ s.run? tornRecord = some t ∧
      s.disk.content? 2 = some c ∧ t.disk.content? 2 = some c' ∧ c.size = 11 ∧ c'.size = 12 ∧
      c'.bytes.take 11 = c.bytes ∧ Layout.magic <+: c'.bytes := by
  have hrun : (((ofDisk oneFile).run? flushedRecord).bind fun s => (s.run? tornRecord).bind fun t =>
      (s.disk.content? 2).bind fun c => (t.disk.content? 2).bind fun c' =>
        if c.size = 11 ∧ c'.size = 12 ∧ Layout.magic <+: c.bytes then some (c, c')
        else none).isSome := by
    decide +kernel
  obtain ⟨r, hrun⟩ := Option.isSome_iff_exists.1 hrun
  obtain ⟨s, hs, hrun⟩ := Option.bind_eq_some_iff.1 hrun
  obtain ⟨t, ht, hrun⟩ := Option.bind_eq_some_iff.1 hrun
  obtain ⟨c, hc, hrun⟩ := Option.bind_eq_some_iff.1 hrun
  obtain ⟨c', hc', hrun⟩ := Option.bind_eq_some_iff.1 hrun
  split at hrun
  · rename_i hend
    obtain ⟨hsize, hsize', hmagic⟩ := hend
    obtain ⟨-, dir, files, hdir, hdb, hlength, hfiles⟩ := Layout.create_ok oneFile_created
    have hadmitted : (ofDisk oneFile).Throughout (Admits dir files.length)
        (flushedRecord ++ tornRecord) :=
      admitted_of_within (.refl oneFile) fun event he =>
        hlength ▸ (on_of_opensOne (by decide) event he).within hdir
    have hpos : 0 < files.length := by
      rw [hlength]
      decide
    obtain ⟨f, hfirst⟩ : ∃ f, files[0]? = some f := ⟨_, List.getElem?_eq_getElem hpos⟩
    obtain ⟨htarget, hcontent⟩ := hfiles hfirst
    have htwo : oneFile.target "db" (Layout.fileName 0) = .ok 2 := by decide +kernel
    obtain rfl := Except.ok.inj (htarget.symm.trans htwo)
    obtain ⟨-, ⟨c₁, c₂, hc₁, hc₂, hprefix⟩, hkept⟩ := append_only hdb hadmitted hs ht hfirst
      (by rw [hcontent]; rfl)
    obtain rfl := Option.some.inj (hc₁.symm.trans hc)
    obtain rfl := Option.some.inj (hc₂.symm.trans hc')
    have htag := (hkept c₁ c₂ hc hc').1 hmagic
    refine ⟨s, t, c₁, c₂, hs, ht, hc, hc', hsize, hsize', ?_, htag⟩
    rw [← hsize, ← Content.length_bytes]
    exact (List.prefix_iff_eq_take.1 hprefix).symm
  · cases hrun

end Store

end RecordStore
