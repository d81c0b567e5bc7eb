import RecordStore.Proofs.Directory

/-!
# One writer at a time

A lease of a file starts only when the writers of all its earlier leases have finished. Within a pool
the token of the file sees to that, and across pools the lock of the directory.
-/

namespace RecordStore.Store

variable {d : Disk} {dir : FileId} {files : List FileId} {s t : Store} {h : History}

/-- Of two leases of one file the earlier one has finished. -/
def Sequential (s : Store) : Prop :=
  ∀ {j k : SegmentId} {a b : Segment}, j < k → s.segments[j]? = some a →
    s.segments[k]? = some b → a.fileIndex = b.fileIndex → a.writer.finished = true

/-- What is known of every state of a run over a database. -/
structure Sound (d : Disk) (dir : FileId) (files : List FileId) (s : Store) (h : History) :
    Prop where
  conserved : s.Conserved
  owned : s.Owned
  placed : s.Placed d dir files
  orderly : s.Along (fun g _ => g.Orderly) h
  sequential : s.Sequential

theorem Owned.owner_of_unfinished (ho : s.Owned) {id : SegmentId} {g : Segment} {p : Pool}
    (hg : s.segments[id]? = some g) (hp : s.pools[g.pool]? = some p)
    (hun : g.writer.finished = false) : 0 < p.owners := by
  have hpos : 0 < s.writing g.pool :=
    List.countP_pos_iff.2 ⟨g, List.mem_of_getElem? hg, by simp [hun]⟩
  rw [ho.owners hp]
  omega

/-- Pools over the same directory have the same lock file, so only one of them can have owners. -/
theorem Sound.owner_unique (hs : s.Sound d dir files h) {i j : PoolId} {p q : Pool}
    (hp : s.pools[i]? = some p) (hq : s.pools[j]? = some q) (hpos : 0 < p.owners)
    (hpos' : 0 < q.owners) : i = j :=
  hs.owned.guarded.single hp hq hpos hpos'
    (Option.some.inj ((hs.placed.lock hp).symm.trans (hs.placed.lock hq)))

theorem Sound.finished_of_taken (hs : s.Sound d dir files h) {id : PoolId} {p : Pool}
    {k : SegmentId} {g : Segment} (hp : s.pools[id]? = some p) (htaken : g.fileIndex ∈ p.taken)
    (hg : s.segments[k]? = some g) : g.writer.finished = true := by
  by_contra hun
  have hun : g.writer.finished = false := by simpa using hun
  have hlt := hs.conserved.known g (List.mem_of_getElem? hg)
  have hq : s.pools[g.pool]? = some s.pools[g.pool] := List.getElem?_eq_getElem hlt
  have hopen := hs.owned.calling hp (List.ne_nil_of_mem htaken)
  have howned : 0 < p.owners := by
    rw [hs.owned.owners hp, hopen, Bool.toNat_true]
    omega
  have hsame := hs.owner_unique hp hq howned (hs.owned.owner_of_unfinished hg hq hun)
  subst hsame
  -- in this pool the token of the file is with the lock call, so the segment is released
  have hlive := (hs.orderly.each hg).live_of_unfinished hun
  have hmost := (hs.conserved.balanced g.pool p hp).atMost g.fileIndex
  have hcall : 0 < p.taken.count g.fileIndex := List.count_pos_iff.2 htaken
  have hheld : 0 < s.holders g.pool g.fileIndex :=
    List.countP_pos_iff.2 ⟨g, List.mem_of_getElem? hg, by simp [Segment.holds, hlive]⟩
  simp only [Pool.tokens] at hmost
  omega

theorem Sound.sequential_change {event : Event} {ns : History} (hs : s.Sound d dir files h)
    (hc : s.Change event ns t) : t.Sequential := by
  intro j k a b hjk ha hb hindex
  rcases hc.segment_later ha with ⟨a', ha', hlater⟩ | ⟨-, rfl, -⟩
  · refine hlater.finished ?_
    rcases hc.segment_later hb with ⟨b', hb', hlater'⟩ | ⟨p, -, hp, htaken, -, -⟩
    · refine hs.sequential hjk ha' hb' ?_
      rw [← hlater.fileIndex, hindex, hlater'.fileIndex]
    · refine hs.finished_of_taken hp ?_ ha'
      rwa [← hlater.fileIndex, hindex]
  · rcases hc.segment_later hb with ⟨b', hb', -⟩ | ⟨p, rfl, -⟩
    · obtain ⟨hk, -⟩ := List.getElem?_eq_some_iff.1 hb'
      exact absurd hjk (Nat.not_lt_of_lt hk)
    · exact absurd hjk (Nat.lt_irrefl _)

theorem Sound.change {event : Event} {ns : History} (hs : s.Sound d dir files h)
    (hdb : d.Database dir files) (hadmits : s.Admits dir files.length event)
    (hc : s.Change event ns t) : t.Sound d dir files (h ++ ns) where
  conserved := hs.conserved.change hc
  owned := hs.owned.change hs.conserved hc
  placed := hs.placed.change hdb hadmits hs.conserved hc
  orderly := hs.orderly.change Segment.orderly_invariant hc
  sequential := hs.sequential_change hc

theorem sound_ofDisk (d : Disk) (dir : FileId) (files : List FileId) :
    (ofDisk d).Sound d dir files [] where
  conserved := conserved_ofDisk d
  owned := owned_ofDisk d
  placed := placed_ofDisk d dir files
  orderly := along_ofDisk d
  sequential := by
    intro j k a b _ ha
    simp [ofDisk] at ha

theorem sound_of_run {events : List Event} (hdb : d.Database dir files)
    (hadmitted : (ofDisk d).Throughout (Admits dir files.length) events)
    (hrun : (ofDisk d).run? events = some s) :
    s.Sound d dir files ((ofDisk d).history events) :=
  throughout_induction (P := fun s h => s.Sound d dir files h) hadmitted hrun
    (sound_ofDisk d dir files)
    fun _ _ _ _ hadmits hs hstep => hs.change hdb hadmits (change_of_step hstep)

end RecordStore.Store
