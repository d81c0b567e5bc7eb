import RecordStore.Proofs.Directory

/-!
# Disks that others change too

Between any two steps of a store others may do to its disk whatever they like. What the store knows
of its own pools and segments stays true all the same.
-/

namespace RecordStore.Store

@[simp] theorem failuresHeld_dropOwner (s : Store) (id : PoolId) :
    (s.dropOwner id).failuresHeld = s.failuresHeld := by
  unfold dropOwner
  split
  · dsimp only
    split <;> rfl
  · rfl

variable {s t u : Store} {event : Event} {events : List Event}

theorem Change.failuresHeld {ns : History} (hc : s.Change event ns t) :
    t.failuresHeld = s.failuresHeld := by
  cases hc with
  | closePool | finish =>
    rw [failuresHeld_dropOwner]
    rfl
  | _ => rfl

/-! ## Stores that are not alone -/

/-- What a store can become while others change its disk. -/
inductive Amid (s : Store) : Store → Prop where
  | refl : Amid s s
  | step {t u : Store} {event : Event} (run : Amid s t) (step : t.step? event = some u) : Amid s u
  | others {t : Store} (run : Amid s t) (d : Disk) : Amid s { t with disk := d }

theorem Amid.run (h : s.Amid t) (hrun : t.run? events = some u) : s.Amid u :=
  run_rec (P := fun u _ => s.Amid u) hrun h fun _ _ _ _ _ _ hu hstep => hu.step hstep

theorem amid_of_run (hrun : s.run? events = some t) : s.Amid t := Amid.refl.run hrun

/-- What a store knows of its pools and segments. -/
structure Coherent (s : Store) : Prop where
  conserved : s.Conserved
  /-- No failure waits for leave to be recorded. -/
  prompt : s.failuresHeld = false
  valid : ∀ {id : PoolId} {p : Pool}, s.pools[id]? = some p →
    p.config.Valid ∧ p.fileCount = p.config.fileCount.toNat
  /-- A segment writes to the file that its index names. -/
  placed : ∀ {k : SegmentId} {g : Segment}, s.segments[k]? = some g →
    ∃ p, s.pools[g.pool]? = some p ∧ p.files[g.fileIndex]? = some g.writer.file

theorem coherent_ofDisk (d : Disk) : (ofDisk d).Coherent where
  conserved := conserved_ofDisk d
  prompt := rfl
  valid hp := by simp [ofDisk] at hp
  placed hg := by simp [ofDisk] at hg

theorem Coherent.change {ns : History} (h : s.Coherent) (hc : s.Change event ns t) :
    t.Coherent where
  conserved := h.conserved.change hc
  prompt := hc.failuresHeld.trans h.prompt
  valid {id q} hq := by
    obtain ⟨p, hp, hlike⟩ | ⟨_, _, _, -, -, hopened⟩ := hc.pool_like hq
    · rw [hlike.config, hlike.fileCount]
      exact h.valid hp
    · have hfresh := Pool.fresh_of_openAt hopened
      exact ⟨hfresh.valid, hfresh.count⟩
  placed {k g} hg := by
    rcases hc.segment_later hg with ⟨g', hg', hlater⟩ | ⟨p, -, hp, htaken, -, hfile⟩
    · obtain ⟨p, hp, hplace⟩ := h.placed hg'
      rw [← hlater.pool] at hp
      obtain ⟨q, hq, hlike⟩ := hc.pool_kept hp
      exact ⟨q, hq, by rw [hlike.files, hlater.fileIndex, hlater.file, hplace]⟩
    · -- a lock call has received one of the pool's files
      obtain ⟨q, hq, hlike⟩ := hc.pool_kept hp
      have hlt : g.fileIndex < p.slots.length := h.conserved.lt_fileCount_of_taken hp htaken
      have hslot := List.getElem?_eq_getElem hlt
      refine ⟨q, hq, ?_⟩
      rw [hlike.files, hfile, Pool.files, List.getElem?_map, hslot]
      rfl

theorem Coherent.others (h : s.Coherent) (d : Disk) : Coherent { s with disk := d } where
  conserved := ⟨h.conserved.known, h.conserved.balanced⟩
  prompt := h.prompt
  valid := h.valid
  placed := h.placed

theorem coherent_of_amid {d : Disk} (h : (ofDisk d).Amid s) : s.Coherent := by
  induction h with
  | refl => exact coherent_ofDisk d
  | step run step ih => exact ih.change (change_of_step step)
  | others run d ih => exact ih.others d

theorem Coherent.lt_maxFileIndex (h : s.Coherent) {id : PoolId} {p : Pool} {i : Nat}
    (hp : s.pools[id]? = some p) (hi : i < p.fileCount) : i < Address.maxFileIndex := by
  obtain ⟨hvalid, hcount⟩ := h.valid hp
  have hmost := (p.config.valid_iff.1 hvalid).1.2
  rw [Config.maxFileCount] at hmost
  rw [Address.maxFileIndex_eq]
  omega

end RecordStore.Store
