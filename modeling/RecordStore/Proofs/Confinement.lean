import RecordStore.Proofs.Growth
import RecordStore.Segment

/-!
# One file at a time

A writer looks at its own file only and changes no other. What two writers do to two files comes to
the same in either order.
-/

namespace RecordStore

namespace Disk

variable {α β : Type} {d d' d'' e : Disk} {f k j : FileId}

theorem ext_object? (h : ∀ j, d.object? j = e.object? j) : d = e := by
  cases d
  cases e
  congr 1
  exact List.ext_getElem? h

theorem sync_congr (h : d.object? f = e.object? f) (fault : Option OsError) :
    d.sync f fault = e.sync f fault := by
  unfold sync
  rw [h]

theorem landing_congr (h : d.object? f = e.object? f) (bs : Bytes) (fault : Option Fault) :
    d.landing f bs fault = e.landing f bs fault := by
  unfold landing
  rw [h]

/-! ## Changes to one file -/

/-- What a disk can become when only the file `f` is written. -/
inductive Touched (d : Disk) (f : FileId) : Disk → Prop where
  | same : Touched d f d
  | stored {c : Content} (there : d.content? f = some c) (c' : Content) :
    Touched d f (d.setObject f (.regular c'))

theorem touched_write (d : Disk) (f : FileId) (offset : Nat) (bs : Bytes) (fault : Option Fault) :
    d.Touched f (d.write f offset bs fault).2 := by
  cases hc : d.content? f with
  | none =>
    obtain ⟨⟨e, he⟩, -⟩ := write_irregular hc offset bs fault
    rw [he]
    exact .same
  | some c =>
    rw [write_regular hc]
    exact .stored hc _

theorem Touched.object?_ne (h : d.Touched f d') (hj : j ≠ f) : d'.object? j = d.object? j := by
  cases h with
  | same => rfl
  | stored there c' => rw [object?_setObject, if_neg (Ne.symm hj)]

theorem Touched.eq_of_none (h : d.Touched f d') (hnone : d.content? f = none) : d' = d := by
  cases h with
  | same => rfl
  | stored there c' =>
    rw [hnone] at there
    cases there

theorem Touched.isSome_content? (h : d.Touched f d') (j : FileId) :
    (d'.content? j).isSome = (d.content? j).isSome := by
  cases h with
  | same => rfl
  | stored there c' =>
    rw [content?_setObject d f c' j (content?_lt there)]
    split
    · rename_i hfj
      rw [← hfj, there]
      rfl
    · rfl

theorem Touched.trans (h : d.Touched f d') (h' : d'.Touched f d'') : d.Touched f d'' := by
  cases h with
  | same => exact h'
  | stored there c' =>
    cases h' with
    | same => exact .stored there c'
    | stored there' c'' =>
      have hset : (d.setObject f (.regular c')).setObject f (.regular c'') =
          d.setObject f (.regular c'') := by
        simp [setObject]
      rw [hset]
      exact .stored there c''

/-! ## Actions on one file -/

/-- The action reads and writes the file `f` alone. -/
structure Confined (f : FileId) (F : Disk → α × Disk) : Prop where
  touched : ∀ d : Disk, d.Touched f (F d).2
  agrees : ∀ {d e : Disk}, d.object? f = e.object? f →
    (F d).1 = (F e).1 ∧ (F d).2.object? f = (F e).2.object? f

theorem confined_read {a : Disk → α} (h : ∀ {d e : Disk}, d.object? f = e.object? f → a d = a e) :
    Confined f fun d => (a d, d) where
  touched _ := .same
  agrees he := ⟨h he, he⟩

theorem confined_return (f : FileId) (a : α) : Confined f fun d => (a, d) :=
  confined_read fun _ => rfl

theorem confined_write (f : FileId) (offset : Nat) (bs : Bytes) (fault : Option Fault) :
    Confined f fun d => d.write f offset bs fault where
  touched d := touched_write d f offset bs fault
  agrees {d e} he := by
    have hcontent := content?_of_object? he
    cases hc : e.content? f with
    | none =>
      unfold write
      rw [he]
      split <;> try exact ⟨rfl, he⟩
      rename_i c hregular
      rw [content?_eq_some.2 hregular] at hc
      cases hc
    | some c =>
      rw [hc] at hcontent
      rw [write_regular hc, write_regular hcontent, landing_congr he]
      refine ⟨rfl, ?_⟩
      rw [object?_setObject, object?_setObject, if_pos rfl, if_pos rfl,
        if_pos (content?_lt hc), if_pos (content?_lt hcontent)]

/-- One action after another. The second may depend on what the first has answered. -/
theorem Confined.bind {F : Disk → α × Disk} {G : α → Disk → β × Disk} (hF : Confined f F)
    (hG : ∀ d, Confined f (G (F d).1)) : Confined f fun d => G (F d).1 (F d).2 where
  touched d := (hF.touched d).trans ((hG d).touched (F d).2)
  agrees {d e} he := by
    obtain ⟨hanswer, hobject⟩ := hF.agrees he
    have h := (hG d).agrees hobject
    rwa [hanswer] at h ⊢

theorem Confined.map {F : Disk → α × Disk} (hF : Confined f F) (a : α → β) :
    Confined f fun d => (a (F d).1, (F d).2) :=
  hF.bind (G := fun b d => (a b, d)) fun _ => confined_return f _

theorem Confined.of_eq {F F' : Disk → α × Disk} (hF : Confined f F) (h : ∀ d, F' d = F d) :
    Confined f F' := by
  obtain rfl := funext h
  exact hF

/-- Actions on two files, or on one that holds nothing, do not notice each other. -/
theorem Confined.comm {F : Disk → α × Disk} {G : Disk → β × Disk} (hF : Confined f F)
    (hG : Confined k G) (h : f = k → d.content? f = none) :
    (G (F d).2).1 = (G d).1 ∧ (F (G d).2).1 = (F d).1 ∧ (G (F d).2).2 = (F (G d).2).2 := by
  by_cases hfk : f = k
  · subst hfk
    have hFd := (hF.touched d).eq_of_none (h rfl)
    have hGd := (hG.touched d).eq_of_none (h rfl)
    rw [hFd, hGd, hFd]
    exact ⟨rfl, rfl, rfl⟩
  · obtain ⟨hGanswer, hGobject⟩ := hG.agrees ((hF.touched d).object?_ne (Ne.symm hfk))
    obtain ⟨hFanswer, hFobject⟩ := hF.agrees ((hG.touched d).object?_ne hfk)
    refine ⟨hGanswer, hFanswer, ext_object? fun j => ?_⟩
    have hGkeeps : ∀ e, j ≠ k → (G e).2.object? j = e.object? j := fun e => (hG.touched e).object?_ne
    have hFkeeps : ∀ e, j ≠ f → (F e).2.object? j = e.object? j := fun e => (hF.touched e).object?_ne
    by_cases hj : j = k
    · subst hj
      rw [hGobject, hFkeeps _ (Ne.symm hfk)]
    · rw [hGkeeps _ hj]
      by_cases hj' : j = f
      · subst hj'
        exact hFobject.symm
      · rw [hFkeeps _ hj', hFkeeps _ hj', hGkeeps _ hj]

end Disk

/-! ## Writers -/

namespace Writer

open Disk

theorem file_recordUnless (held : Bool) (w : Writer) : (w.recordUnless held).file = w.file := by
  unfold recordUnless record?
  split
  · rfl
  · cases w.failing <;> rfl

theorem file_finish? {d : Disk} {w v : Writer} {fault : Option OsError}
    (h : w.finish? d fault = some v) : v.file = w.file := by
  unfold finish? at h
  split at h
  · split at h
    · split at h <;> cases h <;> rfl
    · cases h
      rfl
  · cases h

theorem unfinished_of_finish? {d : Disk} {w v : Writer} {fault : Option OsError}
    (h : w.finish? d fault = some v) : w.finished = false := by
  unfold finish? at h
  split at h
  · rename_i hend
    simpa using hend.2.2.2
  · cases h

theorem receive?_kept {d d' : Disk} {w v : Writer} {fault : Option Fault}
    (h : w.receive? d fault = some (v, d')) : v.file = w.file ∧ v.finished = w.finished := by
  unfold receive? at h
  split at h
  · split at h
    · cases h
      exact ⟨rfl, rfl⟩
    · split at h <;> cases h <;> exact ⟨rfl, rfl⟩
  · cases h

theorem file_record? {w v : Writer} (h : w.record? = some v) : v.file = w.file := by
  obtain ⟨f, -, rfl⟩ := Option.map_eq_some_iff.1 h
  rfl

theorem file_drainQueue (d : Disk) (w : Writer) (queue : List Request) :
    (w.drainQueue d queue).1.file = w.file := by
  induction queue generalizing d with
  | nil => rfl
  | cons r rest ih =>
    unfold drainQueue
    split
    · exact ih d
    · split
      · exact ih _
      · rfl

theorem file_drain (d : Disk) (w : Writer) : (w.drain d).1.file = w.file := by
  unfold drain
  split
  · rfl
  · exact file_drainQueue d w w.queue

theorem file_settleEnd (d : Disk) (w : Writer) : (w.settleEnd d).file = w.file := by
  unfold settleEnd
  split
  · rfl
  · rename_i v hv
    cases hend : v.record?.bind (·.finish? d none) with
    | none => exact file_finish? hv
    | some u =>
      obtain ⟨x, hx, hu⟩ := Option.bind_eq_some_iff.1 hend
      exact ((file_finish? hu).trans (file_record? hx)).trans (file_finish? hv)

theorem finish?_congr {d e : Disk} {w : Writer} (h : d.object? w.file = e.object? w.file)
    (fault : Option OsError) : w.finish? d fault = w.finish? e fault := by
  unfold finish?
  rw [sync_congr h]

theorem settleEnd_congr {d e : Disk} {w : Writer} (h : d.object? w.file = e.object? w.file) :
    w.settleEnd d = w.settleEnd e := by
  unfold settleEnd
  rw [finish?_congr h]
  split
  · rfl
  · rename_i v hv
    cases hrecord : v.record? with
    | none => rfl
    | some x =>
      have hfile := (file_record? hrecord).trans (file_finish? hv)
      have hobject : d.object? x.file = e.object? x.file := by
        rw [hfile]
        exact h
      rw [Option.bind_some, Option.bind_some, finish?_congr hobject]

/-- What becomes of the writer once the operating system has answered. -/
def stored (w : Writer) (r : Request) (rest : List Request) : Except OsError Unit → Writer
  | .ok () => { w with queue := rest }
  | .error e => { w with queue := rest, failing := some ⟨r.offset, e⟩ }

theorem confined_receive? (w : Writer) (fault : Option Fault) :
    Confined w.file fun d =>
      match w.receive? d fault with
      | some (v, d') => (some v, d')
      | none => (none, d) := by
  unfold receive?
  cases hknown : w.failing with
  | some f => exact confined_return w.file none
  | none =>
    cases w.queue with
    | nil => exact confined_return w.file none
    | cons r rest =>
      dsimp only
      split
      · exact confined_return w.file _
      · refine ((confined_write w.file r.offset r.bytes fault).map fun answer =>
          some (w.stored r rest answer)).of_eq fun d => ?_
        rcases d.write w.file r.offset r.bytes fault with ⟨e | ⟨⟨⟩⟩, d'⟩ <;> simp [stored, hknown]

def goOn (w : Writer) (r : Request) (rest : List Request) :
    Except OsError Unit → Disk → Writer × Disk
  | .ok (), d => w.drainQueue d rest
  | .error e, d => ({ w with queue := rest, failing := some ⟨r.offset, e⟩ }, d)

theorem confined_drainQueue (w : Writer) (queue : List Request) :
    Confined w.file fun d => w.drainQueue d queue := by
  induction queue with
  | nil => exact confined_return w.file _
  | cons r rest ih =>
    unfold drainQueue
    split
    · exact ih
    · refine ((confined_write w.file r.offset r.bytes none).bind (G := w.goOn r rest)
        fun d => ?_).of_eq fun d => ?_
      · cases (d.write w.file r.offset r.bytes none).1 with
        | ok => exact ih
        | error e => exact confined_return w.file _
      · rcases d.write w.file r.offset r.bytes none with ⟨e | ⟨⟨⟩⟩, d'⟩ <;> rfl

theorem confined_drain (w : Writer) : Confined w.file fun d => w.drain d := by
  unfold drain
  split
  · exact confined_return w.file w
  · exact confined_drainQueue w w.queue

theorem file_settle (held : Bool) (d : Disk) (w : Writer) : (w.settle held d).1.file = w.file := by
  unfold settle
  simp only [file_settleEnd, file_drain, file_recordUnless]

theorem confined_settle (held : Bool) (w : Writer) :
    Confined w.file fun d => w.settle held d := by
  have hwork : ∀ v : Writer, v.file = w.file →
      Confined w.file fun d => (v.recordUnless held).drain d := by
    intro v hv
    rw [← hv, ← file_recordUnless held v]
    exact confined_drain _
  have hend : ∀ v : Writer, v.file = w.file → Confined w.file fun d => (v.settleEnd d, d) := by
    intro v hv
    rw [← hv]
    exact confined_read settleEnd_congr
  have htwice := (hwork w rfl).bind (G := fun v d => (v.recordUnless held).drain d) fun d =>
    hwork _ (by rw [file_drain, file_recordUnless])
  exact htwice.bind (G := fun v d => (v.settleEnd d, d)) fun d =>
    hend _ (by rw [file_drain, file_recordUnless, file_drain, file_recordUnless])

end Writer

/-! ## Segments -/

namespace Segment

open Disk

theorem enqueue?_kept {g k : Segment} (h : g.enqueue? = some k) :
    k.pool = g.pool ∧ k.writer.file = g.writer.file ∧ k.writer.finished = g.writer.finished := by
  unfold enqueue? at h
  split at h
  · split at h
    · cases h
      exact ⟨rfl, rfl, rfl⟩
    · cases h
  · cases h

theorem endFlush?_kept {g k : Segment} (h : g.endFlush? = some k) :
    k.pool = g.pool ∧ k.writer = g.writer := by
  unfold endFlush? at h
  split at h
  · cases h
    exact ⟨rfl, rfl⟩
  · cases h

theorem settle_kept (g : Segment) (held : Bool) (d : Disk) :
    (g.settle held d).1.pool = g.pool ∧ (g.settle held d).1.writer.file = g.writer.file := by
  unfold settle
  dsimp only
  split
  · exact ⟨rfl, Writer.file_settle held d g.writer⟩
  · rename_i k hk
    obtain ⟨hpool, hfile, -⟩ := enqueue?_kept hk
    exact ⟨hpool, (Writer.file_settle held _ k.writer).trans
      (hfile.trans (Writer.file_settle held d g.writer))⟩

def settleOn (held : Bool) (g : Segment) (d : Disk) : Segment × Disk :=
  match g.enqueue? with
  | none => (g, d)
  | some k => ({ k with writer := (k.writer.settle held d).1 }, (k.writer.settle held d).2)

theorem confined_settleOn (held : Bool) (g : Segment) :
    Confined g.writer.file fun d => g.settleOn held d := by
  unfold settleOn
  cases hk : g.enqueue? with
  | none => exact confined_return g.writer.file g
  | some k =>
    obtain ⟨-, hfile, -⟩ := enqueue?_kept hk
    rw [← hfile]
    exact (Writer.confined_settle held k.writer).map fun w => { k with writer := w }

theorem confined_settle (g : Segment) (held : Bool) :
    Confined g.writer.file fun d => g.settle held d := by
  refine (Writer.confined_settle held g.writer).bind
    (G := fun w d => settleOn held { g with writer := w } d) fun d => ?_
  rw [← Writer.file_settle held d g.writer]
  exact confined_settleOn held { g with writer := (g.writer.settle held d).1 }

end Segment

end RecordStore
