import RecordStore.Proofs.Confinement
import RecordStore.Proofs.Interference

/-!
# Interleavings

Callers of several segments take turns. What is done to two segments with files of their own comes to
the same in either order, so only the order on each segment counts.
-/

namespace RecordStore

/-! ## Lists in which each entry is for one segment -/

section Only

variable {β : Type} {k j : SegmentId} {b : β} {xs ys : List (SegmentId × β)}

def only (k : SegmentId) (xs : List (SegmentId × β)) : List β :=
  xs.filterMap fun x => if x.1 = k then some x.2 else none

@[simp] theorem only_nil (k : SegmentId) : only k ([] : List (SegmentId × β)) = [] := rfl

@[simp] theorem only_cons_self (k : SegmentId) (b : β) (xs : List (SegmentId × β)) :
    only k ((k, b) :: xs) = b :: only k xs := by
  simp [only]

theorem only_cons_ne (h : j ≠ k) (b : β) (xs : List (SegmentId × β)) :
    only k ((j, b) :: xs) = only k xs := by
  simp [only, h]

@[simp] theorem only_append (k : SegmentId) (xs ys : List (SegmentId × β)) :
    only k (xs ++ ys) = only k xs ++ only k ys := List.filterMap_append

theorem mem_only : b ∈ only k xs ↔ (k, b) ∈ xs := by
  simp only [only, List.mem_filterMap]
  constructor
  · rintro ⟨⟨j, c⟩, hmem, h⟩
    split at h
    · rename_i hj
      simp only at hj
      obtain rfl := Option.some.inj h
      rwa [← hj]
    · cases h
  · intro h
    exact ⟨(k, b), h, if_pos rfl⟩

theorem mem_of_only_eq (h : ∀ k, only k xs = only k ys) {x : SegmentId × β} : x ∈ xs ↔ x ∈ ys := by
  rw [← mem_only, ← mem_only, h x.1]

theorem split_only {bs : List β} (h : only k xs = b :: bs) :
    ∃ before after, xs = before ++ (k, b) :: after ∧ (∀ x ∈ before, x.1 ≠ k) ∧
      only k after = bs := by
  obtain ⟨before, ⟨j, c⟩, after, rfl, hbefore, hfirst, hafter⟩ := List.filterMap_eq_cons_iff.1 h
  split at hfirst
  · rename_i hj
    obtain rfl : j = k := hj
    obtain rfl := Option.some.inj hfirst
    refine ⟨before, after, rfl, fun x hx hk => ?_, hafter⟩
    have hnone := hbefore x hx
    rw [if_pos hk] at hnone
    cases hnone
  · cases hfirst

theorem only_of_forall_ne (h : ∀ x ∈ xs, x.1 ≠ k) : only k xs = [] := by
  rw [only, List.filterMap_eq_nil_iff]
  intro x hx
  exact if_neg (h x hx)

@[simp] theorem only_map_self (k : SegmentId) (bs : List β) : only k (bs.map (k, ·)) = bs := by
  induction bs with
  | nil => rfl
  | cons b bs ih => rw [List.map_cons, only_cons_self, ih]

theorem only_map_ne (h : j ≠ k) (bs : List β) : only k (bs.map (j, ·)) = [] :=
  only_of_forall_ne fun x hx => by
    obtain ⟨b, -, rfl⟩ := List.mem_map.1 hx
    exact h

end Only

namespace Store

/-! ## One thing after another -/

section Each

variable {α β : Type} {step : Store → SegmentId → β → α × Store} {s : Store}
  {P : Store → Prop} {ids : SegmentId → Prop} {xs ys before after : List (SegmentId × β)}
  {k : SegmentId} {b : β}

/-- Does one thing after another, and collects the answers. -/
def each (step : Store → SegmentId → β → α × Store) (s : Store) :
    List (SegmentId × β) → List (SegmentId × α) × Store
  | [] => ([], s)
  | (k, b) :: rest =>
    ((k, (step s k b).1) :: (each step (step s k b).2 rest).1, (each step (step s k b).2 rest).2)

/-- In states that satisfy `P` two segments of `ids` do not notice each other's calls. -/
structure Independent (P : Store → Prop) (ids : SegmentId → Prop)
    (step : Store → SegmentId → β → α × Store) : Prop where
  kept : ∀ {s : Store} {k : SegmentId} (b : β), P s → ids k → P (step s k b).2
  answer : ∀ {s : Store} {j k : SegmentId} (a b : β), P s → ids j → ids k → j ≠ k →
    (step (step s j a).2 k b).1 = (step s k b).1
  comm : ∀ {s : Store} {j k : SegmentId} (a b : β), P s → ids j → ids k → j ≠ k →
    (step (step s j a).2 k b).2 = (step (step s k b).2 j a).2

/-- Two results are the same but for the order of answers on different segments. -/
structure Agree (r r' : List (SegmentId × α) × Store) : Prop where
  answers : ∀ k, only k r.1 = only k r'.1
  state : r.2 = r'.2

theorem Agree.trans {r r' r'' : List (SegmentId × α) × Store} (h : Agree r r') (h' : Agree r' r'') :
    Agree r r'' :=
  ⟨fun k => (h.answers k).trans (h'.answers k), h.state.trans h'.state⟩

theorem Agree.cons {s : Store}
    (h : Agree (each step (step s k b).2 xs) (each step (step s k b).2 ys)) :
    Agree (each step s ((k, b) :: xs)) (each step s ((k, b) :: ys)) := by
  refine ⟨fun j => ?_, h.state⟩
  by_cases hj : k = j
  · subst hj
    simp [each, h.answers k]
  · simp only [each, only_cons_ne hj, h.answers j]

theorem Independent.front (hi : Independent P ids step) (hs : P s) (hk : ids k)
    (hbefore : ∀ x ∈ before, ids x.1 ∧ x.1 ≠ k) :
    Agree (each step s (before ++ (k, b) :: after)) (each step s ((k, b) :: (before ++ after))) := by
  induction before generalizing s with
  | nil => exact ⟨fun _ => rfl, rfl⟩
  | cons x rest ih =>
    obtain ⟨j, a⟩ := x
    obtain ⟨hj, hne⟩ := hbefore (j, a) List.mem_cons_self
    have hrest := ih (hi.kept a hs hj) fun x hx => hbefore x (List.mem_cons_of_mem _ hx)
    refine (Agree.cons hrest).trans ?_
    have hstate := hi.comm a b hs hj hk hne
    have hanswer := hi.answer a b hs hj hk hne
    have hanswer' := hi.answer b a hs hk hj (Ne.symm hne)
    simp only [List.cons_append, each, hstate, hanswer, hanswer']
    refine ⟨fun i => ?_, rfl⟩
    by_cases hij : j = i
    · subst hij
      rw [only_cons_self, only_cons_ne (Ne.symm hne), only_cons_ne (Ne.symm hne), only_cons_self]
    · rw [only_cons_ne hij]
      by_cases hik : k = i
      · subst hik
        rw [only_cons_self, only_cons_self, only_cons_ne hij]
      · rw [only_cons_ne hik, only_cons_ne hik, only_cons_ne hij]

theorem Independent.interleave (hi : Independent P ids step) (hs : P s)
    (hids : ∀ x ∈ xs, ids x.1) (h : ∀ k, only k xs = only k ys) :
    Agree (each step s xs) (each step s ys) := by
  induction xs generalizing s ys with
  | nil =>
    cases ys with
    | nil => exact ⟨fun _ => rfl, rfl⟩
    | cons y rest => exact absurd ((mem_of_only_eq h).2 List.mem_cons_self) List.not_mem_nil
  | cons x rest ih =>
    obtain ⟨k, b⟩ := x
    have hk : ids k := hids (k, b) List.mem_cons_self
    have hall : ∀ y ∈ ys, ids y.1 := fun y hy => hids y ((mem_of_only_eq h).2 hy)
    have hfirst := h k
    rw [only_cons_self] at hfirst
    obtain ⟨before, after, rfl, hothers, hafter⟩ := split_only hfirst.symm
    have hrest : ∀ j, only j rest = only j (before ++ after) := by
      intro j
      by_cases hj : k = j
      · subst hj
        rw [only_append, only_of_forall_ne hothers, List.nil_append, hafter]
      · have hj' := h j
        rwa [only_cons_ne hj, only_append, only_cons_ne hj, ← only_append] at hj'
    have hnext := ih (hi.kept b hs hk) (fun y hy => hids y (List.mem_cons_of_mem _ hy)) hrest
    have hfront : Agree (each step s (before ++ (k, b) :: after))
        (each step s ((k, b) :: (before ++ after))) :=
      hi.front hs hk fun x hx => ⟨hall x (List.mem_append_left _ hx), hothers x hx⟩
    exact (Agree.cons hnext).trans ⟨fun j => (hfront.answers j).symm, hfront.state.symm⟩

end Each

end Store

/-! ## Acts on one segment -/

/-- No two indices of the pool stand for the same regular file. -/
def Pool.Apart (p : Pool) (d : Disk) : Prop :=
  ∀ (i j : Nat) (f : FileId), p.files[i]? = some f → p.files[j]? = some f →
    (d.content? f).isSome → i = j

/-- Something done to a segment: the answer, the segment after it, and the disk. -/
abbrev Segment.Act (α : Type) := Segment → Disk → (α × Segment) × Disk

/-- The act concerns no file but the segment's own, and the segment keeps its pool and its file. -/
structure Segment.Own {α : Type} (F : Segment.Act α) : Prop where
  confined : ∀ g : Segment, Disk.Confined g.writer.file (F g)
  pool : ∀ (g : Segment) (d : Disk), (F g d).1.2.pool = g.pool
  file : ∀ (g : Segment) (d : Disk), (F g d).1.2.writer.file = g.writer.file

namespace Store

variable {α β : Type} {s : Store} {j k : SegmentId} {g h g' h' : Segment}

theorem dropOwner_with (s : Store) (id : PoolId) (segments : List Segment) (d : Disk) :
    dropOwner { s with segments, disk := d } id = { s.dropOwner id with segments, disk := d } := by
  unfold dropOwner
  cases s.pools[id]? with
  | none => rfl
  | some p =>
    dsimp only
    split <;> rfl

/-- Puts `g'` into the place of `g`. A writer that has finished in between gives up its pool. -/
def install (s : Store) (k : SegmentId) (g g' : Segment) (d : Disk) : Store :=
  { if g'.writer.finished && !g.writer.finished then s.dropOwner g.pool else s with
    segments := s.segments.set k g', disk := d }

@[simp] theorem disk_install (s : Store) (k : SegmentId) (g g' : Segment) (d : Disk) :
    (s.install k g g' d).disk = d := rfl

@[simp] theorem segments_install (s : Store) (k : SegmentId) (g g' : Segment) (d : Disk) :
    (s.install k g g' d).segments = s.segments.set k g' := rfl

@[simp] theorem failuresHeld_install (s : Store) (k : SegmentId) (g g' : Segment) (d : Disk) :
    (s.install k g g' d).failuresHeld = s.failuresHeld := by
  unfold install
  split <;> simp

theorem install_comm (hjk : j ≠ k) (hpool : g.pool = h.pool) (c d e : Disk) :
    (s.install j g g' c).install k h h' e = (s.install k h h' d).install j g g' e := by
  unfold install
  rw [hpool]
  split <;> split <;> simp only [dropOwner_with, List.set_comm g' h' hjk]

def act [Inhabited α] (F : Segment.Act α) (s : Store) (k : SegmentId) : α × Store :=
  match s.segments[k]? with
  | some g => ((F g s.disk).1.1, s.install k g (F g s.disk).1.2 (F g s.disk).2)
  | none => (default, s)

theorem act_of_some [Inhabited α] {F : Segment.Act α} (hg : s.segments[k]? = some g) :
    s.act F k = ((F g s.disk).1.1, s.install k g (F g s.disk).1.2 (F g s.disk).2) := by
  unfold act
  rw [hg]

/-- The segments are of one pool, no failure waits, and no two of them write to the same regular
file. -/
structure Separate (pool : PoolId) (ids : SegmentId → Prop) (s : Store) : Prop where
  prompt : s.failuresHeld = false
  there : ∀ {k : SegmentId}, ids k → ∃ g, s.segments[k]? = some g ∧ g.pool = pool
  apart : ∀ {j k : SegmentId} {g h : Segment}, ids j → ids k → s.segments[j]? = some g →
    s.segments[k]? = some h → g.writer.file = h.writer.file →
    (s.disk.content? g.writer.file).isSome → j = k

variable {pool : PoolId} {ids : SegmentId → Prop} [Inhabited α] {F : β → Segment.Act α}

theorem Separate.act {F : Segment.Act α} (hs : s.Separate pool ids) (hF : Segment.Own F)
    (hk : ids k) : (s.act F k).2.Separate pool ids := by
  obtain ⟨g, hg, hpool⟩ := hs.there hk
  have hsame : ∀ {i : SegmentId} {l : Segment}, (s.act F k).2.segments[i]? = some l →
      ∃ l', s.segments[i]? = some l' ∧ l.pool = l'.pool ∧ l.writer.file = l'.writer.file := by
    intro i l hl
    rw [act_of_some hg, segments_install] at hl
    rcases of_getElem?_set hl with ⟨rfl, rfl⟩ | ⟨-, hl⟩
    · exact ⟨g, hg, hF.pool g s.disk, hF.file g s.disk⟩
    · exact ⟨l, hl, rfl, rfl⟩
  refine ⟨?_, fun {i} hi => ?_, fun {i j l m} hi hj hl hm hfile hregular => ?_⟩
  · rw [act_of_some hg, failuresHeld_install, hs.prompt]
  · obtain ⟨l, hl, hlpool⟩ := hs.there hi
    rw [act_of_some hg, segments_install, List.getElem?_set]
    split
    · rename_i hki
      subst hki
      rw [if_pos (List.getElem?_eq_some_iff.1 hg).1]
      exact ⟨_, rfl, (hF.pool g s.disk).trans hpool⟩
    · exact ⟨l, hl, hlpool⟩
  · obtain ⟨l', hl', -, hlfile⟩ := hsame hl
    obtain ⟨m', hm', -, hmfile⟩ := hsame hm
    rw [hlfile, hmfile] at hfile
    rw [act_of_some hg, hlfile, disk_install, ((hF.confined g).touched s.disk).isSome_content?]
      at hregular
    exact hs.apart hi hj hl' hm' hfile hregular

theorem independent_act (hF : ∀ b, Segment.Own (F b)) :
    Independent (Separate pool ids) ids fun s k b => s.act (F b) k := by
  have hboth : ∀ {s : Store} {j k : SegmentId} (a b : β), s.Separate pool ids → ids j → ids k →
      j ≠ k → ((s.act (F a) j).2.act (F b) k).1 = (s.act (F b) k).1 ∧
        ((s.act (F a) j).2.act (F b) k).2 = ((s.act (F b) k).2.act (F a) j).2 := by
    intro s j k a b hs hj hk hjk
    obtain ⟨g, hg, hgpool⟩ := hs.there hj
    obtain ⟨h, hh, hhpool⟩ := hs.there hk
    have hg' : (s.act (F b) k).2.segments[j]? = some g := by
      rw [act_of_some hh, segments_install, List.getElem?_set_ne (Ne.symm hjk), hg]
    have hh' : (s.act (F a) j).2.segments[k]? = some h := by
      rw [act_of_some hg, segments_install, List.getElem?_set_ne hjk, hh]
    have hapart : g.writer.file = h.writer.file → s.disk.content? g.writer.file = none := by
      intro hfile
      cases hc : s.disk.content? g.writer.file with
      | none => rfl
      | some c => exact absurd (hs.apart hj hk hg hh hfile (by rw [hc]; rfl)) hjk
    obtain ⟨hanswer, hanswer', hdisk⟩ :=
      ((hF a).confined g).comm ((hF b).confined h) hapart
    rw [act_of_some hg', act_of_some hh', act_of_some hg, act_of_some hh]
    simp only [disk_install]
    rw [hanswer, hanswer', hdisk]
    exact ⟨rfl, install_comm hjk (hgpool.trans hhpool.symm) _ _ _⟩
  exact {
    kept := fun b hs hk => hs.act (hF b) hk
    answer := fun a b hs hj hk hjk => (hboth a b hs hj hk hjk).1
    comm := fun a b hs hj hk hjk => (hboth a b hs hj hk hjk).2 }

/-! ## Live segments of one pool -/

def Live (s : Store) (pool : PoolId) (k : SegmentId) : Prop :=
  ∃ g, s.segments[k]? = some g ∧ g.pool = pool ∧ g.released = false

theorem Placed.apart {d : Disk} {dir : FileId} {files : List FileId} {p : Pool}
    (h : s.Placed d dir files) (hdb : d.Database dir files) (hp : s.pools[pool]? = some p) :
    p.Apart s.disk := by
  intro i j f hi hj hregular
  obtain ⟨rest, hrest⟩ := h.pools hp
  have hfile : ∀ {n : Nat}, p.files[n]? = some f → files[n]? = some f := by
    intro n hn
    rw [← hrest, List.getElem?_append_left (List.getElem?_eq_some_iff.1 hn).1, hn]
  rw [h.grows.regular (hdb.there (List.mem_of_getElem? (hfile hi)))] at hregular
  exact hdb.apart (hfile hi) (hfile hj) hregular

theorem Coherent.separate {p : Pool} (hs : s.Coherent) (hp : s.pools[pool]? = some p)
    (hapart : p.Apart s.disk) : s.Separate pool (s.Live pool) where
  prompt := hs.prompt
  there hk := by
    obtain ⟨g, hg, hpool, -⟩ := hk
    exact ⟨g, hg, hpool⟩
  apart := by
    rintro j k g h ⟨_, hg', hgpool, hglive⟩ ⟨_, hh', hhpool, hhlive⟩ hg hh hfile hregular
    obtain rfl := Option.some.inj (hg'.symm.trans hg)
    obtain rfl := Option.some.inj (hh'.symm.trans hh)
    obtain ⟨q, hq, hgplace⟩ := hs.placed hg
    obtain ⟨q', hq', hhplace⟩ := hs.placed hh
    rw [hgpool, hp] at hq
    rw [hhpool, hp] at hq'
    obtain rfl := Option.some.inj hq
    obtain rfl := Option.some.inj hq'
    rw [← hfile] at hhplace
    exact hs.conserved.holder_unique hg hh (hgpool.trans hhpool.symm)
      (hapart _ _ _ hgplace hhplace hregular) hglive hhlive

end Store

end RecordStore
