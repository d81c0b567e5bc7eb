import RecordStore.Proofs.GrantOrder
import RecordStore.Proofs.Turns

/-!
# Segments do not notice each other

What the callers of a segment are answered, and what becomes of its file, depends on the calls on
this segment alone. In which order callers of other segments of the pool come makes no difference.
-/

namespace RecordStore.Store

theorem only_tagged (k : SegmentId) (events : List Event) :
    only k (tagged events) = events.filter (·.segment? = some k) := by
  induction events with
  | nil => rfl
  | cons event rest ih =>
    cases hk : event.segment? with
    | none =>
      rw [tagged, List.filterMap_cons, hk, List.filter_cons_of_neg (by simp [hk])]
      exact ih
    | some j =>
      rw [tagged, List.filterMap_cons, hk]
      by_cases hj : j = k
      · subst hj
        rw [Option.map_some, only_cons_self, List.filter_cons_of_pos (by simp [hk])]
        exact congrArg _ ih
      · rw [Option.map_some, only_cons_ne hj, List.filter_cons_of_neg (by simp [hk, hj])]
        exact ih

/-- The live segments of a pool, open or closed, do not notice each other if the pool is made of
different files, as over any database (`Placed.apart`). Calls on two of them give the same answers
and the same store in either order. Any two interleavings of the same calls on each segment give each
segment the same answers and end in the same store. So do any two interleavings of single steps,
with whatever failures the operating system adds. -/
theorem segments_commute {d : Disk} {s : Store} {pool : PoolId} {p : Pool}
    (h : (ofDisk d).Amid s) (hp : s.pools[pool]? = some p) (hapart : p.Apart s.disk) :
    (∀ (j k : SegmentId) (a b : Call), s.Live pool j → s.Live pool k → j ≠ k →
      ((s.perform j a).2.perform k b).1 = (s.perform k b).1 ∧
      ((s.perform k b).2.perform j a).1 = (s.perform j a).1 ∧
      ((s.perform j a).2.perform k b).2 = ((s.perform k b).2.perform j a).2) ∧
    (∀ calls calls' : List (SegmentId × Call), (∀ c ∈ calls, s.Live pool c.1) →
      (∀ k, only k calls = only k calls') →
      (∀ k, only k (s.performAll calls).1 = only k (s.performAll calls').1) ∧
        (s.performAll calls).2 = (s.performAll calls').2) ∧
    ∀ events events' : List Event,
      (∀ event ∈ events, ∃ k, event.segment? = some k ∧ s.Live pool k) →
      (∀ k, events.filter (·.segment? = k) = events'.filter (·.segment? = k)) →
      ∀ t, s.run? events = some t → s.run? events' = some t ∧
        ∀ k, (s.history events').on k = (s.history events).on k ∧
          only k (s.refusals events') = only k (s.refusals events) := by
  have hs := (coherent_of_amid h).separate hp hapart
  refine ⟨fun j k a b hj hk hjk => ?_, fun calls calls' hlive hsame => ?_,
    fun events events' hids hsame t hrun => ?_⟩
  · exact ⟨independent_perform.answer a b hs hj hk hjk,
      independent_perform.answer b a hs hk hj (Ne.symm hjk),
      independent_perform.comm a b hs hj hk hjk⟩
  · obtain ⟨hanswers, hstate⟩ := independent_perform.interleave hs hlive hsame
    exact ⟨hanswers, hstate⟩
  · have hids' : ∀ event ∈ events', ∃ k, event.segment? = some k ∧ s.Live pool k := by
      intro event he
      have hmem : event ∈ events.filter (·.segment? = event.segment?) := by
        rw [hsame]
        exact List.mem_filter.2 ⟨he, by simp⟩
      exact hids event (List.mem_filter.1 hmem).1
    have htagged : ∀ x ∈ tagged events, s.Live pool x.1 := by
      intro x hx
      obtain ⟨event, he, hx⟩ := List.mem_filterMap.1 hx
      obtain ⟨k, hk, hlive⟩ := hids event he
      rw [hk] at hx
      obtain rfl := Option.some.inj hx
      exact hlive
    have hagree : Agree (s.replay events) (s.replay events') :=
      (independent_act Event.own_act).interleave hs htagged fun k => by
        rw [only_tagged, only_tagged, hsame]
    have hall := possible_of_run hs hids hrun
    have hall' : ∀ x ∈ (s.replay events').1, x.2.isSome := fun x hx =>
      hall x ((mem_of_only_eq hagree.answers).2 hx)
    have hretold := retold_of_possible hs hids hall
    have hretold' := retold_of_possible hs hids' hall'
    refine ⟨?_, fun k => ⟨?_, ?_⟩⟩
    · rw [hretold'.run, ← hagree.state, ← hretold.run, hrun]
    · rw [hretold'.notices, hretold.notices, hagree.answers]
    · rw [hretold'.refusals, hretold.refusals, hagree.answers]

/-- Both of two files are leased, and the pool is closed. -/
def bothLeased : List Event :=
  [.openPool "db" { fileCount := 2 }, .select 0, .take 0, .startLease 0 0 none, .select 0, .take 0,
    .startLease 0 1 none, .closePool 0]

/-- A record of the first segment gets into its file in part, and one of the second all. -/
def firstFails : List Event :=
  [.accept 0 [7], .enqueue 0, .receive 0 (some ⟨1, .storageFull⟩), .record 0, .accept 0 [8],
    .accept 1 [9], .enqueue 1, .receive 1 none]

/-- The same steps, the second segment going first. -/
def secondFirst : List Event :=
  [.accept 1 [9], .accept 0 [7], .enqueue 1, .enqueue 0, .receive 1 none,
    .receive 0 (some ⟨1, .storageFull⟩), .record 0, .accept 0 [8]]

theorem segments_commute_bothLeased :
    ∃ s t, (ofDisk twoFiles).run? bothLeased = some s ∧
      ((s.perform 0 (.write [7])).2.perform 1 .flush).2 =
        ((s.perform 1 .flush).2.perform 0 (.write [7])).2 ∧
      s.run? firstFails = some t ∧ s.run? secondFirst = some t := by
  have hrun : (((ofDisk twoFiles).run? bothLeased).bind fun s => s.pools[0]?.bind fun p =>
      s.segments[0]?.bind fun g => s.segments[1]?.bind fun h => (s.run? firstFails).bind fun t =>
        if (g.pool = 0 ∧ g.released = false) ∧ h.pool = 0 ∧ h.released = false then some (s, p, t)
        else none).isSome := by
    decide +kernel
  obtain ⟨r, hrun⟩ := Option.isSome_iff_exists.1 hrun
  obtain ⟨s, hs, hrun⟩ := Option.bind_eq_some_iff.1 hrun
  obtain ⟨p, hp, hrun⟩ := Option.bind_eq_some_iff.1 hrun
  obtain ⟨g, hg, hrun⟩ := Option.bind_eq_some_iff.1 hrun
  obtain ⟨h, hh, hrun⟩ := Option.bind_eq_some_iff.1 hrun
  obtain ⟨t, ht, hrun⟩ := Option.bind_eq_some_iff.1 hrun
  split at hrun
  · rename_i hlease
    have hfirst : s.Live 0 0 := ⟨g, hg, hlease.1⟩
    have hsecond : s.Live 0 1 := ⟨h, hh, hlease.2⟩
    obtain ⟨-, dir, files, hdir, hdb, hlength, -⟩ := Layout.create_ok twoFiles_created
    have hadmitted : (ofDisk twoFiles).Throughout (Admits dir files.length) bothLeased := by
      apply admitted_of_within (.refl twoFiles)
      rintro event he path config rfl
      obtain ⟨rfl, rfl⟩ : path = "db" ∧ config = { fileCount := 2 } := by
        simpa [bothLeased] using he
      exact ⟨hdir, Nat.le_of_eq hlength.symm⟩
    have hapart := (sound_of_run hdb hadmitted hs).placed.apart hdb hp
    obtain ⟨hcalls, -, hsteps⟩ := segments_commute (amid_of_run hs) hp hapart
    have hlive : ∀ event ∈ firstFails, ∃ k, event.segment? = some k ∧ s.Live 0 k := by
      simp [firstFails, Event.segment?, hfirst, hsecond]
    have hsame : ∀ k, firstFails.filter (·.segment? = k) =
        secondFirst.filter (·.segment? = k) := by
      intro k
      rcases k with _ | _ | _ | n <;> rfl
    exact ⟨s, t, hs, (hcalls 0 1 (.write [7]) .flush hfirst hsecond (by decide)).2.2, ht,
      (hsteps firstFails secondFirst hlive hsame t ht).1⟩
  · cases hrun

end RecordStore.Store
