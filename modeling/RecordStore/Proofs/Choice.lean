import RecordStore.Pool

/-!
# Which file the scheduler offers

Of the available files the scheduler offers the one with the smallest frontier, and among equals the
one with the lowest index.
-/

namespace RecordStore

/-- The first of the candidates when they are ordered by size and then by index. -/
structure Foremost (size : Nat → Nat) (candidate : Nat → Prop) (i : Nat) : Prop where
  mem : candidate i
  least : ∀ j, candidate j → size i < size j ∨ size i = size j ∧ i ≤ j

namespace Foremost

variable {size size' : Nat → Nat} {candidate candidate' : Nat → Prop} {i j : Nat}

theorem unique (h : Foremost size candidate i) (k : Foremost size candidate j) : i = j := by
  have hij := h.least j k.mem
  have hji := k.least i h.mem
  omega

theorem size_le (h : Foremost size candidate i) (hj : candidate j) : size i ≤ size j := by
  have := h.least j hj
  omega

theorem congr (h : Foremost size candidate i) (hsame : ∀ j, candidate' j ↔ candidate j)
    (hsize : ∀ j, candidate j → size' j = size j) : Foremost size' candidate' i := by
  constructor
  · rw [hsame]
    exact h.mem
  · intro j hj
    rw [hsame] at hj
    rw [hsize i h.mem, hsize j hj]
    exact h.least j hj

end Foremost

namespace Pool

variable {p : Pool} {n i : Nat} {best : Option Nat}

def Offers (p : Pool) (i : Nat) : Prop := i < p.fileCount ∧ p.isAvailable i = true

/-- What is the best of the first `n` files. -/
def Best (p : Pool) (n : Nat) : Option Nat → Prop
  | none => ∀ j < n, p.isAvailable j = false
  | some i => Foremost p.frontier (fun j => j < n ∧ p.isAvailable j = true) i

theorem Best.skip (h : p.Best n best) (hn : p.isAvailable n = false) : p.Best (n + 1) best := by
  have hbelow : ∀ j, j < n + 1 → p.isAvailable j = true → j < n := by
    intro j hj havailable
    have hne : j ≠ n := by
      rintro rfl
      simp [hn] at havailable
    omega
  cases best with
  | none =>
    intro j hj
    by_cases hjn : j = n
    · rw [hjn, hn]
    · exact h j (by omega)
  | some i =>
    refine ⟨⟨by have := h.mem.1; omega, h.mem.2⟩, ?_⟩
    rintro j ⟨hj, havailable⟩
    exact h.least j ⟨hbelow j hj havailable, havailable⟩

theorem Best.first (h : p.Best n none) (hn : p.isAvailable n = true) : p.Best (n + 1) (some n) := by
  refine ⟨⟨by omega, hn⟩, ?_⟩
  rintro j ⟨hj, havailable⟩
  by_cases hjn : j = n
  · subst hjn
    omega
  · have := h j (by omega)
    simp [this] at havailable

theorem Best.compare (h : p.Best n (some i)) (hn : p.isAvailable n = true) :
    p.Best (n + 1) (if p.frontier n < p.frontier i then some n else some i) := by
  have hi := h.mem.1
  have hleast : ∀ j, j < n + 1 → p.isAvailable j = true → j ≠ n →
      p.frontier i < p.frontier j ∨ p.frontier i = p.frontier j ∧ i ≤ j :=
    fun j hj havailable hne => h.least j ⟨by omega, havailable⟩
  split
  · refine ⟨⟨by omega, hn⟩, ?_⟩
    rintro j ⟨hj, havailable⟩
    by_cases hjn : j = n
    · subst hjn
      omega
    · have := hleast j hj havailable hjn
      omega
  · refine ⟨⟨by omega, h.mem.2⟩, ?_⟩
    rintro j ⟨hj, havailable⟩
    by_cases hjn : j = n
    · subst hjn
      omega
    · exact hleast j hj havailable hjn

theorem Best.next (h : p.Best n best) : p.Best (n + 1) (p.better best n) := by
  unfold better
  split
  · rename_i hn
    cases best with
    | none => exact h.first hn
    | some i => exact h.compare hn
  · rename_i hn
    exact h.skip (by simpa using hn)

theorem best_choice (p : Pool) : p.Best p.fileCount p.choice? := by
  unfold choice?
  generalize p.fileCount = n
  induction n with
  | zero => exact fun j hj => absurd hj (Nat.not_lt_zero j)
  | succ n ih =>
    rw [List.range_succ, List.foldl_append]
    exact ih.next

theorem choice_foremost (h : p.choice? = some i) : Foremost p.frontier p.Offers i := by
  have hbest := p.best_choice
  rw [h] at hbest
  exact hbest

theorem choice_none (h : p.choice? = none) : ∀ i, ¬ p.Offers i := by
  have hbest := p.best_choice
  rw [h] at hbest
  rintro i ⟨hi, havailable⟩
  simp [hbest i hi] at havailable

theorem exists_choice (h : p.Offers i) : ∃ j, p.choice? = some j := by
  cases hchoice : p.choice? with
  | none => exact absurd h (choice_none hchoice i)
  | some j => exact ⟨j, rfl⟩

end Pool

end RecordStore
