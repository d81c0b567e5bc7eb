import Mathlib.Algebra.Group.Action.Defs
import Mathlib.Algebra.Order.BigOperators.Group.List
import Mathlib.Algebra.Order.Ring.Nat
import RecordStore.Disk.Edit
import RecordStore.Report
import RecordStore.Store.Call

/-!
# What a report adds up

A report has an entry for each frontier, with the bytes behind the tag, and their exact sum. There is
one as long as the sum fits a word, which no leased file can break; else adding up stops the program.
-/

namespace RecordStore

/-- The bytes behind the tag of a file that ends there, none if it ends in the tag. -/
def dataLength (frontier : UInt64) : Nat := frontier.toNat - Layout.dataStart

def exactTotal (frontiers : List UInt64) : Nat := (frontiers.map dataLength).sum

/-- The entry is that of the file with this index and this frontier. -/
structure FileReport.Describes (file : FileReport) (i : Nat) (n : UInt64) : Prop where
  index : file.index = i
  name : file.name = Layout.fileName i
  frontier : file.frontier = n
  dataBytes : file.dataBytes.toNat = dataLength n

namespace Report

variable {path : String} {config : Config} {frontiers : List UInt64}

theorem toNat_dataBytes (frontier : UInt64) : (dataBytes frontier).toNat = dataLength frontier := by
  have hstart : (UInt64.ofNat Layout.dataStart).toNat = Layout.dataStart := rfl
  unfold dataBytes dataLength
  split
  · rename_i hshort
    rw [Nat.sub_eq_zero_of_le (Nat.le_of_lt hshort)]
    rfl
  · rename_i hlong
    rw [UInt64.toNat_sub_of_le _ _ (by rw [UInt64.le_iff_toNat_le, hstart]; omega), hstart]

theorem describes_of_frontier {i : Nat} {frontier : UInt64} (h : frontiers[i]? = some frontier) :
    ∃ file, (fileReports frontiers)[i]? = some file ∧ file.Describes i frontier := by
  refine ⟨⟨i, Layout.fileName i, frontier, dataBytes frontier⟩, ?_, rfl, rfl, rfl,
    toNat_dataBytes frontier⟩
  simp [fileReports, h]

theorem map_dataBytes (frontiers : List UInt64) :
    (fileReports frontiers).map (·.dataBytes.toNat) = frontiers.map dataLength := by
  refine List.ext_getElem? fun i => ?_
  cases h : frontiers[i]? with
  | none => simp [fileReports, h]
  | some frontier => simp [fileReports, h, toNat_dataBytes]

/-! ## Adding up -/

theorem add?_of_lt {a b : UInt64} (h : a.toNat + b.toNat < UInt64.size) :
    ∃ c, add? a b = some c ∧ c.toNat = a.toNat + b.toNat := by
  refine ⟨a + b, by rw [add?, if_pos h], ?_⟩
  rw [UInt64.toNat_add]
  exact Nat.mod_eq_of_lt h

/-- A chain of additions is as good as one: it stops if and only if the sum does not fit. -/
theorem foldlM_add? (files : List FileReport) (total : UInt64) :
    files.foldlM (fun total file => add? total file.dataBytes) total =
      if total.toNat + (files.map (·.dataBytes.toNat)).sum < UInt64.size then
        some (UInt64.ofNat (total.toNat + (files.map (·.dataBytes.toNat)).sum))
      else none := by
  induction files generalizing total with
  | nil => simp [total.toNat_lt]
  | cons file rest ih =>
    rw [List.foldlM_cons, List.map_cons, List.sum_cons, ← Nat.add_assoc]
    by_cases hfits : total.toNat + file.dataBytes.toNat < UInt64.size
    · obtain ⟨next, hnext, hsum⟩ := add?_of_lt hfits
      rw [hnext, ← hsum]
      exact ih next
    · rw [add?, if_neg hfits, if_neg (by omega)]
      rfl

theorem total?_eq (frontiers : List UInt64) :
    total? (fileReports frontiers) =
      if exactTotal frontiers < UInt64.size then some (UInt64.ofNat (exactTotal frontiers))
      else none := by
  have hsum := foldlM_add? (fileReports frontiers) 0
  rwa [map_dataBytes, UInt64.toNat_zero, Nat.zero_add] at hsum

theorem isSome_ofFrontiers? (path : String) (config : Config) (frontiers : List UInt64) :
    (ofFrontiers? path config frontiers).isSome ↔ exactTotal frontiers < 2 ^ 64 := by
  rw [ofFrontiers?, total?_eq, Option.isSome_map]
  split <;> simp_all [UInt64.size]

theorem ofFrontiers?_some {report : Report} (h : ofFrontiers? path config frontiers = some report) :
    report.files = fileReports frontiers ∧
      report.totalDataBytes.toNat = exactTotal frontiers := by
  obtain ⟨total, htotal, rfl⟩ := Option.map_eq_some_iff.1 h
  rw [total?_eq] at htotal
  split at htotal
  · rename_i hfits
    obtain rfl := Option.some.inj htotal
    exact ⟨rfl, by rw [UInt64.toNat_ofNat']; exact Nat.mod_eq_of_lt hfits⟩
  · cases htotal

/-- As many files as a pool can have do not fill the word, if each is below 2⁵⁶ bytes. -/
theorem exactTotal_lt (hcount : frontiers.length ≤ Config.maxFileCount)
    (hsize : ∀ frontier ∈ frontiers, frontier.toNat ≤ 2 ^ 56) :
    exactTotal frontiers < 2 ^ 64 := by
  have hlengths : ∀ n ∈ frontiers.map dataLength, n ≤ 2 ^ 56 - Layout.dataStart := by
    intro n hn
    obtain ⟨frontier, hmem, rfl⟩ := List.mem_map.1 hn
    exact Nat.sub_le_sub_right (hsize frontier hmem) _
  have hsum := List.sum_le_card_nsmul _ _ hlengths
  rw [List.length_map, smul_eq_mul] at hsum
  have hbound := Nat.mul_le_mul_right (2 ^ 56 - Layout.dataStart) hcount
  have hroom : Config.maxFileCount * (2 ^ 56 - Layout.dataStart) < 2 ^ 64 := by decide
  exact Nat.lt_of_le_of_lt (hsum.trans hbound) hroom

/-- There is a report if and only if the bytes behind the tags of all files fit a word, and so there
is for every pool of files of 2⁵⁶ bytes at most. It has one entry for each frontier, in order, and its
total is exact. -/
theorem total_exact_iff (path : String) (config : Config) (frontiers : List UInt64) :
    ((ofFrontiers? path config frontiers).isSome ↔ exactTotal frontiers < 2 ^ 64) ∧
    (∀ report, ofFrontiers? path config frontiers = some report →
      report.files.length = frontiers.length ∧
      (∀ i frontier, frontiers[i]? = some frontier →
        ∃ file : FileReport, report.files[i]? = some file ∧ file.Describes i frontier) ∧
      report.totalDataBytes.toNat = exactTotal frontiers) ∧
    (frontiers.length ≤ Config.maxFileCount →
      (∀ frontier ∈ frontiers, frontier.toNat ≤ 2 ^ 56) →
      (ofFrontiers? path config frontiers).isSome) := by
  refine ⟨isSome_ofFrontiers? path config frontiers, fun report h => ?_, fun hcount hsize => ?_⟩
  · obtain ⟨hfiles, htotal⟩ := ofFrontiers?_some h
    rw [hfiles]
    exact ⟨by simp [fileReports], fun i frontier => describes_of_frontier, htotal⟩
  · exact (isSome_ofFrontiers? path config frontiers).2 (exactTotal_lt hcount hsize)

/-- Three files of the largest size that a file can have. -/
def hugeFiles : Disk :=
  (List.range 3).foldl
    (fun d i => (d.truncate "db" (Layout.fileName i) (2 ^ 63 - 1)).toOption.getD d)
    (Layout.create (.withDirectory "db") "db" { fileCount := 3 }).2

def hugeFrontiers : List UInt64 := List.replicate 3 9223372036854775807

/-- A pool opens on them and has these frontiers, and there is no report of it. -/
theorem no_report_of_hugeFiles :
    (∃ s p, (Store.ofDisk hugeFiles).openPool "db" { fileCount := 3 } = (.ok 0, s) ∧
      s.pools[0]? = some p ∧ p.frontiers.map UInt64.ofNat = hugeFrontiers) ∧
    ofFrontiers? "db" { fileCount := 3 } hugeFrontiers = none ∧
    exactTotal hugeFrontiers = 27670116110564327397 := by
  have hopen : (((Store.ofDisk hugeFiles).openPool "db" { fileCount := 3 }).1 = .ok 0) ∧
      (((Store.ofDisk hugeFiles).openPool "db" { fileCount := 3 }).2.pools[0]?.map
        fun p => p.frontiers.map UInt64.ofNat) = some hugeFrontiers := by
    decide +kernel
  obtain ⟨p, hp, hfrontiers⟩ := Option.map_eq_some_iff.1 hopen.2
  exact ⟨⟨_, p, Prod.ext hopen.1 rfl, hp, hfrontiers⟩, by decide +kernel, by decide +kernel⟩

end Report

end RecordStore
