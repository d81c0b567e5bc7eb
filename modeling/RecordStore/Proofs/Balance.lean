import Mathlib.Algebra.BigOperators.Group.List.Basic
import Mathlib.Algebra.Group.Action.Defs
import Mathlib.Algebra.Ring.Nat
import RecordStore.Proofs.Additions
import RecordStore.Proofs.Placement

/-!
# Files in balance

A put goes behind the smallest file. So in a directory that `makedb` has made no file is ever longer
than another one by more than the largest record, whatever is put and whatever is refused, and
together the files hold their tags and the records that were put.
-/

namespace RecordStore.Command

open Layout Record

/-! ## What is stored -/

def recordLength (args : List String) : Nat :=
  match readArguments args with
  | .ok { action := .put data hex, .. } =>
    match putPayload data hex with
    | .ok payload => encodedLength payload.length
    | .error _ => 0
  | _ => 0

/-- The bytes of the records of those command lines that succeed, one after the other. -/
def storedBytes (s : Store) : List (List String) → Nat
  | [] => 0
  | args :: rest =>
    (if (run s args).1.exit = 0 then recordLength args else 0) + storedBytes (run s args).2 rest

variable {s t : Store} {d d' : Disk} {outcome : Outcome} {path : String} {count : UInt64}
  {files : List FileId} {args : List String} {data : String} {hex : Bool} {payload : Bytes}
  {f : FileId} {n stored : Nat}

theorem recordLength_of_asks (hput : Asks args path count (.put data hex))
    (hpayload : putPayload data hex = .ok payload) :
    recordLength args = encodedLength payload.length := by
  obtain ⟨verbose, hargs⟩ := hput
  simp only [recordLength, hargs, hpayload]

/-! ## One put -/

/-- The smallest file has grown by `n` bytes, and the others are as long as they were. -/
structure Fills (d d' : Disk) (files : List FileId) (f : FileId) (n : Nat) : Prop where
  mem : f ∈ files
  smallest : ∀ g ∈ files, d.size f ≤ d.size g
  longer : d'.size f = d.size f + n
  others : ∀ g ∈ files, g ≠ f → d'.size g = d.size g

theorem size_of_kept (h : Present d path files)
    (hkept : ∀ g c, d.content? g = some c → d'.content? g = some c) :
    ∀ g ∈ files, d'.size g = d.size g := by
  intro g hg
  obtain ⟨c, hc⟩ := Option.isSome_iff_exists.1 (h.regular hg)
  rw [Disk.size, Disk.size, hc, hkept g c hc]

theorem fills_of_placed {i : Nat} {c : Content} (h : Present d path files)
    (hforemost : Foremost (d.sizeOf files) (· < files.length) i) (hf : files[i]? = some f)
    (hc : d.content? f = some c) (hplaced : Placed d d' payload i f c outcome) :
    Fills d d' files f (encodedLength payload.length) := by
  refine ⟨List.mem_of_getElem? hf, fun g hg => ?_, ?_, fun g hg hne => ?_⟩
  · obtain ⟨j, hj⟩ := List.getElem?_of_mem hg
    have hle := hforemost.size_le (List.getElem?_eq_some_iff.1 hj).1
    rwa [Disk.sizeOf, Disk.sizeOf, hf, hj] at hle
  · obtain ⟨c', hc', hbytes⟩ := hplaced.appended
    have hlength := congrArg List.length hbytes
    simp only [Content.length_bytes, List.length_append, header, List.length_cons,
      List.length_nil] at hlength
    rw [Disk.size, Disk.size, hc, hc', encodedLength, headerSize]
    exact hlength
  · obtain ⟨c', hc'⟩ := Option.isSome_iff_exists.1 (h.regular hg)
    rw [Disk.size, Disk.size, hc', hplaced.others g c' hne hc']

theorem sizes_of_put (h : Present s.disk path files) (hvalid : Config.Valid { fileCount := count })
    (hcount : count.toNat = files.length) (hput : Asks args path count (.put data hex))
    (hrun : run s args = (outcome, t)) :
    (outcome.exit = 0 ∧ recordLength args ≤ encodedLength maxLength ∧
      ∃ f, Fills s.disk t.disk files f (recordLength args)) ∨
    (outcome.exit ≠ 0 ∧ ∀ g ∈ files, t.disk.size g = s.disk.size g) := by
  obtain ⟨result, hresult, rfl, hdisk, -⟩ := put_of_run hput hrun
  rw [hdisk]
  cases hpayload : putPayload data hex with
  | error fault =>
    rw [put_unread hpayload] at hresult
    obtain rfl := hresult
    exact .inr ⟨by simp [failed], fun _ _ => rfl⟩
  | ok payload =>
    by_cases hlock : Lockable s.disk s.locks path
    · obtain ⟨⟨i, f, c, hforemost, hf, hc, hplaced, hrefused⟩, -⟩ :=
        put_places (s := prompt s) (named_of_asks hput) h hvalid hcount hlock rfl hpayload hresult
      by_cases hfits : Fits c.size payload
      · rw [recordLength_of_asks hput hpayload]
        exact .inl ⟨(hplaced hfits).exit, Nat.add_le_add_left hfits.1 headerSize, f,
          fills_of_placed h hforemost hf hc (hplaced hfits)⟩
      · have hsame := hrefused hfits
        exact .inr ⟨by simp [hsame.exit], size_of_kept h hsame.contents⟩
    · obtain ⟨e, u, hopen, hgrown⟩ :=
        openPool_of_not_lockable (s := prompt s) { fileCount := count } hlock
      obtain ⟨hexit, hstore⟩ := put_of_refused hpayload hopen
      rw [hresult] at hexit hstore
      rw [hstore]
      exact .inr ⟨by simp [hexit], size_of_kept h fun g c hc => hgrown.content_some hc⟩

/-! ## Sequences of puts -/

/-- The files are there, no file is longer than another by more than a record can be, and behind
their tags they have `stored` bytes. -/
structure Level (d : Disk) (path : String) (files : List FileId) (stored : Nat) : Prop where
  present : Present d path files
  spread : ∀ f ∈ files, ∀ g ∈ files, d.size f ≤ d.size g + encodedLength maxLength
  total : (files.map d.size).sum = dataStart * files.length + stored

theorem Level.keep (h : Level d path files stored) (hpresent : Present d' path files)
    (hsame : ∀ g ∈ files, d'.size g = d.size g) : Level d' path files stored where
  present := hpresent
  spread f hf g hg := by
    rw [hsame f hf, hsame g hg]
    exact h.spread f hf g hg
  total := by
    rw [List.map_congr_left hsame]
    exact h.total

theorem Fills.sum_eq (h : Fills d d' files f n) (hapart : files.Nodup) :
    (files.map d'.size).sum = (files.map d.size).sum + n := by
  have hothers : (files.erase f).map d'.size = (files.erase f).map d.size := by
    refine List.map_congr_left fun g hg => ?_
    obtain ⟨hne, hmem⟩ := hapart.mem_erase_iff.1 hg
    exact h.others g hmem hne
  rw [← List.sum_map_erase d'.size h.mem, ← List.sum_map_erase d.size h.mem, hothers, h.longer]
  omega

/-- A file that was the smallest stays within a record of all others. -/
theorem Level.fill (h : Level d path files stored) (hpresent : Present d' path files)
    (hfills : Fills d d' files f n) (hapart : files.Nodup) (hn : n ≤ encodedLength maxLength) :
    Level d' path files (stored + n) where
  present := hpresent
  spread x hx y hy := by
    have hgrown : d.size y ≤ d'.size y := by
      by_cases hsame : y = f
      · rw [hsame, hfills.longer]
        exact Nat.le_add_right _ n
      · rw [hfills.others y hy hsame]
    by_cases hsame : x = f
    · have hleast := hfills.smallest y hy
      rw [hsame, hfills.longer]
      omega
    · have hbefore := h.spread x hx y hy
      rw [hfills.others x hx hsame]
      omega
  total := by
    rw [hfills.sum_eq hapart, h.total, Nat.add_assoc]

theorem level_of_tags (hpresent : Present d path files)
    (htags : ∀ f ∈ files, d.size f = dataStart) : Level d path files 0 where
  present := hpresent
  spread f hf g hg := by
    rw [htags f hf, htags g hg]
    exact Nat.le_add_right _ _
  total := by
    rw [List.map_congr_left htags, List.map_const', List.sum_replicate, smul_eq_mul, Nat.mul_comm]
    rfl

theorem level_of_puts (h : Level s.disk path files stored)
    (hvalid : Config.Valid { fileCount := count }) (hcount : count.toNat = files.length)
    (hapart : files.Nodup) {puts : List (List String)}
    (hputs : ∀ args ∈ puts, ∃ data hex, Asks args path count (.put data hex)) :
    Level (runAll s puts).disk path files (stored + storedBytes s puts) := by
  induction puts generalizing s stored with
  | nil => exact h
  | cons args rest ih =>
    obtain ⟨data, hex, hput⟩ := hputs args List.mem_cons_self
    have hrest : ∀ later ∈ rest, ∃ data hex, Asks later path count (.put data hex) :=
      fun later hlater => hputs later (List.mem_cons_of_mem args hlater)
    have hpresent := (keeps_of_run h.present hvalid hcount hput).present
    show Level (runAll (run s args).2 rest).disk path files (stored +
      ((if (run s args).1.exit = 0 then recordLength args else 0) +
        storedBytes (run s args).2 rest))
    rw [← Nat.add_assoc]
    refine ih ?_ hrest
    have hrun : run s args = ((run s args).1, (run s args).2) := rfl
    rcases sizes_of_put h.present hvalid hcount hput hrun with ⟨hexit, hlength, f, hfills⟩ | hkept
    · rw [if_pos hexit]
      exact h.fill hpresent hfills hapart hlength
    · rw [if_neg hkept.1]
      exact h.keep hpresent hkept.2

/-- In a directory that `makedb` has made, after any puts, the sizes of two backing files never
differ by more than the largest record, and they add up to the tags and the records of the puts that
succeeded. -/
theorem puts_in_balance {makedbArgs : List String} {created : Outcome}
    (hmakedb : Asks makedbArgs path count .makedb) (hmade : run s makedbArgs = (created, t))
    (hcreated : created.out = line s!"Created {count.toNat} backing files in {path}") :
    ∃ files : List FileId, files.length = count.toNat ∧ files.Nodup ∧
      ∀ puts, (∀ args ∈ puts, ∃ data hex, Asks args path count (.put data hex)) →
        Present (runAll t puts).disk path files ∧
        (∀ f ∈ files, ∀ g ∈ files, (runAll t puts).disk.size f ≤
          (runAll t puts).disk.size g + encodedLength maxLength) ∧
        (files.map (runAll t puts).disk.size).sum =
          dataStart * count.toNat + storedBytes t puts := by
  have hcreate := create_of_run hmakedb hmade hcreated
  obtain ⟨files, hlength, hapart, hfiles⟩ := create_first hcreate (Nat.le_refl _)
  obtain ⟨hpresent, hcontent⟩ := present_of_tags hfiles
  have htags : ∀ f ∈ files, t.disk.size f = dataStart := by
    intro f hf
    rw [Disk.size, hcontent f hf]
    rfl
  refine ⟨files, hlength, hapart, fun puts hputs => ?_⟩
  obtain ⟨hthere, hspread, htotal⟩ :=
    level_of_puts (level_of_tags hpresent htags) (create_ok hcreate).1 hlength.symm hapart hputs
  rw [hlength, Nat.zero_add] at htotal
  exact ⟨hthere, hspread, htotal⟩

/-! Two files, and a refused put between two that succeed. -/

def mixedPuts : List (List String) :=
  [onPair ["put", "hé"], onPair ["put", "--hex", "0AF"], onPair ["put", "--hex", "00"]]

theorem puts_in_balance_oneRefused : ∃ files : List FileId, files.length = 2 ∧ files.Nodup ∧
    Present (runAll pairMade mixedPuts).disk "db" files ∧
    (∀ f ∈ files, ∀ g ∈ files, (runAll pairMade mixedPuts).disk.size f ≤
      (runAll pairMade mixedPuts).disk.size g + 65537) ∧
    (files.map (runAll pairMade mixedPuts).disk.size).sum = 8 * 2 + (5 + 0 + 3) := by
  have hmakedb : Asks (onPair ["makedb"]) "db" 2 .makedb := ⟨false, by decide +kernel⟩
  have hmade : run (.ofDisk (.withDirectory "db")) (onPair ["makedb"]) =
      ((run (.ofDisk (.withDirectory "db")) (onPair ["makedb"])).1, pairMade) := rfl
  have hputs : ∀ args ∈ mixedPuts, ∃ data hex, Asks args "db" 2 (.put data hex) := by
    simp only [mixedPuts, List.forall_mem_cons]
    exact ⟨⟨"hé", false, false, by decide +kernel⟩, ⟨"0AF", true, false, by decide +kernel⟩,
      ⟨"00", true, false, by decide +kernel⟩, by simp⟩
  have hstored : storedBytes pairMade mixedPuts = 5 + 0 + 3 := by decide +kernel
  obtain ⟨files, hlength, hapart, hlaw⟩ := puts_in_balance hmakedb hmade (by decide +kernel)
  obtain ⟨hpresent, hspread, htotal⟩ := hlaw mixedPuts hputs
  rw [hstored] at htotal
  exact ⟨files, hlength, hapart, hpresent, hspread, htotal⟩

end RecordStore.Command
