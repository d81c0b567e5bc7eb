import RecordStore.Proofs.PutGet

/-!
# Where a put goes

In a directory that nobody has open, a put goes behind the smallest of the backing files, the first
among equals, if its record is short enough and ends where an address can still point. Any other is
refused, and then every file is as it was. Either way the lock is free afterwards.
-/

namespace RecordStore.Command

open Layout Record

variable {s t : Store} {d d' : Disk} {outcome : Outcome} {path : String} {config : Config}
  {files : List FileId} {payload : Bytes} {data : String} {hex : Bool}
  {result : Outcome × Store} {i : Nat} {f : FileId} {c : Content}

/-- The length in two bytes and the payload have gone behind what was in file `i`, the address of
the record is printed, and all other files are as they were. -/
structure Placed (d d' : Disk) (payload : Bytes) (i : Nat) (f : FileId) (c : Content)
    (outcome : Outcome) : Prop where
  exit : outcome.exit = 0
  printed : ∃ a : Address, a.fileIndex = i ∧ a.offset = c.size ∧ outcome.out = line a.text
  appended : ∃ c', d'.content? f = some c' ∧
    c'.bytes = c.bytes ++ (header payload.length ++ payload)
  others : ∀ g c', g ≠ f → d.content? g = some c' → d'.content? g = some c'

/-- No address is printed, and every file is as it was. -/
structure Refused (d d' : Disk) (outcome : Outcome) : Prop where
  exit : outcome.exit = 1
  out : outcome.out = ""
  contents : ∀ g c, d.content? g = some c → d'.content? g = some c

theorem placed_of_fits (h : PutEffect s path config files payload result i f c)
    (hi : i < Address.maxFileIndex) (hfits : Fits c.size payload) :
    Placed s.disk result.2.disk payload i f c result.1 := by
  have hextends := s.disk.openOrCreate_extends path lockName
  have hc' := hextends.content_some h.content
  have hroom : c.size ≤ Address.offsetMask := Nat.le_trans (Nat.le_add_right _ _) hfits.2
  obtain ⟨hout, hdisk⟩ := h.fits hfits
  have hcontent := fun g => Disk.content?_setObject (s.disk.openOrCreate path lockName).2 f
    (c.write c.size (encode payload)) g (Disk.content?_lt hc')
  refine ⟨by rw [hout], ?_, ?_, fun g c' hg hthere => ?_⟩
  · exact ⟨.ofParts i c.size, Address.fileIndex_ofParts hi hroom, Address.offset_ofParts hi hroom,
      by rw [hout]⟩
  · refine ⟨c.write c.size (encode payload), ?_, Content.bytes_write_size ..⟩
    rw [hdisk, hcontent, if_pos rfl]
  · rw [hdisk, hcontent, if_neg (Ne.symm hg)]
    exact hextends.content_some hthere

theorem refused_of_not_fits (h : PutEffect s path config files payload result i f c)
    (hfits : ¬ Fits c.size payload) : Refused s.disk result.2.disk result.1 := by
  obtain ⟨⟨debug, hout⟩, hdisk⟩ := h.refused hfits
  refine ⟨by rw [hout]; rfl, by rw [hout]; rfl, fun g c' hthere => ?_⟩
  rw [hdisk]
  exact (s.disk.openOrCreate_extends path lockName).content_some hthere

theorem lockable_of_effect (h : PutEffect s path config files payload result i f c)
    (hlock : Lockable s.disk s.locks path) : Lockable result.2.disk result.2.locks path := by
  rw [h.locks]
  by_cases hfits : Fits c.size payload
  · rw [(h.fits hfits).2]
    exact hlock.setObject h.content _
  · rw [(h.refused hfits).2]
    exact hlock.again

theorem put_places (hnamed : path ≠ "") (h : Present s.disk path files) (hvalid : config.Valid)
    (hcount : config.fileCount.toNat = files.length) (hlock : Lockable s.disk s.locks path)
    (hprompt : s.failuresHeld = false) (hpayload : putPayload data hex = .ok payload)
    (hresult : put s path config data hex = result) :
    (∃ i f c, Foremost (s.disk.sizeOf files) (· < files.length) i ∧ files[i]? = some f ∧
      s.disk.content? f = some c ∧
      (Fits c.size payload → Placed s.disk result.2.disk payload i f c result.1) ∧
      (¬ Fits c.size payload → Refused s.disk result.2.disk result.1)) ∧
    result.2.locks = s.locks ∧ Lockable result.2.disk result.2.locks path := by
  obtain ⟨i, f, c, heffect⟩ := put_effect hnamed h hvalid hcount hlock hprompt hpayload
  rw [hresult] at heffect
  have hi := lt_maxFileIndex hvalid hcount heffect.foremost.mem
  exact ⟨⟨i, f, c, heffect.foremost, heffect.file, heffect.content, placed_of_fits heffect hi,
    refused_of_not_fits heffect⟩, heffect.locks, lockable_of_effect heffect hlock⟩

theorem put_unread {fault : Hex.Fault} (hpayload : putPayload data hex = .error fault) :
    put s path config data hex = (failed (Quoted.quote fault.message) [], s) := by
  unfold put
  rw [hpayload]

theorem put_of_run {count : UInt64} {args : List String}
    (hput : Asks args path count (.put data hex)) (hrun : run s args = (outcome, t)) :
    ∃ result, put (prompt s) path { fileCount := count } data hex = result ∧
      outcome = result.1 ∧ t.disk = result.2.disk ∧ t.locks = result.2.locks := by
  rw [run_of_asks hput (by simp)] at hrun
  obtain ⟨rfl, rfl⟩ := Prod.ext_iff.1 hrun
  exact ⟨_, rfl, rfl, rfl, rfl⟩

/-- A put goes to the file that comes first by size and then by index, if the record fits there.
Its length and payload then stand behind what was there, the address of that place is printed, and
the other files are as they were. Else it fails, and all files are as they were. The lock is free
again either way. -/
theorem put_placement (hpresent : Present s.disk path files) {count : UInt64}
    (hvalid : Config.Valid { fileCount := count }) (hcount : count.toNat = files.length)
    (hlock : Lockable s.disk s.locks path) {args : List String}
    (hput : Asks args path count (.put data hex)) (hrun : run s args = (outcome, t)) :
    (∀ payload, putPayload data hex = .ok payload →
      ∃ i f c, Foremost (s.disk.sizeOf files) (· < files.length) i ∧ files[i]? = some f ∧
        s.disk.content? f = some c ∧
        (Fits c.size payload → Placed s.disk t.disk payload i f c outcome) ∧
        (¬ Fits c.size payload → Refused s.disk t.disk outcome)) ∧
    (∀ fault, putPayload data hex = .error fault → Refused s.disk t.disk outcome) ∧
    t.locks = s.locks ∧ Lockable t.disk t.locks path := by
  obtain ⟨result, hresult, rfl, hdisk, hlocks⟩ := put_of_run hput hrun
  rw [hdisk, hlocks]
  cases hpayload : putPayload data hex with
  | error fault =>
    rw [put_unread hpayload] at hresult
    obtain rfl := hresult
    have hrefused : Refused s.disk s.disk (failed (Quoted.quote fault.message) []) :=
      ⟨rfl, rfl, fun _ _ hthere => hthere⟩
    exact ⟨fun _ hok => (by cases hok), fun _ _ => hrefused, rfl, hlock⟩
  | ok payload =>
    obtain ⟨hplaced, hkept⟩ :=
      put_places (s := prompt s) (named_of_asks hput) hpresent hvalid hcount hlock rfl hpayload
        hresult
    refine ⟨fun _ hok => ?_, fun _ herror => (by cases herror), hkept⟩
    obtain rfl := Except.ok.inj hok
    exact hplaced

/-! Two files of which the second is the smaller one. -/

def unevenPair : Store := (run pairMade (onPair ["put", "--hex", "00"])).2

theorem put_placement_behindSmaller : ∃ c, unevenPair.disk.content? 3 = some c ∧
    Placed unevenPair.disk (run unevenPair (onPair ["put", "hé"])).2.disk [104, 195, 169] 1 3 c
      (run unevenPair (onPair ["put", "hé"])).1 := by
  have hpresent : Present unevenPair.disk "db" [2, 3] := by
    refine ⟨fun {i f} hf => ?_, fun {f} hf => ?_⟩
    · rcases i with _ | _ | i
      · obtain rfl := Option.some.inj hf
        decide +kernel
      · obtain rfl := Option.some.inj hf
        decide +kernel
      · cases hf
    · have hregular : ∀ f ∈ [2, 3], (unevenPair.disk.content? f).isSome := by decide +kernel
      exact hregular f hf
  have hlock : Lockable unevenPair.disk unevenPair.locks "db" := ⟨4, by decide +kernel⟩
  have hput : Asks (onPair ["put", "hé"]) "db" 2 (.put "hé" false) := ⟨false, by decide +kernel⟩
  have hlaw := put_placement hpresent (by decide) rfl hlock hput rfl
  have hsecond : Foremost (unevenPair.disk.sizeOf [2, 3]) (· < 2) 1 :=
    ⟨by decide, by decide +kernel⟩
  obtain ⟨i, f, c, hforemost, hf, hc, hplaced, -⟩ := hlaw.1 [104, 195, 169] (by decide +kernel)
  obtain rfl := hforemost.unique hsecond
  obtain rfl : 3 = f := Option.some.inj hf
  have hsize : c.size = 8 := by
    have hthere : unevenPair.disk.size 3 = 8 := by decide +kernel
    rwa [Disk.size, hc] at hthere
  refine ⟨c, hc, hplaced ⟨by decide, ?_⟩⟩
  rw [hsize]
  decide

end RecordStore.Command
