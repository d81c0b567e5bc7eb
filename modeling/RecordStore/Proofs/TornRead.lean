import RecordStore.Disk.Edit
import RecordStore.Proofs.AppendOnly

/-!
# Reads of a file that is cut off

A file may lose its end, and a read may come while a writer is still adding to it. Then the phases of
a read see the file cut off, the second one perhaps later than the first. A record is read whole or
not at all.
-/

namespace RecordStore

open Record

/-! ## A record whose end may be missing -/

def Disk.Shows (d : Disk) (f : FileId) (bytes : Bytes) : Prop :=
  ∃ c, d.content? f = some c ∧ c.bytes = bytes

theorem Disk.shows_of_truncate {d d' : Disk} {path name : String} {f : FileId} {c : Content} {n : Nat}
    (htarget : d.target path name = .ok f) (hc : d.content? f = some c) (hn : n ≤ c.size)
    (h : d.truncate path name n = .ok d') : d'.Shows f (c.bytes.take n) := by
  unfold truncate editContent at h
  obtain ⟨id, hopen, h⟩ := bind_eq_ok.1 h
  obtain rfl := Except.ok.inj ((openWrite_ok hopen).symm.trans htarget)
  rw [hc] at h
  obtain rfl := Except.ok.inj h
  refine ⟨c.resize n, ?_, ?_⟩
  · rw [content?_setObject d id _ id (content?_lt hc), if_pos rfl]
  · rw [Content.bytes_resize, Nat.sub_eq_zero_of_le hn, List.replicate_zero, List.append_nil]

namespace Reader

variable {first second : Disk} {handle : Handle} {bytes data rest : Bytes} {size i offset T₁ T₂ : Nat}

theorem oneShot_take_encode (h : data.length ≤ maxLength) (rest : Bytes) {n : Nat}
    (hn : headerSize ≤ n) :
    oneShot i offset ((encode data ++ rest).take n) =
      if encodedLength data.length ≤ n then .ok data
      else .error (.corruption i offset (.truncated data.length)) := by
  by_cases hall : encodedLength data.length ≤ n
  · rw [if_pos hall, List.take_append, List.take_of_length_le (by rw [length_encode]; exact hall)]
    exact oneShot_encode h _
  · rw [if_neg hall, List.take_append_of_le_length (by rw [length_encode]; omega)]
    have hlength : ((encode data).take n).length = n := by
      rw [List.length_take, length_encode]
      omega
    have hheader : decodeHeader ((encode data).take n) = some data.length := by
      cases hdecode : decodeHeader ((encode data).take n) with
      | none =>
        have hshort := decodeHeader_eq_none.1 hdecode
        omega
      | some length =>
        have hwhole := decodeHeader_append hdecode ((encode data).drop n)
        rwa [List.take_append_drop, decodeHeader_encode h, eq_comm] at hwhole
    rw [oneShot_of_header hheader, hlength, if_neg hall]

/-- What a read answers for a record when its phases see the first `T₁` and the first `T₂` bytes of
the file. -/
theorem readRecord_cut (hfirst : first.Shows handle.file (bytes.take T₁))
    (hsecond : second.Shows handle.file (bytes.take T₂)) (hcut : T₁ ≤ T₂)
    (hbytes : bytes.drop offset = encode data ++ rest) (hsize : headerSize ≤ size)
    (hlength : data.length ≤ maxLength) (buffer : Bytes) :
    (readRecord first second size i offset buffer handle).answer =
      if T₁ < offset + headerSize then .error (.corruption i offset (.noHeader (T₁ - offset)))
      else if offset + encodedLength data.length ≤ T₂ then .ok data
      else .error (.corruption i offset (.truncated data.length)) := by
  obtain ⟨c, hc, hc₁⟩ := hfirst
  obtain ⟨c', hc', hc₂⟩ := hsecond
  have hfrom : ∀ n, (bytes.take n).drop offset = (encode data ++ rest).take (n - offset) := fun n => by
    rw [List.drop_take, hbytes]
  have hgot : (c.bytes.drop offset).take size =
      (encode data ++ rest).take (min size (T₁ - offset)) := by
    rw [hc₁, hfrom, List.take_take]
  have hroom : headerSize ≤ (encode data ++ rest).length := by
    have := headerSize_le_encodedLength data.length
    rw [List.length_append, length_encode]
    omega
  by_cases hshort : T₁ < offset + headerSize
  · have hcount : ((encode data ++ rest).take (min size (T₁ - offset))).length = T₁ - offset := by
      rw [List.length_take]
      omega
    have hnone : ((encode data ++ rest).take (min size (T₁ - offset))).length < headerSize := by
      rw [hcount]
      have : 0 < headerSize := by decide
      omega
    rw [if_pos hshort, readRecord_of_short hc hgot hnone buffer, oneShot_of_short hnone, hcount]
  · have hheader : headerSize ≤ ((encode data ++ rest).take (min size (T₁ - offset))).length := by
      rw [List.length_take]
      omega
    -- what the first phase has got is the beginning of what the second one sees
    have hsees : (encode data ++ rest).take (min size (T₁ - offset)) <+:
        (encode data ++ rest).take (T₂ - offset) :=
      List.take_prefix_take_left (by omega)
    rw [if_neg hshort, (readRecord_of_header hc hc' hgot hheader buffer).1, ← List.drop_drop, hc₂,
      hfrom, List.prefix_iff_eq_append.1 hsees, oneShot_take_encode hlength rest (by omega)]
    have hend : encodedLength data.length ≤ T₂ - offset ↔ offset + encodedLength data.length ≤ T₂ := by
      have : 0 < encodedLength data.length := Nat.lt_of_lt_of_le (by decide)
        (headerSize_le_encodedLength data.length)
      omega
    simp only [hend]

end Reader

theorem Pool.readBetween_cut {first second : Disk} {p : Pool} {a : Address} {f : FileId}
    {bytes data rest : Bytes} {T₁ T₂ : Nat} (hfile : p.files[a.fileIndex]? = some f)
    (hoffset : Layout.dataStart ≤ a.offset) (hfirst : first.Shows f (bytes.take T₁))
    (hsecond : second.Shows f (bytes.take T₂)) (hcut : T₁ ≤ T₂)
    (hbytes : bytes.drop a.offset = encode data ++ rest)
    (hsize : headerSize ≤ p.config.firstReadSize.toNat) (hlength : data.length ≤ maxLength)
    (buffer : Bytes) :
    (p.readBetween first second a buffer).1 =
      if T₁ < a.offset + headerSize then
        .error (.corruption a.fileIndex a.offset (.noHeader (T₁ - a.offset)))
      else if a.offset + encodedLength data.length ≤ T₂ then .ok data
      else .error (.corruption a.fileIndex a.offset (.truncated data.length)) := by
  rw [Pool.files, List.getElem?_map] at hfile
  obtain ⟨slot, hslot, rfl⟩ := Option.map_eq_some_iff.1 hfile
  unfold readBetween
  rw [hslot]
  dsimp only
  rw [if_neg (Nat.not_lt_of_le hoffset)]
  exact Reader.readRecord_cut hfirst hsecond hcut hbytes hsize hlength buffer

/-! ## No torn record is returned -/

namespace Store

/-- What a read may answer for a record when it sees the first `T₁` and then the first `T₂` bytes of
its file. -/
structure Untorn (a : Address) (data : Bytes) (T₁ T₂ : Nat) (answer : Except Error Bytes) :
    Prop where
  noOther : answer = .ok data ∨
    ∃ damage, answer = .error (.corruption a.fileIndex a.offset damage)
  whole : a.offset + encodedLength data.length ≤ T₁ → answer = .ok data
  cut : T₂ < a.offset + encodedLength data.length →
    ∃ damage, answer = .error (.corruption a.fileIndex a.offset damage)

theorem untorn_of_cut {a : Address} {data : Bytes} {T₁ T₂ : Nat} (hcut : T₁ ≤ T₂)
    {answer : Except Error Bytes}
    (h : answer =
      if T₁ < a.offset + headerSize then
        .error (.corruption a.fileIndex a.offset (.noHeader (T₁ - a.offset)))
      else if a.offset + encodedLength data.length ≤ T₂ then .ok data
      else .error (.corruption a.fileIndex a.offset (.truncated data.length))) :
    Untorn a data T₁ T₂ answer := by
  have hheader := headerSize_le_encodedLength data.length
  subst h
  by_cases hshort : T₁ < a.offset + headerSize
  · rw [if_pos hshort]
    exact ⟨.inr ⟨_, rfl⟩, fun hwhole => by omega, fun _ => ⟨_, rfl⟩⟩
  · rw [if_neg hshort]
    by_cases hend : a.offset + encodedLength data.length ≤ T₂
    · rw [if_pos hend]
      exact ⟨.inl rfl, fun _ => rfl, fun hless => absurd hend (Nat.not_le_of_lt hless)⟩
    · rw [if_neg hend]
      exact ⟨.inr ⟨_, rfl⟩, fun hwhole => by omega, fun _ => ⟨_, rfl⟩⟩

/-- A record that was written without failure is read whole or not at all from a file that is cut
off, wherever the cut is and also when it moves on between the phases of the read. Any two states of
the run, one after the other, show such cuts of what the file holds in the end. -/
theorem no_torn_record {d₀ d : Disk} {path : String} {config : Config} {events : List Event}
    {s : Store} {id : SegmentId} {g : Segment} {a : Address} {data : Bytes}
    (hcreate : Layout.create d₀ path config = (.ok (), d))
    (hon : ∀ event ∈ events, event.On d path config.fileCount.toNat)
    (hrun : (ofDisk d).run? events = some s)
    (hg : s.segments[id]? = some g) (hdone : g.writer.queue = [])
    (hquiet : ∀ f, (id, .failed f) ∉ (ofDisk d).history events)
    (hwrote : (id, .wrote a data) ∈ (ofDisk d).history events) :
    ∃ f c, s.disk.target path (Layout.fileName a.fileIndex) = .ok f ∧
      s.disk.content? f = some c ∧
      (∀ (pool : PoolId) (p : Pool), s.pools[pool]? = some p → a.fileIndex < p.fileCount →
        p.files[a.fileIndex]? = some f) ∧
      (∀ (first second : Disk) (p : Pool) (T₁ T₂ : Nat) (buffer : Bytes),
        p.files[a.fileIndex]? = some f → headerSize ≤ p.config.firstReadSize.toNat → T₁ ≤ T₂ →
        first.Shows f (c.bytes.take T₁) → second.Shows f (c.bytes.take T₂) →
        Untorn a data T₁ T₂ (p.readBetween first second a buffer).1) ∧
      ∀ (before between after : List Event) (t u : Store),
        events = before ++ (between ++ after) → (ofDisk d).run? before = some t →
        t.run? between = some u →
        ∃ T₁ T₂, T₁ ≤ T₂ ∧ t.disk.Shows f (c.bytes.take T₁) ∧
          u.disk.Shows f (c.bytes.take T₂) := by
  obtain ⟨-, dir, files, hdir, hdb, hlength, hfiles⟩ := Layout.create_ok hcreate
  have hwithin : ∀ event ∈ events, event.Within d dir files.length := fun event he =>
    hlength ▸ (hon event he).within hdir
  have hl := logged_of_run hdb hwithin hrun
  have hfailed : Notice.failedWrites (((ofDisk d).history events).on id) = [] :=
    List.eq_nil_iff_forall_not_mem.2 fun f hf =>
      hquiet f (History.mem_on.1 (Notice.mem_failedWrites.1 hf))
  obtain ⟨f, hf, ⟨c, hc, rest, hrest⟩, hoffset, hsize⟩ :=
    hl.stands_of_wrote (fun hf => (hfiles hf).2) hg hdone hfailed hwrote
  refine ⟨f, c, hl.sound.placed.grows.target_ok (hfiles hf).1, hc, ?_, ?_, ?_⟩
  · intro pool p hp hcount
    obtain ⟨slot, hslot, rfl⟩ := hl.sound.placed.slot_file hp hcount hf
    simp [Pool.files, hslot]
  · intro first second p T₁ T₂ buffer hfile hfirstSize hcut hfirst hsecond
    exact untorn_of_cut hcut (Pool.readBetween_cut hfile hoffset hfirst hsecond hcut hrest.symm
      hfirstSize hsize buffer)
  · intro before between after t u hevents ht hu
    subst hevents
    have hafter : u.run? after = some s := by
      rw [run?_append, ht, Option.bind_some, run?_append, hu] at hrun
      exact hrun
    have hstart := (hfiles hf).2
    obtain ⟨c₁, c₂, hc₁, hc₂, hgrown⟩ := shows_of_run hdb
      (fun event he => hwithin event (by
        rw [← List.append_assoc]
        exact List.mem_append_left _ he)) ht hu hf hstart
    have hthen : (ofDisk d).run? (before ++ between) = some u := by
      rw [run?_append, ht]
      exact hu
    obtain ⟨c₃, c₄, hc₃, hc₄, hlater⟩ := shows_of_run hdb
      (by rwa [List.append_assoc]) hthen hafter hf hstart
    obtain rfl := Option.some.inj (hc₃.symm.trans hc₂)
    obtain rfl := Option.some.inj (hc₄.symm.trans hc)
    refine ⟨c₁.bytes.length, c₃.bytes.length, hgrown.length_le, ⟨c₁, hc₁, ?_⟩, c₃, hc₃, ?_⟩
    · exact List.prefix_iff_eq_take.1 (hgrown.trans hlater)
    · exact List.prefix_iff_eq_take.1 hlater

/-- The file loses all of the record but its header. A read finds the record before that, and the
damage afterwards. -/
theorem no_torn_record_headerLeft :
    ∃ s p cut, (ofDisk oneFile).run? flushedRecord = some s ∧ s.pools[0]? = some p ∧
      s.disk.truncate "db" (Layout.fileName 0) 10 = .ok cut ∧
      ∀ buffer, (p.readBetween s.disk s.disk (.ofParts 0 8) buffer).1 = .ok [7] ∧
        ∃ damage, (p.readBetween cut cut (.ofParts 0 8) buffer).1 =
          .error (.corruption (Address.ofParts 0 8).fileIndex (Address.ofParts 0 8).offset damage) := by
  have hwrote : (0, .wrote (.ofParts 0 8) [7]) ∈ (ofDisk oneFile).history flushedRecord := by
    decide +kernel
  have hquiet : ∀ r ∈ (ofDisk oneFile).history flushedRecord, r.2.failedWrite? = none := by
    decide +kernel
  have hrun : (((ofDisk oneFile).run? flushedRecord).bind fun s => s.pools[0]?.bind fun p =>
      s.segments[0]?.bind fun g => (s.disk.truncate "db" (Layout.fileName 0) 10).toOption.bind
        fun cut => (s.disk.content? 2).bind fun c =>
          if g.writer.queue = [] ∧ (Address.ofParts 0 8).fileIndex < p.fileCount ∧
            headerSize ≤ p.config.firstReadSize.toNat ∧
            s.disk.target "db" (Layout.fileName 0) = .ok 2 ∧ c.size = 11 then some (s, p, g, cut, c)
          else none).isSome := by
    decide +kernel
  obtain ⟨r, hrun⟩ := Option.isSome_iff_exists.1 hrun
  obtain ⟨s, hs, hrun⟩ := Option.bind_eq_some_iff.1 hrun
  obtain ⟨p, hp, hrun⟩ := Option.bind_eq_some_iff.1 hrun
  obtain ⟨g, hg, hrun⟩ := Option.bind_eq_some_iff.1 hrun
  obtain ⟨cut, hcut, hrun⟩ := Option.bind_eq_some_iff.1 hrun
  obtain ⟨c, hc, hrun⟩ := Option.bind_eq_some_iff.1 hrun
  split at hrun
  · rename_i hend
    obtain ⟨hdone, hcount, hsize, htarget, hlength⟩ := hend
    have hcut : s.disk.truncate "db" (Layout.fileName 0) 10 = .ok cut := by
      cases htruncate : s.disk.truncate "db" (Layout.fileName 0) 10 with
      | error e =>
        rw [htruncate] at hcut
        cases hcut
      | ok d =>
        rw [htruncate] at hcut
        rw [← Option.some.inj hcut]
    obtain ⟨f, c', hfile, hcontent, hpools, hread, -⟩ := no_torn_record oneFile_created
      (on_of_opensOne (by decide)) hs hg hdone
      (fun f hf => by simpa [Notice.failedWrite?] using hquiet _ hf) hwrote
    obtain rfl := Except.ok.inj (hfile.symm.trans htarget)
    obtain rfl := Option.some.inj (hcontent.symm.trans hc)
    have hwhole : s.disk.Shows 2 (c'.bytes.take 11) :=
      ⟨c', hcontent, by rw [← hlength, ← Content.length_bytes, List.take_length]⟩
    have hshort := Disk.shows_of_truncate htarget hc (by omega) hcut
    have hfound := hpools 0 p hp hcount
    refine ⟨s, p, cut, hs, hp, hcut, fun buffer => ⟨?_, ?_⟩⟩
    · exact (hread s.disk s.disk p 11 11 buffer hfound hsize (Nat.le_refl _) hwhole hwhole).whole
        (by decide)
    · exact (hread cut cut p 10 10 buffer hfound hsize (Nat.le_refl _) hshort hshort).cut (by decide)
  · cases hrun

end Store

end RecordStore
