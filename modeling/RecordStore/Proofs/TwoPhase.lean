import RecordStore.Proofs.Directory
import RecordStore.Proofs.Filling

/-!
# Reading in two phases

A read of a regular file answers as if it took the bytes from its offset on out of the file in one
go. Where the first phase ends makes no difference, nor does what is in the buffer or where earlier
reads have left the handle.
-/

namespace RecordStore

open Record

/-! ## Filling a buffer from a regular file -/

namespace Handle

theorem fill_regular {d : Disk} {h : Handle} {c : Content} (hc : d.content? h.file = some c)
    {buffer bs : Bytes} {filled : Nat} (hle : filled ≤ buffer.length)
    (hbs : c.slice h.position (buffer.length - filled) = bs) :
    (h.fill d buffer filled).1.outcome = .ok (filled + bs.length) ∧
      (h.fill d buffer filled).1.buffer =
        buffer.take filled ++ bs ++ buffer.drop (filled + bs.length) ∧
      (h.fill d buffer filled).2 = { h with position := h.position + bs.length } := by
  have hroom : bs.length ≤ buffer.length - filled := by
    rw [← hbs, Content.slice_eq]
    exact List.length_take_le _ _
  have hdeliveries : h.deliveries d (buffer.length - filled) = [.piece bs] := by
    rw [deliveries, Disk.content?_eq_some.1 hc, ← hbs]
  have htakes : Fill.Takes buffer filled [.piece bs] (Fill.run buffer filled [.piece bs]) :=
    Fill.takes_run hle
  obtain ⟨hstream, hfailure⟩ := Delivery.stream_singleton bs
  have houtcome := htakes.ended (.inl hfailure)
  have hbuffer := htakes.buffer_eq
  rw [hstream, Nat.min_eq_right (by omega)] at houtcome
  rw [hstream, List.take_of_length_le hroom] at hbuffer
  unfold fill
  rw [hdeliveries]
  dsimp only
  rw [houtcome]
  exact ⟨houtcome, hbuffer, by simp⟩

end Handle

namespace Record

theorem decodeHeader_eq_none {b : Bytes} : decodeHeader b = none ↔ b.length < headerSize := by
  match b with
  | [] => simp [decodeHeader, headerSize]
  | [_] => simp [decodeHeader, headerSize]
  | _ :: _ :: rest => simp [decodeHeader, headerSize]

theorem decodeHeader_append {b : Bytes} {length : Nat} (h : decodeHeader b = some length)
    (rest : Bytes) : decodeHeader (b ++ rest) = some length := by
  match b, h with
  | _ :: _ :: _, h => exact h

end Record

/-! ## The answer in one go -/

namespace Reader

variable {first second : Disk} {handle : Handle} {size i offset : Nat}

/-- What a reader answers who has all bytes from the offset to the end of the file. -/
def oneShot (fileIndex offset : Nat) : Bytes → Except Error Bytes
  | low :: high :: rest =>
    let length := low.toNat + 256 * high.toNat
    if length ≤ rest.length then .ok (rest.take length)
    else .error (.corruption fileIndex offset (.truncated length))
  | short => .error (.corruption fileIndex offset (.noHeader short.length))

theorem oneShot_of_short {b : Bytes} (h : b.length < headerSize) :
    oneShot i offset b = .error (.corruption i offset (.noHeader b.length)) := by
  match b, h with
  | [], _ => rfl
  | [_], _ => rfl

theorem oneShot_of_header {b : Bytes} {length : Nat} (h : decodeHeader b = some length) :
    oneShot i offset b =
      if encodedLength length ≤ b.length then .ok ((b.take (encodedLength length)).drop headerSize)
      else .error (.corruption i offset (.truncated length)) := by
  match b, h with
  | low :: high :: rest, h =>
    obtain rfl := Option.some.inj h
    have hall : encodedLength (low.toNat + 256 * high.toNat) ≤ (low :: high :: rest).length ↔
        low.toNat + 256 * high.toNat ≤ rest.length := by
      simp only [encodedLength, headerSize, List.length_cons]
      omega
    simp only [oneShot, hall]
    rw [encodedLength, headerSize, Nat.add_comm 2]
    rfl

theorem oneShot_ok {b data : Bytes} (h : oneShot i offset b = .ok data) :
    decodeHeader b = some data.length ∧ encodedLength data.length ≤ b.length := by
  cases hheader : decodeHeader b with
  | none =>
    rw [oneShot_of_short (decodeHeader_eq_none.1 hheader)] at h
    cases h
  | some length =>
    rw [oneShot_of_header hheader] at h
    split at h
    · rename_i hall
      have hlength : data.length = length := by
        rw [← Except.ok.inj h]
        simp only [List.length_drop, List.length_take, encodedLength] at hall ⊢
        omega
      rw [hlength]
      exact ⟨rfl, hall⟩
    · cases h

/-! ## The two phases -/

theorem first_phase (second : Disk) (i : Nat) {c : Content} (hc : first.content? handle.file = some c)
    {bs : Bytes} (hbs : (c.bytes.drop offset).take size = bs) :
    ∃ buffer, buffer.take bs.length = bs ∧ buffer.length = size ∧
      ∀ old, readRecord first second size i offset old handle =
        match decodeHeader bs with
        | none => ⟨.error (.corruption i offset (.noHeader bs.length)), buffer,
            { handle with position := offset + bs.length }⟩
        | some length =>
          if encodedLength length ≤ bs.length then
            ⟨.ok ((buffer.take (encodedLength length)).drop headerSize), buffer,
              { handle with position := offset + bs.length }⟩
          else
            readRest second i offset length bs.length (encodedLength length) buffer
              { handle with position := offset + bs.length } := by
  let blank : Bytes := List.replicate size 0
  have hslice : c.slice offset (blank.length - 0) = bs := by
    rw [Content.slice_eq, Nat.sub_zero, List.length_replicate, hbs]
  have hroom : bs.length ≤ size := by
    rw [← hbs]
    exact List.length_take_le _ _
  obtain ⟨houtcome, hresult, hmoved⟩ :=
    Handle.fill_regular (h := { handle with position := offset }) hc (Nat.zero_le _) hslice
  rw [Nat.zero_add] at houtcome hresult
  refine ⟨bs ++ blank.drop bs.length, by simp, ?_, fun old => ?_⟩
  · rw [List.length_append, List.length_drop, List.length_replicate]
    omega
  · have hseek : handle.seek first offset = .ok { handle with position := offset } := by
      rw [Handle.seek, Disk.content?_eq_some.1 hc]
    have hblank : resize size (old.take 0) = blank := by simp [resize, blank]
    have htake : (bs ++ blank.drop bs.length).take bs.length = bs := by simp
    unfold readRecord
    rw [hseek, hblank]
    dsimp only
    rw [houtcome, hresult, hmoved]
    rw [List.take_zero, List.nil_append]
    dsimp only
    cases hheader : decodeHeader bs with
    | none => simp only [htake, hheader]
    | some length => simp only [htake, hheader]

/-- The second phase fetches what the header says is missing, and reads on where the first ended. -/
theorem readRest_regular {buffer got : Bytes} {length : Nat} {c : Content}
    (hpos : handle.position = offset + got.length) (hc : second.content? handle.file = some c)
    (hheader : decodeHeader got = some length) (hmore : got.length < encodedLength length)
    (hbuffer : buffer.take got.length = got) (hroom : got.length ≤ buffer.length) :
    (readRest second i offset length got.length (encodedLength length) buffer handle).answer =
        oneShot i offset (got ++ c.bytes.drop (offset + got.length)) ∧
      (readRest second i offset length got.length (encodedLength length) buffer
        handle).buffer.length = encodedLength length := by
  generalize htail : c.bytes.drop (offset + got.length) = tail
  generalize hstop : encodedLength length = stop at hmore
  have hsize : (resize stop buffer).length = stop := by
    simp only [resize, List.length_append, List.length_take, List.length_replicate]
    omega
  have hkept : (resize stop buffer).take got.length = got := by
    rw [resize, List.take_append_of_le_length (by simp; omega), List.take_take,
      Nat.min_eq_left (Nat.le_of_lt hmore), hbuffer]
  have hslice : c.slice handle.position ((resize stop buffer).length - got.length) =
      tail.take (stop - got.length) := by
    rw [Content.slice_eq, hpos, hsize, htail]
  obtain ⟨houtcome, hresult, -⟩ :=
    handle.fill_regular hc (by rw [hsize]; exact Nat.le_of_lt hmore) hslice
  rw [hkept] at hresult
  have hpiece : (tail.take (stop - got.length)).length = min (stop - got.length) tail.length :=
    List.length_take
  have hlength : (got ++ tail.take (stop - got.length) ++
      (resize stop buffer).drop (got.length + (tail.take (stop - got.length)).length)).length = stop := by
    rw [List.length_append, List.length_append, List.length_drop, hsize, hpiece]
    omega
  have hone : oneShot i offset (got ++ tail) = _ :=
    oneShot_of_header (decodeHeader_append hheader tail)
  rw [hstop, List.length_append] at hone
  unfold readRest
  simp only [houtcome, hresult]
  by_cases hall : stop ≤ got.length + tail.length
  · have henough : ¬ got.length + (tail.take (stop - got.length)).length < stop := by omega
    rw [hone, if_pos hall, if_neg henough]
    have hdrop : (resize stop buffer).drop (got.length + (tail.take (stop - got.length)).length) = [] :=
      List.drop_eq_nil_of_le (by omega)
    have hrecord : (got ++ tail).take stop = got ++ tail.take (stop - got.length) := by
      rw [List.take_append, List.take_of_length_le (Nat.le_of_lt hmore)]
    refine ⟨?_, hlength⟩
    rw [hdrop, List.append_nil, List.take_of_length_le (by simp; omega), hrecord]
  · have hshort : got.length + (tail.take (stop - got.length)).length < stop := by omega
    rw [hone, if_neg hall, if_pos hshort]
    exact ⟨rfl, hlength⟩

theorem readRecord_of_short {c : Content} {got : Bytes} (hc : first.content? handle.file = some c)
    (hgot : (c.bytes.drop offset).take size = got) (hshort : got.length < headerSize)
    (buffer : Bytes) :
    (readRecord first second size i offset buffer handle).answer = oneShot i offset got := by
  obtain ⟨filled, -, -, hread⟩ := first_phase second i hc hgot
  rw [hread, decodeHeader_eq_none.2 hshort, oneShot_of_short hshort]

theorem readRecord_of_header {c c' : Content} {got : Bytes}
    (hc : first.content? handle.file = some c) (hc' : second.content? handle.file = some c')
    (hgot : (c.bytes.drop offset).take size = got) (hheader : headerSize ≤ got.length)
    (buffer : Bytes) :
    (readRecord first second size i offset buffer handle).answer =
        oneShot i offset (got ++ c'.bytes.drop (offset + got.length)) ∧
      ∀ data, (readRecord first second size i offset buffer handle).answer = .ok data →
        (readRecord first second size i offset buffer handle).buffer.length =
          if encodedLength data.length ≤ got.length then size else encodedLength data.length := by
  obtain ⟨filled, htake, hsize, hread⟩ := first_phase second i hc hgot
  obtain ⟨length, hlength⟩ := Option.ne_none_iff_exists'.1 fun hnone =>
    Nat.not_lt_of_le hheader (decodeHeader_eq_none.1 hnone)
  have hroom : got.length ≤ filled.length := by
    rw [hsize, ← hgot]
    exact List.length_take_le _ _
  generalize htail : c'.bytes.drop (offset + got.length) = tail
  have hone : oneShot i offset (got ++ tail) = _ :=
    oneShot_of_header (decodeHeader_append hlength tail)
  have hdata : ∀ data, oneShot i offset (got ++ tail) = .ok data → data.length = length := by
    intro data hok
    have := (oneShot_ok hok).1
    rw [decodeHeader_append hlength] at this
    exact (Option.some.inj this).symm
  rw [hread, hlength]
  dsimp only
  split
  · rename_i hall
    have hrecord : filled.take (encodedLength length) = (got ++ tail).take (encodedLength length) := by
      rw [List.take_append_of_le_length hall, ← Nat.min_eq_left hall, ← List.take_take, htake,
        Nat.min_eq_left hall]
    have hanswer : Except.ok ((filled.take (encodedLength length)).drop headerSize) =
        oneShot i offset (got ++ tail) := by
      rw [hone, hrecord, if_pos (by rw [List.length_append]; omega)]
    refine ⟨hanswer, fun data hok => ?_⟩
    rw [hdata data (hanswer.symm.trans hok), if_pos hall]
    exact hsize
  · rename_i hmore
    have hpos : ({ handle with position := offset + got.length } : Handle).position =
      offset + got.length := rfl
    obtain ⟨hanswer, hbuffer⟩ := readRest_regular (i := i) hpos hc' hlength
      (Nat.lt_of_not_le hmore) htake hroom
    rw [htail] at hanswer
    refine ⟨hanswer, fun data hok => ?_⟩
    rw [hdata data (hanswer.symm.trans hok), if_neg hmore]
    exact hbuffer

theorem take_append_drop_length {α : Type} (l : List α) (n k : Nat) :
    (l.drop k).take n ++ l.drop (k + ((l.drop k).take n).length) = l.drop k := by
  rw [← List.drop_drop]
  exact List.prefix_iff_eq_append.1 (List.take_prefix _ _)

/-- On a disk that stays as it is, two phases answer like one. -/
theorem readRecord_regular {c : Content} (hc : first.content? handle.file = some c)
    (hsize : headerSize ≤ size) (buffer : Bytes) :
    (readRecord first first size i offset buffer handle).answer =
        oneShot i offset (c.bytes.drop offset) ∧
      ∀ data, (readRecord first first size i offset buffer handle).answer = .ok data →
        (readRecord first first size i offset buffer handle).buffer.length =
          max size (encodedLength data.length) := by
  by_cases hshort : ((c.bytes.drop offset).take size).length < headerSize
  · have hanswer : (readRecord first first size i offset buffer handle).answer = _ :=
      readRecord_of_short hc rfl hshort buffer
    have hall : (c.bytes.drop offset).take size = c.bytes.drop offset := by
      rw [List.length_take] at hshort
      exact List.take_of_length_le (by omega)
    rw [hall] at hanswer hshort
    refine ⟨hanswer, fun data hok => ?_⟩
    rw [hanswer, oneShot_of_short hshort] at hok
    cases hok
  · obtain ⟨hanswer, hbuffer⟩ := readRecord_of_header (i := i) hc hc rfl (Nat.le_of_not_lt hshort) buffer
    rw [take_append_drop_length] at hanswer
    refine ⟨hanswer, fun data hok => ?_⟩
    have hwhole := (oneShot_ok (hanswer.symm.trans hok)).2
    rw [hbuffer data hok, List.length_take]
    split <;> omega

theorem oneShot_ne_refused (b : Bytes) (refusal : Refusal) :
    oneShot i offset b ≠ .error (.invalidArgument refusal) := by
  intro h
  cases hheader : decodeHeader b with
  | none =>
    rw [oneShot_of_short (decodeHeader_eq_none.1 hheader)] at h
    cases h
  | some length =>
    rw [oneShot_of_header hheader] at h
    split at h <;> cases h

end Reader

/-! ## Through a pool -/

namespace Pool

variable {p q : Pool} {d : Disk} {files : List Bytes} {a : Address}

def Holds (p : Pool) (d : Disk) (files : List Bytes) : Prop :=
  p.files.map (fun f => (d.content? f).map Content.bytes) = files.map some

/-- What a reader answers who has all bytes of all files. -/
def oneShot (files : List Bytes) (a : Address) : Except Error Bytes :=
  match files[a.fileIndex]? with
  | none => .error (.invalidArgument (.unknownFile a files.length))
  | some bytes =>
    if a.offset < Layout.dataStart then .error (.invalidArgument (.insideHeader a))
    else Reader.oneShot a.fileIndex a.offset (bytes.drop a.offset)

theorem oneShot_refuses :
    (∃ refusal, oneShot files a = .error (.invalidArgument refusal)) ↔
      files.length ≤ a.fileIndex ∨ a.offset < Layout.dataStart := by
  unfold oneShot
  split
  · rename_i hnone
    exact ⟨fun _ => .inl (List.getElem?_eq_none_iff.1 hnone), fun _ => ⟨_, rfl⟩⟩
  · rename_i bytes hbytes
    have hlt := (List.getElem?_eq_some_iff.1 hbytes).1
    split
    · rename_i hheader
      exact ⟨fun _ => .inr hheader, fun _ => ⟨_, rfl⟩⟩
    · rename_i hdata
      constructor
      · rintro ⟨refusal, h⟩
        exact absurd h (Reader.oneShot_ne_refused _ refusal)
      · rintro (hout | hheader)
        · exact absurd hlt (Nat.not_lt_of_le hout)
        · exact absurd hheader hdata

theorem Holds.like (h : p.Holds d files) (hlike : p.Like q) : q.Holds d files := by
  unfold Holds
  rw [hlike.files]
  exact h

theorem Holds.fileCount (h : p.Holds d files) : p.fileCount = files.length := by
  simpa [Holds, Pool.files, Pool.fileCount] using congrArg List.length h

theorem Holds.content (h : p.Holds d files) {i : Nat} {slot : Slot} (hslot : p.slots[i]? = some slot) :
    ∃ c, d.content? slot.file = some c ∧ files[i]? = some c.bytes := by
  have hat := congrArg (·[i]?) h
  simp only [Pool.files, List.getElem?_map, hslot, Option.map_some] at hat
  obtain ⟨bytes, hbytes, hsome⟩ := Option.map_eq_some_iff.1 hat.symm
  obtain ⟨c, hc, rfl⟩ := Option.map_eq_some_iff.1 hsome.symm
  exact ⟨c, hc, hbytes⟩

theorem readBetween_like (first second : Disk) (p : Pool) (a : Address) (buffer : Bytes) :
    p.Like (p.readBetween first second a buffer).2.2 := by
  rcases Store.readBetween_pool first second p a buffer with h | ⟨slot, n, hslot, h⟩
  · rw [h]
    exact .refl p
  · rw [h]
    exact (Move.read (d := first) hslot).like

theorem read_eq_oneShot (hfiles : p.Holds d files) (hsize : headerSize ≤ p.config.firstReadSize.toNat)
    (buffer : Bytes) :
    (p.read d a buffer).1 = oneShot files a ∧
      ∀ data, (p.read d a buffer).1 = .ok data →
        (p.read d a buffer).2.1.length =
          max p.config.firstReadSize.toNat (encodedLength data.length) := by
  unfold read readBetween oneShot
  cases hslot : p.slots[a.fileIndex]? with
  | none =>
    have hout : files.length ≤ a.fileIndex := by
      rw [← hfiles.fileCount]
      exact List.getElem?_eq_none_iff.1 hslot
    rw [List.getElem?_eq_none hout]
    dsimp only
    exact ⟨by rw [hfiles.fileCount], fun data h => by cases h⟩
  | some slot =>
    obtain ⟨c, hc, hbytes⟩ := hfiles.content hslot
    rw [hbytes]
    dsimp only
    by_cases hheader : a.offset < Layout.dataStart
    · rw [if_pos hheader, if_pos hheader]
      exact ⟨rfl, fun data h => by cases h⟩
    · rw [if_neg hheader, if_neg hheader]
      exact Reader.readRecord_regular hc hsize buffer

end Pool

namespace Store

variable {s : Store} {id : PoolId} {p : Pool} {files : List Bytes}

theorem read_keeps (s : Store) (id : PoolId) (a : Address) (buffer : Bytes) {j : PoolId} {p : Pool}
    (hp : s.pools[j]? = some p) :
    (s.read id a buffer).2.2.disk = s.disk ∧
      ∃ q, (s.read id a buffer).2.2.pools[j]? = some q ∧ p.Like q := by
  unfold read
  split
  · rename_i r hr
    refine ⟨rfl, ?_⟩
    show ∃ q, (s.pools.set id (r.readBetween s.disk s.disk a buffer).2.2)[j]? = some q ∧ p.Like q
    by_cases hj : id = j
    · subst hj
      obtain rfl := Option.some.inj (hr.symm.trans hp)
      refine ⟨_, ?_, r.readBetween_like s.disk s.disk a buffer⟩
      rw [List.getElem?_set_self (List.getElem?_eq_some_iff.1 hp).1]
    · exact ⟨p, by rw [List.getElem?_set_ne hj]; exact hp, .refl p⟩
  · exact ⟨rfl, p, hp, .refl p⟩

def afterReads (s : Store) (reads : List (PoolId × Address × Bytes)) : Store :=
  reads.foldl (fun s r => (s.read r.1 r.2.1 r.2.2).2.2) s

theorem afterReads_keeps (reads : List (PoolId × Address × Bytes)) (hp : s.pools[id]? = some p)
    (hfiles : p.Holds s.disk files) :
    ∃ q, (s.afterReads reads).pools[id]? = some q ∧ q.Holds (s.afterReads reads).disk files ∧
      q.config = p.config := by
  induction reads generalizing s p with
  | nil => exact ⟨p, hp, hfiles, rfl⟩
  | cons r reads ih =>
    obtain ⟨hdisk, q, hq, hlike⟩ := s.read_keeps r.1 r.2.1 r.2.2 hp
    obtain ⟨q', hq', hholds, hconfig⟩ := ih hq (by rw [hdisk]; exact hfiles.like hlike)
    exact ⟨q', hq', hholds, hconfig.trans hlike.config⟩

/-- A read in two phases answers as a read of the whole file in one go would. So the answer depends
on the files and the address alone, not on the size of the first phase, the buffer or earlier reads.
It refuses an address exactly when there is no such file or the offset lies in the file header. -/
theorem read_in_one_go {a : Address} (hp : s.pools[id]? = some p) (hfiles : p.Holds s.disk files)
    (hsize : headerSize ≤ p.config.firstReadSize.toNat) (reads : List (PoolId × Address × Bytes))
    (buffer : Bytes) :
    ((s.afterReads reads).read id a buffer).1 = Pool.oneShot files a ∧
      ((s.afterReads reads).readRecord id a).1 = Pool.oneShot files a ∧
      ((∃ refusal, ((s.afterReads reads).read id a buffer).1 = .error (.invalidArgument refusal)) ↔
        files.length ≤ a.fileIndex ∨ a.offset < Layout.dataStart) ∧
      ∀ data, ((s.afterReads reads).read id a buffer).1 = .ok data →
        ((s.afterReads reads).read id a buffer).2.1.length =
          max p.config.firstReadSize.toNat (encodedLength data.length) := by
  obtain ⟨q, hq, hholds, hconfig⟩ := afterReads_keeps reads hp hfiles
  generalize s.afterReads reads = t at hq hholds
  rw [← hconfig] at hsize ⊢
  have hread : ∀ buffer, (t.read id a buffer).1 = (q.read t.disk a buffer).1 ∧
      (t.read id a buffer).2.1 = (q.read t.disk a buffer).2.1 := by
    intro buffer
    unfold read
    rw [hq]
    exact ⟨rfl, rfl⟩
  have hanswer : ∀ buffer, (t.read id a buffer).1 = Pool.oneShot files a := fun buffer =>
    (hread buffer).1.trans (Pool.read_eq_oneShot hholds hsize buffer).1
  refine ⟨hanswer buffer, hanswer [], ?_, fun data hok => ?_⟩
  · rw [hanswer]
    exact Pool.oneShot_refuses
  · rw [(hread buffer).2]
    exact (Pool.read_eq_oneShot hholds hsize buffer).2 data ((hread buffer).1.symm.trans hok)

/-- A file with one record, and a pool whose first phase fetches no more than a header. -/
def headerReads : Store where
  disk := ⟨[.regular (.ofBytes (Layout.magic ++ [2, 0, 7, 9]))]⟩
  pools := [{
    path := "db", config := { fileCount := 1, firstReadSize := 2 }, lockFile := 1
    slots := [⟨0, 12, 0⟩], available := [true] }]

theorem read_in_one_go_headerReads :
    ((headerReads.afterReads [(0, .null, []), (0, .ofParts 0 9, [5])]).read 0 (.ofParts 0 8) [3]).1 =
      .ok [7, 9] :=
  (read_in_one_go rfl (by rfl : Pool.Holds _ _ [Layout.magic ++ [2, 0, 7, 9]]) (by decide) _ _).1.trans
    (by decide)

end Store

end RecordStore
