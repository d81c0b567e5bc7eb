import RecordStore.Proofs.Image
import RecordStore.Proofs.TwoPhase

/-!
# Reading a record back

A read gives back the record that stands at its offset, wherever the first phase ends. Records that
are added between its phases make no difference.
-/

namespace RecordStore

open Record

/-! ## One record -/

namespace Record

theorem decodeHeader_encode {data : Bytes} (h : data.length ≤ maxLength) :
    decodeHeader (encode data) = some data.length := by
  have hmax : maxLength = 65535 := rfl
  rw [hmax] at h
  simp only [encode, header, List.cons_append, List.nil_append, decodeHeader]
  rw [UInt8.toNat_ofNat', UInt8.toNat_ofNat']
  congr 1
  omega

theorem drop_headerSize_encode (data : Bytes) : (encode data).drop headerSize = data := rfl

theorem headerSize_le_encodedLength (length : Nat) : headerSize ≤ encodedLength length :=
  Nat.le_add_right _ _

end Record

namespace Reader

variable {first second : Disk} {handle : Handle} {data : Bytes} {size i offset : Nat}

theorem oneShot_encode (h : data.length ≤ maxLength) (rest : Bytes) :
    oneShot i offset (encode data ++ rest) = .ok data := by
  rw [oneShot_of_header (decodeHeader_append (decodeHeader_encode h) rest), List.length_append,
    length_encode, if_pos (Nat.le_add_right _ _), ← length_encode, List.take_left,
    drop_headerSize_encode]

/-- A read gives back the record that stands at its offset in both phases. -/
theorem readRecord_stands (hfirst : first.Stands handle.file offset data)
    (hsecond : second.Stands handle.file offset data) (hsize : headerSize ≤ size)
    (hlength : data.length ≤ maxLength) (buffer : Bytes) :
    (readRecord first second size i offset buffer handle).answer = .ok data := by
  obtain ⟨c, hc, rest, hrest⟩ := hfirst
  obtain ⟨c', hc', rest', hrest'⟩ := hsecond
  have hcount : ((c.bytes.drop offset).take size).length =
      min size (encodedLength data.length + rest.length) := by
    rw [← hrest, List.length_take, List.length_append, length_encode]
  have hheader : headerSize ≤ ((c.bytes.drop offset).take size).length := by
    have := headerSize_le_encodedLength data.length
    omega
  rw [(readRecord_of_header hc hc' rfl hheader buffer).1, ← List.drop_drop, ← hrest']
  by_cases hall : encodedLength data.length ≤ size
  · rw [← hrest, List.take_append, List.take_of_length_le (by rw [length_encode]; exact hall),
      List.append_assoc]
    exact oneShot_encode hlength _
  · have hfilled : ((c.bytes.drop offset).take size).length = size := by omega
    rw [hfilled, ← hrest, List.take_append_of_le_length (by rw [length_encode]; omega),
      List.drop_append_of_le_length (by rw [length_encode]; omega), ← List.append_assoc,
      List.take_append_drop]
    exact oneShot_encode hlength rest'

theorem readRecord_end {c : Content} (hc : first.content? handle.file = some c)
    (hend : c.size ≤ offset) (buffer : Bytes) :
    (readRecord first second size i offset buffer handle).answer =
      .error (.corruption i offset (.noHeader 0)) := by
  have hnone : (c.bytes.drop offset).take size = [] := by
    rw [List.drop_eq_nil_of_le (by rw [Content.length_bytes]; exact hend), List.take_nil]
  exact readRecord_of_short hc hnone (by decide) buffer

end Reader

/-! ## Through a pool -/

namespace Pool

variable {first second : Disk} {p : Pool} {a : Address} {slot : Slot}

theorem readBetween_stands {data : Bytes} (hvalid : p.config.Valid)
    (hslot : p.slots[a.fileIndex]? = some slot) (hoffset : Layout.dataStart ≤ a.offset)
    (hfirst : first.Stands slot.file a.offset data)
    (hsecond : second.Stands slot.file a.offset data) (hlength : data.length ≤ maxLength)
    (buffer : Bytes) : (p.readBetween first second a buffer).1 = .ok data := by
  unfold readBetween
  rw [hslot]
  dsimp only
  rw [if_neg (Nat.not_lt_of_le hoffset)]
  exact Reader.readRecord_stands hfirst hsecond (p.config.valid_iff.1 hvalid).2.2 hlength buffer

theorem readBetween_end {c : Content} (hslot : p.slots[a.fileIndex]? = some slot)
    (hoffset : Layout.dataStart ≤ a.offset) (hc : first.content? slot.file = some c)
    (hend : c.size ≤ a.offset) (buffer : Bytes) :
    (p.readBetween first second a buffer).1 =
      .error (.corruption a.fileIndex a.offset (.noHeader 0)) := by
  unfold readBetween
  rw [hslot]
  dsimp only
  rw [if_neg (Nat.not_lt_of_le hoffset)]
  exact Reader.readRecord_end hc hend buffer

end Pool

end RecordStore
