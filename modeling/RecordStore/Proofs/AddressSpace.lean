import Mathlib.Algebra.Order.BigOperators.Group.List
import Mathlib.Algebra.Order.Ring.Nat
import Mathlib.Data.Prod.Lex
import RecordStore.Proofs.Growth

/-!
# The space of addresses

Each word is the address of one place, which is a file index and an offset that fit their fields, and
addresses are in the order of their places. A move keeps the file and adds to the offset, or is
refused when the field is too small for the sum: moves one after the other are a single move by their
sum.
-/

namespace RecordStore.Address

variable {a b : Address} {i n : Nat}

/-! ## Addresses and places -/

theorem raw_eq (a : Address) : a.raw.toNat = a.fileIndex * offsetLimit + a.offset := by
  unfold fileIndex offset
  rw [Nat.mul_comm, Nat.div_add_mod]

theorem fileIndex_lt (a : Address) : a.fileIndex < maxFileIndex := by
  have hraw := a.raw.toNat_lt
  rw [fileIndex, maxFileIndex_eq, offsetLimit_eq]
  omega

theorem offset_le (a : Address) : a.offset ≤ offsetMask := by
  rw [offset, offsetMask_eq, offsetLimit_eq]
  omega

theorem ofParts_parts (a : Address) : ofParts a.fileIndex a.offset = a := by
  rw [ofParts, ← raw_eq, UInt64.ofNat_toNat]

theorem encode_eq_ok_iff : encode i n = .ok a ↔ a.fileIndex = i ∧ a.offset = n := by
  constructor
  · intro h
    obtain ⟨hi, hn, rfl⟩ := encode_ok h
    exact ⟨fileIndex_ofParts hi hn, offset_ofParts hi hn⟩
  · rintro ⟨rfl, rfl⟩
    rw [encode, if_neg (Nat.not_le_of_lt a.fileIndex_lt), if_neg (Nat.not_lt_of_le a.offset_le),
      ofParts_parts]

theorem exists_encode_iff : (∃ a, encode i n = .ok a) ↔ i < maxFileIndex ∧ n ≤ offsetMask := by
  constructor
  · rintro ⟨a, h⟩
    obtain ⟨rfl, rfl⟩ := encode_eq_ok_iff.1 h
    exact ⟨a.fileIndex_lt, a.offset_le⟩
  · rintro ⟨hi, hn⟩
    exact ⟨ofParts i n, encode_eq_ok_iff.2 ⟨fileIndex_ofParts hi hn, offset_ofParts hi hn⟩⟩

theorem lt_iff : a < b ↔
    a.fileIndex < b.fileIndex ∨ a.fileIndex = b.fileIndex ∧ a.offset < b.offset := by
  have ha := a.offset_le
  have hb := b.offset_le
  show a.raw < b.raw ↔ _
  rw [UInt64.lt_iff_toNat_lt, raw_eq, raw_eq, offsetLimit_eq]
  rw [offsetMask_eq] at ha hb
  omega

/-! ## The fields of the word -/

theorem raw_eq_or (a : Address) :
    a.raw = UInt64.ofNat a.fileIndex <<< 50 ||| UInt64.ofNat a.offset := by
  have hi := a.fileIndex_lt
  have hn := a.offset_le
  rw [maxFileIndex_eq] at hi
  rw [offsetMask_eq] at hn
  have hword : a.fileIndex <<< 50 < 2 ^ 64 := by
    rw [Nat.shiftLeft_eq]
    omega
  have hhigh : (UInt64.ofNat a.fileIndex <<< 50).toNat = a.fileIndex <<< 50 := by
    rw [UInt64.toNat_shiftLeft, UInt64.toNat_ofNat_of_lt' (by rw [UInt64.size]; omega)]
    exact Nat.mod_eq_of_lt hword
  have hlow : (UInt64.ofNat a.offset).toNat = a.offset :=
    UInt64.toNat_ofNat_of_lt' (by rw [UInt64.size]; omega)
  -- the offset stays below the bits that the shift has cleared, so the fields add up without a carry
  rw [← UInt64.toNat_inj, UInt64.toNat_or, hhigh, hlow,
    ← Nat.shiftLeft_add_eq_or_of_lt (by omega), Nat.shiftLeft_eq, raw_eq, offsetLimit_eq]

theorem fileIndex_eq_shift (a : Address) : a.fileIndex = (a.raw >>> 50).toNat := by
  rw [UInt64.toNat_shiftRight, Nat.shiftRight_eq_div_pow, fileIndex, offsetLimit_eq]
  rfl

theorem offset_eq_and (a : Address) : a.offset = (a.raw &&& UInt64.ofNat offsetMask).toNat := by
  have hmask : (UInt64.ofNat offsetMask).toNat = 2 ^ 50 - 1 := rfl
  rw [UInt64.toNat_and, hmask, Nat.and_two_pow_sub_one_eq_mod, offset, offsetLimit_eq]

/-- Places that fit are encoded, in their order, as the addresses that decode to them, and these are
all addresses. Encoding puts the two fields side by side, and decoding cuts them apart. -/
theorem codec_order_isomorphism :
    (∀ i n, (∃ a, encode i n = .ok a) ↔ i < 2 ^ 14 ∧ n < 2 ^ 50) ∧
    (∀ i n a, encode i n = .ok a → a.fileIndex = i ∧ a.offset = n ∧
      a.raw = UInt64.ofNat i <<< 50 ||| UInt64.ofNat n) ∧
    (∀ a : Address, a.fileIndex < 2 ^ 14 ∧ a.offset < 2 ^ 50 ∧
      encode a.fileIndex a.offset = .ok a ∧
      a.fileIndex = (a.raw >>> 50).toNat ∧ a.offset = (a.raw &&& UInt64.ofNat offsetMask).toNat) ∧
    (∀ i n j m a b, encode i n = .ok a → encode j m = .ok b →
      (a < b ↔ toLex (i, n) < toLex (j, m))) := by
  have hindices : maxFileIndex = 2 ^ 14 := rfl
  have hoffsets : ∀ n, n ≤ offsetMask ↔ n < 2 ^ 50 := by
    intro n
    rw [offsetMask_eq]
    omega
  refine ⟨fun i n => ?_, fun i n a h => ?_, fun a => ?_, fun i n j m a b ha hb => ?_⟩
  · rw [exists_encode_iff, hindices, hoffsets]
  · obtain ⟨rfl, rfl⟩ := encode_eq_ok_iff.1 h
    exact ⟨rfl, rfl, a.raw_eq_or⟩
  · exact ⟨hindices ▸ a.fileIndex_lt, (hoffsets _).1 a.offset_le, encode_eq_ok_iff.2 ⟨rfl, rfl⟩,
      a.fileIndex_eq_shift, a.offset_eq_and⟩
  · obtain ⟨rfl, rfl⟩ := encode_eq_ok_iff.1 ha
    obtain ⟨rfl, rfl⟩ := encode_eq_ok_iff.1 hb
    rw [lt_iff, Prod.Lex.toLex_lt_toLex]

/-! ## Moves within a file -/

/-- A move by a 64-bit distance, as callers see it: what is out of reach is an invalid argument. -/
def move (a : Address) (delta : UInt64) : Except Error Address :=
  (a.offsetBy delta.toNat).mapError (.invalidArgument <| .address ·)

/-- Moves one after the other, up to the first that is refused. -/
def moves (a : Address) (deltas : List UInt64) : Except Error Address := deltas.foldlM move a

def distance (deltas : List UInt64) : Nat := (deltas.map UInt64.toNat).sum

/-- What is wrong with an offset that no address has. -/
def tooFar (offset : Nat) : Fault :=
  if UInt64.size ≤ offset then .offsetOverflow else .offsetTooLarge offset

variable {delta m : UInt64} {deltas : List UInt64} {e : Error}

theorem offsetBy_of_room (h : a.offset + n ≤ offsetMask) :
    a.offsetBy n = .ok (ofParts a.fileIndex (a.offset + n)) := by
  have hmove := offsetBy_ofParts a.fileIndex_lt h
  rwa [ofParts_parts] at hmove

theorem offsetBy_of_tooFar (h : offsetMask < a.offset + n) :
    a.offsetBy n = .error (tooFar (a.offset + n)) := by
  unfold offsetBy tooFar
  split
  · rfl
  · rw [encode, if_neg (Nat.not_le_of_lt a.fileIndex_lt), if_pos h]

theorem move_eq (a : Address) (delta : UInt64) : a.move delta =
    if a.offset + delta.toNat ≤ offsetMask then
      .ok (ofParts a.fileIndex (a.offset + delta.toNat))
    else .error (.invalidArgument (.address (tooFar (a.offset + delta.toNat)))) := by
  unfold move
  split
  · rename_i hroom
    rw [offsetBy_of_room hroom]
    rfl
  · rename_i hfar
    rw [offsetBy_of_tooFar (Nat.lt_of_not_le hfar)]
    rfl

theorem move_eq_ok_iff : a.move delta = .ok b ↔
    a.offset + delta.toNat ≤ offsetMask ∧ b = ofParts a.fileIndex (a.offset + delta.toNat) := by
  rw [move_eq]
  split
  · rename_i hroom
    simp [hroom, eq_comm]
  · rename_i hfar
    simp [hfar]

theorem move_eq_error_iff : a.move delta = .error e ↔ offsetMask < a.offset + delta.toNat ∧
    e = .invalidArgument (.address (tooFar (a.offset + delta.toNat))) := by
  rw [move_eq]
  split
  · rename_i hroom
    simp [Nat.not_lt_of_le hroom]
  · rename_i hfar
    simp [Nat.lt_of_not_le hfar, eq_comm]

theorem raw_of_room (h : a.offset + n ≤ offsetMask) :
    (ofParts a.fileIndex (a.offset + n)).raw.toNat = a.raw.toNat + n := by
  rw [toNat_ofParts a.fileIndex_lt h, raw_eq, Nat.add_assoc]

theorem moves_cons (a : Address) (delta : UInt64) (rest : List UInt64) :
    a.moves (delta :: rest) = a.move delta >>= (·.moves rest) := rfl

theorem moves_eq_ok_iff : a.moves deltas = .ok b ↔
    a.offset + distance deltas ≤ offsetMask ∧
      b = ofParts a.fileIndex (a.offset + distance deltas) := by
  induction deltas generalizing a with
  | nil =>
    have hhere : a.moves [] = .ok a := rfl
    simp only [hhere, distance, List.map_nil, List.sum_nil, Nat.add_zero, ofParts_parts,
      a.offset_le, true_and, Except.ok.injEq, eq_comm]
  | cons delta rest ih =>
    have hsum : a.offset + distance (delta :: rest) =
        a.offset + delta.toNat + distance rest := by
      simp [distance, Nat.add_assoc]
    rw [moves_cons, bind_eq_ok, hsum]
    constructor
    · rintro ⟨c, hfirst, hrest⟩
      obtain ⟨hroom, rfl⟩ := move_eq_ok_iff.1 hfirst
      rwa [ih, offset_ofParts a.fileIndex_lt hroom, fileIndex_ofParts a.fileIndex_lt hroom] at hrest
    · intro h
      have hroom : a.offset + delta.toNat ≤ offsetMask := Nat.le_trans (Nat.le_add_right _ _) h.1
      refine ⟨_, move_eq_ok_iff.2 ⟨hroom, rfl⟩, ?_⟩
      rwa [ih, offset_ofParts a.fileIndex_lt hroom, fileIndex_ofParts a.fileIndex_lt hroom]

theorem moves_perm {others : List UInt64} (hperm : deltas.Perm others) :
    a.moves deltas = .ok b ↔ a.moves others = .ok b := by
  have hsum : distance deltas = distance others := (hperm.map UInt64.toNat).sum_eq
  rw [moves_eq_ok_iff, moves_eq_ok_iff, hsum]

theorem move_iff_moves (hsum : delta.toNat = distance deltas) :
    a.move delta = .ok b ↔ a.moves deltas = .ok b := by
  rw [move_eq_ok_iff, moves_eq_ok_iff, hsum]

theorem distance_lt (h : a.moves deltas = .ok b) : distance deltas < 2 ^ 64 := by
  have hroom := (moves_eq_ok_iff.1 h).1
  rw [offsetMask_eq] at hroom
  omega

theorem moves_error (h : a.moves deltas = .error e) :
    ∃ fault, e = .invalidArgument (.address fault) := by
  induction deltas generalizing a with
  | nil => cases h
  | cons delta rest ih =>
    rw [moves_cons] at h
    rcases bind_eq_error.1 h with hfirst | ⟨b, -, hrest⟩
    · exact ⟨_, (move_eq_error_iff.1 hfirst).2⟩
    · exact ih hrest

theorem moves_pair (a : Address) (m n : UInt64) :
    a.moves [m, n] = (a.move m >>= fun b => b.move n) := by
  simp [moves, List.foldlM_cons]

theorem of_move (h : a.move delta = .ok b) :
    b.fileIndex = a.fileIndex ∧ b.offset = a.offset + delta.toNat ∧
      b.raw.toNat = a.raw.toNat + delta.toNat ∧ a ≤ b := by
  obtain ⟨hroom, rfl⟩ := move_eq_ok_iff.1 h
  have hraw := raw_of_room hroom
  refine ⟨fileIndex_ofParts a.fileIndex_lt hroom, offset_ofParts a.fileIndex_lt hroom, hraw, ?_⟩
  show a.raw ≤ _
  rw [UInt64.le_iff_toNat_le, hraw]
  exact Nat.le_add_right _ _

/-- A move succeeds exactly when the offset field has room for the sum, and then adds the distance to
the offset and to the word. Two moves are one move by the sum of their distances, and can be made in
either order. Else the argument is refused, for leaving 64 bits or for leaving the field. -/
theorem move_action (a : Address) (m n : UInt64) :
    ((∃ b, a.move m = .ok b) ↔ a.offset + m.toNat ≤ offsetMask) ∧
    (∀ b, a.move m = .ok b → b.fileIndex = a.fileIndex ∧ b.offset = a.offset + m.toNat ∧
      b.raw.toNat = a.raw.toNat + m.toNat ∧ a ≤ b) ∧
    ((∃ c, (a.move m >>= fun b => b.move n) = .ok c) ↔
      a.offset + m.toNat + n.toNat ≤ offsetMask) ∧
    (∀ c, (a.move m >>= fun b => b.move n) = .ok c →
      (m + n).toNat = m.toNat + n.toNat ∧ a.move (m + n) = .ok c ∧
        (a.move n >>= fun b => b.move m) = .ok c) ∧
    (∀ e, a.move m = .error e → offsetMask < a.offset + m.toNat ∧
      e = .invalidArgument (.address (tooFar (a.offset + m.toNat)))) ∧
    (∀ e, (a.move m >>= fun b => b.move n) = .error e →
      ∃ fault, e = .invalidArgument (.address fault)) := by
  have hsum : distance [m, n] = m.toNat + n.toNat := by simp [distance]
  simp only [← moves_pair]
  refine ⟨?_, fun b => of_move, ?_, fun c h => ?_, fun e => move_eq_error_iff.1, fun e => moves_error⟩
  · simp only [move_eq_ok_iff, exists_and_left, exists_eq, and_true]
  · simp only [moves_eq_ok_iff, hsum, exists_and_left, exists_eq, and_true, Nat.add_assoc]
  · have hword : (m + n).toNat = m.toNat + n.toNat := by
      rw [UInt64.toNat_add, ← hsum, Nat.mod_eq_of_lt (distance_lt h)]
    exact ⟨hword, (move_iff_moves (hword.trans hsum.symm)).2 h, (moves_perm (.swap n m [])).1 h⟩

end RecordStore.Address
