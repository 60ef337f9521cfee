import CanTsnGateway.Lib.BlockRows
import CanTsnGateway.Model.Mailbox

/-!
# Where the message buffers are

The RAM is four rows of 512 bytes, and four more of the expanded RAM.  The two loops of
`FlexCAN_GetMsgBuffRegion` and `FlexCAN_GetMbPayloadSize` find the slot that `locate` finds.

    slot of msgBuffIdx at offset o → FlexCAN_GetMsgBuffRegion is its address        (region_eq)
    FlexCAN_SetMaxMsgBuffNum succeeds → every message buffer has a slot       (slot_of_success)
    … → each lies in the RAM, and no two have a byte in common               (mailboxes_apart)
-/

namespace CanTsn

open BlockRows ByteMemory

namespace FlexcanType

/-- A message buffer of block `i`, with its code, status and identifier. -/
def rowSize (t : FlexcanType) (i : UInt8) : Nat := (flexcanGetPayloadSize t i).toNat + 8

def blockRows (t : FlexcanType) : List Nat := ramBlocks.map t.rowSize

/-- The rows of the RAM and of the expanded RAM. -/
def rows (t : FlexcanType) : List Nat := t.blockRows ++ if t.hasExpandableMemory then List.replicate 4 72 else []

/-- The address of a byte of the rows. -/
def ramAddr (t : FlexcanType) (o : Nat) : UInt32 :=
  if o < 2048 then t.base + featureRamOffset + UInt32.ofNat o
  else t.base + featureExpRamOffset + UInt32.ofNat (o - 2048)

/-- No address computed for the controller wraps. -/
def InSpace (t : FlexcanType) : Prop := t.base.toNat + 0x10000 ≤ 2 ^ 32

/-- Message buffer `msgBuffIdx` has the `size` bytes from offset `o` on. -/
def Slot (t : FlexcanType) (msgBuffIdx : Nat) (o size : Nat) : Prop := locate 512 t.rows msgBuffIdx = some (o, size)

section

variable {t : FlexcanType}

/-! ## One block -/

/-- The machine arithmetic of one block. -/
structure Block (t : FlexcanType) (i : UInt8) : Prop where
  size : (flexcanGetPayloadSize t i + arbitrationFieldSize).toNat = t.rowSize i
  count : (ramBlockSize / (flexcanGetPayloadSize t i + arbitrationFieldSize).toUInt32).toUInt8.toNat = 512 / t.rowSize i
  words : 4 * ((flexcanGetPayloadSize t i + arbitrationFieldSize).toUInt32 >>> 2).toNat = t.rowSize i
  bounds : 16 ≤ t.rowSize i ∧ t.rowSize i ≤ 72 ∧ 0 < 512 / t.rowSize i ∧ 512 / t.rowSize i ≤ 32

theorem block (t : FlexcanType) (i : UInt8) : t.Block i := by
  have h : ∀ f : FdPayloadSize, (((8 : UInt32) <<< f.field).toUInt8 + arbitrationFieldSize).toNat =
        ((8 : UInt32) <<< f.field).toUInt8.toNat + 8 ∧
      (ramBlockSize / (((8 : UInt32) <<< f.field).toUInt8 + arbitrationFieldSize).toUInt32).toUInt8.toNat =
        512 / (((8 : UInt32) <<< f.field).toUInt8.toNat + 8) ∧
      4 * ((((8 : UInt32) <<< f.field).toUInt8 + arbitrationFieldSize).toUInt32 >>> 2).toNat =
        ((8 : UInt32) <<< f.field).toUInt8.toNat + 8 ∧
      16 ≤ ((8 : UInt32) <<< f.field).toUInt8.toNat + 8 ∧ ((8 : UInt32) <<< f.field).toUInt8.toNat + 8 ≤ 72 ∧
      0 < 512 / (((8 : UInt32) <<< f.field).toUInt8.toNat + 8) ∧
      512 / (((8 : UInt32) <<< f.field).toUInt8.toNat + 8) ≤ 32 := by
    intro f
    cases f <;> decide
  obtain ⟨hsize, hcount, hwords, hbounds⟩ := h (t.mbdsr (if i < featureMbdsrCount then i else 0))
  exact ⟨hsize, hcount, hwords, hbounds⟩

theorem rowSize_of_mem {is : List UInt8} {size : Nat} (h : size ∈ is.map t.rowSize) :
    16 ≤ size ∧ size ≤ 72 := by
  obtain ⟨i, _, rfl⟩ := List.mem_map.1 h
  exact ⟨(t.block i).bounds.1, (t.block i).bounds.2.1⟩

end

end FlexcanType

/-! ## The loops -/

section Loops

variable {t : FlexcanType} {s : RegionScan} {o size : Nat}

/-- The byte that the local variables point to. -/
def RegionScan.offset (s : RegionScan) : Nat :=
  4 * (s.ramBlockOffset.toNat + s.msgBuffIdxBackup.toNat * (s.mbSize.toUInt32 >>> 2).toNat)

theorem regionLoop_found (is : List UInt8) (h : locate 512 (is.map t.rowSize) s.msgBuffIdxBackup.toNat = some (o, size))
    (hoff : s.ramBlockOffset.toNat + 128 * is.length ≤ 512) :
    ∃ s', regionLoop t is s = (true, s') ∧ s'.offset = 4 * s.ramBlockOffset.toNat + o ∧
      s'.msgBuffIdxBackup < s'.maxMbNum := by
  induction is generalizing s o with
  | nil => cases h
  | cons i is ih =>
    have hb := t.block i
    unfold regionLoop
    simp only [gt_iff_lt, UInt8.lt_iff_toNat_lt, hb.count]
    rcases locate_cons_cases h with ⟨hlt, rfl, rfl⟩ | ⟨hge, o', ho', rfl⟩
    · rw [if_pos hlt]
      refine ⟨_, rfl, ?_, ?_⟩
      · have hwords := hb.words
        show 4 * (s.ramBlockOffset.toNat + s.msgBuffIdxBackup.toNat *
          ((flexcanGetPayloadSize t i + arbitrationFieldSize).toUInt32 >>> 2).toNat) = _
        rw [← hwords, Nat.mul_add, Nat.mul_left_comm]
      · rw [hb.count]
        exact hlt
    · rw [if_neg (Nat.not_lt.2 hge)]
      rw [List.length_cons] at hoff
      have hbackup : (s.msgBuffIdxBackup -
          (ramBlockSize / (flexcanGetPayloadSize t i + arbitrationFieldSize).toUInt32).toUInt8).toNat =
          s.msgBuffIdxBackup.toNat - 512 / t.rowSize i := by
        rw [UInt8.toNat_sub_of_le _ _ (by rw [UInt8.le_iff_toNat_le, hb.count]; exact hge), hb.count]
      have hnext : (s.ramBlockOffset + 128).toNat = s.ramBlockOffset.toNat + 128 := by
        have h128 : (128 : UInt16).toNat = 128 := rfl
        rw [UInt16.toNat_add, h128, Nat.mod_eq_of_lt (by omega)]
      obtain ⟨s', hs', hoffset, hlt⟩ := ih (s := ⟨_, _, _, _⟩) (hbackup ▸ ho') (by rw [hnext]; omega)
      refine ⟨s', hs', ?_, hlt⟩
      rw [hoffset, hnext]
      omega

theorem regionLoop_missed (is : List UInt8) (h : total 512 (is.map t.rowSize) ≤ s.msgBuffIdxBackup.toNat)
    (hoff : s.ramBlockOffset.toNat + 128 * is.length ≤ 512) :
    ∃ s', regionLoop t is s = (false, s') ∧
      s'.ramBlockOffset.toNat = s.ramBlockOffset.toNat + 128 * is.length ∧
      s'.msgBuffIdxBackup.toNat = s.msgBuffIdxBackup.toNat - total 512 (is.map t.rowSize) := by
  induction is generalizing s with
  | nil => exact ⟨s, rfl, rfl, rfl⟩
  | cons i is ih =>
    have hb := t.block i
    rw [List.map_cons, total_cons] at h
    rw [List.length_cons] at hoff
    unfold regionLoop
    simp only [gt_iff_lt, UInt8.lt_iff_toNat_lt, hb.count]
    rw [if_neg (by omega)]
    have hbackup : (s.msgBuffIdxBackup -
        (ramBlockSize / (flexcanGetPayloadSize t i + arbitrationFieldSize).toUInt32).toUInt8).toNat =
        s.msgBuffIdxBackup.toNat - 512 / t.rowSize i := by
      rw [UInt8.toNat_sub_of_le _ _ (by rw [UInt8.le_iff_toNat_le, hb.count]; omega), hb.count]
    have hnext : (s.ramBlockOffset + 128).toNat = s.ramBlockOffset.toNat + 128 := by
      have h128 : (128 : UInt16).toNat = 128 := rfl
      rw [UInt16.toNat_add, h128, Nat.mod_eq_of_lt (by omega)]
    obtain ⟨s', hs', hoffset, hleft⟩ := ih (s := ⟨_, _, _, _⟩) (by rw [hbackup]; omega) (by rw [hnext]; omega)
    refine ⟨s', hs', ?_, ?_⟩
    · rw [hoffset, hnext, List.length_cons]
      omega
    · rw [hleft, hbackup, List.map_cons, total_cons]
      omega

/-- The second loop counts upwards. -/
theorem payloadLoop_found (idx : UInt32) (is : List UInt8) {p c : UInt8} (hc : c.toNat ≤ idx.toNat)
    (h : locate 512 (is.map t.rowSize) (idx.toNat - c.toNat) = some (o, size))
    (hsum : c.toNat + 32 * is.length ≤ 128) :
    ∃ p', payloadLoop t idx is p c = (true, p') ∧ p'.toNat + 8 = size := by
  induction is generalizing p c o with
  | nil => cases h
  | cons i is ih =>
    have hb := t.block i
    have hcount := hb.bounds.2.2.2
    rw [List.length_cons] at hsum
    have hnext : (c + (ramBlockSize / (flexcanGetPayloadSize t i + arbitrationFieldSize).toUInt32).toUInt8).toNat =
        c.toNat + 512 / t.rowSize i := by
      rw [UInt8.toNat_add, hb.count, Nat.mod_eq_of_lt (by omega)]
    unfold payloadLoop
    simp only [gt_iff_lt, UInt32.lt_iff_toNat_lt, UInt8.toNat_toUInt32, hnext]
    rcases locate_cons_cases h with ⟨hlt, rfl, rfl⟩ | ⟨hge, o', ho', rfl⟩
    · rw [if_pos (by omega)]
      exact ⟨_, rfl, rfl⟩
    · rw [if_neg (by omega)]
      have hsub : idx.toNat - c.toNat - 512 / t.rowSize i = idx.toNat - (c.toNat + 512 / t.rowSize i) := by omega
      rw [hsub] at ho'
      exact ih (by rw [hnext]; omega) (by rw [hnext]; exact ho') (by rw [hnext]; omega)

theorem payloadLoop_missed (idx : UInt32) (is : List UInt8) {p c : UInt8} (h : c.toNat + total 512 (is.map t.rowSize) ≤ idx.toNat)
    (hsum : c.toNat + 32 * is.length ≤ 128) : ∃ p', payloadLoop t idx is p c = (false, p') := by
  induction is generalizing p c with
  | nil => exact ⟨p, rfl⟩
  | cons i is ih =>
    have hb := t.block i
    have hcount := hb.bounds.2.2.2
    rw [List.map_cons, total_cons] at h
    rw [List.length_cons] at hsum
    have hnext : (c + (ramBlockSize / (flexcanGetPayloadSize t i + arbitrationFieldSize).toUInt32).toUInt8).toNat =
        c.toNat + 512 / t.rowSize i := by
      rw [UInt8.toNat_add, hb.count, Nat.mod_eq_of_lt (by omega)]
    unfold payloadLoop
    simp only [gt_iff_lt, UInt32.lt_iff_toNat_lt, UInt8.toNat_toUInt32, hnext]
    rw [if_neg (by omega)]
    exact ih (by rw [hnext]; omega) (by rw [hnext]; omega)

end Loops

/-! ## The slots -/

section Slots

variable {t : FlexcanType} {idx : UInt32} {i j o o' size size' : Nat}

/-- A slot of the RAM, or of the expanded RAM. -/
theorem slot_cases (h : t.Slot i o size) :
    i < total 512 t.blockRows ∧ locate 512 t.blockRows i = some (o, size) ∨
      total 512 t.blockRows ≤ i ∧ i - total 512 t.blockRows < 28 ∧ t.hasExpandableMemory = true ∧ size = 72 ∧
        o = 2048 + (512 * ((i - total 512 t.blockRows) / 7) + (i - total 512 t.blockRows) % 7 * 72) := by
  unfold FlexcanType.Slot FlexcanType.rows at h
  rcases Nat.lt_or_ge i (total 512 t.blockRows) with hlt | hge
  · rw [locate_append_of_lt hlt] at h
    exact Or.inl ⟨hlt, h⟩
  · rw [locate_append_of_le hge] at h
    obtain ⟨⟨p, size'⟩, hp, heq⟩ := Option.map_eq_some_iff.1 h
    obtain ⟨rfl, rfl⟩ := Prod.mk.inj heq
    split at hp
    · next hexp =>
      have hlt : i - total 512 t.blockRows < 4 * (512 / 72) := exists_locate_iff.1 ⟨_, hp⟩
      rw [locate_replicate (by decide) hlt] at hp
      obtain ⟨rfl, rfl⟩ := Prod.mk.inj (Option.some.inj hp)
      exact Or.inr ⟨hge, hlt, hexp, rfl, rfl⟩
    · cases hp

theorem slot_bounds (h : t.Slot i o size) : 16 ≤ size ∧ size ≤ 72 ∧ o + size ≤ 4096 ∧
    (o < 2048 → o + size ≤ 2048) := by
  rcases slot_cases h with ⟨_, hlocate⟩ | ⟨_, hlt, _, rfl, rfl⟩
  · have hend : o + size ≤ 512 * 4 := locate_end_le hlocate
    have hsize := FlexcanType.rowSize_of_mem (size_mem hlocate)
    omega
  · omega

theorem toNat_ramAddr (hspace : t.InSpace) (h : o < 4096) :
    (t.ramAddr o).toNat = if o < 2048 then t.base.toNat + 0x80 + o else t.base.toNat + 0x1000 + (o - 2048) := by
  have hram : featureRamOffset.toNat = 0x80 := rfl
  have hexp : featureExpRamOffset.toNat = 0x1000 := rfl
  unfold FlexcanType.InSpace at hspace
  unfold FlexcanType.ramAddr
  split
  · rw [UInt32.toNat_add, UInt32.toNat_add, hram, UInt32.toNat_ofNat']
    omega
  · rw [UInt32.toNat_add, UInt32.toNat_add, hexp, UInt32.toNat_ofNat']
    omega

theorem toNat_toUInt8 (h : idx.toNat < 256) : idx.toUInt8.toNat = idx.toNat := by
  rw [UInt32.toNat_toUInt8, Nat.mod_eq_of_lt h]

/-- The division that finds a message buffer of the expanded RAM. -/
theorem toNat_expanded (b : UInt8) :
    (4 * ((b.toUInt32 / 7) * 128 + (b.toUInt32 % 7) * ((72 : UInt32) >>> (2 : UInt32)))).toNat =
      512 * (b.toNat / 7) + b.toNat % 7 * 72 := by
  have h4 : (4 : UInt32).toNat = 4 := rfl
  have h7 : (7 : UInt32).toNat = 7 := rfl
  have h128 : (128 : UInt32).toNat = 128 := rfl
  have hwords : ((72 : UInt32) >>> (2 : UInt32)).toNat = 18 := rfl
  have hb := b.toNat_lt
  simp only [UInt32.toNat_mul, UInt32.toNat_add, UInt32.toNat_div, UInt32.toNat_mod, UInt8.toNat_toUInt32, h4, h7, h128,
    hwords]
  omega

/-- The byte offset that the code computes from the local variables. -/
theorem offset_eq {s : RegionScan} (ho : s.offset = o) :
    4 * (s.ramBlockOffset.toUInt32 + s.msgBuffIdxBackup.toUInt32 * (s.mbSize.toUInt32 >>> (2 : UInt32))) =
      UInt32.ofNat o := by
  have h4 : (4 : UInt32).toNat = 4 := rfl
  unfold RegionScan.offset at ho
  generalize s.mbSize.toUInt32 >>> (2 : UInt32) = words at *
  apply UInt32.toNat_inj.1
  rw [UInt32.toNat_mul, UInt32.toNat_add, UInt32.toNat_mul, h4, UInt8.toNat_toUInt32, UInt16.toNat_toUInt32,
    UInt32.toNat_ofNat']
  generalize s.msgBuffIdxBackup.toNat * words.toNat = bytes at *
  omega

/-- A message buffer of the blocks is found by the loop. -/
theorem regionLoop_at (hidx : idx.toNat < 256) (h : locate 512 t.blockRows idx.toNat = some (o, size)) :
    ∃ s, regionLoop t ramBlocks ⟨0, idx.toUInt8, 0, 0⟩ = (true, s) ∧ s.offset = o ∧
      s.msgBuffIdxBackup.toUInt32 % s.maxMbNum.toUInt32 = s.msgBuffIdxBackup.toUInt32 := by
  have hbackup := toNat_toUInt8 hidx
  obtain ⟨s, hloop, hoffset, hcount⟩ := regionLoop_found (s := ⟨0, idx.toUInt8, 0, 0⟩) ramBlocks
    (hbackup ▸ h) (show (0 : UInt16).toNat + 128 * ramBlocks.length ≤ 512 by decide)
  refine ⟨s, hloop, hoffset.trans (Nat.zero_add o), ?_⟩
  apply UInt32.toNat_inj.1
  rw [UInt32.toNat_mod, UInt8.toNat_toUInt32, UInt8.toNat_toUInt32]
  exact Nat.mod_eq_of_lt (UInt8.lt_iff_toNat_lt.1 hcount)

/-- For a message buffer past the blocks the loop runs to its end. -/
theorem regionLoop_past (hidx : idx.toNat < 256) (hge : total 512 t.blockRows ≤ idx.toNat) :
    ∃ s, regionLoop t ramBlocks ⟨0, idx.toUInt8, 0, 0⟩ = (false, s) ∧ s.ramBlockOffset.toNat = 512 ∧
      s.msgBuffIdxBackup.toNat = idx.toNat - total 512 t.blockRows := by
  have hbackup := toNat_toUInt8 hidx
  obtain ⟨s, hloop, hoffset, hleft⟩ := regionLoop_missed (s := ⟨0, idx.toUInt8, 0, 0⟩) ramBlocks
    (hbackup ▸ hge) (show (0 : UInt16).toNat + 128 * ramBlocks.length ≤ 512 by decide)
  exact ⟨s, hloop, hoffset.trans rfl, hleft.trans (congrArg (· - total 512 t.blockRows) hbackup)⟩

theorem payload_past (hge : total 512 t.blockRows ≤ idx.toNat) : flexcanGetMbPayloadSize t idx = 64 := by
  obtain ⟨p, hloop⟩ := payloadLoop_missed (p := 8) (c := 0) idx ramBlocks
    (by rw [UInt8.toNat_zero, Nat.zero_add]; exact hge) (by decide)
  unfold flexcanGetMbPayloadSize
  rw [hloop]

/-- **`FlexCAN_GetMsgBuffRegion`** finds the slot. -/
theorem region_eq (h : t.Slot idx.toNat o size) (hidx : idx.toNat < 256) :
    flexcanGetMsgBuffRegion t idx = t.ramAddr o := by
  unfold flexcanGetMsgBuffRegion FlexcanType.ramAddr
  rcases slot_cases h with ⟨_, hlocate⟩ | ⟨hge, hlt, hexp, rfl, rfl⟩
  · obtain ⟨s, hloop, hoffset, hmod⟩ := regionLoop_at hidx hlocate
    have hend : o + size ≤ 512 * 4 := locate_end_le hlocate
    have hsize := FlexcanType.rowSize_of_mem (size_mem hlocate)
    have ho : o < 2048 := by omega
    rw [hloop, if_pos ho]
    simp only [Bool.true_eq_false, false_and, if_false, hmod, offset_eq hoffset]
  · obtain ⟨s, hloop, _, hleft⟩ := regionLoop_past hidx hge
    have hnot : ¬ 2048 + (512 * ((idx.toNat - total 512 t.blockRows) / 7) +
        (idx.toNat - total 512 t.blockRows) % 7 * 72) < 2048 := by omega
    rw [hloop, if_neg hnot, Nat.add_sub_cancel_left]
    simp only [true_and, hexp, if_true]
    congr 1
    apply UInt32.toNat_inj.1
    rw [toNat_expanded, UInt32.toNat_ofNat', hleft]
    generalize idx.toNat - total 512 t.blockRows = l at hlt ⊢
    omega

theorem payload_eq (h : t.Slot idx.toNat o size) : (flexcanGetMbPayloadSize t idx).toNat + 8 = size := by
  rcases slot_cases h with ⟨_, hlocate⟩ | ⟨hge, _, _, rfl, _⟩
  · obtain ⟨p, hloop, hp⟩ := payloadLoop_found (p := 8) (c := 0) idx ramBlocks (Nat.zero_le _) hlocate (by decide)
    unfold flexcanGetMbPayloadSize
    rw [hloop]
    exact hp
  · rw [payload_past hge]
    rfl

/-! ## The number of message buffers -/

/-- The end of the last message buffer, when there is no slot for it. -/
theorem end_gt_of_missing (hspace : t.InSpace) (hidx : idx.toNat < 128) (hge : total 512 t.rows ≤ idx.toNat) :
    (if t.hasExpandableMemory then t.base + featureExpRamOffset + 4 * ram1nCount
      else t.base + featureRamOffset + 4 * (flexcanGetMaxMbNum * 4)) <
    flexcanGetMsgBuffRegion t idx + (flexcanGetMbPayloadSize t idx).toUInt32 + arbitrationFieldSize.toUInt32 := by
  have hblocks : total 512 t.blockRows ≤ idx.toNat := by
    unfold FlexcanType.rows at hge
    unfold total at hge ⊢
    rw [List.map_append, List.sum_append] at hge
    omega
  obtain ⟨s, hloop, hoff, hleft⟩ := regionLoop_past (show idx.toNat < 256 by omega) hblocks
  have hram : featureRamOffset.toNat = 0x80 := rfl
  have hexp : featureExpRamOffset.toNat = 0x1000 := rfl
  have h64 : (64 : UInt8).toUInt32.toNat = 64 := rfl
  have h8 : arbitrationFieldSize.toUInt32.toNat = 8 := rfl
  unfold FlexcanType.InSpace at hspace
  unfold flexcanGetMsgBuffRegion
  rw [hloop, payload_past hblocks, UInt32.lt_iff_toNat_lt]
  unfold FlexcanType.rows at hge
  cases hexpandable : t.hasExpandableMemory with
  | true =>
    have htotal : total 512 (t.blockRows ++ List.replicate 4 72) = total 512 t.blockRows + 28 := by
      unfold total
      rw [List.map_append, List.sum_append]
      rfl
    have hend : (4 * ram1nCount).toNat = 2048 := rfl
    have hb := s.msgBuffIdxBackup.toNat_lt
    rw [hexpandable, if_pos rfl, htotal] at hge
    have hoffset' : 2048 ≤ 512 * (s.msgBuffIdxBackup.toNat / 7) + s.msgBuffIdxBackup.toNat % 7 * 72 ∧
        512 * (s.msgBuffIdxBackup.toNat / 7) + s.msgBuffIdxBackup.toNat % 7 * 72 ≤ 20000 := by omega
    simp only [true_and, if_true]
    rw [UInt32.toNat_add, UInt32.toNat_add, UInt32.toNat_add, UInt32.toNat_add, UInt32.toNat_add, UInt32.toNat_add,
      toNat_expanded, hexp, h64, h8, hend]
    generalize 512 * (s.msgBuffIdxBackup.toNat / 7) + s.msgBuffIdxBackup.toNat % 7 * 72 = o at *
    omega
  | false =>
    have hend : (4 * (flexcanGetMaxMbNum * 4)).toNat = 2048 := rfl
    have hrest : (s.msgBuffIdxBackup.toUInt32 % s.maxMbNum.toUInt32).toNat ≤ 127 := by
      rw [UInt32.toNat_mod, UInt8.toNat_toUInt32, hleft]
      exact Nat.le_trans (Nat.mod_le _ _) (by omega)
    have hwords : (s.mbSize.toUInt32 >>> (2 : UInt32)).toNat ≤ 63 := by
      have hlt := s.mbSize.toNat_lt
      have h2 : (2 : UInt32).toNat % 32 = 2 := rfl
      rw [UInt32.toNat_shiftRight, h2, UInt8.toNat_toUInt32, Nat.shiftRight_eq_div_pow]
      omega
    have hmul := Nat.mul_le_mul hrest hwords
    have h4 : (4 : UInt32).toNat = 4 := rfl
    have haddr : 2048 ≤ (4 * (s.ramBlockOffset.toUInt32 + s.msgBuffIdxBackup.toUInt32 % s.maxMbNum.toUInt32 *
        (s.mbSize.toUInt32 >>> (2 : UInt32)))).toNat ∧
        (4 * (s.ramBlockOffset.toUInt32 + s.msgBuffIdxBackup.toUInt32 % s.maxMbNum.toUInt32 *
          (s.mbSize.toUInt32 >>> (2 : UInt32)))).toNat ≤ 4 * (512 + 127 * 63) := by
      rw [UInt32.toNat_mul, UInt32.toNat_add, UInt32.toNat_mul, UInt16.toNat_toUInt32, hoff, h4]
      omega
    simp only [Bool.false_eq_true, and_false, if_false]
    rw [UInt32.toNat_add, UInt32.toNat_add, UInt32.toNat_add, UInt32.toNat_add, UInt32.toNat_add, UInt32.toNat_add,
      hram, h64, h8, hend]
    omega

theorem slot_of_success {m m' : Memory} {rfen : Bool} {maxMsgBuffNum : UInt32} (hspace : t.InSpace)
    (hsuccess : flexcanSetMaxMsgBuffNum t m rfen maxMsgBuffNum = some (true, m')) (hi : i < maxMsgBuffNum.toNat) :
    i < 128 ∧ ∃ o size, t.Slot i o size := by
  have h128 : flexcanGetMaxMbNum.toNat = 128 := rfl
  have hone : (1 : UInt32).toNat = 1 := rfl
  unfold flexcanSetMaxMsgBuffNum at hsuccess
  split at hsuccess
  · next hpos =>
    have hnot : ¬ ((if t.hasExpandableMemory then t.base + featureExpRamOffset + 4 * ram1nCount
          else t.base + featureRamOffset + 4 * (flexcanGetMaxMbNum * 4)) <
        flexcanGetMsgBuffRegion t (maxMsgBuffNum - 1) + (flexcanGetMbPayloadSize t (maxMsgBuffNum - 1)).toUInt32 +
          arbitrationFieldSize.toUInt32 ∨ flexcanGetMaxMbNum < maxMsgBuffNum) := fun h => by
      simp only [gt_iff_lt, if_pos h] at hsuccess
      cases hsuccess
    have hmax : maxMsgBuffNum.toNat ≤ 128 := by
      rw [← h128]
      exact Nat.not_lt.1 fun h => hnot (Or.inr (UInt32.lt_iff_toNat_lt.2 h))
    have hlast : (maxMsgBuffNum - 1).toNat = maxMsgBuffNum.toNat - 1 := by
      rw [UInt32.toNat_sub_of_le _ _ (UInt32.le_iff_toNat_le.2 (by rw [hone]; omega)), hone]
    refine ⟨by omega, ?_⟩
    rcases Nat.lt_or_ge i (total 512 t.rows) with hlt | hge
    · obtain ⟨⟨o, size⟩, hslot⟩ := exists_locate_iff.2 hlt
      exact ⟨o, size, hslot⟩
    · exact absurd (Or.inl (end_gt_of_missing hspace (by omega) (by omega))) hnot
  · cases hsuccess

/-- A message buffer's bytes are in the RAM or in the expanded RAM. -/
def FlexcanType.InRam (t : FlexcanType) (a : UInt32) (n : Nat) : Prop :=
  t.base.toNat + 0x80 ≤ a.toNat ∧ a.toNat + n ≤ t.base.toNat + 0x80 + 2048 ∨
    t.hasExpandableMemory = true ∧ t.base.toNat + 0x1000 ≤ a.toNat ∧ a.toNat + n ≤ t.base.toNat + 0x1000 + 2048

theorem slot_inRam (hspace : t.InSpace) (h : t.Slot i o size) : t.InRam (t.ramAddr o) size := by
  have hbounds := slot_bounds h
  have haddr := toNat_ramAddr hspace (o := o) (by omega)
  unfold FlexcanType.InRam
  rw [haddr]
  split
  · next ho =>
    have := hbounds.2.2.2 ho
    left
    omega
  · next ho =>
    right
    rcases slot_cases h with ⟨_, hlocate⟩ | ⟨_, _, hexp, _, _⟩
    · have hend : o + size ≤ 512 * 4 := locate_end_le hlocate
      omega
    · exact ⟨hexp, by omega, by omega⟩

theorem slot_apart_of_lt (hspace : t.InSpace) (hij : i < j) (hi : t.Slot i o size) (hj : t.Slot j o' size') :
    (t.ramAddr o).toNat + size ≤ (t.ramAddr o').toNat ∧ (t.ramAddr o').toNat + size' ≤ 2 ^ 32 := by
  have hbefore : o + size ≤ o' := locate_before hij hi hj
  have hboundsi := slot_bounds hi
  have hboundsj := slot_bounds hj
  have haddr := toNat_ramAddr hspace (o := o) (by omega)
  have haddr' := toNat_ramAddr hspace (o := o') (by omega)
  unfold FlexcanType.InSpace at hspace
  rw [haddr, haddr']
  constructor
  · split
    · split
      · omega
      · have := hboundsi.2.2.2 (by assumption)
        omega
    · split
      · omega
      · omega
  · split <;> omega

theorem slot_apart (hspace : t.InSpace) (hij : i ≠ j) (hi : t.Slot i o size) (hj : t.Slot j o' size') :
    Apart (t.ramAddr o) size (t.ramAddr o') size' := by
  rcases Nat.lt_or_gt_of_ne hij with hlt | hgt
  · exact Or.inl (slot_apart_of_lt hspace hlt hi hj)
  · exact Or.inr (slot_apart_of_lt hspace hgt hj hi)

/-- The slot of a message buffer, as the code computes it. -/
theorem slot_of_index (hspace : t.InSpace) (hi : idx.toNat < 128) (h : t.Slot idx.toNat o size) :
    flexcanGetMsgBuffRegion t idx = t.ramAddr o ∧ (flexcanGetMbPayloadSize t idx).toNat + 8 = size ∧
      t.InRam (flexcanGetMsgBuffRegion t idx) size := by
  have hregion := region_eq h (by omega)
  exact ⟨hregion, payload_eq h, hregion ▸ slot_inRam hspace h⟩

/-- **Message buffers** lie in the RAM, and none overlaps another. -/
theorem mailboxes_apart {m m' : Memory} {rfen : Bool} {maxMsgBuffNum : UInt32} (hspace : t.InSpace)
    (hsuccess : flexcanSetMaxMsgBuffNum t m rfen maxMsgBuffNum = some (true, m')) (hidx : idx < maxMsgBuffNum) :
    t.InRam (flexcanGetMsgBuffRegion t idx) ((flexcanGetMbPayloadSize t idx).toNat + 8) ∧
      ∀ idx' < maxMsgBuffNum, idx ≠ idx' →
        Apart (flexcanGetMsgBuffRegion t idx) ((flexcanGetMbPayloadSize t idx).toNat + 8)
          (flexcanGetMsgBuffRegion t idx') ((flexcanGetMbPayloadSize t idx').toNat + 8) := by
  obtain ⟨hi, o, size, hslot⟩ := slot_of_success hspace hsuccess (UInt32.lt_iff_toNat_lt.1 hidx)
  obtain ⟨hregion, hsize, hram⟩ := slot_of_index hspace hi hslot
  rw [hsize]
  refine ⟨hram, fun idx' hidx' hne => ?_⟩
  obtain ⟨hi', o', size', hslot'⟩ := slot_of_success hspace hsuccess (UInt32.lt_iff_toNat_lt.1 hidx')
  obtain ⟨hregion', hsize', _⟩ := slot_of_index hspace hi' hslot'
  rw [hsize', hregion, hregion']
  exact slot_apart hspace (fun h => hne (UInt32.toNat_inj.1 h)) hslot hslot'

end Slots

/-- A controller as the configuration has it, blocks of 64 bytes and expandable memory. -/
def controller64 : FlexcanType := ⟨0x40000000, fun _ => .payloadSize64, true⟩

/-- Buffer 6 is the last of its block. -/
theorem mailboxes_apart_last :
    controller64.InRam (flexcanGetMsgBuffRegion controller64 6) ((flexcanGetMbPayloadSize controller64 6).toNat + 8) ∧
      ∀ idx' < 16, 6 ≠ idx' →
        Apart (flexcanGetMsgBuffRegion controller64 6) ((flexcanGetMbPayloadSize controller64 6).toNat + 8)
          (flexcanGetMsgBuffRegion controller64 idx') ((flexcanGetMbPayloadSize controller64 idx').toNat + 8) :=
  mailboxes_apart (m := fun _ => 0) (by unfold FlexcanType.InSpace; decide)
    (show flexcanSetMaxMsgBuffNum controller64 _ true 16 = some (true, _) from rfl) (show (6 : UInt32) < 16 by decide)

end CanTsn
