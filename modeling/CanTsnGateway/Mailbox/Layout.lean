import CanTsnGateway.Mailbox.Regions
import CanTsnGateway.Mailbox.Transfer
import CanTsnGateway.Model.FlexCanNode

/-!
# The message buffers of a node

After `FlexCAN_init_SKKU` the message buffers of an instance lie apart, each with room for
8, 16, 32 or 64 bytes, and none of them asks the controller to send.
-/

namespace CanTsn

open BlockRows ByteMemory

/-- Where a message buffer is. -/
def mbRegion (t : FlexcanType) (mb : UInt8) : UInt32 := flexcanGetMsgBuffRegion t mb.toUInt32

/-- How many data bytes it has. -/
def mbRoom (t : FlexcanType) (mb : UInt8) : Nat := (flexcanGetMbPayloadSize t mb.toUInt32).toNat

/-- The message buffers in range. -/
structure MbLayout (t : FlexcanType) : Prop where
  room : ∀ mb < maxMbNum, mbRoom t mb ∈ [8, 16, 32, 64]
  fit : ∀ mb < maxMbNum, (mbRegion t mb).toNat + 8 + mbRoom t mb ≤ 2 ^ 32
  apart : ∀ mb < maxMbNum, ∀ mb' < maxMbNum, mb ≠ mb' →
    Apart (mbRegion t mb) (8 + mbRoom t mb) (mbRegion t mb') (8 + mbRoom t mb')

section Slots

variable {t : FlexcanType} {i o size : Nat}

theorem rowSize_room (t : FlexcanType) (i : UInt8) : t.rowSize i - 8 ∈ [8, 16, 32, 64] := by
  unfold FlexcanType.rowSize flexcanGetPayloadSize
  cases t.mbdsr (if i < featureMbdsrCount then i else 0) <;> decide

theorem slot_room (h : t.Slot i o size) : size - 8 ∈ [8, 16, 32, 64] := by
  rcases slot_cases h with ⟨_, hlocate⟩ | ⟨_, _, _, rfl, _⟩
  · obtain ⟨j, _, hj⟩ := List.mem_map.1 (size_mem hlocate)
    rw [← hj]
    exact rowSize_room t j
  · decide

section Success

variable {m m' : Memory} {rfen : Bool} {maxMsgBuffNum idx : UInt32}

/-- The slot of a message buffer in range. -/
theorem slot_of_idx (hspace : t.InSpace) (hinit : flexcanSetMaxMsgBuffNum t m rfen maxMsgBuffNum = some (true, m'))
    (hidx : idx < maxMsgBuffNum) :
    ∃ o size, t.Slot idx.toNat o size ∧ flexcanGetMsgBuffRegion t idx = t.ramAddr o ∧
      8 + (flexcanGetMbPayloadSize t idx).toNat = size := by
  obtain ⟨hlt, o, size, hslot⟩ := slot_of_success hspace hinit (UInt32.lt_iff_toNat_lt.1 hidx)
  obtain ⟨hregion, hsize, _⟩ := slot_of_index hspace hlt hslot
  exact ⟨o, size, hslot, hregion, (Nat.add_comm _ _).trans hsize⟩

theorem room_of_idx (hspace : t.InSpace) (hinit : flexcanSetMaxMsgBuffNum t m rfen maxMsgBuffNum = some (true, m'))
    (hidx : idx < maxMsgBuffNum) : (flexcanGetMbPayloadSize t idx).toNat ∈ [8, 16, 32, 64] := by
  obtain ⟨o, size, hslot, _, hsize⟩ := slot_of_idx hspace hinit hidx
  have hroom := slot_room hslot
  rwa [← hsize, Nat.add_sub_cancel_left] at hroom

theorem fit_of_idx (hspace : t.InSpace) (hinit : flexcanSetMaxMsgBuffNum t m rfen maxMsgBuffNum = some (true, m'))
    (hidx : idx < maxMsgBuffNum) :
    (flexcanGetMsgBuffRegion t idx).toNat + 8 + (flexcanGetMbPayloadSize t idx).toNat ≤ 2 ^ 32 := by
  obtain ⟨o, size, hslot, hregion, hsize⟩ := slot_of_idx hspace hinit hidx
  have hbounds := slot_bounds hslot
  have haddr := toNat_ramAddr hspace (o := o) (by omega)
  unfold FlexcanType.InSpace at hspace
  rw [hregion, haddr, Nat.add_assoc, hsize]
  split <;> omega

end Success

theorem toUInt32_lt {mb : UInt8} (hmb : mb < maxMbNum) : mb.toUInt32 < maxMbNum.toUInt32 := by
  rw [UInt32.lt_iff_toNat_lt, UInt8.toNat_toUInt32, UInt8.toNat_toUInt32]
  exact UInt8.lt_iff_toNat_lt.1 hmb

theorem mbLayout_of_success {m m' : Memory} (hspace : t.InSpace)
    (hinit : flexcanSetMaxMsgBuffNum t m false maxMbNum.toUInt32 = some (true, m')) : MbLayout t where
  room _ hmb := room_of_idx hspace hinit (toUInt32_lt hmb)
  fit _ hmb := fit_of_idx hspace hinit (toUInt32_lt hmb)
  apart mb hmb mb' hmb' hne := by
    obtain ⟨o, size, hslot, hregion, hsize⟩ := slot_of_idx hspace hinit (toUInt32_lt hmb)
    obtain ⟨o', size', hslot', hregion', hsize'⟩ := slot_of_idx hspace hinit (toUInt32_lt hmb')
    unfold mbRegion mbRoom
    rw [hregion, hregion', hsize, hsize']
    refine slot_apart hspace (fun h => hne (UInt8.toNat_inj.1 ?_)) hslot hslot'
    rwa [UInt8.toNat_toUInt32, UInt8.toNat_toUInt32] at h

end Slots

/-! ## Message buffers after the initialisation -/

section Quiet

variable {t : FlexcanType} {m m' : Memory} {mb mb' : UInt8} {n : Nat}

/-- What is written to one message buffer leaves the words of another alone. -/
theorem load_other (hl : MbLayout t) (hmb : mb < maxMbNum) (hmb' : mb' < maxMbNum) (hne : mb ≠ mb')
    (h : SameOutside m m' (mbRegion t mb) (8 + mbRoom t mb)) :
    WordBytes.load m' (mbRegion t mb') = WordBytes.load m (mbRegion t mb') :=
  load_of_sameOutside h ((hl.apart mb hmb mb' hmb' hne).mono (Nat.le_refl _) (by omega))

theorem mbCode_of_load (h : WordBytes.load m' (mbRegion t mb) = WordBytes.load m (mbRegion t mb)) :
    mbCode m' (mbRegion t mb) = mbCode m (mbRegion t mb) := by
  unfold mbCode
  rw [h]

/-- A frame that fits its message buffer stays, with its words. -/
theorem frame_other (hl : MbLayout t) (hmb : mb < maxMbNum) (hmb' : mb' < maxMbNum) (hne : mb ≠ mb')
    (hfits : (busFrame m (mbRegion t mb')).data.length ≤ mbRoom t mb')
    (h : SameOutside m m' (mbRegion t mb) (8 + mbRoom t mb)) :
    busFrame m' (mbRegion t mb') = busFrame m (mbRegion t mb') ∧
      WordBytes.load m' (mbRegion t mb' + 4) = WordBytes.load m (mbRegion t mb' + 4) := by
  have h8 : (8 : UInt32).toNat = 8 := rfl
  have h4 : (4 : UInt32).toNat = 4 := rfl
  have hfit := hl.fit mb' hmb'
  obtain ⟨hroom, -, hroom4⟩ := payload_bounds _ (hl.room mb' hmb')
  have hapart := hl.apart mb hmb mb' hmb' hne
  have hbase : (mbRegion t mb' + 8).toNat = (mbRegion t mb').toNat + 8 := toNat_add_of_le (by omega)
  have hid : (mbRegion t mb' + 4).toNat = (mbRegion t mb').toNat + 4 := toNat_add_of_le (by omega)
  have hcs := load_other hl hmb hmb' hne h
  have hidword : WordBytes.load m' (mbRegion t mb' + 4) = WordBytes.load m (mbRegion t mb' + 4) :=
    load_of_sameOutside h (by unfold Apart at hapart ⊢; omega)
  refine ⟨?_, hidword⟩
  have hlen : busLength ((WordBytes.load m (mbRegion t mb') >>> 16) &&& 0xF) ≤ mbRoom t mb' := by
    simpa [busFrame] using hfits
  unfold busFrame
  simp only [hcs, hidword]
  congr 1
  refine List.map_congr_left fun j hj => ?_
  have hlt := List.mem_range.1 hj
  exact mbData_of_sameOutside h (by unfold Apart at hapart ⊢; omega) hroom4 (by omega)

/-- No message buffer has a frame to send. -/
def Quiet (t : FlexcanType) (m : Memory) : Prop := ∀ mb < maxMbNum, mbCode m (mbRegion t mb) ≠ txData

theorem sameOutside_clearMsgBuff (hl : MbLayout t) (hmb : mb < maxMbNum) :
    SameOutside m (clearMsgBuff t m mb.toUInt32) (mbRegion t mb) (8 + mbRoom t mb) ∧
      WordBytes.load (clearMsgBuff t m mb.toUInt32) (mbRegion t mb) = 0 := by
  have h8 : (8 : UInt32).toNat = 8 := rfl
  have h4 : (4 : UInt32).toNat = 4 := rfl
  have hfit := hl.fit mb hmb
  obtain ⟨hroom, -, -⟩ := payload_bounds _ (hl.room mb hmb)
  unfold clearMsgBuff
  simp only
  change SameOutside m ((List.range (mbRoom t mb)).foldl _ _) _ _ ∧
    WordBytes.load ((List.range (mbRoom t mb)).foldl _ _) _ = _
  have hregion : flexcanGetMsgBuffRegion t mb.toUInt32 = mbRegion t mb := rfl
  rw [hregion]
  generalize mbRegion t mb = a at *
  generalize mbRoom t mb = p at *
  have hbase : (a + 8).toNat = a.toNat + 8 := toNat_add_of_le (by omega)
  have hid : (a + 4).toNat = a.toNat + 4 := toNat_add_of_le (by omega)
  have hdata : ∀ m, SameOutside m ((List.range p).foldl (fun m k => Function.update m (a + 8 + UInt32.ofNat k) 0) m)
      (a + 8) p := fun m => .foldl fun m k hk => by
    have hlt := List.mem_range.1 hk
    have haddr : (a + 8 + UInt32.ofNat k).toNat = a.toNat + 8 + k := by rw [toNat_add_ofNat (by omega), hbase]
    exact .of_update (by omega) (by omega)
  have hcs := sameOutside_store (m := m) (a := a) (x := 0) (n := 4) (Nat.le_refl _) (by omega)
  have hidword := sameOutside_store (m := WordBytes.store m a 0) (a := a + 4) (x := 0) (n := 4) (Nat.le_refl _) (by omega)
  constructor
  · exact ((hcs.mono (Nat.le_refl _) (by omega)).trans (hidword.mono (by omega) (by omega))).trans
      ((hdata _).mono (by omega) (by omega))
  · rw [load_of_sameOutside (hdata _) (Or.inr (by omega)), load_of_sameOutside hidword (Or.inr (by omega)),
      WordBytes.load_store]

theorem mbCode_zero (h : WordBytes.load m (mbRegion t mb) = 0) : mbCode m (mbRegion t mb) ≠ txData := by
  unfold mbCode
  rw [h]
  decide

/-- **`FlexCAN_SetMaxMsgBuffNum`** makes all message buffers inactive. -/
theorem quiet_clear (hl : MbLayout t) (hn : n ≤ maxMbNum.toNat) :
    ∀ i < n, WordBytes.load ((List.range n).foldl (fun m k => clearMsgBuff t m (UInt32.ofNat k)) m)
      (mbRegion t (UInt8.ofNat i)) = 0 := by
  have hmax : maxMbNum.toNat = 16 := rfl
  have hidx : ∀ k < 16, (UInt8.ofNat k).toUInt32 = UInt32.ofNat k ∧ UInt8.ofNat k < maxMbNum := by decide
  induction n with
  | zero => exact fun i hi => absurd hi (Nat.not_lt_zero i)
  | succ n ih =>
    intro i hi
    obtain ⟨hn32, hnlt⟩ := hidx n (by omega)
    rw [List.range_succ, List.foldl_append, List.foldl_cons, List.foldl_nil, ← hn32]
    rcases Nat.lt_or_ge i n with hlt | hge
    · obtain ⟨-, hilt⟩ := hidx i (by omega)
      rw [load_other hl hnlt hilt (fun h => ?_) (sameOutside_clearMsgBuff hl hnlt).1]
      · exact ih (by omega) i hlt
      · have := congrArg UInt8.toNat h
        rw [UInt8.toNat_ofNat', UInt8.toNat_ofNat'] at this
        omega
    · obtain rfl : i = n := by omega
      exact (sameOutside_clearMsgBuff hl hnlt).2

/-! ## Configured for receiving -/

theorem sameOutside_setRxMsgBuff {a : UInt32} {cs : MsbuffCodeStatus} {msgId : UInt32} (hfit : a.toNat + 8 ≤ 2 ^ 32) :
    SameOutside m (flexcanSetRxMsgBuff m a cs msgId) a 8 := by
  have h4 : (4 : UInt32).toNat = 4 := rfl
  have hid : (a + 4).toNat = a.toNat + 4 := toNat_add_of_le (by omega)
  have hcs : ∀ m x, SameOutside m (WordBytes.store m a x) a 8 := fun m x => sameOutside_store (by decide) hfit
  have hidword : ∀ m x, SameOutside m (WordBytes.store m (a + 4) x) a 8 := fun m x =>
    (sameOutside_store (n := 4) (Nat.le_refl _) (by omega)).mono (by omega) (by omega)
  unfold flexcanSetRxMsgBuff
  simp only
  have hclear := (hcs m 0).trans (hidword _ 0)
  cases cs.msgIdType with
  | msgIdExt =>
    simp only
    split
    · exact ((hclear.trans (hcs _ _)).trans (hidword _ _)).trans (hcs _ _)
    · exact (hclear.trans (hcs _ _)).trans (hidword _ _)
  | msgIdStd =>
    simp only
    split
    · exact ((hclear.trans (hcs _ _)).trans (hidword _ _)).trans (hcs _ _)
    · exact (hclear.trans (hcs _ _)).trans (hidword _ _)

theorem code_field (w code : UInt32) :
    (((w &&& ~~~csCodeMask) ||| ((code <<< csCodeShift) &&& csCodeMask)) >>> 24) &&& 0xF = code &&& 0xF := by
  apply UInt32.toBitVec_inj.1
  apply BitVec.eq_of_getLsbD_eq
  intro i hi
  interval_cases i <;> simp [csCodeMask, csCodeShift]

theorem mbCode_setRxMsgBuff {a : UInt32} {cs : MsbuffCodeStatus} {msgId : UInt32} (hcode : cs.code ≠ rxNotUsed) :
    mbCode (flexcanSetRxMsgBuff m a cs msgId) a = cs.code &&& 0xF := by
  unfold flexcanSetRxMsgBuff mbCode
  simp only [if_pos hcode]
  rw [WordBytes.load_store, code_field]

theorem configRxMb_spec (m : Memory) (info : DataInfo) (msgId : UInt32) (hfit : (mbRegion t mb).toNat + 8 ≤ 2 ^ 32) :
    SameOutside m (flexcanIpConfigRxMb t m mb info msgId) (mbRegion t mb) 8 ∧
      mbCode (flexcanIpConfigRxMb t m mb info msgId) (mbRegion t mb) = rxEmpty := by
  have hcode : ∀ m cs, cs.code = rxEmpty →
      mbCode (flexcanSetRxMsgBuff m (mbRegion t mb) cs msgId) (mbRegion t mb) = rxEmpty := fun m cs hcs => by
    rw [mbCode_setRxMsgBuff (by rw [hcs]; decide), hcs]
    rfl
  unfold flexcanIpConfigRxMb
  constructor
  · exact ((sameOutside_setRxMsgBuff hfit).trans (sameOutside_setRxMsgBuff hfit)).trans (sameOutside_setRxMsgBuff hfit)
  · exact hcode _ _ rfl

theorem quiet_configRxMb {info : DataInfo} {msgId : UInt32} (hl : MbLayout t) (hmb : mb < maxMbNum) (hq : Quiet t m) :
    Quiet t (flexcanIpConfigRxMb t m mb info msgId) := by
  intro mb' hmb'
  have hfit := hl.fit mb hmb
  obtain ⟨hsame, hcode⟩ := configRxMb_spec m info msgId (show (mbRegion t mb).toNat + 8 ≤ 2 ^ 32 by omega)
  by_cases heq : mb = mb'
  · subst heq
    rw [hcode]
    decide
  · rw [mbCode_of_load (load_other hl hmb hmb' heq (hsame.mono (Nat.le_refl _) (by omega)))]
    exact hq mb' hmb'

theorem ram_setMaxMsgBuffNum {maxMsgBuffNum : UInt32}
    (h : flexcanSetMaxMsgBuffNum t m false maxMsgBuffNum = some (true, m')) :
    m' = (List.range maxMsgBuffNum.toNat).foldl (fun m k => clearMsgBuff t m (UInt32.ofNat k)) m := by
  unfold flexcanSetMaxMsgBuffNum at h
  simp only [Bool.false_eq_true, if_false] at h
  generalize (if t.hasExpandableMemory then _ else _) = valEndRam at h
  split at h
  · split at h
    · cases h
    · exact (congrArg Prod.snd (Option.some.inj h)).symm
  · cases h

/-- **After `FlexCAN_init_SKKU`** the message buffers are apart and quiet. -/
theorem init_spec {inst : UInt8} (hspace : t.InSpace) (hinit : flexcanInitSkku t inst m = some m') :
    MbLayout t ∧ Quiet t m' := by
  unfold flexcanInitSkku at hinit
  split at hinit
  · next m₁ hmax =>
    have hl := mbLayout_of_success hspace hmax
    refine ⟨hl, ?_⟩
    have hclear : Quiet t m₁ := fun mb hmb => by
      have hload := quiet_clear (m := m) hl (Nat.le_refl _) mb.toNat (UInt8.lt_iff_toNat_lt.1 hmb)
      rw [UInt8.ofNat_toNat] at hload
      rw [ram_setMaxMsgBuffNum hmax]
      exact mbCode_zero hload
    have hrange : ((rxMailboxes inst).all fun r => decide (r.1 < maxMbNum)) = true := by
      unfold rxMailboxes
      split
      · decide
      · split <;> decide
    rw [← Option.some.inj hinit]
    exact List.foldlRecOn _ _ hclear fun m hq r hr =>
      quiet_configRxMb hl (of_decide_eq_true (List.all_eq_true.1 hrange r hr)) hq
  · cases hinit

end Quiet

/-! ## The configuration -/

theorem controller64_inSpace : controller64.InSpace := by
  unfold FlexcanType.InSpace
  decide

/-- The RAM of the configured controllers, 0 before the initialisation. -/
def ram64 (inst : UInt8) : Memory :=
  (rxMailboxes inst).foldl (fun m r => flexcanIpConfigRxMb controller64 m r.1 rxInfo r.2)
    ((List.range 16).foldl (fun m k => clearMsgBuff controller64 m (UInt32.ofNat k)) fun _ => 0)

theorem init_ram64 (inst : UInt8) : flexcanInitSkku controller64 inst (fun _ => 0) = some (ram64 inst) := rfl

/-- The polled mailboxes of `start_CAN`. -/
theorem rxp_polls {inst mb : UInt8} (h : rxp.Polls inst mb) : mb < 2 := by
  obtain ⟨i, hi, rfl⟩ := h
  have hall : (rxp.pollOrder.all fun r => decide (rxp.mb r.1 r.2 < 2)) = true := by decide
  exact of_decide_eq_true (List.all_eq_true.1 hall _ hi)

end CanTsn
