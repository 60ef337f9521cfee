import CanTsnGateway.Mailbox.Format
import CanTsnGateway.Model.FlexCan

/-!
# What the driver writes and what it reads

    FlexCAN_SetTxMsgBuff → the controller finds the frame of the request   (busFrame_setTxMsgBuff)
    the controller delivers a frame → FlexCAN_GetMsgBuff reads it                  (getMsgBuff_eq)

Neither writes outside its message buffer.
-/

namespace CanTsn

open ByteMemory

/-! ## Fields -/

/-- The lengths that frames have. -/
def frameLengths : List Nat := [0, 1, 2, 3, 4, 5, 6, 7, 8, 12, 16, 20, 24, 32, 48, 64]

/-- The shortest frame for `n` bytes. -/
def frameLength (n : Nat) : Nat := (frameLengths.find? (n ≤ ·)).getD 0

/-- The frame that a request asks for. -/
def requestedFrame (cs : MsbuffCodeStatus) (msgId : UInt32) (msgData : List UInt8) (isRemote : Bool) : BusFrame where
  ide := cs.msgIdType = .msgIdExt
  id := if cs.msgIdType = .msgIdExt then msgId &&& 0x1FFFFFFF else msgId &&& 0x7FF
  rtr := (cs.code = txRemote ∨ isRemote) ∧ ¬ cs.fdEnable
  fd := cs.fdEnable
  brs := cs.enableBrs
  data := msgData ++ List.replicate (frameLength msgData.length - msgData.length) cs.fdPadding

theorem payloadSize_dlcValue : ∀ n ≤ 64,
    (flexcanComputePayloadSize (flexcanComputeDlcValue (UInt32.ofNat n).toUInt8)).toNat = frameLength n := by
  decide +kernel

theorem frameLength_bounds : ∀ n ≤ 64, n ≤ frameLength n ∧ frameLength n ≤ 64 ∧
    ∀ p ∈ [8, 16, 32, 64], n ≤ p → frameLength n ≤ p := by
  decide +kernel

theorem payloadSize_of_dlc : ∀ d < 16,
    (flexcanComputePayloadSize (UInt32.ofNat d).toUInt8).toNat = busLength (UInt32.ofNat d) := by
  decide +kernel

/-- What the code and status word says. -/
structure CodeWord (w : UInt32) (cs : MsbuffCodeStatus) (isRemote : Bool) : Prop where
  ide : decide (w &&& csIdeMask ≠ 0) = decide (cs.msgIdType = .msgIdExt)
  rtr : decide (w &&& csRtrMask ≠ 0) = decide ((cs.code = txRemote ∨ isRemote) ∧ ¬ cs.fdEnable)
  fd : decide (w &&& mbEdlMask ≠ 0) = cs.fdEnable
  brs : decide (w &&& mbBrsMask ≠ 0) = cs.enableBrs
  length : busLength ((w >>> 16) &&& 0xF) = frameLength cs.dataLen.toNat
  code : (w >>> 24) &&& 0xF = txData

instance (w : UInt32) (cs : MsbuffCodeStatus) (isRemote : Bool) : Decidable (CodeWord w cs isRemote) :=
  decidable_of_iff (_ ∧ _ ∧ _ ∧ _ ∧ _ ∧ _)
    ⟨fun ⟨h₁, h₂, h₃, h₄, h₅, h₆⟩ => ⟨h₁, h₂, h₃, h₄, h₅, h₆⟩,
     fun h => ⟨h.ide, h.rtr, h.fd, h.brs, h.length, h.code⟩⟩

/-- A length has the length code of its frame. -/
theorem dlcValue_frameLength : ∀ n ≤ 64, frameLength n ∈ frameLengths ∧ frameLength (frameLength n) = frameLength n ∧
    flexcanComputeDlcValue (UInt32.ofNat (frameLength n)).toUInt8 = flexcanComputeDlcValue (UInt32.ofNat n).toUInt8 := by
  decide +kernel

theorem codeWord_table {code : UInt32} (hcode : code = txData ∨ code = txRemote) (fd brs isRemote : Bool) :
    ∀ n ∈ frameLengths, ∀ idType ∈ [MsgBuffIdType.msgIdStd, .msgIdExt],
      CodeWord (txCodeWord ⟨code, idType, UInt32.ofNat n, fd, 0, brs⟩ isRemote)
        ⟨code, idType, UInt32.ofNat n, fd, 0, brs⟩ isRemote := by
  rcases hcode with rfl | rfl <;> cases fd <;> cases brs <;> cases isRemote <;> decide +kernel

theorem codeWord_txCodeWord {cs : MsbuffCodeStatus} (isRemote : Bool) (hlen : cs.dataLen.toNat ≤ 64)
    (hcode : cs.code = txData ∨ cs.code = txRemote) : CodeWord (txCodeWord cs isRemote) cs isRemote := by
  have hid : cs.msgIdType ∈ [MsgBuffIdType.msgIdStd, .msgIdExt] := by cases cs.msgIdType <;> decide
  obtain ⟨hframe, hlength, hdlc⟩ := dlcValue_frameLength cs.dataLen.toNat hlen
  have h := codeWord_table hcode cs.fdEnable cs.enableBrs isRemote _ hframe cs.msgIdType hid
  rw [UInt32.ofNat_toNat] at hdlc
  -- the word depends on the length through its code only
  have hword : txCodeWord ⟨cs.code, cs.msgIdType, UInt32.ofNat (frameLength cs.dataLen.toNat), cs.fdEnable, 0, cs.enableBrs⟩
      isRemote = txCodeWord cs isRemote := by
    unfold txCodeWord txConfig
    simp only [hdlc]
  have hnat : (UInt32.ofNat (frameLength cs.dataLen.toNat)).toNat = frameLength cs.dataLen.toNat := by
    have hle := (frameLength_bounds cs.dataLen.toNat hlen).2.1
    rw [UInt32.toNat_ofNat', Nat.mod_eq_of_lt (by omega)]
  rw [hword] at h
  refine ⟨h.ide, h.rtr, h.fd, h.brs, ?_, h.code⟩
  rw [h.length, hnat, hlength]

/-- The identifier comes back from where it is put. -/
theorem id_idWord (idType : MsgBuffIdType) (msgId : UInt32) :
    (if idType = .msgIdExt then idWord 0 idType msgId &&& 0x1FFFFFFF else (idWord 0 idType msgId >>> 18) &&& 0x7FF) =
      if idType = .msgIdExt then msgId &&& 0x1FFFFFFF else msgId &&& 0x7FF := by
  cases idType with
  | msgIdExt =>
    apply UInt32.toBitVec_inj.1
    simp [idWord, idStdMask, idExtMask, BitVec.and_assoc]
  | msgIdStd =>
    apply UInt32.toBitVec_inj.1
    apply BitVec.eq_of_getLsbD_eq
    intro i hi
    interval_cases i <;> simp [idWord, idStdMask, idStdShift]

theorem idWord_lt (idType : MsgBuffIdType) (msgId : UInt32) : (idWord 0 idType msgId).toNat < 2 ^ 29 := by
  have hmask : ∀ x mask : UInt32, mask.toNat < 2 ^ 29 → (x &&& mask).toNat < 2 ^ 29 := fun x mask h => by
    rw [UInt32.toNat_and]
    exact Nat.lt_of_le_of_lt Nat.and_le_right h
  have hzero : ∀ x mask : UInt32, (0 &&& mask) ||| x = x := fun x mask => by rw [UInt32.zero_and, UInt32.zero_or]
  cases idType with
  | msgIdExt =>
    unfold idWord
    simp only [hzero]
    exact hmask _ _ (by decide)
  | msgIdStd =>
    unfold idWord
    simp only [hzero]
    exact hmask _ _ (by decide)

/-! ## Sending -/

section Sending

variable {m : Memory} {mb : UInt32} {cs : MsbuffCodeStatus} {msgId : UInt32} {bs : List UInt8} {isRemote : Bool} {p : Nat}

theorem toNat_add_of_le {a x : UInt32} (h : a.toNat + x.toNat < 2 ^ 32) : (a + x).toNat = a.toNat + x.toNat := by
  rw [UInt32.toNat_add]
  exact Nat.mod_eq_of_lt h

/-- A data area has whole words. -/
theorem payload_bounds : ∀ p ∈ [8, 16, 32, 64], 8 ≤ p ∧ p ≤ 64 ∧ 4 * (p / 4) = p := by decide

theorem sameOutside_update {i : Nat} {v : UInt8} (hi : i < p) (hp : p ∈ [8, 16, 32, 64])
    (hfit : mb.toNat + 8 + p ≤ 2 ^ 32) :
    SameOutside m (Function.update m (mbByte mb (UInt32.ofNat i)) v) (mb + 8) p := by
  have h8 : (8 : UInt32).toNat = 8 := rfl
  obtain ⟨hp8, hp64, hp4⟩ := payload_bounds p hp
  have hpos := bytePos_lt (n := p / 4) (j := i) (by omega)
  have hbase : (mb + 8).toNat = mb.toNat + 8 := toNat_add_of_le (by omega)
  have haddr : (mb + 8 + UInt32.ofNat (bytePos i)).toNat = mb.toNat + 8 + bytePos i := by
    rw [toNat_add_ofNat (by omega), hbase]
  rw [mbByte_eq mb (by omega)]
  exact .of_update (by omega) (by omega)

theorem sameOutside_store {a x : UInt32} {n : Nat} (hn : 4 ≤ n) (hfit : a.toNat + n ≤ 2 ^ 32) :
    SameOutside m (WordBytes.store m a x) a n :=
  .of_write hn hfit

theorem sameOutside_copyTxData (m : Memory) (bs : List UInt8) (hlen : cs.dataLen.toNat ≤ p) (hp : p ∈ [8, 16, 32, 64])
    (hfit : mb.toNat + 8 + p ≤ 2 ^ 32) : SameOutside m (copyTxData m mb cs bs) (mb + 8) p := by
  have h8 : (8 : UInt32).toNat = 8 := rfl
  obtain ⟨hp8, hp64, -⟩ := payload_bounds p hp
  have hpayload := payloadSize_dlcValue cs.dataLen.toNat (by omega)
  have hframe := (frameLength_bounds cs.dataLen.toNat (by omega)).2.2 p hp hlen
  have hbase : (mb + 8).toNat = mb.toNat + 8 := toNat_add_of_le (by omega)
  rw [UInt32.ofNat_toNat] at hpayload
  unfold copyTxData
  simp only
  rw [hpayload]
  refine (SameOutside.foldl fun m k hk => ?_).trans ((SameOutside.foldl fun m i hi => ?_).trans
    (SameOutside.foldl fun m i hi => ?_))
  · have hlt := List.mem_range.1 hk
    have haddr : (mb + 8 + UInt32.ofNat (4 * k)).toNat = mb.toNat + 8 + 4 * k := by
      rw [toNat_add_ofNat (by omega), hbase]
    exact (sameOutside_store (n := 4) (Nat.le_refl _) (by omega)).mono (by omega) (by omega)
  · have hlt := List.mem_range'_1.1 hi
    exact sameOutside_update (by omega) hp hfit
  · have hlt := List.mem_range'_1.1 hi
    exact sameOutside_update (by omega) hp hfit

/-- **A request stays in its message buffer.** -/
theorem sameOutside_setTxMsgBuff (hlen : cs.dataLen.toNat ≤ p) (hp : p ∈ [8, 16, 32, 64])
    (hfit : mb.toNat + 8 + p ≤ 2 ^ 32) :
    SameOutside m (flexcanSetTxMsgBuff m mb cs msgId (some bs) isRemote) mb (8 + p) := by
  have h8 : (8 : UInt32).toNat = 8 := rfl
  have h4 : (4 : UInt32).toNat = 4 := rfl
  obtain ⟨hp8, -, -⟩ := payload_bounds p hp
  have hbase : (mb + 8).toNat = mb.toNat + 8 := toNat_add_of_le (by omega)
  have hid : (mb + 4).toNat = mb.toNat + 4 := toNat_add_of_le (by omega)
  have hcode : ∀ m x, SameOutside m (WordBytes.store m mb x) mb (8 + p) := fun m x =>
    sameOutside_store (by omega) (by omega)
  have hidword : ∀ m x, SameOutside m (WordBytes.store m (mb + 4) x) mb (8 + p) := fun m x =>
    (sameOutside_store (n := 4) (Nat.le_refl _) (by omega)).mono (by omega) (by omega)
  have hcopy : ∀ m, SameOutside m (copyTxData m mb cs bs) mb (8 + p) := fun m =>
    (sameOutside_copyTxData m bs hlen hp hfit).mono (by omega) (by omega)
  unfold flexcanSetTxMsgBuff
  simp only
  have hwritten := ((hcode m (((txInactive &&& 0x1F) <<< csCodeShift) &&& csCodeMask)).trans (hidword _ 0)).trans (hcopy _)
  split
  · exact (hwritten.trans (hidword _ _)).trans (hcode _ _)
  · exact hwritten.trans (hidword _ _)

theorem load_of_sameOutside {m m' : Memory} {a b : UInt32} {n : Nat} (h : SameOutside m m' a n) (hab : Apart a n b 4) :
    WordBytes.load m' b = WordBytes.load m b := by
  unfold WordBytes.load
  rw [h.read_eq hab]

theorem mbData_of_sameOutside {m m' : Memory} {a : UInt32} {n j : Nat} (h : SameOutside m m' a n)
    (hab : Apart a n (mb + 8) p) (hp : 4 * (p / 4) = p) (hj : j < p) : mbData m' mb j = mbData m mb j :=
  h.apply hab (by have := bytePos_lt (n := p / 4) (j := j) (by omega); omega)

/-- The data area after the copy. -/
theorem map_mbData_copyTxData (m : Memory) (mb : UInt32) (hbs : bs.length = cs.dataLen.toNat) (hlen : cs.dataLen.toNat ≤ 64) :
    (List.range (frameLength cs.dataLen.toNat)).map (mbData (copyTxData m mb cs bs) mb) =
      bs ++ List.replicate (frameLength bs.length - bs.length) cs.fdPadding := by
  obtain ⟨hframe, hframe64, -⟩ := frameLength_bounds cs.dataLen.toNat hlen
  have hpayload := payloadSize_dlcValue cs.dataLen.toNat hlen
  rw [UInt32.ofNat_toNat] at hpayload
  apply List.ext_getElem
  · rw [List.length_map, List.length_range, List.length_append, List.length_replicate, hbs]
    omega
  · intro j hj _
    rw [List.length_map, List.length_range] at hj
    rw [List.getElem_map, List.getElem_range, mbData_copyTxData (by omega) hbs hlen, List.getElem_append]
    by_cases hlt : j < cs.dataLen.toNat
    · rw [if_pos hlt, dif_pos (by omega), List.getD_eq_getElem?_getD, List.getElem?_eq_getElem (by omega)]
      rfl
    · rw [if_neg hlt, dif_neg (by omega), if_pos (by omega), List.getElem_replicate]

/-- **What the controller finds** in the message buffer is the frame that was asked for. -/
theorem busFrame_setTxMsgBuff (m : Memory) (msgId : UInt32) (isRemote : Bool) (hbs : bs.length = cs.dataLen.toNat) (hlen : cs.dataLen.toNat ≤ p)
    (hp : p ∈ [8, 16, 32, 64]) (hfit : mb.toNat + 8 + p ≤ 2 ^ 32) (hcode : cs.code = txData ∨ cs.code = txRemote) :
    busFrame (flexcanSetTxMsgBuff m mb cs msgId (some bs) isRemote) mb = requestedFrame cs msgId bs isRemote ∧
      mbCode (flexcanSetTxMsgBuff m mb cs msgId (some bs) isRemote) mb = txData ∧
      (WordBytes.load (flexcanSetTxMsgBuff m mb cs msgId (some bs) isRemote) (mb + 4)).toNat < 2 ^ 29 := by
  have h8 : (8 : UInt32).toNat = 8 := rfl
  have h4 : (4 : UInt32).toNat = 4 := rfl
  obtain ⟨hp8, hp64, hp4⟩ := payload_bounds p hp
  have hframe := (frameLength_bounds cs.dataLen.toNat (by omega)).2.2 p hp hlen
  have hbase : (mb + 8).toNat = mb.toNat + 8 := toNat_add_of_le (by omega)
  have hid : (mb + 4).toNat = mb.toNat + 4 := toNat_add_of_le (by omega)
  have hword := codeWord_txCodeWord isRemote (by omega) hcode
  have hide : txCodeWord cs isRemote &&& csIdeMask ≠ 0 ↔ cs.msgIdType = .msgIdExt := decide_eq_decide.1 hword.ide
  have hused : cs.code ≠ txNotUsed := by rcases hcode with h | h <;> rw [h] <;> decide
  unfold flexcanSetTxMsgBuff
  simp only [if_pos hused]
  -- the memory before the copy, after it, with the identifier and with the code
  generalize hm₁ : WordBytes.store (WordBytes.store m mb _) (mb + 4) 0 = m₁
  have hcopy := sameOutside_copyTxData m₁ bs hlen hp hfit
  have hdata := map_mbData_copyTxData m₁ mb hbs (by omega)
  generalize copyTxData m₁ mb cs bs = m₂ at hcopy hdata ⊢
  have hidword : WordBytes.load m₂ (mb + 4) = 0 := by
    rw [load_of_sameOutside hcopy (Or.inr (by omega)), ← hm₁]
    exact WordBytes.load_store _ _ _
  rw [hidword]
  have hstoreid := sameOutside_store (m := m₂) (a := mb + 4) (x := idWord 0 cs.msgIdType msgId) (n := 4) (Nat.le_refl _)
    (by omega)
  have hloadid := WordBytes.load_store m₂ (mb + 4) (idWord 0 cs.msgIdType msgId)
  generalize WordBytes.store m₂ (mb + 4) (idWord 0 cs.msgIdType msgId) = m₃ at hstoreid hloadid ⊢
  have hstorecs := sameOutside_store (m := m₃) (a := mb) (x := txCodeWord cs isRemote) (n := 4) (Nat.le_refl _) (by omega)
  have hloadcs := WordBytes.load_store m₃ mb (txCodeWord cs isRemote)
  generalize WordBytes.store m₃ mb (txCodeWord cs isRemote) = m₄ at hstorecs hloadcs ⊢
  have hloadid' : WordBytes.load m₄ (mb + 4) = idWord 0 cs.msgIdType msgId :=
    (load_of_sameOutside hstorecs (Or.inl (by omega))).trans hloadid
  have hbytes : (List.range (frameLength cs.dataLen.toNat)).map (mbData m₄ mb) =
      bs ++ List.replicate (frameLength bs.length - bs.length) cs.fdPadding := by
    rw [← hdata]
    refine List.map_congr_left fun j hj => ?_
    have hlt := List.mem_range.1 hj
    rw [mbData_of_sameOutside hstorecs (Or.inl (by omega)) hp4 (by omega),
      mbData_of_sameOutside hstoreid (Or.inl (by omega)) hp4 (by omega)]
  refine ⟨?_, ?_, hloadid' ▸ idWord_lt cs.msgIdType msgId⟩
  · unfold busFrame requestedFrame
    simp only [hloadcs, hloadid', hword.ide, hword.rtr, hword.fd, hword.brs, hword.length, hbytes]
    congr 1
    exact (if_congr hide rfl rfl).trans (id_idWord cs.msgIdType msgId)
  · unfold mbCode
    rw [hloadcs]
    exact hword.code

end Sending

/-! ## Receiving -/

section Receiving

variable {m m' : Memory} {mb : UInt32} {n : Nat} {f : CanFrame}

theorem dlc_field (w : UInt32) : (w &&& csDlcMask) >>> csDlcShift = (w >>> 16) &&& 0xF := by
  apply UInt32.toBitVec_inj.1
  apply BitVec.eq_of_getLsbD_eq
  intro i hi
  interval_cases i <;> simp [csDlcMask, csDlcShift]

theorem toNat_and_mask (x : UInt32) (k : Nat) (hk : k < 32) :
    (x &&& UInt32.ofNat (2 ^ k - 1)).toNat = x.toNat % 2 ^ k := by
  have hpow : 2 ^ k < 2 ^ 32 := Nat.pow_lt_pow_right (by decide) hk
  rw [UInt32.toNat_and, UInt32.toNat_ofNat', Nat.mod_eq_of_lt (by omega), Nat.and_two_pow_sub_one_eq_mod]

/-- The length that the driver reads, where the message buffer has room for the frame. -/
theorem payloadToRead_eq (w : UInt32) (p : UInt8) (hfit : busLength ((w >>> 16) &&& 0xF) ≤ p.toNat) :
    (payloadToRead w p).toNat = busLength ((w >>> 16) &&& 0xF) := by
  have hd : ((w >>> 16) &&& 0xF).toNat < 16 := by
    have := toNat_and_mask (w >>> 16) 4 (by decide)
    exact this ▸ Nat.mod_lt _ (by decide)
  have hlen := payloadSize_of_dlc ((w >>> 16) &&& 0xF).toNat hd
  rw [UInt32.ofNat_toNat] at hlen
  unfold payloadToRead
  rw [dlc_field]
  simp only
  rw [if_neg (UInt8.not_lt.2 (UInt8.le_iff_toNat_le.2 (by omega))), hlen]

/-- **What the driver reads** is the frame that the controller has delivered. -/
theorem getMsgBuff_eq {t : FlexcanType} {idx : UInt32} (b : FlexcanIpMsgBuff)
    (hid : (busFrame m (flexcanGetMsgBuffRegion t idx)).id = f.msgId)
    (hdata : (busFrame m (flexcanGetMsgBuffRegion t idx)).data = f.data)
    (hprio : (WordBytes.load m (flexcanGetMsgBuffRegion t idx + 4)).toNat < 2 ^ 29)
    (hfits : f.data.length ≤ (flexcanGetMbPayloadSize t idx).toNat) :
    (flexcanGetMsgBuffRam t m idx b).msgBuff = flexcanGetMsgBuff b f := by
  generalize hmb : flexcanGetMsgBuffRegion t idx = mb at *
  have hlen : busLength ((WordBytes.load m mb >>> 16) &&& 0xF) = f.data.length := by
    rw [← hdata]
    simp [busFrame]
  have hpayload := payloadToRead_eq (WordBytes.load m mb) (flexcanGetMbPayloadSize t idx) (by omega)
  have hn : (payloadToRead (WordBytes.load m mb) (flexcanGetMbPayloadSize t idx)).toNat = f.data.length :=
    hpayload.trans hlen
  have hread : readMbData m mb f.data.length = f.data := by
    rw [readMbData_eq m mb f.length_le]
    conv_rhs => rw [← hdata]
    unfold busFrame
    simp only [hlen]
  have hmsgid : (if WordBytes.load m mb &&& csIdeMask ≠ 0 then WordBytes.load m (mb + 4)
      else WordBytes.load m (mb + 4) >>> idStdShift) = f.msgId := by
    rw [← hid]
    unfold busFrame
    simp only
    split
    · apply UInt32.toNat_inj.1
      exact ((toNat_and_mask _ 29 (by decide)).trans (Nat.mod_eq_of_lt hprio)).symm
    · apply UInt32.toNat_inj.1
      have hshift : (WordBytes.load m (mb + 4) >>> 18).toNat = (WordBytes.load m (mb + 4)).toNat / 2 ^ 18 := by
        rw [UInt32.toNat_shiftRight, Nat.shiftRight_eq_div_pow]
        rfl
      have hlt : (WordBytes.load m (mb + 4) >>> 18).toNat < 2 ^ 11 := by omega
      exact ((toNat_and_mask _ 11 (by decide)).trans (Nat.mod_eq_of_lt hlt)).symm
  unfold flexcanGetMsgBuffRam flexcanGetMsgBuff
  simp only [hmb, hmsgid, hn, hread]
  congr 1
  rw [← hn, Nat.toUInt8_eq, UInt8.ofNat_toNat]

end Receiving

/-! ## From one to the other -/

section RoundTrip

variable {cs : MsbuffCodeStatus} {bs : List UInt8} {p : Nat}

theorem length_requestedFrame (msgId : UInt32) (isRemote : Bool) (hlen : bs.length ≤ 64) :
    (requestedFrame cs msgId bs isRemote).data.length = frameLength bs.length := by
  have hframe := (frameLength_bounds bs.length hlen).1
  unfold requestedFrame
  rw [List.length_append, List.length_replicate]
  omega

/-- The frame that a receiver reads. -/
def receivedFrame (cs : MsbuffCodeStatus) (msgId : UInt32) (bs : List UInt8) (hlen : bs.length ≤ 64) : CanFrame where
  msgId := (requestedFrame cs msgId bs false).id
  data := (requestedFrame cs msgId bs false).data
  length_le := by
    rw [length_requestedFrame msgId false hlen]
    exact (frameLength_bounds bs.length hlen).2.1

/-- A request puts its frame into the message buffer like a controller that delivers it. -/
theorem delivers_setTxMsgBuff {m : Memory} {mb : UInt32} (msgId : UInt32) (isRemote : Bool) (hbs : bs.length = cs.dataLen.toNat)
    (hlen64 : bs.length ≤ 64) (hlen : cs.dataLen.toNat ≤ p) (hp : p ∈ [8, 16, 32, 64])
    (hfit : mb.toNat + 8 + p ≤ 2 ^ 32) (hcode : cs.code = txData ∨ cs.code = txRemote) :
    Delivers m mb p (receivedFrame cs msgId bs hlen64) (flexcanSetTxMsgBuff m mb cs msgId (some bs) isRemote) := by
  obtain ⟨hframe, -, hprio⟩ := busFrame_setTxMsgBuff m msgId isRemote hbs hlen hp hfit hcode
  refine ⟨by rw [hframe]; rfl, by rw [hframe]; rfl, hprio, ?_, sameOutside_setTxMsgBuff hlen hp hfit⟩
  show (requestedFrame cs msgId bs false).data.length ≤ p
  rw [length_requestedFrame msgId false hlen64, hbs]
  exact (frameLength_bounds _ (hbs ▸ hlen64)).2.2 p hp hlen

end RoundTrip

end CanTsn
