import CanTsnGateway.Mailbox.Receive

/-!
# Writing a message buffer

    FlexCAN_SetTxMsgBuff, then FlexCAN_GetMsgBuff: the frame comes back     (mailbox_round_trip)
    at no write but the last is the message buffer marked for sending          (marked_at_last)
    FlexCAN_Ip_Send writes past its message buffer ↔ dataLength is more than it has room for,
    with a low byte that is not                                              (send_stays_iff)
-/

namespace CanTsn

open ByteMemory

section RoundTrip

variable {t : FlexcanType} {m₀ m' m : Memory} {rfen isRemote : Bool} {maxMsgBuffNum idx msgId : UInt32}
  {cs : MsbuffCodeStatus} {bs : List UInt8}

/-- **A frame that is written and read back** has its identifier cut to the field and its
data padded to the next length that frames have. -/
theorem mailbox_round_trip (hspace : t.InSpace)
    (hsuccess : flexcanSetMaxMsgBuffNum t m₀ rfen maxMsgBuffNum = some (true, m')) (hidx : idx < maxMsgBuffNum)
    (hbs : bs.length = cs.dataLen.toNat) (hfits : cs.dataLen.toNat ≤ (flexcanGetMbPayloadSize t idx).toNat)
    (hcode : cs.code = txData ∨ cs.code = txRemote) (hlen : bs.length ≤ 64) (b : FlexcanIpMsgBuff) :
    (flexcanGetMsgBuffRam t (flexcanSetTxMsgBuff m (flexcanGetMsgBuffRegion t idx) cs msgId (some bs) isRemote) idx
      b).msgBuff = flexcanGetMsgBuff b (receivedFrame cs msgId bs hlen) := by
  have hp := room_of_idx hspace hsuccess hidx
  have hfit := fit_of_idx hspace hsuccess hidx
  have hd := delivers_setTxMsgBuff (m := m) msgId isRemote hbs hlen hfits hp hfit hcode
  exact getMsgBuff_eq b hd.id hd.data hd.prio hd.fits

end RoundTrip

/-- Nine bytes, padded to twelve. -/
theorem mailbox_round_trip_nine :
    (flexcanGetMsgBuffRam controller64 (flexcanSetTxMsgBuff (fun _ => 0) (flexcanGetMsgBuffRegion controller64 5)
      ⟨txData, .msgIdStd, 9, true, 0xAA, true⟩ 1 (some (List.replicate 9 7)) false) 5 .zero).msgBuff =
    flexcanGetMsgBuff .zero (receivedFrame ⟨txData, .msgIdStd, 9, true, 0xAA, true⟩ 1 (List.replicate 9 7) (by decide)) :=
  mailbox_round_trip controller64_inSpace
    (show flexcanSetMaxMsgBuffNum controller64 (fun _ => 0) false 16 = some (true, _) from rfl) (by decide) rfl (by decide)
    (Or.inl rfl) (by decide) .zero

/-! ## One write after the other -/

def applyWrites (m : Memory) (ws : List (UInt32 × List UInt8)) : Memory := ws.foldl (fun m w => write m w.1 w.2) m

/-- The writes of the copy. -/
def copyWrites (mb : UInt32) (cs : MsbuffCodeStatus) (bs : List UInt8) : List (UInt32 × List UInt8) :=
  let words := cs.dataLen.toNat / 4
  let payloadSize := (flexcanComputePayloadSize (flexcanComputeDlcValue cs.dataLen.toUInt8)).toNat
  (List.range words).map (fun k => (mb + 8 + UInt32.ofNat (4 * k), WordBytes.bytes (revBytes32 (msgWord bs k)))) ++
    (List.range' (4 * words) (cs.dataLen.toNat - 4 * words)).map (fun i => (mbByte mb (UInt32.ofNat i), [bs.getD i 0])) ++
    (List.range' cs.dataLen.toNat (payloadSize - cs.dataLen.toNat)).map
      (fun i => (mbByte mb (UInt32.ofNat i), [cs.fdPadding]))

/-- The two writes of the identifier, which first clear its field. -/
def idWrites (mb : UInt32) (id : UInt32) (msgIdType : MsgBuffIdType) (msgId : UInt32) : List (UInt32 × List UInt8) :=
  let mask := match msgIdType with
    | .msgIdExt => idStdMask ||| idExtMask
    | .msgIdStd => idStdMask
  [(mb + 4, WordBytes.bytes (id &&& ~~~mask)), (mb + 4, WordBytes.bytes (idWord id msgIdType msgId))]

/-- The writes of `FlexCAN_SetTxMsgBuff`. -/
def txWrites (mb : UInt32) (cs : MsbuffCodeStatus) (msgId : UInt32) (bs : List UInt8) (isRemote : Bool) :
    List (UInt32 × List UInt8) :=
  (mb, WordBytes.bytes (((txInactive &&& 0x1F) <<< csCodeShift) &&& csCodeMask)) ::
    ((mb + 4, WordBytes.bytes 0) :: (copyWrites mb cs bs ++ idWrites mb 0 cs.msgIdType msgId)) ++
    [(mb, WordBytes.bytes (txCodeWord cs isRemote))]

theorem applyWrites_append (m : Memory) (ws ws' : List (UInt32 × List UInt8)) :
    applyWrites m (ws ++ ws') = applyWrites (applyWrites m ws) ws' := List.foldl_append

theorem applyWrites_map {α : Type} (m : Memory) (l : List α) (f : α → UInt32 × List UInt8) :
    applyWrites m (l.map f) = l.foldl (fun m x => write m (f x).1 (f x).2) m := List.foldl_map

theorem write_singleton (m : Memory) (a : UInt32) (v : UInt8) : write m a [v] = Function.update m a v := by
  funext x
  unfold write
  by_cases hx : x = a
  · subst hx
    rw [Function.update_self, UInt32.sub_self]
    rfl
  · have hne : (x - a).toNat ≠ 0 := fun h => hx (by
      have hxlt := x.toNat_lt
      have halt := a.toNat_lt
      rw [UInt32.toNat_sub] at h
      exact UInt32.toNat_inj.1 (by omega))
    rw [Function.update_of_ne hx, List.getD_eq_getElem?_getD, List.getElem?_eq_none (by rw [List.length_singleton]; omega),
      Option.getD_none]

section Writes

variable {m : Memory} {mb msgId : UInt32} {cs : MsbuffCodeStatus} {bs : List UInt8} {isRemote : Bool} {p : Nat}

theorem applyWrites_copyWrites (m : Memory) (mb : UInt32) (cs : MsbuffCodeStatus) (bs : List UInt8) :
    applyWrites m (copyWrites mb cs bs) = copyTxData m mb cs bs := by
  unfold copyWrites copyTxData
  simp only [applyWrites_append, applyWrites_map, write_singleton]
  rfl

theorem applyWrites_idWrites (m : Memory) (mb id : UInt32) (msgIdType : MsgBuffIdType) (msgId : UInt32) :
    applyWrites m (idWrites mb id msgIdType msgId) = WordBytes.store m (mb + 4) (idWord id msgIdType msgId) :=
  write_write m (mb + 4) rfl

theorem setTxMsgBuff_eq_writes (m : Memory) (hlen : cs.dataLen.toNat ≤ p) (hp : p ∈ [8, 16, 32, 64])
    (hfit : mb.toNat + 8 + p ≤ 2 ^ 32) (hused : cs.code ≠ txNotUsed) :
    flexcanSetTxMsgBuff m mb cs msgId (some bs) isRemote = applyWrites m (txWrites mb cs msgId bs isRemote) := by
  have h8 : (8 : UInt32).toNat = 8 := rfl
  have h4 : (4 : UInt32).toNat = 4 := rfl
  obtain ⟨hp8, -, -⟩ := payload_bounds p hp
  have hbase : (mb + 8).toNat = mb.toNat + 8 := toNat_add_of_le (by omega)
  have hid : (mb + 4).toNat = mb.toNat + 4 := toNat_add_of_le (by omega)
  unfold flexcanSetTxMsgBuff
  simp only [if_pos hused]
  generalize hm₁ : WordBytes.store (WordBytes.store m mb _) (mb + 4) 0 = m₁
  have hcopy := sameOutside_copyTxData m₁ bs hlen hp hfit
  have hidword : WordBytes.load (copyTxData m₁ mb cs bs) (mb + 4) = 0 := by
    rw [load_of_sameOutside hcopy (Or.inr (by omega)), ← hm₁]
    exact WordBytes.load_store _ _ _
  rw [hidword, ← applyWrites_copyWrites, ← hm₁]
  unfold txWrites
  rw [applyWrites_append]
  show _ = applyWrites (applyWrites _ (copyWrites mb cs bs ++ _)) _
  rw [applyWrites_append, applyWrites_idWrites]
  rfl

/-- All writes but the first and the last leave the code alone. -/
theorem inner_writes (hlen : cs.dataLen.toNat ≤ p) (hp : p ∈ [8, 16, 32, 64]) (hfit : mb.toNat + 8 + p ≤ 2 ^ 32)
    {w : UInt32 × List UInt8} (hw : w ∈ (mb + 4, WordBytes.bytes 0) :: (copyWrites mb cs bs ++
      idWrites mb 0 cs.msgIdType msgId)) (m : Memory) :
    SameOutside m (write m w.1 w.2) (mb + 4) (4 + p) := by
  have h8 : (8 : UInt32).toNat = 8 := rfl
  have h4 : (4 : UInt32).toNat = 4 := rfl
  obtain ⟨hp8, hp64, -⟩ := payload_bounds p hp
  have hbase : (mb + 8).toNat = mb.toNat + 8 := toNat_add_of_le (by omega)
  have hid : (mb + 4).toNat = mb.toNat + 4 := toNat_add_of_le (by omega)
  have hpayload := payloadSize_dlcValue cs.dataLen.toNat (by omega)
  have hframe := (frameLength_bounds cs.dataLen.toNat (by omega)).2.2 p hp hlen
  have hidword : ∀ x, SameOutside m (write m (mb + 4) (WordBytes.bytes x)) (mb + 4) (4 + p) := fun x =>
    sameOutside_store (by omega) (by omega)
  have hbyte : ∀ i v, i < p → SameOutside m (write m (mbByte mb (UInt32.ofNat i)) [v]) (mb + 4) (4 + p) := fun i v hi => by
    rw [write_singleton]
    exact (sameOutside_update hi hp hfit).mono (by omega) (by omega)
  rw [UInt32.ofNat_toNat] at hpayload
  rcases List.mem_cons.1 hw with rfl | hw
  · exact hidword 0
  rcases List.mem_append.1 hw with hw | hw
  · unfold copyWrites at hw
    simp only [List.mem_append, List.mem_map] at hw
    rcases hw with (⟨k, hk, rfl⟩ | ⟨i, hi, rfl⟩) | ⟨i, hi, rfl⟩
    · have hlt := List.mem_range.1 hk
      have haddr : (mb + 8 + UInt32.ofNat (4 * k)).toNat = mb.toNat + 8 + 4 * k := by
        rw [toNat_add_ofNat (by omega), hbase]
      show SameOutside m (WordBytes.store m (mb + 8 + UInt32.ofNat (4 * k)) _) _ _
      exact (sameOutside_store (n := 4) (Nat.le_refl _) (by omega)).mono (by omega) (by omega)
    · have hlt := List.mem_range'_1.1 hi
      exact hbyte i _ (by omega)
    · have hlt := List.mem_range'_1.1 hi
      exact hbyte i _ (by omega)
  · unfold idWrites at hw
    simp only [List.mem_cons, List.not_mem_nil, or_false] at hw
    rcases hw with rfl | rfl <;> exact hidword _

/-- Before the last write the message buffer is inactive. -/
theorem inactive_before_last (hlen : cs.dataLen.toNat ≤ p) (hp : p ∈ [8, 16, 32, 64]) (hfit : mb.toNat + 8 + p ≤ 2 ^ 32)
    {pre : List (UInt32 × List UInt8)} (hpre : pre <+: txWrites mb cs msgId bs isRemote) (hne : pre ≠ [])
    (hproper : pre ≠ txWrites mb cs msgId bs isRemote) : mbCode (applyWrites m pre) mb = txInactive := by
  have h4 : (4 : UInt32).toNat = 4 := rfl
  obtain ⟨hp8, -, -⟩ := payload_bounds p hp
  have hid : (mb + 4).toNat = mb.toNat + 4 := toNat_add_of_le (by omega)
  have hinit := (List.prefix_concat_iff.1 hpre).resolve_left hproper
  obtain ⟨ws, rfl, hws⟩ := (List.prefix_cons_iff.1 hinit).resolve_left hne
  have hsame : ∀ m, SameOutside m (applyWrites m ws) (mb + 4) (4 + p) := fun m =>
    .foldl fun m w hw => inner_writes hlen hp hfit (hws.subset hw) m
  unfold mbCode
  show (WordBytes.load (applyWrites (WordBytes.store m mb _) ws) mb >>> 24) &&& 0xF = txInactive
  rw [load_of_sameOutside (hsame _) (Or.inr (by omega)), WordBytes.load_store]
  decide

end Writes

/-- **The last write marks the frame for sending.**  Up to it the controller has nothing to
send; after it the frame is complete. -/
theorem marked_at_last {t : FlexcanType} {m₀ m' m : Memory} {rfen isRemote : Bool} {maxMsgBuffNum idx msgId : UInt32}
    {cs : MsbuffCodeStatus} {bs : List UInt8} (hspace : t.InSpace)
    (hsuccess : flexcanSetMaxMsgBuffNum t m₀ rfen maxMsgBuffNum = some (true, m')) (hidx : idx < maxMsgBuffNum)
    (hbs : bs.length = cs.dataLen.toNat) (hfits : cs.dataLen.toNat ≤ (flexcanGetMbPayloadSize t idx).toNat)
    (hcode : cs.code = txData ∨ cs.code = txRemote) :
    (∀ pre, pre <+: txWrites (flexcanGetMsgBuffRegion t idx) cs msgId bs isRemote → pre ≠ [] →
      pre ≠ txWrites (flexcanGetMsgBuffRegion t idx) cs msgId bs isRemote →
        mbCode (applyWrites m pre) (flexcanGetMsgBuffRegion t idx) = txInactive) ∧
    applyWrites m (txWrites (flexcanGetMsgBuffRegion t idx) cs msgId bs isRemote) =
      flexcanSetTxMsgBuff m (flexcanGetMsgBuffRegion t idx) cs msgId (some bs) isRemote ∧
    mbCode (flexcanSetTxMsgBuff m (flexcanGetMsgBuffRegion t idx) cs msgId (some bs) isRemote)
      (flexcanGetMsgBuffRegion t idx) = txData ∧
    busFrame (flexcanSetTxMsgBuff m (flexcanGetMsgBuffRegion t idx) cs msgId (some bs) isRemote)
      (flexcanGetMsgBuffRegion t idx) = requestedFrame cs msgId bs isRemote := by
  have hp := room_of_idx hspace hsuccess hidx
  have hfit := fit_of_idx hspace hsuccess hidx
  have hused : cs.code ≠ txNotUsed := by rcases hcode with h | h <;> rw [h] <;> decide
  obtain ⟨hframe, htx, -⟩ := busFrame_setTxMsgBuff m msgId isRemote hbs hfits hp hfit hcode
  exact ⟨fun pre hpre hne hproper => inactive_before_last hfits hp hfit hpre hne hproper,
    (setTxMsgBuff_eq_writes m hfits hp hfit hused).symm, htx, hframe⟩

theorem marked_at_last_nine :
    busFrame (flexcanSetTxMsgBuff (fun _ => 0) (flexcanGetMsgBuffRegion controller64 5)
      ⟨txData, .msgIdStd, 9, true, 0xAA, true⟩ 1 (some (List.replicate 9 7)) false)
      (flexcanGetMsgBuffRegion controller64 5) =
    requestedFrame ⟨txData, .msgIdStd, 9, true, 0xAA, true⟩ 1 (List.replicate 9 7) false :=
  (marked_at_last (t := controller64) (m := fun _ => 0) controller64_inSpace
    (show flexcanSetMaxMsgBuffNum controller64 (fun _ => 0) false 16 = some (true, _) from rfl)
    (show (5 : UInt32) < 16 by decide) rfl (by decide) (Or.inl rfl)).2.2.2

/-! ## A length that the assertion lets through -/

section Overrun

variable {m : Memory} {mb msgId y : UInt32} {b : UInt8}

/-- One of the writes puts `b` there, and no other puts something else. -/
theorem foldl_fill {β : Type} {f : Memory → β → Memory} {l : List β} (hkeep : ∀ m, ∀ x ∈ l, m y = b → f m x y = b)
    (hset : m y = b ∨ ∃ x ∈ l, ∀ m, f m x y = b) : l.foldl f m y = b := by
  induction l generalizing m with
  | nil =>
    rcases hset with h | ⟨x, hx, _⟩
    · exact h
    · cases hx
  | cons x l ih =>
    refine ih (fun m z hz => hkeep m z (List.mem_cons_of_mem x hz)) ?_
    rcases hset with h | ⟨z, hz, hz'⟩
    · exact Or.inl (hkeep m x List.mem_cons_self h)
    · rcases List.mem_cons.1 hz with rfl | hz
      · exact Or.inl (hz' m)
      · exact Or.inr ⟨z, hz, hz'⟩

/-- A word of four equal bytes. -/
theorem store_fill (m : Memory) (a y : UInt32) (b : UInt8) :
    WordBytes.store m a (revBytes32 (WordBytes.ofBytes [b, b, b, b])) y = if (y - a).toNat < 4 then b else m y := by
  unfold WordBytes.store write
  rw [bytes_revBytes32, WordBytes.bytes_ofBytes]
  have hlen : [b, b, b, b].reverse = List.replicate 4 b := rfl
  rw [hlen, List.getD_eq_getElem?_getD, List.getElem?_replicate]
  split <;> rfl

theorem msgWord_replicate {n k : Nat} (hk : k < n / 4) :
    msgWord (List.replicate n b) k = WordBytes.ofBytes [b, b, b, b] := by
  have hmin : min 4 (n - 4 * k) = 4 := by omega
  unfold msgWord
  rw [List.drop_replicate, List.take_replicate, hmin]
  rfl

/-- Equal bytes fill what is behind the message buffer. -/
theorem copyTxData_fill {cs : MsbuffCodeStatus} {k : Nat} (hk : k < cs.dataLen.toNat / 4)
    (hlen : 64 ≤ cs.dataLen.toNat) :
    copyTxData m mb cs (List.replicate cs.dataLen.toNat b) (mb + 8 + UInt32.ofNat (4 * k)) = b := by
  have hpayload : (flexcanComputePayloadSize (flexcanComputeDlcValue cs.dataLen.toUInt8)).toNat ≤ 64 :=
    flexcanComputePayloadSize_le _
  have hnone : (flexcanComputePayloadSize (flexcanComputeDlcValue cs.dataLen.toUInt8)).toNat - cs.dataLen.toNat = 0 := by
    omega
  unfold copyTxData
  simp only [hnone, List.range'_zero, List.foldl_nil]
  refine foldl_fill (fun m i hi hb => ?_) (Or.inl (foldl_fill (fun m j hj hb => ?_) (Or.inr ⟨k, List.mem_range.2 hk,
    fun m => ?_⟩)))
  · have hlt := List.mem_range'_1.1 hi
    have hget : (List.replicate cs.dataLen.toNat b).getD i 0 = b := by
      rw [List.getD_eq_getElem?_getD, List.getElem?_replicate, if_pos (by omega)]
      rfl
    rw [hget]
    by_cases hx : mb + 8 + UInt32.ofNat (4 * k) = mbByte mb (UInt32.ofNat i)
    · rw [hx, Function.update_self]
    · rw [Function.update_of_ne hx, hb]
  · rw [msgWord_replicate (List.mem_range.1 hj), store_fill, hb, ite_self]
  · rw [msgWord_replicate hk, store_fill, UInt32.sub_self]
    rfl

/-- The two words leave it alone. -/
theorem setTxMsgBuff_fill {cs : MsbuffCodeStatus} {bs : List UInt8} {isRemote : Bool} (hfit : mb.toNat + 8 ≤ 2 ^ 32)
    (hy : y.toNat < mb.toNat ∨ mb.toNat + 8 ≤ y.toNat) (hcopy : ∀ m, copyTxData m mb cs bs y = b) :
    flexcanSetTxMsgBuff m mb cs msgId (some bs) isRemote y = b := by
  have h4 : (4 : UInt32).toNat = 4 := rfl
  have hid : (mb + 4).toNat = mb.toNat + 4 := toNat_add_of_le (by omega)
  have hcode : ∀ m x, WordBytes.store m mb x y = m y := fun m x =>
    sameOutside_store (n := 4) (Nat.le_refl _) (by omega) y (by omega)
  have hidword : ∀ m x, WordBytes.store m (mb + 4) x y = m y := fun m x =>
    sameOutside_store (n := 4) (Nat.le_refl _) (by omega) y (by omega)
  unfold flexcanSetTxMsgBuff
  simp only
  split
  · rw [hcode, hidword, hcopy]
  · rw [hidword, hcopy]

theorem exists_ne_byte (x : UInt8) : ∃ b : UInt8, b ≠ x := by
  by_cases hx : x = 0
  · exact ⟨1, by rw [hx]; decide⟩
  · exact ⟨0, Ne.symm hx⟩

/-- A frame of more than 255 equal bytes fills the first byte behind the message buffer. -/
theorem setTxMsgBuff_overruns {cs : MsbuffCodeStatus} {isRemote : Bool} {p : Nat} (m : Memory) (b : UInt8)
    (hp : p ∈ [8, 16, 32, 64]) (hfit : mb.toNat + 8 + p ≤ 2 ^ 32) (hlong : 256 ≤ cs.dataLen.toNat)
    (hy : y = mb + 8 + UInt32.ofNat (4 * (p / 4))) :
    (y.toNat < mb.toNat ∨ mb.toNat + (8 + p) ≤ y.toNat) ∧
      flexcanSetTxMsgBuff m mb cs msgId (some (List.replicate cs.dataLen.toNat b)) isRemote y = b := by
  have h8 : (8 : UInt32).toNat = 8 := rfl
  obtain ⟨hp8, hp64, hp4⟩ := payload_bounds p hp
  have haddr : y.toNat = (mb.toNat + 8 + p) % 2 ^ 32 := by
    rw [hy, hp4, UInt32.toNat_add, UInt32.toNat_add, UInt32.toNat_ofNat', h8]
    omega
  refine ⟨by omega, setTxMsgBuff_fill (by omega) (by omega) fun m => ?_⟩
  rw [hy]
  exact copyTxData_fill (by omega) (by omega)

end Overrun

section Send

variable {t : UInt8 → FlexcanType} {s : CanNode} {inst mb : UInt8} {m ram : Memory}

/-- An idle message buffer takes a request. -/
theorem send_taken {info : DataInfo} (msgId : UInt32) (bs : List UInt8) (hmb : mb < maxMbNum)
    (hidle : (s.rx.mbs inst mb).state = .idle)
    (hassert : info.dataLength.toUInt8 ≤ flexcanGetMbPayloadSize (t inst) mb.toUInt32) :
    ∃ s', s.flexcanIpSend t inst mb info msgId (some bs) = some (.success, s') ∧
      s'.ram inst = flexcanSetTxMsgBuff (s.ram inst) (mbRegion (t inst) mb) info.codeStatus msgId (some bs) false := by
  rcases send_cases s msgId (some bs) hassert with ⟨result, -, -, hrange | hbusy⟩ | ⟨s', heq, heff⟩
  · exact absurd (of_decide_eq_true hrange) (UInt8.not_le.2 hmb)
  · exact absurd hidle hbusy
  · refine ⟨s', heq, ?_⟩
    rw [heff.ram]
    exact if_pos rfl

/-- **A request stays in its message buffer** exactly if there is room for its length.  The
assertion compares the low byte of the length only. -/
theorem send_stays_iff (info : DataInfo) (msgId : UInt32) (hspace : (t inst).InSpace)
    (hinit : flexcanInitSkku (t inst) inst m = some ram) (hmb : mb < maxMbNum)
    (hidle : (s.rx.mbs inst mb).state = .idle)
    (hassert : info.dataLength.toUInt8 ≤ flexcanGetMbPayloadSize (t inst) mb.toUInt32) :
    (∀ bs : List UInt8, bs.length = info.dataLength.toNat →
      ∃ s', s.flexcanIpSend t inst mb info msgId (some bs) = some (.success, s') ∧
        SameOutside (s.ram inst) (s'.ram inst) (mbRegion (t inst) mb) (8 + mbRoom (t inst) mb)) ↔
    info.dataLength.toNat ≤ mbRoom (t inst) mb := by
  have hl := (init_spec hspace hinit).1
  have hp := hl.room mb hmb
  have hfit := hl.fit mb hmb
  constructor
  · intro hstays
    by_contra hlong
    have hlow : info.dataLength.toNat % 2 ^ 8 ≤ mbRoom (t inst) mb := by
      rw [← UInt32.toNat_toUInt8]
      exact UInt8.le_iff_toNat_le.1 hassert
    have hlen : 256 ≤ info.codeStatus.dataLen.toNat := show 256 ≤ info.dataLength.toNat by
      have hp64 := (payload_bounds _ hp).2.1
      omega
    -- the first byte behind the message buffer, and a value that it does not have
    generalize hy : mbRegion (t inst) mb + 8 + UInt32.ofNat (4 * (mbRoom (t inst) mb / 4)) = y
    obtain ⟨b, hb⟩ := exists_ne_byte (s.ram inst y)
    obtain ⟨s', heq, hsame⟩ := hstays (List.replicate info.dataLength.toNat b) List.length_replicate
    obtain ⟨s'', heq', hram⟩ := send_taken msgId (List.replicate info.dataLength.toNat b) hmb hidle hassert
    obtain rfl : s' = s'' := congrArg Prod.snd (Option.some.inj (heq.symm.trans heq'))
    obtain ⟨hout, hfill⟩ := setTxMsgBuff_overruns (s.ram inst) b hp hfit hlen hy.symm
    exact hb ((hfill.symm.trans (congrFun hram y).symm).trans (hsame y hout))
  · intro hfits bs hbs
    obtain ⟨s', heq, hram⟩ := send_taken msgId bs hmb hidle hassert
    refine ⟨s', heq, ?_⟩
    rw [hram]
    exact sameOutside_setTxMsgBuff hfits hp hfit

end Send

/-- A request for 256 bytes passes the assertion and does not stay. -/
theorem send_stays_256 :
    ¬ ∀ bs : List UInt8, bs.length = 256 →
      ∃ s', (CanNode.start rxp .zero 64 ram64).flexcanIpSend (fun _ => controller64) 0 4
          { txInfo with dataLength := 256 } 1 (some bs) = some (.success, s') ∧
        SameOutside (ram64 0) (s'.ram 0) (mbRegion controller64 4) (8 + mbRoom controller64 4) := fun h =>
  absurd ((send_stays_iff (t := fun _ => controller64) (s := CanNode.start rxp .zero 64 ram64) { txInfo with dataLength := 256 }
    1 controller64_inSpace (init_ram64 0) (show (4 : UInt8) < maxMbNum by decide) rfl (by decide)).1 h) (by decide +kernel)

end CanTsn
