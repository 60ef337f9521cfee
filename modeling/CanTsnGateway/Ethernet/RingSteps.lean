import Mathlib.Data.List.GetD
import CanTsnGateway.Ethernet.Descriptors

/-!
# What happens to a ring

One lemma for each event: a descriptor is granted, filled, given to the DMA, given back,
confirmed.  Each says that `DescsOk` holds with the new marks.
-/

namespace CanTsn

open ByteMemory Ring

section Steps

variable {buffer : UInt8 → UInt32} {f : UInt8} {frames : List (List UInt8)} {r : TxRing} {m : Marks}
  {pc : Option TransmitPc}

theorem Marks.granted_confirm (m : Marks) (pc : Option TransmitPc) : m.confirm.granted pc = m.granted pc := by
  cases pc <;> rfl

theorem Marks.sent_confirm (m : Marks) (pc : Option TransmitPc) : m.confirm.sent pc = m.sent pc := by
  rcases pc with - | pc
  · rfl
  · cases pc <;> rfl

/-- While `Eth_Transmit` is under way its frame is granted and not yet sent. -/
theorem Marks.marks_of_ne (m : Marks) {pc : Option TransmitPc} {p : TransmitPc} (hpc : pc = some p)
    (hp : p ≠ .moveTailPointer) : m.sent pc = m.tail ∧ m.granted pc = m.tail + 1 := by
  subst hpc
  exact ⟨m.sent_of_ne hp, rfl⟩

/-- The window of a ring that has not lost a frame moves with its oldest frame. -/
theorem Marks.lo_confirm_cases (m : Marks) :
    (m.lo = m.head ∧ m.confirm.lo = m.lo + 1) ∨ (m.lo ≠ m.head ∧ m.confirm.lo = m.lo) := by
  unfold Marks.confirm
  by_cases h : m.lo = m.head
  · exact Or.inl ⟨h, by simp only [h, if_true]⟩
  · exact Or.inr ⟨h, by simp only [h, if_false]⟩

namespace DescsOk

/-- The descriptor of a frame whose status was read. -/
def released (b : TxDesc) : TxDesc :=
  { b with des0 := b.info0, info0 := 0, info1 := b.info1 &&& ~~~gmacInfo1LockedMask }

theorem not_locked_released (b : TxDesc) : ¬ (released b).Locked := fun h => h (Bits.and_not_and b.info1 _)

theorem confirm (h : DescsOk buffer f frames r m pc) (hm : MarksOk f m pc) (hsent : m.head < m.sent pc)
    (hdma : m.head < m.dma) :
    DescsOk buffer f frames (r.write (m.head % txRingSize f) (released (r.of f m.head))) m.confirm pc := by
  have hgr := m.sent_le_granted pc
  have hhead : m.lo ≤ m.head ∧ m.head < m.lo + txRingSize f := ⟨hm.lo_le_head, by have := hm.room; omega⟩
  have hself := of_write_self h.size m.head (released (r.of f m.head))
  have hother : ∀ {j}, m.lo ≤ j → j < m.lo + txRingSize f → j ≠ m.head →
      (r.write (m.head % txRingSize f) (released (r.of f m.head))).of f j = r.of f j :=
    fun hj hj' hne => of_write_of_ne h.size ⟨hj, hj'⟩ hhead hne _
  have hlap : (r.write (m.head % txRingSize f) (released (r.of f m.head))).of f (m.head + txRingSize f) =
      released (r.of f m.head) := by rw [of_add_size, hself]
  have hnot : ¬ (r.of f m.head).Own := fun hown => by
    have := (h.own m.head hhead.1 hhead.2).1 hown
    omega
  -- the window ends a lap after the confirmed frame, if it moves at all
  have hend : ∀ {k}, k < m.confirm.lo + txRingSize f →
      k < m.lo + txRingSize f ∨ m.lo = m.head ∧ k = m.head + txRingSize f := by
    intro k hk
    rcases m.lo_confirm_cases with ⟨heq, hlo⟩ | ⟨-, hlo⟩ <;> omega
  have hroom := hm.room
  refine {
    size := (size_write r _ _).trans h.size
    current := ?current
    tail := h.tail
    length := ringOk_write h.length _ _ (length_of_unlock _)
    own := ?own, free := ?free, sent := ?sent, held := ?held, finished := ?finished
    lost := ?lost, sending := ?sending, filled := ?filled, lengthFilled := ?lengthFilled }
  case current =>
    rw [m.granted_confirm]
    exact h.current
  case own =>
    intro k hlo hk
    rw [m.sent_confirm]
    show _ ↔ m.dma ≤ k ∧ k < m.sent pc
    have hlo' : m.lo ≤ k := by rcases m.lo_confirm_cases with ⟨-, h'⟩ | ⟨-, h'⟩ <;> omega
    rcases hend hk with hk | ⟨heq, rfl⟩
    · by_cases hkh : k = m.head
      · subst hkh
        rw [hself]
        exact ⟨fun hown => absurd hown hnot, fun hown => absurd hown.1 (by omega)⟩
      · rw [hother hlo' hk hkh]
        exact h.own k hlo' hk
    · rw [hlap]
      exact ⟨fun hown => absurd hown hnot, fun hown => by omega⟩
  case free =>
    intro k hk hk'
    rw [m.granted_confirm] at hk
    rcases hend hk' with hk' | ⟨heq, rfl⟩
    · rw [hother (by omega) hk' (by omega)]
      exact h.free k hk hk'
    · rw [hlap, txBufferAddr_add_size]
      exact ⟨not_locked_released _, rfl, (h.sent m.head (Nat.le_refl _) hsent).2⟩
  case sent =>
    intro k hk hk'
    rw [m.sent_confirm] at hk'
    have hk : m.head + 1 ≤ k := hk
    rw [hother (by omega) (by omega) (by omega)]
    exact h.sent k (by omega) hk'
  case held =>
    intro p hp hp'
    obtain ⟨htail, hgr'⟩ := m.marks_of_ne hp hp'
    show (TxRing.of _ f m.tail).Locked ∧ (TxRing.of _ f m.tail).info0 = _
    rw [hother (by omega) (by omega) (by omega)]
    exact h.held p hp hp'
  case finished =>
    intro k hlo hk
    have hk : k < m.head + 1 := hk
    have hlo' : m.lo ≤ k := by rcases m.lo_confirm_cases with ⟨-, h'⟩ | ⟨-, h'⟩ <;> omega
    by_cases hkh : k = m.head
    · subst hkh
      rw [hself]
      exact Or.inl rfl
    · rw [hother hlo' (by omega) hkh]
      exact h.finished k hlo' (by omega)
  case lost =>
    intro hlost
    have hlost : m.confirm.lo < m.head + 1 := hlost
    rcases m.lo_confirm_cases with ⟨heq, hlo⟩ | ⟨hne, hlo⟩
    · omega
    · rw [hlo]
      rw [hother (Nat.le_refl _) (by have := txRingSize_pos f; omega) hne]
      exact h.lost (by have := hm.lo_le_head; omega)
  case sending =>
    intro k hk hk'
    rw [m.sent_confirm] at hk'
    have hk : m.dma ≤ k := hk
    rw [hother (by omega) (by omega) (by omega)]
    exact h.sending k hk hk'
  case filled =>
    intro p hp hp' hfill
    obtain ⟨htail, hgr'⟩ := m.marks_of_ne hp hp'
    show (TxRing.of _ f m.tail).des0 = _
    rw [hother (by omega) (by omega) (by omega)]
    exact h.filled p hp hp' hfill
  case lengthFilled =>
    intro hp
    obtain ⟨htail, hgr'⟩ := m.marks_of_ne hp (by decide)
    show (TxRing.of _ f m.tail).des3.toNat = _
    rw [hother (by omega) (by omega) (by omega)]
    exact h.lengthFilled hp

/-! ## `Gmac_Ip_GetTxBuff` -/

/-- The next descriptor is free, unless the ring is full. -/
theorem free_tail (h : DescsOk buffer f frames r m none) (hm : MarksOk f m none)
    (hroom : m.tail < m.lo + txRingSize f) :
    ¬ (r.of f m.tail).Own ∧ ¬ (r.of f m.tail).Locked ∧ (r.of f m.tail).des0 = txBufferAddr buffer f m.tail := by
  have hlo : m.lo ≤ m.tail := Nat.le_trans hm.lo_le_dma hm.dma_le
  obtain ⟨hlock, -, hdes⟩ := h.free m.tail (Nat.le_refl _) hroom
  refine ⟨fun hown => ?_, hlock, hdes⟩
  exact absurd ((h.own m.tail hlo hroom).1 hown).2 (Nat.lt_irrefl m.tail)

/-- A full ring has a locked descriptor next. -/
theorem locked_tail (h : DescsOk buffer f frames r m none) (hm : MarksOk f m none)
    (hfull : m.tail = m.lo + txRingSize f) : (r.of f m.tail).Locked := by
  have hpos := txRingSize_pos f
  rw [hfull, of_add_size]
  rcases Nat.lt_or_ge m.lo m.head with hlost | hlo
  · exact h.lost hlost
  · have heq : m.lo = m.head := Nat.le_antisymm hm.lo_le_head hlo
    rw [heq]
    exact (h.sent m.head (Nat.le_refl _) (by show m.head < m.tail; omega)).1

theorem grant (h : DescsOk buffer f frames r m none) (hm : MarksOk f m none)
    (hroom : m.tail < m.lo + txRingSize f) (hframes : frames.length = m.tail) (frame : List UInt8) :
    DescsOk buffer f (frames ++ [frame])
      { r.write (m.tail % txRingSize f) { r.of f m.tail with info1 := (r.of f m.tail).info1 ||| gmacInfo1LockedMask }
        with current := (m.tail + 1) % txRingSize f } m (some .testHead) := by
  have hlo : m.lo ≤ m.tail := Nat.le_trans hm.lo_le_dma hm.dma_le
  obtain ⟨hlocked, hinfo, hdes⟩ := h.free m.tail (Nat.le_refl _) hroom
  let b : TxDesc := { r.of f m.tail with info1 := (r.of f m.tail).info1 ||| gmacInfo1LockedMask }
  have hself : (r.write (m.tail % txRingSize f) b).of f m.tail = b := of_write_self h.size m.tail b
  have hother : ∀ {j}, m.lo ≤ j → j < m.lo + txRingSize f → j ≠ m.tail →
      (r.write (m.tail % txRingSize f) b).of f j = r.of f j :=
    fun hj hj' hne => of_write_of_ne h.size ⟨hj, hj'⟩ ⟨hlo, hroom⟩ hne _
  have hold : ∀ {k}, k < m.tail → (frames ++ [frame]).getD k [] = frames.getD k [] := fun hk =>
    List.getD_append _ _ _ _ (hframes ▸ hk)
  have hwin := hm.lo_le_dma
  refine {
    size := (size_write r _ _).trans h.size
    current := rfl
    tail := h.tail
    length := ringOk_write h.length _ _ (length_of_lock _)
    own := ?own, free := ?free, sent := ?sent, held := ?held, finished := ?finished
    lost := ?lost, sending := ?sending, filled := ?filled, lengthFilled := ?lengthFilled }
  case own =>
    intro k hk hk'
    show (TxRing.of (r.write (m.tail % txRingSize f) b) f k).Own ↔ _
    by_cases hkt : k = m.tail
    · subst hkt
      rw [hself]
      exact h.own m.tail hk hk'
    · rw [hother hk hk' hkt]
      exact h.own k hk hk'
  case free =>
    intro k hk hk'
    have hk : m.tail + 1 ≤ k := hk
    show ¬ (TxRing.of (r.write (m.tail % txRingSize f) b) f k).Locked ∧ (TxRing.of (r.write _ b) f k).info0 = _ ∧
      (TxRing.of (r.write _ b) f k).des0 = _
    rw [hother (by omega) hk' (by omega)]
    exact h.free k (by show m.tail ≤ k; omega) hk'
  case sent =>
    intro k hk hk'
    have hk' : k < m.tail := hk'
    have := hm.lo_le_head
    show (TxRing.of (r.write (m.tail % txRingSize f) b) f k).Locked ∧ (TxRing.of (r.write _ b) f k).info0 = _
    rw [hother (by omega) (by omega) (by omega)]
    exact h.sent k hk hk'
  case held =>
    intro p hp _
    obtain rfl := Option.some.inj hp
    show (TxRing.of (r.write (m.tail % txRingSize f) b) f m.tail).Locked ∧
      (TxRing.of (r.write (m.tail % txRingSize f) b) f m.tail).info0 = 0
    rw [hself]
    exact ⟨TxDesc.locked_or _, hinfo⟩
  case finished =>
    intro k hk hk'
    show (TxRing.of (r.write (m.tail % txRingSize f) b) f k).info0 = 0 ∨
      (TxRing.of (r.write (m.tail % txRingSize f) b) f k).info0 = _
    by_cases hkt : k = m.tail
    · subst hkt
      rw [hself]
      exact Or.inl hinfo
    · have hhead : m.head ≤ m.tail := hm.head_le
      rw [hother hk (by omega) hkt]
      exact h.finished k hk hk'
  case lost =>
    intro hlost
    show (TxRing.of (r.write (m.tail % txRingSize f) b) f m.lo).Locked
    by_cases hkt : m.lo = m.tail
    · rw [hkt, hself]
      exact TxDesc.locked_or _
    · rw [hother (Nat.le_refl _) (by have := txRingSize_pos f; omega) hkt]
      exact h.lost hlost
  case sending =>
    intro k hk hk'
    have hk' : k < m.tail := hk'
    show (TxRing.of (r.write (m.tail % txRingSize f) b) f k).des0 = _ ∧
      ((TxRing.of (r.write (m.tail % txRingSize f) b) f k).des3 &&& _).toNat = _
    rw [hother (by omega) (by omega) (by omega), hold hk']
    exact h.sending k hk hk'
  case filled =>
    intro p hp _ hfill
    obtain rfl := Option.some.inj hp
    cases hfill
  case lengthFilled =>
    intro hp
    cases Option.some.inj hp

/-! ## `Gmac_Ip_SendFrame` -/

/-- Before the descriptor is filled, moving on does not touch the ring. -/
theorem movePc {p p' : TransmitPc} (h : DescsOk buffer f frames r m (some p)) (hp : p.filled = false)
    (hp' : p'.filled = false) : DescsOk buffer f frames r m (some p') := by
  have hsent : m.sent (some p') = m.sent (some p) := by
    rw [m.sent_of_ne (TransmitPc.ne_of_not_filled hp), m.sent_of_ne (TransmitPc.ne_of_not_filled hp')]
  refine ⟨h.size, h.current, h.tail, h.length, ?_, h.free, ?_, ?_, h.finished, h.lost, ?_, ?_, ?_⟩
  · rw [hsent]; exact h.own
  · rw [hsent]; exact h.sent
  · intro q hq _
    obtain rfl := Option.some.inj hq
    have := h.held p rfl (TransmitPc.ne_of_not_filled hp)
    rw [hp] at this
    rwa [hp']
  · rw [hsent]; exact h.sending
  · intro q hq _ hfill
    obtain rfl := Option.some.inj hq
    rw [hp'] at hfill
    cases hfill
  · intro hq
    obtain rfl := Option.some.inj hq
    cases hp'

theorem tail_window {p : TransmitPc} (hm : MarksOk f m (some p)) (hp : p ≠ .moveTailPointer) :
    m.lo ≤ m.tail ∧ m.tail < m.lo + txRingSize f := by
  have hsent := m.sent_of_ne hp
  have hroom : m.tail + 1 ≤ m.lo + txRingSize f := hm.room
  have := hm.lo_le_dma
  have := hm.dma_le
  omega

/-- The descriptor being filled is not the DMA's. -/
theorem not_own_tail {p : TransmitPc} (h : DescsOk buffer f frames r m (some p)) (hm : MarksOk f m (some p))
    (hp : p ≠ .moveTailPointer) : ¬ (r.of f m.tail).Own := by
  have hsent := m.sent_of_ne hp
  obtain ⟨hlo, hhi⟩ := tail_window hm hp
  intro hown
  have := (h.own m.tail hlo hhi).1 hown
  omega

/-- A statement of `Gmac_Ip_SendFrame` writes the descriptor of the frame. -/
theorem writeTail {p p' : TransmitPc} {b : TxDesc} (h : DescsOk buffer f frames r m (some p))
    (hm : MarksOk f m (some p)) (hp : p ≠ .moveTailPointer) (hfilled : p'.filled = true)
    (hinfo1 : b.info1 = (r.of f m.tail).info1) (hown : b.Own ↔ p' = .moveTailPointer)
    (hinfo0 : b.info0 = txBufferAddr buffer f m.tail) (hdes0 : b.des0 = txBufferAddr buffer f m.tail)
    (hlen : p' = .setOwn → b.des3.toNat = (frames.getD m.tail []).length)
    (hlen' : p' = .moveTailPointer → (b.des3 &&& gmacTdes3LengthMask).toNat = (frames.getD m.tail []).length) :
    DescsOk buffer f frames (r.write (m.tail % txRingSize f) b) m (some p') := by
  have htail := tail_window hm hp
  have hsent := m.sent_of_ne hp
  have hself := of_write_self h.size m.tail b
  have hother : ∀ {j}, m.lo ≤ j → j < m.lo + txRingSize f → j ≠ m.tail →
      (r.write (m.tail % txRingSize f) b).of f j = r.of f j :=
    fun hj hj' hne => of_write_of_ne h.size ⟨hj, hj'⟩ htail hne _
  have hlocked : b.Locked := by
    unfold TxDesc.Locked
    rw [hinfo1]
    exact (h.held p rfl hp).1
  -- with OWN set the frame counts as sent
  have hsent' : ∀ {k}, k < m.sent (some p') → k < m.tail ∨ k = m.tail ∧ p' = .moveTailPointer := by
    intro k hk
    by_cases hp' : p' = .moveTailPointer
    · subst hp'
      rcases Nat.lt_or_eq_of_le (Nat.le_of_lt_succ (show k < m.tail + 1 from hk)) with hlt | heq
      · exact Or.inl hlt
      · exact Or.inr ⟨heq, rfl⟩
    · rw [m.sent_of_ne hp'] at hk
      exact Or.inl hk
  have hlo_head := hm.lo_le_head
  have hlo_dma := hm.lo_le_dma
  have hdma := hm.dma_le
  have hhead : m.head ≤ m.tail + 1 := hm.head_le
  refine {
    size := (size_write r _ _).trans h.size
    current := h.current
    tail := h.tail
    length := ringOk_write h.length _ _ ?length
    own := ?own, free := ?free, sent := ?sent, held := ?held, finished := ?finished
    lost := ?lost, sending := ?sending, filled := ?filled, lengthFilled := ?lengthFilled }
  case length =>
    rw [hinfo1]
    rfl
  case own =>
    intro k hk hk'
    by_cases hkt : k = m.tail
    · subst hkt
      rw [hself, hown]
      constructor
      · rintro rfl
        exact ⟨by omega, Nat.lt_succ_self m.tail⟩
      · intro hk
        rcases hsent' hk.2 with hlt | ⟨-, hp'⟩
        · exact absurd hlt (Nat.lt_irrefl _)
        · exact hp'
    · rw [hother hk hk' hkt, h.own k hk hk', hsent]
      have := m.tail_le_sent (some p')
      constructor
      · rintro ⟨h1, h2⟩
        exact ⟨h1, by omega⟩
      · rintro ⟨h1, h2⟩
        rcases hsent' h2 with hlt | ⟨heq, -⟩
        · exact ⟨h1, hlt⟩
        · exact absurd heq hkt
  case free =>
    intro k hk hk'
    have hk : m.tail + 1 ≤ k := hk
    rw [hother (by omega) hk' (by omega)]
    exact h.free k hk hk'
  case sent =>
    intro k hk hk'
    rcases hsent' hk' with hlt | ⟨rfl, -⟩
    · rw [hother (by omega) (by omega) (by omega)]
      exact h.sent k hk (by omega)
    · rw [hself]
      exact ⟨hlocked, hinfo0⟩
  case held =>
    intro q hq hq'
    obtain rfl := Option.some.inj hq
    rw [hself, hfilled, hinfo0]
    exact ⟨hlocked, rfl⟩
  case finished =>
    intro k hk hk'
    by_cases hkt : k = m.tail
    · subst hkt
      rw [hself]
      exact Or.inr hinfo0
    · rw [hother hk (by omega) hkt]
      exact h.finished k hk hk'
  case lost =>
    intro hlost
    by_cases hkt : m.lo = m.tail
    · rw [hkt, hself]
      exact hlocked
    · rw [hother (Nat.le_refl _) (by have := txRingSize_pos f; omega) hkt]
      exact h.lost hlost
  case sending =>
    intro k hk hk'
    rcases hsent' hk' with hlt | ⟨rfl, hp'⟩
    · rw [hother (by omega) (by omega) (by omega)]
      exact h.sending k hk (by omega)
    · rw [hself]
      exact ⟨hdes0, hlen' hp'⟩
  case filled =>
    intro q hq _ _
    rw [hself]
    exact hdes0
  case lengthFilled =>
    intro hq
    rw [hself]
    exact hlen (Option.some.inj hq)

/-- `Gmac_Ip_SendFrame` is over. -/
theorem moveTailPointer (h : DescsOk buffer f frames r m (some .moveTailPointer)) :
    DescsOk buffer f frames { r with tail := (m.tail + 1) % txRingSize f } { m with tail := m.tail + 1 } none :=
  ⟨h.size, h.current, rfl, h.length, h.own, h.free, h.sent, fun p hp => (by cases hp), h.finished, h.lost,
    h.sending, fun p hp => (by cases hp), fun hp => (by cases hp)⟩

/-! ## The DMA -/

theorem dmaDone (h : DescsOk buffer f frames r m pc) (hm : MarksOk f m pc) (hdma : m.dma < m.sent pc)
    (des0 des3 : UInt32) :
    DescsOk buffer f frames (r.dmaDone (m.dma % txRingSize f) des0 des3) { m with dma := m.dma + 1 } pc := by
  have hgr := m.sent_le_granted pc
  have hroom := hm.room
  have hwin : m.lo ≤ m.dma ∧ m.dma < m.lo + txRingSize f := ⟨hm.lo_le_dma, by omega⟩
  have hown : (r.of f m.dma).Own := (h.own m.dma hwin.1 hwin.2).2 ⟨Nat.le_refl _, hdma⟩
  let b : TxDesc := { r.of f m.dma with des0 := des0, des3 := des3 &&& ~~~gmacTdes3OwnMask }
  have hring : r.dmaDone (m.dma % txRingSize f) des0 des3 = r.write (m.dma % txRingSize f) b := if_pos hown
  have hself := of_write_self h.size m.dma b
  have hother : ∀ {j}, m.lo ≤ j → j < m.lo + txRingSize f → j ≠ m.dma →
      (r.write (m.dma % txRingSize f) b).of f j = r.of f j :=
    fun hj hj' hne => of_write_of_ne h.size ⟨hj, hj'⟩ hwin hne _
  -- only the first descriptor word and OWN change
  have hkeep : ∀ {j}, m.lo ≤ j → j < m.lo + txRingSize f →
      ((r.write (m.dma % txRingSize f) b).of f j).info1 = (r.of f j).info1 ∧
      ((r.write (m.dma % txRingSize f) b).of f j).info0 = (r.of f j).info0 := by
    intro j hj hj'
    by_cases hne : j = m.dma
    · subst hne
      rw [hself]
      exact ⟨rfl, rfl⟩
    · rw [hother hj hj' hne]
      exact ⟨rfl, rfl⟩
  have hlocked : ∀ {j}, m.lo ≤ j → j < m.lo + txRingSize f →
      (((r.write (m.dma % txRingSize f) b).of f j).Locked ↔ (r.of f j).Locked) := by
    intro j hj hj'
    unfold TxDesc.Locked
    rw [(hkeep hj hj').1]
  have hlo_head := hm.lo_le_head
  have hhead := hm.head_le
  rw [hring]
  refine {
    size := (size_write r _ _).trans h.size
    current := h.current
    tail := h.tail
    length := ringOk_write h.length _ _ rfl
    own := ?own, free := ?free, sent := ?sent, held := ?held, finished := ?finished
    lost := ?lost, sending := ?sending, filled := ?filled, lengthFilled := ?lengthFilled }
  case own =>
    intro k hk hk'
    by_cases hkd : k = m.dma
    · subst hkd
      rw [hself]
      refine ⟨fun hb => absurd hb (TxDesc.not_own_clear _ _ _), fun hk => ?_⟩
      exact absurd hk.1 (Nat.not_succ_le_self m.dma)
    · rw [hother hk hk' hkd, h.own k hk hk']
      show _ ↔ m.dma + 1 ≤ k ∧ k < m.sent pc
      omega
  case free =>
    intro k hk hk'
    have hk : m.granted pc ≤ k := hk
    rw [hother (by omega) hk' (by omega)]
    exact h.free k hk hk'
  case sent =>
    intro k hk hk'
    have hk' : k < m.sent pc := hk'
    have hk : m.head ≤ k := hk
    rw [hlocked (by omega) (by omega), (hkeep (by omega) (by omega)).2]
    exact h.sent k hk hk'
  case held =>
    intro p hp hp'
    obtain ⟨hsent, hgr'⟩ := m.marks_of_ne hp hp'
    show (TxRing.of _ f m.tail).Locked ∧ (TxRing.of _ f m.tail).info0 = _
    rw [hlocked (by omega) (by omega), (hkeep (by omega) (by omega)).2]
    exact h.held p hp hp'
  case finished =>
    intro k hk hk'
    have hk' : k < m.head := hk'
    rw [(hkeep hk (by omega)).2]
    exact h.finished k hk hk'
  case lost =>
    intro hlost
    show (TxRing.of _ f m.lo).Locked
    rw [hlocked (Nat.le_refl _) (by have := txRingSize_pos f; omega)]
    exact h.lost hlost
  case sending =>
    intro k hk hk'
    have hk : m.dma + 1 ≤ k := hk
    have hk' : k < m.sent pc := hk'
    rw [hother (by omega) (by omega) (by omega)]
    exact h.sending k (by omega) hk'
  case filled =>
    intro p hp hp' hfill
    obtain ⟨hsent, hgr'⟩ := m.marks_of_ne hp hp'
    show (TxRing.of _ f m.tail).des0 = _
    rw [hother (by omega) (by omega) (by omega)]
    exact h.filled p hp hp' hfill
  case lengthFilled =>
    intro hp
    obtain ⟨hsent, hgr'⟩ := m.marks_of_ne hp (by decide)
    show (TxRing.of _ f m.tail).des3.toNat = _
    rw [hother (by omega) (by omega) (by omega)]
    exact h.lengthFilled hp

/-! ## A lost request -/

/-- The interrupt has emptied the list that the request is about to be linked to. -/
theorem lose {p : TransmitPc} (h : DescsOk buffer f frames r m (some p)) (hp : p.filled = false)
    (hhead : m.head = m.tail) :
    DescsOk buffer f frames r { m with head := m.tail + 1 } (some p) := by
  have hne := TransmitPc.ne_of_not_filled hp
  obtain ⟨hlocked, hinfo⟩ := h.held p rfl hne
  refine ⟨h.size, h.current, h.tail, h.length, h.own, h.free, ?_, h.held, ?_, ?_, h.sending, h.filled,
    h.lengthFilled⟩
  · intro k hk hk'
    have hk' : k < m.sent (some p) := hk'
    have hk : m.tail + 1 ≤ k := hk
    rw [m.sent_of_ne hne] at hk'
    omega
  · intro k hk hk'
    have hk' : k < m.tail + 1 := hk'
    by_cases hkt : k = m.tail
    · rw [hkt, hinfo, hp]
      exact Or.inl rfl
    · exact h.finished k hk (by omega)
  · intro hlost
    have hlost : m.lo < m.tail + 1 := hlost
    show (r.of f m.lo).Locked
    by_cases hlo : m.lo = m.tail
    · rw [hlo]
      exact hlocked
    · exact h.lost (by omega)

end DescsOk

end Steps

end CanTsn
