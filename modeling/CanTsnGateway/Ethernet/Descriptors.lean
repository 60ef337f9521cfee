import CanTsnGateway.Ethernet.FifoView
import CanTsnGateway.Lib.Bits

/-!
# The descriptors of a ring

`Marks` counts what has happened to the frames of a FIFO.  Frame `k` is

    finished below `lo`, except that a lost frame is over and keeps its descriptor
    sent     from `head` up to `sent`; the DMA has it still from `dma` on
    held     `tail`, while its `Eth_Transmit` is under way
    free     from `granted` on

`DescsOk` says what the descriptor of each frame holds; there is one lemma for each thing
that happens to a ring.  As a rule `lo = head`; a ring with `lo < head` has lost frame `lo`
and never gets its descriptor back.
-/

namespace CanTsn

open ByteMemory Ring

namespace TxDesc

def Own (b : TxDesc) : Prop := b.des3 &&& gmacTdes3OwnMask ≠ 0

def Locked (b : TxDesc) : Prop := b.info1 &&& gmacInfo1LockedMask ≠ 0

instance (b : TxDesc) : Decidable b.Own := inferInstanceAs (Decidable (_ ≠ _))

instance (b : TxDesc) : Decidable b.Locked := inferInstanceAs (Decidable (_ ≠ _))

theorem own_or (b : TxDesc) (x : UInt32) : Own { b with des3 := x ||| gmacTdes3OwnMask } := by
  show (x ||| gmacTdes3OwnMask) &&& gmacTdes3OwnMask ≠ 0
  rw [Bits.or_and_self]
  decide

theorem not_own_clear (b : TxDesc) (des0 x : UInt32) :
    ¬ Own { b with des0 := des0, des3 := x &&& ~~~gmacTdes3OwnMask } := fun h => h (Bits.and_not_and x _)

theorem not_own_length (b : TxDesc) (n : UInt16) : ¬ Own { b with des3 := n.toUInt32 } := fun h =>
  h (Bits.and_eq_zero_of_lt (n := 16) (by rw [UInt16.toNat_toUInt32]; exact n.toNat_lt) (by decide))

theorem locked_or (b : TxDesc) : Locked { b with info1 := b.info1 ||| gmacInfo1LockedMask } := by
  show (b.info1 ||| gmacInfo1LockedMask) &&& gmacInfo1LockedMask ≠ 0
  rw [Bits.or_and_self]
  decide

/-- The length of a frame, seen beside OWN. -/
theorem length_or_own {x : UInt32} (h : x.toNat < 2 ^ 15) :
    (x ||| gmacTdes3OwnMask) &&& gmacTdes3LengthMask = x := by
  rw [Bits.or_and_of_disjoint (by decide), Bits.and_eq_self_of_lt h (by decide)]

end TxDesc

/-! ## Marks -/

namespace TransmitPc

/-- `Des0` and `Info0` are filled. -/
def filled : TransmitPc → Bool
  | .fillLength | .setOwn | .moveTailPointer => true
  | _ => false

/-- The entry is in the list. -/
def linked : TransmitPc → Bool
  | .testHead | .setHead | .linkTail => false
  | _ => true

/-- `pQueueTail` is the entry. -/
def tailMoved : TransmitPc → Bool
  | .testHead | .setHead | .setTail | .linkTail | .moveTail => false
  | _ => true

theorem ne_of_not_filled {p : TransmitPc} (hp : p.filled = false) : p ≠ .moveTailPointer := by
  rintro rfl
  cases hp

theorem filling_cases {p : TransmitPc} (hp : p.filled = true) (hne : p ≠ .moveTailPointer) :
    p = .fillLength ∨ p = .setOwn := by
  cases p
  case fillLength => exact Or.inl rfl
  case setOwn => exact Or.inr rfl
  case moveTailPointer => exact absurd rfl hne
  all_goals exact absurd hp (by decide)

end TransmitPc

structure Marks where
  lo : Nat
  head : Nat
  dma : Nat
  tail : Nat

namespace Marks

def granted (m : Marks) : Option TransmitPc → Nat
  | none => m.tail
  | some _ => m.tail + 1

def sent (m : Marks) : Option TransmitPc → Nat
  | some .moveTailPointer => m.tail + 1
  | _ => m.tail

theorem tail_le_sent (m : Marks) (pc : Option TransmitPc) : m.tail ≤ m.sent pc := by
  unfold sent
  split <;> omega

theorem sent_le_granted (m : Marks) (pc : Option TransmitPc) : m.sent pc ≤ m.granted pc := by
  rcases pc with - | pc
  · exact Nat.le_refl m.tail
  · cases pc
    case moveTailPointer => exact Nat.le_refl (m.tail + 1)
    all_goals exact Nat.le_succ m.tail

theorem sent_of_ne (m : Marks) {p : TransmitPc} (hp : p ≠ .moveTailPointer) : m.sent (some p) = m.tail := by
  cases p
  case moveTailPointer => exact absurd rfl hp
  all_goals rfl

/-- Between the two there is only the frame being sent. -/
theorem held_of_between {m : Marks} {pc : Option TransmitPc} {k : Nat} (hs : m.sent pc ≤ k)
    (hg : k < m.granted pc) : k = m.tail ∧ ∃ p, pc = some p ∧ p ≠ .moveTailPointer := by
  rcases pc with - | p
  · exact absurd hg (Nat.not_lt.2 hs)
  · have hk : k < m.tail + 1 := hg
    by_cases hp : p = .moveTailPointer
    · subst hp
      exact absurd hk (Nat.not_lt.2 hs)
    · have := m.tail_le_sent (some p)
      exact ⟨by omega, p, rfl, hp⟩

/-- The oldest frame in the list is confirmed. -/
def confirm (m : Marks) : Marks :=
  { m with lo := if m.lo = m.head then m.head + 1 else m.lo, head := m.head + 1 }

end Marks

/-! ## The descriptors -/

/-- The slot of frame `k`. -/
def TxRing.of (r : TxRing) (f : UInt8) (k : Nat) : TxDesc := r.bd (k % txRingSize f)

structure DescsOk (buffer : UInt8 → UInt32) (f : UInt8) (frames : List (List UInt8)) (r : TxRing) (m : Marks)
    (pc : Option TransmitPc) : Prop where
  size : r.ringDesc.length = txRingSize f
  current : r.current = m.granted pc % txRingSize f
  tail : r.tail = m.tail % txRingSize f
  length : RingOk r
  own : ∀ k, m.lo ≤ k → k < m.lo + txRingSize f → ((r.of f k).Own ↔ m.dma ≤ k ∧ k < m.sent pc)
  free : ∀ k, m.granted pc ≤ k → k < m.lo + txRingSize f →
    ¬ (r.of f k).Locked ∧ (r.of f k).info0 = 0 ∧ (r.of f k).des0 = txBufferAddr buffer f k
  sent : ∀ k, m.head ≤ k → k < m.sent pc →
    (r.of f k).Locked ∧ (r.of f k).info0 = txBufferAddr buffer f k
  held : ∀ p, pc = some p → p ≠ .moveTailPointer → (r.of f m.tail).Locked ∧
    (r.of f m.tail).info0 = if p.filled then txBufferAddr buffer f m.tail else 0
  finished : ∀ k, m.lo ≤ k → k < m.head → (r.of f k).info0 = 0 ∨ (r.of f k).info0 = txBufferAddr buffer f k
  lost : m.lo < m.head → (r.of f m.lo).Locked
  sending : ∀ k, m.dma ≤ k → k < m.sent pc → (r.of f k).des0 = txBufferAddr buffer f k ∧
    ((r.of f k).des3 &&& gmacTdes3LengthMask).toNat = (frames.getD k []).length
  filled : ∀ p, pc = some p → p ≠ .moveTailPointer → p.filled = true →
    (r.of f m.tail).des0 = txBufferAddr buffer f m.tail
  lengthFilled : pc = some .setOwn → (r.of f m.tail).des3.toNat = (frames.getD m.tail []).length

/-- The marks of a ring are less than a lap apart. -/
structure MarksOk (f : UInt8) (m : Marks) (pc : Option TransmitPc) : Prop where
  lo_le_head : m.lo ≤ m.head
  lo_le_dma : m.lo ≤ m.dma
  dma_le : m.dma ≤ m.sent pc
  head_le : m.head ≤ m.granted pc
  room : m.granted pc ≤ m.lo + txRingSize f

/-! ## Reading and writing -/

section Ring

variable {f : UInt8} {r : TxRing} {lo j k : Nat}

theorem of_eq_slot (hsize : r.ringDesc.length = txRingSize f) (k : Nat) :
    r.of f k = slot r.ringDesc ⟨0, 0, 0, 0⟩ k := by
  unfold TxRing.of TxRing.bd slot
  rw [hsize]

theorem of_add_size (r : TxRing) (f : UInt8) (k : Nat) : r.of f (k + txRingSize f) = r.of f k := by
  unfold TxRing.of
  rw [Nat.add_mod_right]

theorem size_write (r : TxRing) (k : Nat) (b : TxDesc) : (r.write k b).ringDesc.length = r.ringDesc.length :=
  List.length_set

theorem of_write_self (hsize : r.ringDesc.length = txRingSize f) (k : Nat) (b : TxDesc) :
    (r.write (k % txRingSize f) b).of f k = b := by
  rw [of_eq_slot ((size_write r _ b).trans hsize)]
  show slot (r.ringDesc.set (k % txRingSize f) b) _ k = b
  rw [← hsize]
  exact slot_set_self _ b k (by rw [hsize]; exact txRingSize_pos f)

theorem of_write_of_ne (hsize : r.ringDesc.length = txRingSize f) (hj : lo ≤ j ∧ j < lo + txRingSize f)
    (hk : lo ≤ k ∧ k < lo + txRingSize f) (hjk : j ≠ k) (b : TxDesc) :
    (r.write (k % txRingSize f) b).of f j = r.of f j := by
  rw [of_eq_slot ((size_write r _ b).trans hsize), of_eq_slot hsize]
  show slot (r.ringDesc.set (k % txRingSize f) b) _ j = _
  rw [← hsize] at *
  exact slot_set_of_ne _ b hj hk hjk

/-- The descriptors of the ring are those of the frames of a lap. -/
theorem mem_ringDesc (hsize : r.ringDesc.length = txRingSize f) (lo : Nat) {b : TxDesc} :
    b ∈ r.ringDesc ↔ ∃ k, (lo ≤ k ∧ k < lo + txRingSize f) ∧ r.of f k = b := by
  have hof : ∀ k, r.of f k = r.ringDesc.getD (k % txRingSize f) ⟨0, 0, 0, 0⟩ := fun _ => rfl
  constructor
  · intro hmem
    obtain ⟨i, hi, rfl⟩ := List.getElem_of_mem hmem
    obtain ⟨k, hk, hki⟩ := exists_position lo (hsize ▸ hi)
    refine ⟨k, hk, ?_⟩
    rw [hof, hki, List.getD_eq_getElem?_getD, List.getElem?_eq_getElem hi, Option.getD_some]
  · rintro ⟨k, -, rfl⟩
    have hslot : k % txRingSize f < r.ringDesc.length := hsize ▸ slot_lt f k
    rw [hof, List.getD_eq_getElem?_getD, List.getElem?_eq_getElem hslot, Option.getD_some]
    exact List.getElem_mem hslot

theorem next_mod (hsize : r.ringDesc.length = txRingSize f) (k : Nat) :
    r.next (k % txRingSize f) = (k + 1) % txRingSize f := by
  unfold TxRing.next
  rw [hsize]
  exact wrap_succ (txRingSize_pos f)

end Ring

section Descs

variable {buffer : UInt8 → UInt32} {f : UInt8} {frames : List (List UInt8)} {r : TxRing} {m : Marks}
  {pc : Option TransmitPc}

namespace DescsOk

theorem info0_cases (h : DescsOk buffer f frames r m pc) {k : Nat}
    (hk : m.lo ≤ k ∧ k < m.lo + txRingSize f) :
    (r.of f k).info0 = 0 ∨ (r.of f k).info0 = txBufferAddr buffer f k := by
  rcases Nat.lt_or_ge k m.head with hhead | hhead
  · exact h.finished k hk.1 hhead
  · rcases Nat.lt_or_ge k (m.sent pc) with hsent | hsent
    · exact Or.inr (h.sent k hhead hsent).2
    · rcases Nat.lt_or_ge k (m.granted pc) with hgr | hgr
      · obtain ⟨rfl, p, hp, hp'⟩ := Marks.held_of_between hsent hgr
        rw [(h.held p hp hp').2]
        cases p.filled <;> simp
      · exact Or.inl (h.free k hgr hk.2).2.1

section Find

variable (hb : BuffersOk buffer) (hf : f < ethMaxTxFifoSupported) (h : DescsOk buffer f frames r m pc)
  {k : Nat}

include hb hf h

/-- No other descriptor was sent with this buffer. -/
theorem position_of_info0 {i : Nat} (hi : i < r.ringDesc.length)
    (hinfo : (r.bd i).info0 = txBufferAddr buffer f k) : i = k % txRingSize f := by
  rw [h.size] at hi
  obtain ⟨j, hj, rfl⟩ := exists_position m.lo hi
  rcases h.info0_cases hj with h0 | h1
  · have hzero : (0 : UInt32) = txBufferAddr buffer f k := h0.symm.trans hinfo
    exact absurd hzero.symm (txBufferAddr_ne_zero hb hf k)
  · exact txBufferAddr_inj hb hf (h1.symm.trans hinfo)

theorem find_of_info0 (hinfo : (r.of f k).info0 = txBufferAddr buffer f k) :
    ((List.range r.ringDesc.length).find? fun i => (r.bd i).info0 = txBufferAddr buffer f k) =
      some (k % txRingSize f) := by
  rw [List.find?_range_eq_some]
  refine ⟨decide_eq_true hinfo, ?_, fun i hi => ?_⟩
  · rw [List.mem_range, h.size]
    exact slot_lt f k
  · have hlt : i < r.ringDesc.length := by
      have := slot_lt f k
      rw [h.size]
      omega
    rw [Bool.not_eq_true', decide_eq_false_iff_not]
    intro hinfo'
    have := position_of_info0 hb hf h hlt hinfo'
    omega

theorem find_of_zero (hinfo : (r.of f k).info0 = 0) :
    ((List.range r.ringDesc.length).find? fun i => (r.bd i).info0 = txBufferAddr buffer f k) = none := by
  rw [List.find?_range_eq_none]
  intro i hi
  rw [Bool.not_eq_true', decide_eq_false_iff_not]
  intro hinfo'
  have hik := position_of_info0 hb hf h hi hinfo'
  rw [hik] at hinfo'
  have hzero : (0 : UInt32) = txBufferAddr buffer f k := hinfo.symm.trans hinfo'
  exact txBufferAddr_ne_zero hb hf k hzero.symm

/-- A frame that was not sent has no status. -/
theorem status_of_zero (hinfo : (r.of f k).info0 = 0) :
    gmacGetTransmitStatus r (txBufferAddr buffer f k) = (false, r) := by
  unfold gmacGetTransmitStatus
  rw [find_of_zero hb hf h hinfo]

theorem status_of_own (hinfo : (r.of f k).info0 = txBufferAddr buffer f k) (hown : (r.of f k).Own) :
    gmacGetTransmitStatus r (txBufferAddr buffer f k) = (false, r) := by
  unfold gmacGetTransmitStatus
  rw [find_of_info0 hb hf h hinfo]
  exact if_pos hown

/-- The status of a frame that the DMA is done with gives its descriptor back. -/
theorem status_of_done (hinfo : (r.of f k).info0 = txBufferAddr buffer f k) (hown : ¬ (r.of f k).Own) :
    gmacGetTransmitStatus r (txBufferAddr buffer f k) = (true, r.write (k % txRingSize f) { r.of f k with
      des0 := (r.of f k).info0
      info0 := 0
      info1 := (r.of f k).info1 &&& ~~~gmacInfo1LockedMask }) := by
  unfold gmacGetTransmitStatus
  rw [find_of_info0 hb hf h hinfo]
  exact if_neg hown

end Find

end DescsOk

end Descs

end CanTsn
