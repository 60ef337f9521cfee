import CanTsnGateway.Ethernet.RingSteps

/-!
# The list of transmission requests

The entries from `head` on are linked by `pNextBuffer`, oldest first; `RequestsOk` says so
at every statement of an `Eth_Transmit` that is linking the next one.  `FifoOk` is the whole
invariant of a FIFO: marks, descriptors, list, entries and the frames in the data buffers.
-/

namespace CanTsn

open ByteMemory Ring

namespace Marks

/-- The list ends before this frame. -/
def linked (m : Marks) : Option TransmitPc → Nat
  | some p => if p.linked then m.tail + 1 else m.tail
  | none => m.tail

/-- `pQueueTail` is the frame before this one. -/
def queued (m : Marks) : Option TransmitPc → Nat
  | some p => if p.tailMoved then m.tail + 1 else m.tail
  | none => m.tail

/-- The last entry of the list has no next one. -/
def Terminated : Option TransmitPc → Prop
  | some .setTail | some .moveTail | some .terminate => False
  | _ => True

/-- Where the list can end at this statement. -/
def Fits (m : Marks) : Option TransmitPc → Prop
  | none | some .testHead => m.head ≤ m.tail
  | some .setHead | some .setTail => m.head = m.tail
  | some .linkTail => 0 < m.tail ∧ m.head ≠ m.tail
  | _ => True

theorem linked_le_granted (m : Marks) (pc : Option TransmitPc) : m.linked pc ≤ m.granted pc := by
  rcases pc with - | p
  · exact Nat.le_refl m.tail
  · show (if p.linked = true then m.tail + 1 else m.tail) ≤ m.tail + 1
    split <;> omega

theorem sent_le_linked (m : Marks) (pc : Option TransmitPc) : m.sent pc ≤ m.linked pc := by
  rcases pc with - | p
  · exact Nat.le_refl m.tail
  · cases p <;> first | exact Nat.le_refl m.tail | exact Nat.le_refl (m.tail + 1) | exact Nat.le_succ m.tail

/-- What is confirmed is not at the open end of the list. -/
theorem terminated_of_last {m : Marks} {pc : Option TransmitPc} (hsent : m.head < m.sent pc)
    (hlast : m.head + 1 = m.linked pc) : Terminated pc := by
  rcases pc with - | p
  · trivial
  · cases p
    case setTail | moveTail | terminate =>
      have h1 : m.head < m.tail := hsent
      have h2 : m.head + 1 = m.tail + 1 := hlast
      omega
    all_goals trivial

theorem linked_confirm (m : Marks) (pc : Option TransmitPc) : m.confirm.linked pc = m.linked pc := by
  rcases pc with - | p <;> rfl

theorem queued_confirm (m : Marks) (pc : Option TransmitPc) : m.confirm.queued pc = m.queued pc := by
  rcases pc with - | p <;> rfl

end Marks

structure RequestsOk (f : UInt8) (q : EthQueueInfo) (next : Nat → Option UInt32) (m : Marks)
    (pc : Option TransmitPc) : Prop where
  head : q.pQueueHead = if m.head < m.linked pc then some (txEntry f m.head) else none
  tail : 0 < m.queued pc → q.pQueueTail = some (txEntry f (m.queued pc - 1))
  chain : ∀ k, m.head ≤ k → k + 1 < m.linked pc → next k = some (txEntry f (k + 1))
  last : ∀ k, m.head ≤ k → k + 1 = m.linked pc → Marks.Terminated pc → next k = none

structure EntriesOk (buffer : UInt8 → UInt32) (f : UInt8) (entry : Nat → TxBufferIdx) (confirm : Nat → Bool)
    (m : Marks) (pc : Option TransmitPc) : Prop where
  entry : ∀ k, m.head ≤ k → k < m.granted pc → entry k = ⟨f, txBufferAddr buffer f k⟩
  confirm : ∀ k, m.head ≤ k → k < m.granted pc → confirm k = true

/-- The frames that the DMA has not sent are in their buffers. -/
def DataOk (data : Nat → List UInt8) (frames : List (List UInt8)) (m : Marks) (pc : Option TransmitPc) : Prop :=
  ∀ k, m.dma ≤ k → k < m.granted pc → (data k).take (frames.getD k []).length = frames.getD k []

/-- The local variables of the `Eth_Transmit` under way. -/
def LocalsOk (buffer : UInt8 → UInt32) (f : UInt8) (frames : List (List UInt8)) (m : Marks)
    (t : Option Transmitting) : Prop :=
  ∀ t', t = some t' → t'.fifoIdx = f ∧ t'.bufIdx = txEntry f m.tail ∧ t'.frameBuffer = txBufferAddr buffer f m.tail ∧
    t'.frameLength.toNat = (frames.getD m.tail []).length

def FifoView.pc (v : FifoView) : Option TransmitPc := v.transmit.map fun t => t.pc

/-- The invariant, up to the place where the list ends. -/
structure FifoOk (buffer : UInt8 → UInt32) (f : UInt8) (frames : List (List UInt8)) (v : FifoView) (m : Marks) :
    Prop where
  marks : MarksOk f m v.pc
  descs : DescsOk buffer f frames v.ring m v.pc
  requests : RequestsOk f v.requests v.next m v.pc
  entries : EntriesOk buffer f v.entry v.confirm m v.pc
  data : DataOk v.data frames m v.pc
  locals : LocalsOk buffer f frames m v.transmit
  granted : frames.length = m.granted v.pc
  dma : v.dma = m.dma % txRingSize f
  short : ∀ frame ∈ frames, frame.length ≤ 1536

/-! ## A confirmation -/

section Confirm

variable {buffer : UInt8 → UInt32} {f : UInt8} {frames : List (List UInt8)} {m : Marks} {pc : Option TransmitPc}

theorem MarksOk.confirm (h : MarksOk f m pc) (hsent : m.head < m.sent pc) (hdma : m.head < m.dma) :
    MarksOk f m.confirm pc := by
  have hgr := m.sent_le_granted pc
  have hlo : m.confirm.lo ≤ m.head + 1 ∧ m.confirm.lo ≤ m.dma ∧ m.lo ≤ m.confirm.lo := by
    have := h.lo_le_head
    have := h.lo_le_dma
    rcases m.lo_confirm_cases with ⟨-, h'⟩ | ⟨-, h'⟩ <;> omega
  refine ⟨hlo.1, hlo.2.1, ?_, ?_, ?_⟩
  · rw [m.sent_confirm]; exact h.dma_le
  · rw [m.granted_confirm]; show m.head + 1 ≤ _; omega
  · rw [m.granted_confirm]
    have := h.room
    omega

theorem RequestsOk.confirm {q : EthQueueInfo} {next : Nat → Option UInt32} (h : RequestsOk f q next m pc)
    (hsent : m.head < m.sent pc) : RequestsOk f { q with pQueueHead := next m.head } next m.confirm pc := by
  have hlinked := m.sent_le_linked pc
  refine ⟨?_, ?_, ?_, ?_⟩
  · rw [m.linked_confirm]
    show next m.head = if m.head + 1 < m.linked pc then some (txEntry f (m.head + 1)) else none
    split
    · next hlt => exact h.chain m.head (Nat.le_refl _) hlt
    · next hge =>
      have hlast : m.head + 1 = m.linked pc := by omega
      exact h.last m.head (Nat.le_refl _) hlast (Marks.terminated_of_last hsent hlast)
  · rw [m.queued_confirm]; exact h.tail
  · intro k hk hk'
    rw [m.linked_confirm] at hk'
    exact h.chain k (Nat.le_of_succ_le hk) hk'
  · intro k hk hk'
    rw [m.linked_confirm] at hk'
    exact h.last k (Nat.le_of_succ_le hk) hk'

theorem DataOk.confirm {data : Nat → List UInt8} (h : DataOk data frames m pc) : DataOk data frames m.confirm pc := by
  intro k hk hk'
  rw [m.granted_confirm] at hk'
  exact h k hk hk'

end Confirm

end CanTsn
