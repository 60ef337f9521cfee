import CanTsnGateway.Queue.Pointers

/-!
# The copies into and out of a queue

`Holds s lo items`: read round the storage area from behind `pcReadFrom`, the slot of
position `lo`, up to `pcWriteTo`, the queue holds `items`.  Each copy keeps it.

    to the back       Holds s lo items → … lo (items ++ [item])                (Holds.back)
    to the front      Holds s (lo + 1) items → … lo (item :: items)           (Holds.front)
    out of the queue  Holds s lo (item :: items) → … (lo + 1) items            (Holds.take)
-/

namespace CanTsn

open ByteMemory QueueDefinition

namespace QueueState

/-- What is in the slots. -/
def stored (s : QueueState) : List (List UInt8) :=
  slots s.memory s.queue.pcHead s.queue.uxItemSize.toNat s.queue.uxLength.toNat

structure Holds (s : QueueState) (lo : Nat) (items : List (List UInt8)) : Prop where
  storage : s.queue.Storage
  writeTo : s.queue.pcWriteTo = s.queue.slotPtr (lo + 1 + items.length)
  readFrom : s.queue.pcReadFrom = s.queue.slotPtr lo
  waiting : s.queue.uxMessagesWaiting.toNat = items.length
  le : items.length ≤ s.queue.uxLength.toNat
  held : Ring.held s.stored [] (lo + 1) (lo + 1 + items.length) = items
  rxLock : s.queue.cRxLock = queueUnlocked
  txLock : s.queue.cTxLock = queueUnlocked

theorem length_stored (s : QueueState) : s.stored.length = s.queue.uxLength.toNat := length_slots _ _ _ _

section Copies

variable {s : QueueState} {lo : Nat} {item : List UInt8} {items : List (List UInt8)}

/-! ## Memory -/

theorem stored_write (h : s.queue.Storage) (k : Nat) (hitem : item.length = s.queue.uxItemSize.toNat) :
    slots (write s.memory (s.queue.slotPtr k) item) s.queue.pcHead s.queue.uxItemSize.toNat s.queue.uxLength.toNat =
      s.stored.set (k % s.stored.length) item := by
  rw [length_stored]
  exact slots_write (Nat.mod_lt k h.length_pos) hitem h.end_lt

theorem read_stored (h : s.queue.Storage) (k : Nat) :
    read s.memory (s.queue.slotPtr k) s.queue.uxItemSize.toNat = Ring.slot s.stored [] k := by
  have hlt : k % s.stored.length < s.stored.length := by
    rw [length_stored]
    exact Nat.mod_lt k h.length_pos
  have hget : s.stored[k % s.stored.length] =
      read s.memory (slotAddr s.queue.pcHead s.queue.uxItemSize.toNat (k % s.stored.length))
        s.queue.uxItemSize.toNat := getElem_slots hlt
  unfold Ring.slot slotPtr
  rw [List.getD_eq_getElem?_getD, List.getElem?_eq_getElem hlt, Option.getD_some, hget, length_stored]

/-! ## The three copies -/

/-- Zero bytes are written by writing nothing. -/
theorem copy_back (h : s.queue.Storage) {k : Nat} (hptr : s.queue.pcWriteTo = s.queue.slotPtr k)
    (hitem : item.length = s.queue.uxItemSize.toNat) :
    prvCopyDataToQueue s item .sendToBack =
      { queue := { s.queue with
          pcWriteTo := s.queue.slotPtr (k + 1)
          uxMessagesWaiting := s.queue.uxMessagesWaiting + 1 }
        memory := write s.memory (s.queue.slotPtr k) item } := by
  have htake : item.take s.queue.uxItemSize.toNat = item := by rw [← hitem, List.take_length]
  unfold prvCopyDataToQueue
  simp only [htake]
  split
  · next hsize =>
    have hnil : item = [] := List.eq_nil_of_length_eq_zero (by rw [hitem, hsize]; rfl)
    subst hnil
    rw [slotPtr_of_size_zero (k + 1) hsize, ← slotPtr_of_size_zero k hsize, ← hptr]
    rfl
  · next hsize =>
    rw [if_true, hptr]
    have hnext := wrap_next k h hsize
    simp only [hnext]

theorem copy_front (h : s.queue.Storage) {k : Nat} (hptr : s.queue.pcReadFrom = s.queue.slotPtr (k + 1))
    (hitem : item.length = s.queue.uxItemSize.toNat) {pos : CopyPosition} (hpos : pos ≠ .sendToBack)
    (hsize : pos = .overwrite → s.queue.uxItemSize ≠ 0) :
    prvCopyDataToQueue s item pos =
      { queue := { s.queue with
          pcReadFrom := s.queue.slotPtr k
          uxMessagesWaiting :=
            (if pos = .overwrite ∧ s.queue.uxMessagesWaiting > 0 then s.queue.uxMessagesWaiting - 1
              else s.queue.uxMessagesWaiting) + 1 }
        memory := write s.memory (s.queue.slotPtr (k + 1)) item } := by
  have htake : item.take s.queue.uxItemSize.toNat = item := by rw [← hitem, List.take_length]
  unfold prvCopyDataToQueue
  simp only [htake]
  split
  · next hzero =>
    have hnil : item = [] := List.eq_nil_of_length_eq_zero (by rw [hitem, hzero]; rfl)
    have hover : ¬ (pos = .overwrite ∧ s.queue.uxMessagesWaiting > 0) := fun ho => hsize ho.1 hzero
    subst hnil
    rw [if_neg hover, slotPtr_of_size_zero k hzero, ← slotPtr_of_size_zero (k + 1) hzero, ← hptr]
    rfl
  · next hsize' =>
    rw [hptr]
    have hprev := wrap_prev k h hsize'
    simp only [hprev]

theorem copy_from (h : s.queue.Storage) {k : Nat} (hptr : s.queue.pcReadFrom = s.queue.slotPtr k) :
    prvCopyDataFromQueue s = (read s.memory (s.queue.slotPtr (k + 1)) s.queue.uxItemSize.toNat,
      { s with queue := { s.queue with pcReadFrom := s.queue.slotPtr (k + 1) } }) := by
  unfold prvCopyDataFromQueue
  simp only
  split
  · next hsize =>
    rw [hptr]
    have hnext := wrap_next k h hsize
    simp only [hnext]
  · next hsize =>
    have hzero : s.queue.uxItemSize = 0 := Classical.not_not.1 hsize
    have hsame : s.queue.slotPtr (k + 1) = s.queue.pcReadFrom := by
      rw [hptr, slotPtr_of_size_zero (k + 1) hzero, slotPtr_of_size_zero k hzero]
    have hread : read s.memory s.queue.pcReadFrom s.queue.uxItemSize.toNat = [] := by
      rw [hzero]
      rfl
    rw [hsame, hread]

/-! ## Keeping `Holds` -/

/-- The same queue a lap further on. -/
theorem Holds.lap (h : s.Holds lo items) : s.Holds (lo + s.queue.uxLength.toNat) items where
  storage := h.storage
  writeTo := by
    have hlap := slotPtr_lap s.queue (lo + 1 + items.length)
    have hpos : lo + s.queue.uxLength.toNat + 1 + items.length =
        lo + 1 + items.length + s.queue.uxLength.toNat := by omega
    rw [h.writeTo, hpos, hlap]
  readFrom := by rw [h.readFrom, slotPtr_lap]
  waiting := h.waiting
  le := h.le
  held := by
    have hlap := Ring.held_lap s.stored [] (lo + 1) (lo + 1 + items.length)
    have hlo : lo + s.queue.uxLength.toNat + 1 = lo + 1 + s.queue.uxLength.toNat := by omega
    have hhi : lo + 1 + s.queue.uxLength.toNat + items.length =
        lo + 1 + items.length + s.queue.uxLength.toNat := by omega
    rw [length_stored, h.held] at hlap
    rw [hlo, hhi]
    exact hlap
  rxLock := h.rxLock
  txLock := h.txLock

/-- The read position may be taken to be past the start. -/
theorem Holds.exists_succ (h : s.Holds lo items) : ∃ k, s.Holds (k + 1) items := by
  have hpos := h.storage.length_pos
  refine ⟨lo + (s.queue.uxLength.toNat - 1), ?_⟩
  have heq : lo + (s.queue.uxLength.toNat - 1) + 1 = lo + s.queue.uxLength.toNat := by omega
  rw [heq]
  exact h.lap

theorem toNat_waiting_succ (h : s.Holds lo items) (hroom : items.length < s.queue.uxLength.toNat) :
    (s.queue.uxMessagesWaiting + 1).toNat = items.length + 1 := by
  have hlt := s.queue.uxLength.toNat_lt
  have hone : (1 : UInt32).toNat = 1 := rfl
  rw [UInt32.toNat_add, h.waiting, hone]
  omega

theorem Holds.back (h : s.Holds lo items) (hroom : items.length < s.queue.uxLength.toNat)
    (hitem : item.length = s.queue.uxItemSize.toNat) :
    (prvCopyDataToQueue s item .sendToBack).Holds lo (items ++ [item]) := by
  rw [copy_back h.storage h.writeTo hitem]
  have hlen : (items ++ [item]).length = items.length + 1 := List.length_append
  refine ⟨⟨h.storage.1, h.storage.2, h.storage.3, h.storage.4⟩, ?_, h.readFrom, ?_, ?_, ?_, h.rxLock, h.txLock⟩
  · rw [hlen]
    rfl
  · rw [hlen]
    exact toNat_waiting_succ h hroom
  · rw [hlen]
    exact hroom
  · have hset := Ring.held_set [] item (Nat.le_add_right (lo + 1) items.length)
      (show _ < _ + s.stored.length by rw [length_stored]; omega)
    rw [hlen]
    rw [h.held] at hset
    exact (congrArg (Ring.held · _ _ _) (stored_write h.storage _ hitem)).trans hset

theorem Holds.front (h : s.Holds (lo + 1) items) (hroom : items.length < s.queue.uxLength.toNat)
    (hitem : item.length = s.queue.uxItemSize.toNat) :
    (prvCopyDataToQueue s item .sendToFront).Holds lo (item :: items) := by
  rw [copy_front h.storage h.readFrom hitem (by decide) (fun ho => by cases ho)]
  have hhi : lo + 1 + (items.length + 1) = lo + 1 + 1 + items.length := by omega
  refine ⟨⟨h.storage.1, h.storage.2, h.storage.3, h.storage.4⟩, ?_, rfl, ?_, hroom, ?_, h.rxLock, h.txLock⟩
  · rw [List.length_cons, hhi]
    exact h.writeTo
  · rw [if_neg fun ho => by cases ho.1]
    exact toNat_waiting_succ h hroom
  · have hset := Ring.held_set_front [] item (show lo + 1 < lo + 1 + 1 + items.length by omega)
      (show _ ≤ _ + s.stored.length by rw [length_stored]; omega)
    rw [List.length_cons, hhi]
    rw [h.held] at hset
    exact (congrArg (Ring.held · _ _ _) (stored_write h.storage _ hitem)).trans hset

/-- In a storage area of one slot every pointer is the same. -/
theorem Holds.overwrite (h : s.Holds (lo + 1) items) (hone : s.queue.uxLength.toNat = 1)
    (hitem : item.length = s.queue.uxItemSize.toNat) (hsize : s.queue.uxItemSize ≠ 0) :
    (prvCopyDataToQueue s item .overwrite).Holds lo [item] := by
  have hptr : ∀ j k, s.queue.slotPtr j = s.queue.slotPtr k := fun j k => by
    unfold slotPtr
    rw [hone, Nat.mod_one, Nat.mod_one]
  have hle := h.le
  have hwaiting := h.waiting
  rw [copy_front h.storage h.readFrom hitem (by decide) fun _ => hsize]
  refine ⟨⟨h.storage.1, h.storage.2, h.storage.3, h.storage.4⟩, ?_, rfl, ?_, ?_, ?_, h.rxLock, h.txLock⟩
  · exact h.writeTo.trans (hptr _ _)
  · have hcount : (if CopyPosition.overwrite = .overwrite ∧ s.queue.uxMessagesWaiting > 0 then
        s.queue.uxMessagesWaiting - 1 else s.queue.uxMessagesWaiting) = 0 := by
      rw [hone] at hle
      rw [hwaiting.symm] at hle
      split
      · next hpos =>
        have hlt : 0 < s.queue.uxMessagesWaiting.toNat := UInt32.lt_iff_toNat_lt.1 hpos.2
        have heq : s.queue.uxMessagesWaiting = 1 := UInt32.toNat_inj.1 (Nat.le_antisymm hle hlt)
        rw [heq]
        rfl
      · next hpos =>
        have hnot : ¬ 0 < s.queue.uxMessagesWaiting.toNat := fun hlt => hpos ⟨rfl, UInt32.lt_iff_toNat_lt.2 hlt⟩
        exact UInt32.toNat_inj.1 (Nat.eq_zero_of_not_pos hnot)
    rw [hcount]
    rfl
  · exact Nat.le_of_eq hone.symm
  · have hset := Ring.held_set_front [] item (Nat.lt_succ_self (lo + 1))
      (show _ ≤ _ + s.stored.length by rw [length_stored, hone])
    rw [Ring.held_self] at hset
    exact (congrArg (Ring.held · _ _ _) (stored_write h.storage _ hitem)).trans hset

/-- The first item, and what is left when it is taken. -/
theorem Holds.first (h : s.Holds lo (item :: items)) :
    prvCopyDataFromQueue s =
      (item, { s with queue := { s.queue with pcReadFrom := s.queue.slotPtr (lo + 1) } }) ∧
    Ring.held s.stored [] (lo + 1 + 1) (lo + 1 + 1 + items.length) = items := by
  have hhi : lo + 1 + (items.length + 1) = lo + 1 + 1 + items.length := by omega
  have hheld := h.held
  rw [List.length_cons, hhi, Ring.held_cons _ _ (by omega)] at hheld
  obtain ⟨hitem, hrest⟩ := List.cons.inj hheld
  refine ⟨?_, hrest⟩
  rw [copy_from h.storage h.readFrom, read_stored h.storage, hitem]

theorem Holds.take (h : s.Holds lo (item :: items)) :
    QueueState.Holds { s with queue := { s.queue with
      pcReadFrom := s.queue.slotPtr (lo + 1)
      uxMessagesWaiting := s.queue.uxMessagesWaiting - 1 } } (lo + 1) items := by
  have hhi : lo + 1 + (items.length + 1) = lo + 1 + 1 + items.length := by omega
  have hwaiting := h.waiting
  refine ⟨⟨h.storage.1, h.storage.2, h.storage.3, h.storage.4⟩, ?_, rfl, ?_, ?_, h.first.2, h.rxLock, h.txLock⟩
  · rw [← hhi]
    exact h.writeTo
  · rw [List.length_cons] at hwaiting
    have hone : (1 : UInt32).toNat = 1 := rfl
    rw [UInt32.toNat_sub_of_le _ _ (by rw [UInt32.le_iff_toNat_le, hwaiting, hone]; omega), hwaiting, hone]
    rfl
  · exact Nat.le_of_succ_le h.le

/-! ## An empty queue -/

theorem reset_holds {q : QueueDefinition} (hpos : 0 < q.uxLength.toNat)
    (hend : q.pcHead.toNat + q.uxLength.toNat * q.uxItemSize.toNat < 2 ^ 32)
    (hsize : q.uxItemSize.toNat ≤ q.pcHead.toNat) (m : Memory) :
    ∃ q', xQueueGenericReset q = some q' ∧ q'.pcHead = q.pcHead ∧ q'.uxLength = q.uxLength ∧
      q'.uxItemSize = q.uxItemSize ∧ QueueState.Holds ⟨q', m⟩ (q.uxLength.toNat - 1) [] := by
  have hone : (1 : UInt32).toNat = 1 := rfl
  have hle : (1 : UInt32) ≤ q.uxLength := UInt32.le_iff_toNat_le.2 hpos
  have hfits : sizeMax / q.uxLength ≥ q.uxItemSize := by
    have hmax : sizeMax.toNat = 2 ^ 32 - 1 := rfl
    rw [ge_iff_le, UInt32.le_iff_toNat_le, UInt32.toNat_div, hmax, Nat.le_div_iff_mul_le hpos, Nat.mul_comm]
    omega
  have hprod : (q.uxLength * q.uxItemSize).toNat = q.uxLength.toNat * q.uxItemSize.toNat := by
    rw [UInt32.toNat_mul, Nat.mod_eq_of_lt (by omega)]
  have hlast : q.uxLength.toNat - 1 + 1 = q.uxLength.toNat := Nat.sub_add_cancel hpos
  refine ⟨_, if_pos ⟨hle, hfits⟩, rfl, rfl, rfl, ?_⟩
  refine ⟨⟨hpos, hend, hsize, ?_⟩, ?_, ?_, rfl, Nat.zero_le _, ?_, rfl, rfl⟩
  · rw [UInt32.toNat_add, hprod, Nat.mod_eq_of_lt hend]
  · rw [hlast]
    exact (slotPtr_zero q).symm.trans ((slotPtr_lap q 0).symm.trans (by rw [Nat.zero_add]; rfl))
  · have hmod : (q.uxLength.toNat - 1) % q.uxLength.toNat = q.uxLength.toNat - 1 :=
      Nat.mod_eq_of_lt (Nat.sub_lt hpos Nat.one_pos)
    have hback : (q.uxLength - 1).toNat = q.uxLength.toNat - 1 := by
      rw [UInt32.toNat_sub_of_le _ _ hle, hone]
    show q.pcHead + (q.uxLength - 1) * q.uxItemSize =
      q.pcHead + UInt32.ofNat ((q.uxLength.toNat - 1) % q.uxLength.toNat * q.uxItemSize.toNat)
    rw [hmod, ← hback, UInt32.ofNat_mul, UInt32.ofNat_toNat, UInt32.ofNat_toNat]
  · exact Ring.held_self _ _ _

end Copies

end QueueState

end CanTsn
