import CanTsnGateway.Lib.BoundedQueue
import CanTsnGateway.Queue.Copies

/-!
# The FreeRTOS queue is a bounded queue

`boundedQueue` says what the calls are for: a bounded queue of items, put to at the back or
at the front.  The pointers, the counts and the memory of a queue from
`xQueueGenericCreate` give the same results, call for call.

    Tracks s q → Fits call → the same result, and Tracks again                    (call_tracks)
    a run from xQueueGenericCreate and the run of a bounded queue: the same results
                                                                            (queue_refines)
    and no byte outside the storage area changes                       (queue_storage_only)
-/

namespace CanTsn

open ByteMemory StepMachine BoundedQueue QueueDefinition

/-- What the calls are for. -/
def boundedQueue : Machine (BoundedQueue (List UInt8)) QueueCall QueueResult where
  step q call :=
    match call with
    | .sendFromISR item .sendToBack => some ((send q item).2, [.sent (send q item).1])
    | .sendFromISR item .sendToFront => some ((sendFront q item).2, [.sent (sendFront q item).1])
    | .sendFromISR item .overwrite =>
      if h : q.capacity = 1 then some (replace q h item, [.sent true]) else none
    | .receive | .receiveFromISR => some ((receive q).2, [.received (receive q).1])
    | .peek | .peekFromISR => some (q, [.peeked q.items.head?])
    | .reset => some (empty q.capacity, [.wasReset])

/-- An item has the length of a slot; a queue of empty items is a semaphore, which is
neither overwritten nor peeked at. -/
def QueueCall.Fits (uxItemSize : UInt32) : QueueCall → Prop
  | .sendFromISR item pos => item.length = uxItemSize.toNat ∧ (pos = .overwrite → uxItemSize ≠ 0)
  | .peekFromISR => uxItemSize ≠ 0
  | _ => True

/-- Not a byte of the storage area. -/
def QueueDefinition.Outside (q : QueueDefinition) (x : UInt32) : Prop :=
  x.toNat < q.pcHead.toNat ∨ q.pcHead.toNat + q.uxLength.toNat * q.uxItemSize.toNat ≤ x.toNat

/-- The queue created as `q₀` with the memory `m₀`, now in state `s`, holds what `q` holds. -/
structure Tracks (q₀ : QueueDefinition) (m₀ : Memory) (s : QueueState) (q : BoundedQueue (List UInt8)) : Prop where
  head : s.queue.pcHead = q₀.pcHead
  length : s.queue.uxLength = q₀.uxLength
  size : s.queue.uxItemSize = q₀.uxItemSize
  capacity : q.capacity = s.queue.uxLength.toNat
  holds : ∃ lo, s.Holds lo q.items
  outside : ∀ x, q₀.Outside x → s.memory x = m₀ x

/-- What a call does to the two. -/
abbrev SameAnswers (q₀ : QueueDefinition) (m₀ : Memory) :
    Option (QueueState × List QueueResult) → Option (BoundedQueue (List UInt8) × List QueueResult) → Prop :=
  Option.Rel fun r r' => Tracks q₀ m₀ r.1 r'.1 ∧ r.2 = r'.2

section Calls

variable {q₀ : QueueDefinition} {m₀ : Memory} {s : QueueState} {q : BoundedQueue (List UInt8)} {item : List UInt8}

/-- A copy into a slot changes the storage area only. -/
theorem Tracks.write_outside (h : Tracks q₀ m₀ s q) (k : Nat) (hitem : item.length = s.queue.uxItemSize.toNat)
    {x : UInt32} (hx : q₀.Outside x) : write s.memory (s.queue.slotPtr k) item x = m₀ x := by
  obtain ⟨lo, hholds⟩ := h.holds
  have hend := end_le (Nat.mod_lt k hholds.storage.length_pos) s.queue.uxItemSize.toNat
  have hptr := toNat_slotPtr k hholds.storage
  have hfits := hholds.storage.end_lt
  have hout := hx
  unfold Outside at hout
  rw [← h.head, ← h.length, ← h.size] at hout
  rw [write_of_outside (by omega) (by omega), h.outside x hx]

/-- Whether there is room is read off `uxMessagesWaiting`. -/
theorem Tracks.room_iff (h : Tracks q₀ m₀ s q) :
    s.queue.uxMessagesWaiting < s.queue.uxLength ↔ q.items.length < q.capacity := by
  obtain ⟨lo, hholds⟩ := h.holds
  rw [UInt32.lt_iff_toNat_lt, hholds.waiting, h.capacity]

theorem Tracks.waiting_iff (h : Tracks q₀ m₀ s q) : s.queue.uxMessagesWaiting > 0 ↔ q.items ≠ [] := by
  obtain ⟨lo, hholds⟩ := h.holds
  have hzero : (0 : UInt32).toNat = 0 := rfl
  rw [gt_iff_lt, UInt32.lt_iff_toNat_lt, hholds.waiting, hzero, List.length_pos_iff]

/-! ## Sending -/

/-- An unlocked queue is sent to by the copy alone. -/
theorem sendFromISR_copied (pos : CopyPosition) (hlock : s.queue.cTxLock = queueUnlocked)
    (hover : pos = .overwrite → s.queue.uxLength = 1)
    (hroom : s.queue.uxMessagesWaiting < s.queue.uxLength ∨ pos = .overwrite) :
    xQueueGenericSendFromISR s item pos = some (true, prvCopyDataToQueue s item pos) := by
  unfold xQueueGenericSendFromISR
  rw [if_neg fun h => h.2 (hover h.1), if_pos hroom]
  simp only [hlock, if_true]

theorem sendFromISR_full (pos : CopyPosition) (hpos : pos ≠ .overwrite)
    (hfull : ¬ s.queue.uxMessagesWaiting < s.queue.uxLength) :
    xQueueGenericSendFromISR s item pos = some (false, s) := by
  unfold xQueueGenericSendFromISR
  rw [if_neg fun h => hpos h.1, if_neg fun h => h.elim hfull hpos]

/-- An item copied to where a bounded queue puts it. -/
theorem Tracks.copied (h : Tracks q₀ m₀ s q) {q₁ : BoundedQueue (List UInt8)} {pos : CopyPosition}
    {c : QueueDefinition} {k lo : Nat}
    (hcopy : prvCopyDataToQueue s item pos = ⟨c, write s.memory (s.queue.slotPtr k) item⟩)
    (hsame : c.pcHead = s.queue.pcHead ∧ c.uxLength = s.queue.uxLength ∧ c.uxItemSize = s.queue.uxItemSize)
    (hitem : item.length = s.queue.uxItemSize.toNat) (hholds : (prvCopyDataToQueue s item pos).Holds lo q₁.items)
    (hcap : q₁.capacity = q.capacity) : Tracks q₀ m₀ (prvCopyDataToQueue s item pos) q₁ := by
  obtain ⟨hhead, hlength, hsize⟩ := hsame
  rw [hcopy] at hholds ⊢
  refine ⟨hhead.trans h.head, hlength.trans h.length, hsize.trans h.size, ?_, ⟨lo, hholds⟩,
    fun x hx => h.write_outside k hitem hx⟩
  show q₁.capacity = c.uxLength.toNat
  rw [hcap, hlength, h.capacity]

/-- **Sending to the back** is sending to a bounded queue. -/
theorem sendToBack_eq (h : Tracks q₀ m₀ s q) (hitem : item.length = q₀.uxItemSize.toNat) :
    ∃ s', xQueueGenericSendFromISR s item .sendToBack = some ((send q item).1, s') ∧
      Tracks q₀ m₀ s' (send q item).2 := by
  obtain ⟨lo, hholds⟩ := h.holds
  rw [← h.size] at hitem
  by_cases hroom : s.queue.uxMessagesWaiting < s.queue.uxLength
  · have hlt := h.room_iff.1 hroom
    have hback := hholds.back (h.capacity ▸ hlt) hitem
    have hcopy := QueueState.copy_back hholds.storage hholds.writeTo hitem
    have haccepted : send q item = (true, ⟨q.capacity, q.items ++ [item], by
      rw [List.length_append]
      exact hlt⟩) := dif_pos hlt
    rw [haccepted]
    exact ⟨_, sendFromISR_copied .sendToBack hholds.txLock (fun ho => by cases ho) (Or.inl hroom),
      h.copied hcopy ⟨rfl, rfl, rfl⟩ hitem hback rfl⟩
  · have hfull : send q item = (false, q) := dif_neg fun hlt => hroom (h.room_iff.2 hlt)
    rw [hfull]
    exact ⟨s, sendFromISR_full .sendToBack (by decide) hroom, h⟩

theorem sendToFront_eq (h : Tracks q₀ m₀ s q) (hitem : item.length = q₀.uxItemSize.toNat) :
    ∃ s', xQueueGenericSendFromISR s item .sendToFront = some ((sendFront q item).1, s') ∧
      Tracks q₀ m₀ s' (sendFront q item).2 := by
  obtain ⟨lo, hholds⟩ := h.holds
  obtain ⟨k, hk⟩ := hholds.exists_succ
  rw [← h.size] at hitem
  by_cases hroom : s.queue.uxMessagesWaiting < s.queue.uxLength
  · have hlt := h.room_iff.1 hroom
    have hfront := hk.front (h.capacity ▸ hlt) hitem
    have hcopy := QueueState.copy_front hk.storage hk.readFrom hitem
      (show CopyPosition.sendToFront ≠ .sendToBack by decide)
      (fun ho => by cases ho)
    have haccepted : sendFront q item = (true, ⟨q.capacity, item :: q.items, hlt⟩) := dif_pos hlt
    rw [haccepted]
    exact ⟨_, sendFromISR_copied .sendToFront hholds.txLock (fun ho => by cases ho) (Or.inl hroom),
      h.copied hcopy ⟨rfl, rfl, rfl⟩ hitem hfront rfl⟩
  · have hfull : sendFront q item = (false, q) := dif_neg fun hlt => hroom (h.room_iff.2 hlt)
    rw [hfull]
    exact ⟨s, sendFromISR_full .sendToFront (by decide) hroom, h⟩

theorem overwrite_tracks (h : Tracks q₀ m₀ s q) (hitem : item.length = q₀.uxItemSize.toNat)
    (hsize : q₀.uxItemSize ≠ 0) :
    SameAnswers q₀ m₀ (freeRtosQueue.step s (.sendFromISR item .overwrite))
      (boundedQueue.step q (.sendFromISR item .overwrite)) := by
  obtain ⟨lo, hholds⟩ := h.holds
  obtain ⟨k, hk⟩ := hholds.exists_succ
  rw [← h.size] at hitem hsize
  by_cases hone : s.queue.uxLength = 1
  · have hlen : s.queue.uxLength.toNat = 1 := by rw [hone]; rfl
    have hover := hk.overwrite hlen hitem hsize
    have hcap : q.capacity = 1 := h.capacity.trans hlen
    unfold freeRtosQueue boundedQueue
    simp only [sendFromISR_copied .overwrite hholds.txLock (fun _ => hone) (Or.inr rfl), dif_pos hcap, Option.map_some]
    have hcopy := QueueState.copy_front hk.storage hk.readFrom hitem
      (show CopyPosition.overwrite ≠ .sendToBack by decide) fun _ => hsize
    exact .some ⟨h.copied hcopy ⟨rfl, rfl, rfl⟩ hitem hover rfl, rfl⟩
  · have hcap : ¬ q.capacity = 1 := fun hc => hone (UInt32.toNat_inj.1 (h.capacity.symm.trans hc))
    unfold freeRtosQueue boundedQueue xQueueGenericSendFromISR
    simp only [dif_neg hcap]
    rw [if_pos ⟨trivial, hone⟩]
    exact .none

/-! ## Receiving and peeking -/

theorem receiveFromISR_eq (hlock : s.queue.cRxLock = queueUnlocked) :
    xQueueReceiveFromISR s = some (xQueueReceive s) := by
  unfold xQueueReceiveFromISR xQueueReceive
  by_cases hwaiting : s.queue.uxMessagesWaiting > 0
  · simp only [if_pos hwaiting, hlock, if_true]
  · rw [if_neg hwaiting, if_neg hwaiting]

theorem peekFromISR_eq (hsize : s.queue.uxItemSize ≠ 0) : xQueuePeekFromISR s = some (xQueuePeek s) := by
  unfold xQueuePeekFromISR xQueuePeek
  rw [if_neg hsize]
  split <;> rfl

theorem receive_tracks (h : Tracks q₀ m₀ s q) :
    (xQueueReceive s).1 = (receive q).1 ∧ Tracks q₀ m₀ (xQueueReceive s).2 (receive q).2 := by
  obtain ⟨lo, hholds⟩ := h.holds
  have hitems := items_receive q
  have hcap := capacity_receive q
  by_cases hwaiting : s.queue.uxMessagesWaiting > 0
  · obtain ⟨item, items, hcons⟩ := List.exists_cons_of_ne_nil (h.waiting_iff.1 hwaiting)
    rw [hcons] at hholds
    have hreceived : (receive q).1 = some item ∧ (receive q).2.items = items := by
      unfold receive
      split
      · next hnil => rw [hnil] at hcons; cases hcons
      · next a as has =>
        rw [has] at hcons
        obtain ⟨rfl, rfl⟩ := List.cons.inj hcons
        exact ⟨rfl, rfl⟩
    unfold xQueueReceive
    simp only [if_pos hwaiting, hholds.first.1, hreceived.1, true_and]
    refine ⟨h.head, h.length, h.size, hcap.trans h.capacity, ⟨lo + 1, ?_⟩, h.outside⟩
    rw [hreceived.2]
    exact hholds.take
  · have hnil : q.items = [] := Classical.not_not.1 fun hne => hwaiting (h.waiting_iff.2 hne)
    have hnone : (receive q).1 = none ∧ (receive q).2 = q := by
      unfold receive
      split
      · exact ⟨rfl, rfl⟩
      · next a as has => rw [has] at hnil; cases hnil
    unfold xQueueReceive
    rw [if_neg hwaiting, hnone.1, hnone.2]
    exact ⟨rfl, h⟩

/-- Peeking puts `pcReadFrom` back. -/
theorem peek_eq (h : Tracks q₀ m₀ s q) : xQueuePeek s = (q.items.head?, s) := by
  obtain ⟨lo, hholds⟩ := h.holds
  unfold xQueuePeek
  by_cases hwaiting : s.queue.uxMessagesWaiting > 0
  · obtain ⟨item, items, hcons⟩ := List.exists_cons_of_ne_nil (h.waiting_iff.1 hwaiting)
    rw [hcons] at hholds
    rw [if_pos hwaiting, hcons]
    simp only [hholds.first.1]
    rfl
  · have hnil : q.items = [] := Classical.not_not.1 fun hne => hwaiting (h.waiting_iff.2 hne)
    rw [if_neg hwaiting, hnil]
    rfl

/-! ## Runs -/

theorem reset_tracks (h : Tracks q₀ m₀ s q) :
    SameAnswers q₀ m₀ (freeRtosQueue.step s .reset) (boundedQueue.step q .reset) := by
  obtain ⟨lo, hholds⟩ := h.holds
  obtain ⟨q', hreset, hhead, hlength, hsize, hempty⟩ :=
    QueueState.reset_holds hholds.storage.length_pos hholds.storage.end_lt hholds.storage.size_le s.memory
  unfold freeRtosQueue boundedQueue
  simp only [hreset, Option.map_some]
  refine .some ⟨⟨hhead.trans h.head, hlength.trans h.length, hsize.trans h.size, ?_, ⟨_, hempty⟩, h.outside⟩, rfl⟩
  show q.capacity = q'.uxLength.toNat
  rw [hlength, h.capacity]

theorem call_tracks (h : Tracks q₀ m₀ s q) {call : QueueCall} (hfits : call.Fits q₀.uxItemSize) :
    SameAnswers q₀ m₀ (freeRtosQueue.step s call) (boundedQueue.step q call) := by
  have hreceive := receive_tracks h
  have hpeek := peek_eq h
  cases call with
  | sendFromISR item pos =>
    cases pos with
    | sendToBack =>
      obtain ⟨s', hsend, htracks⟩ := sendToBack_eq h hfits.1
      unfold freeRtosQueue boundedQueue
      simp only [hsend, Option.map_some]
      exact .some ⟨htracks, rfl⟩
    | sendToFront =>
      obtain ⟨s', hsend, htracks⟩ := sendToFront_eq h hfits.1
      unfold freeRtosQueue boundedQueue
      simp only [hsend, Option.map_some]
      exact .some ⟨htracks, rfl⟩
    | overwrite => exact overwrite_tracks h hfits.1 (hfits.2 rfl)
  | receive =>
    show SameAnswers q₀ m₀ (some ((xQueueReceive s).2, [.received (xQueueReceive s).1])) _
    rw [hreceive.1]
    exact .some ⟨hreceive.2, rfl⟩
  | receiveFromISR =>
    obtain ⟨lo, hholds⟩ := h.holds
    unfold freeRtosQueue boundedQueue
    simp only [receiveFromISR_eq hholds.rxLock, Option.map_some, hreceive.1]
    exact .some ⟨hreceive.2, rfl⟩
  | peek =>
    unfold freeRtosQueue boundedQueue
    simp only [hpeek]
    exact .some ⟨h, rfl⟩
  | peekFromISR =>
    unfold freeRtosQueue boundedQueue
    simp only [peekFromISR_eq (h.size.symm ▸ hfits), hpeek, Option.map_some]
    exact .some ⟨h, rfl⟩
  | reset => exact reset_tracks h

theorem run_tracks (h : Tracks q₀ m₀ s q) {calls : List QueueCall} (hfits : ∀ call ∈ calls, call.Fits q₀.uxItemSize) :
    SameAnswers q₀ m₀ (freeRtosQueue.run s calls) (boundedQueue.run q calls) :=
  freeRtosQueue.run_bisim boundedQueue (Tracks q₀ m₀) (fun _ _ _ hst hcall => call_tracks hst hcall) h hfits

end Calls

/-! ## From the creation on -/

def configTotalHeapSize : Nat := 65536

/-- Blocks of the heap array `ucHeap`, which is away from both ends of the address space. -/
structure InHeap (ucHeap : Nat) (pvPortMalloc : UInt32 → UInt32) : Prop where
  low : configTotalHeapSize ≤ ucHeap
  high : ucHeap + configTotalHeapSize < 2 ^ 32
  block : ∀ n, pvPortMalloc n ≠ 0 → ucHeap ≤ (pvPortMalloc n).toNat ∧
    (pvPortMalloc n).toNat + n.toNat ≤ ucHeap + configTotalHeapSize

section Created

variable {ucHeap : Nat} {pvPortMalloc : UInt32 → UInt32} {garbage q₀ : QueueDefinition}
  {uxQueueLength uxItemSize : UInt32}

/-- The checks of `xQueueGenericCreate` keep the size of the block from wrapping. -/
theorem toNat_block (hlen : uxQueueLength > 0) (hmul : sizeMax / uxQueueLength ≥ uxItemSize)
    (hadd : sizeMax - sizeofQueueT ≥ uxQueueLength * uxItemSize) :
    (sizeofQueueT + uxQueueLength * uxItemSize).toNat = 72 + uxQueueLength.toNat * uxItemSize.toNat := by
  have hmax : sizeMax.toNat = 2 ^ 32 - 1 := rfl
  have hsize : sizeofQueueT.toNat = 72 := rfl
  have hroom : (sizeMax - sizeofQueueT).toNat = 2 ^ 32 - 1 - 72 := rfl
  have hpos : 0 < uxQueueLength.toNat := UInt32.lt_iff_toNat_lt.1 hlen
  have hle : uxItemSize.toNat * uxQueueLength.toNat ≤ 2 ^ 32 - 1 := by
    rw [← Nat.le_div_iff_mul_le hpos, ← hmax, ← UInt32.toNat_div]
    exact UInt32.le_iff_toNat_le.1 hmul
  have hprod : (uxQueueLength * uxItemSize).toNat = uxQueueLength.toNat * uxItemSize.toNat := by
    rw [UInt32.toNat_mul, Nat.mul_comm, Nat.mod_eq_of_lt (by omega), Nat.mul_comm]
  have hsum : (uxQueueLength * uxItemSize).toNat ≤ 2 ^ 32 - 1 - 72 := by
    rw [← hroom]
    exact UInt32.le_iff_toNat_le.1 hadd
  rw [UInt32.toNat_add, hsize, hprod, Nat.mod_eq_of_lt (by omega)]

theorem created_tracks (hheap : InHeap ucHeap pvPortMalloc)
    (hcreate : xQueueGenericCreate pvPortMalloc garbage uxQueueLength uxItemSize = some (some q₀)) (m : Memory) :
    Tracks q₀ m ⟨q₀, m⟩ (empty uxQueueLength.toNat) ∧ q₀.uxItemSize = uxItemSize := by
  unfold xQueueGenericCreate at hcreate
  split at hcreate
  · next hchecks =>
    obtain ⟨hlen, hmul, hadd⟩ := hchecks
    have hblock := toNat_block hlen hmul hadd
    simp only at hcreate
    split at hcreate
    · cases hcreate
    · next hnull =>
      obtain ⟨hge, hend⟩ := hheap.block _ hnull
      generalize hp : pvPortMalloc (sizeofQueueT + uxQueueLength * uxItemSize) = p at *
      rw [hblock] at hend
      have hlow := hheap.low
      have hhigh := hheap.high
      have hpos : 0 < uxQueueLength.toNat := UInt32.lt_iff_toNat_lt.1 hlen
      have hone : uxItemSize.toNat ≤ uxQueueLength.toNat * uxItemSize.toNat := Nat.le_mul_of_pos_left _ hpos
      have hsizeof : sizeofQueueT.toNat = 72 := rfl
      have hstorage : (p + sizeofQueueT).toNat = p.toNat + 72 := by
        rw [UInt32.toNat_add, hsizeof, Nat.mod_eq_of_lt (by omega)]
      have hhead : (if uxItemSize = 0 then p else p + sizeofQueueT).toNat ≤ p.toNat + 72 ∧
          p.toNat ≤ (if uxItemSize = 0 then p else p + sizeofQueueT).toNat := by
        split
        · exact ⟨Nat.le_add_right _ _, Nat.le_refl _⟩
        · rw [hstorage]
          exact ⟨Nat.le_refl _, Nat.le_add_right _ _⟩
      obtain ⟨q', hreset, hpc, hl, hs, hholds⟩ := QueueState.reset_holds
        (q := { garbage with pcHead := if uxItemSize = 0 then p else p + sizeofQueueT
                             uxLength := uxQueueLength
                             uxItemSize := uxItemSize })
        hpos (by simp only; omega) (by simp only; omega) m
      have hq : some q' = some q₀ := by
        have hinit : (prvInitialiseNewQueue uxQueueLength uxItemSize (p + sizeofQueueT) p garbage).map some =
            some (some q') := congrArg (Option.map some) hreset
        exact Option.some.inj (hinit.symm.trans hcreate)
      obtain rfl := Option.some.inj hq
      exact ⟨⟨rfl, rfl, rfl, by rw [hl]; rfl, ⟨_, hholds⟩, fun _ _ => rfl⟩, hs⟩
  · cases hcreate

/-- **The queue is a bounded queue** of `uxQueueLength` items: any calls in any order
return what they return there. -/
theorem queue_refines (hheap : InHeap ucHeap pvPortMalloc)
    (hcreate : xQueueGenericCreate pvPortMalloc garbage uxQueueLength uxItemSize = some (some q₀)) (m : Memory)
    (calls : List QueueCall) (hfits : ∀ call ∈ calls, call.Fits uxItemSize) :
    (freeRtosQueue.run ⟨q₀, m⟩ calls).map Prod.snd =
      (boundedQueue.run (empty uxQueueLength.toNat) calls).map Prod.snd := by
  obtain ⟨htracks, hsize⟩ := created_tracks hheap hcreate m
  exact Machine.rel_events (run_tracks htracks (hsize ▸ hfits))

/-- A heap that has one block. -/
def oneBlock (xWantedSize : UInt32) : UInt32 := if xWantedSize.toNat ≤ configTotalHeapSize then 0x34000000 else 0

theorem oneBlock_inHeap : InHeap 0x34000000 oneBlock where
  low := by decide
  high := by decide
  block n hn := by
    unfold oneBlock at hn ⊢
    split at hn
    · next hle =>
      rw [if_pos hle]
      exact ⟨Nat.le_refl _, Nat.add_le_add_left hle _⟩
    · exact absurd rfl hn

def allZero : QueueDefinition := ⟨0, 0, 0, 0, 0, 0, 0, 0, 0⟩

/-- Two places for items of one byte. -/
def twoPlaces : QueueDefinition :=
  ⟨0x34000048, 0x34000048, 0x3400004A, 0x34000049, 0, 2, 1, queueUnlocked, queueUnlocked⟩

/-- Past the end of the storage area at both pointers, and once into the full queue. -/
def roundTheEnd : List QueueCall :=
  [.sendFromISR [1] .sendToBack, .sendFromISR [2] .sendToBack, .sendFromISR [3] .sendToBack, .receive,
    .sendFromISR [4] .sendToFront, .peek, .receiveFromISR, .sendFromISR [5] .sendToBack, .receive, .receive, .receive]

theorem queue_refines_two :
    (freeRtosQueue.run ⟨twoPlaces, fun _ => 0⟩ roundTheEnd).map Prod.snd =
      (boundedQueue.run (empty 2) roundTheEnd).map Prod.snd :=
  queue_refines oneBlock_inHeap (show xQueueGenericCreate oneBlock allZero 2 1 = some (some twoPlaces) from rfl) _
    roundTheEnd (by simp [roundTheEnd, QueueCall.Fits])

/-- **Only the storage area is written.** -/
theorem queue_storage_only (hheap : InHeap ucHeap pvPortMalloc)
    (hcreate : xQueueGenericCreate pvPortMalloc garbage uxQueueLength uxItemSize = some (some q₀)) (m : Memory)
    (calls : List QueueCall) (hfits : ∀ call ∈ calls, call.Fits uxItemSize) {s : QueueState} {tr : List QueueResult}
    (hrun : freeRtosQueue.run ⟨q₀, m⟩ calls = some (s, tr)) : ∀ x, q₀.Outside x → s.memory x = m x := by
  obtain ⟨htracks, hsize⟩ := created_tracks hheap hcreate m
  have hrel := run_tracks htracks (hsize ▸ hfits)
  rw [hrun] at hrel
  generalize boundedQueue.run (empty uxQueueLength.toNat) calls = result at hrel
  cases hrel with
  | some h => exact h.1.outside

theorem queue_storage_only_two : ∃ s tr, freeRtosQueue.run ⟨twoPlaces, fun _ => 0⟩ roundTheEnd = some (s, tr) ∧
    ∀ x, twoPlaces.Outside x → s.memory x = 0 := by
  obtain ⟨s, tr, hrun⟩ : ∃ s tr, freeRtosQueue.run ⟨twoPlaces, fun _ => 0⟩ roundTheEnd = some (s, tr) := ⟨_, _, rfl⟩
  exact ⟨s, tr, hrun, queue_storage_only oneBlock_inHeap
    (show xQueueGenericCreate oneBlock allZero 2 1 = some (some twoPlaces) from rfl) _ roundTheEnd
    (by simp [roundTheEnd, QueueCall.Fits]) hrun⟩

end Created

end CanTsn
