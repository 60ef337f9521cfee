import Mathlib.Data.List.Forall2
import CanTsnGateway.Receive.Handler

/-!
# Receive fidelity

A polled mailbox points to its own `rxShadow` entry until its first frame and to `rxData`
from then on, while the callback always sends `rxData`.  So a mailbox's first message is
its frame only when `rxData` already holds that frame, and every later message is right:

    every message sent is the frame read  ↔  every first read repeats the frame
    that was last read from a mailbox already in use             (receiveFidelity_iff)
-/

namespace CanTsn

open BoundedQueue StepMachine

/-! ## What a trace says -/

def RxEvent.readFrom (inst mb : UInt8) : RxEvent → Bool
  | .rxComplete i m _ _ => i == inst && m == mb
  | _ => false

/-- The mailbox has been read before. -/
def inUse (past : List RxEvent) (inst mb : UInt8) : Bool := past.any (·.readFrom inst mb)

/-- `sharedFrame` of the reversed trace. -/
def lastShared : List RxEvent → CanFrame
  | [] => .zero
  | .rxComplete inst mb f _ :: older => if inUse older inst mb then f else lastShared older
  | _ :: older => lastShared older

/-- The frame last read from a mailbox that was in use already; at first the empty frame
with identifier 0. -/
def sharedFrame (past : List RxEvent) : CanFrame := lastShared past.reverse

/-- The message sent is the frame read. -/
def RxEvent.Faithful : RxEvent → Prop
  | .rxComplete _ _ f sent => sent.item.Carries f
  | _ => True

/-- A mailbox's first frame is the one that mailboxes in use have brought last. -/
def FirstReadRepeats (past : List RxEvent) : RxEvent → Prop
  | .rxComplete inst mb f _ => inUse past inst mb = false → f = sharedFrame past
  | _ => True

namespace RxEvent

/-- The message that the queue takes. -/
def queuedItem : RxEvent → Option FlexcanIpMsgBuff
  | .rxComplete _ _ _ sent => if sent.accepted then some sent.item else none
  | _ => none

/-- The frame whose message the queue takes. -/
def queuedFrame : RxEvent → Option CanFrame
  | .rxComplete _ _ f sent => if sent.accepted then some f else none
  | _ => none

def dequeuedItem : RxEvent → Option FlexcanIpMsgBuff
  | .received m => some m
  | _ => none

def frameArrived (inst mb : UInt8) : RxEvent → Option CanFrame
  | .arrived i m f _ => if i = inst ∧ m = mb then some f else none
  | _ => none

def frameRead (inst mb : UInt8) : RxEvent → Option CanFrame
  | .rxComplete i m f _ => if i = inst ∧ m = mb then some f else none
  | _ => none

def frameLost (inst mb : UInt8) : RxEvent → Option CanFrame
  | .arrived i m _ lost => if i = inst ∧ m = mb then lost else none
  | _ => none

end RxEvent

def queuedItems (tr : List RxEvent) : List FlexcanIpMsgBuff := tr.filterMap RxEvent.queuedItem
def queuedFrames (tr : List RxEvent) : List CanFrame := tr.filterMap RxEvent.queuedFrame
def dequeued (tr : List RxEvent) : List FlexcanIpMsgBuff := tr.filterMap RxEvent.dequeuedItem

def framesArrived (inst mb : UInt8) (tr : List RxEvent) : List CanFrame :=
  tr.filterMap (RxEvent.frameArrived inst mb)

def framesRead (inst mb : UInt8) (tr : List RxEvent) : List CanFrame :=
  tr.filterMap (RxEvent.frameRead inst mb)

def framesLost (inst mb : UInt8) (tr : List RxEvent) : List CanFrame :=
  tr.filterMap (RxEvent.frameLost inst mb)

/-- A message is refused only when the queue has no room. -/
def AcceptedIfRoom (capacity : Nat) (past : List RxEvent) : RxEvent → Prop
  | .rxComplete _ _ _ sent =>
    sent.accepted = true ↔ (queuedItems past).length < (dequeued past).length + capacity
  | _ => True

/-- Every message is the frame just read, so the queue gets the frames in the order in
which they are polled, each once: from each mailbox the frames that arrive there. -/
structure ReceiveFidelity (capacity : Nat) (s : RxState) (tr : List RxEvent) : Prop where
  passed : AtEvery (fun _ e => e.Faithful) [] tr
  queued : List.Forall₂ FlexcanIpMsgBuff.Carries (dequeued tr ++ s.xQueueCan.items) (queuedFrames tr)
  accepted : AtEvery (AcceptedIfRoom capacity) [] tr
  read : ∀ inst mb, framesLost inst mb tr = [] →
    framesArrived inst mb tr = framesRead inst mb tr ++ (s.available inst mb).toList

theorem inUse_reverse (past : List RxEvent) (inst mb : UInt8) :
    inUse past.reverse inst mb = inUse past inst mb := by
  unfold inUse
  exact List.any_reverse

theorem inUse_snoc (past : List RxEvent) (e : RxEvent) (inst mb : UInt8) :
    inUse (past ++ [e]) inst mb = (inUse past inst mb || e.readFrom inst mb) := by
  simp [inUse]

theorem inUse_rxComplete (past : List RxEvent) (inst mb : UInt8) (f : CanFrame) (sent : QueueSend)
    (i m : UInt8) : inUse (past ++ [.rxComplete inst mb f sent]) i m =
      if i = inst ∧ m = mb then true else inUse past i m := by
  rw [inUse_snoc]
  split
  · next heq =>
    obtain ⟨rfl, rfl⟩ := heq
    simp [RxEvent.readFrom]
  · next hne =>
    have hread : (RxEvent.rxComplete inst mb f sent).readFrom i m = false := by
      show (inst == i && mb == m) = false
      rw [Bool.and_eq_false_iff, beq_eq_false_iff_ne, beq_eq_false_iff_ne]
      exact not_and_or.1 fun hc => hne ⟨hc.1.symm, hc.2.symm⟩
    rw [hread, Bool.or_false]

theorem sharedFrame_rxComplete (past : List RxEvent) (inst mb : UInt8) (f : CanFrame) (sent : QueueSend) :
    sharedFrame (past ++ [.rxComplete inst mb f sent]) =
      if inUse past inst mb then f else sharedFrame past := by
  unfold sharedFrame
  rw [List.reverse_append]
  show (if inUse past.reverse inst mb then f else lastShared past.reverse) = _
  rw [inUse_reverse]

theorem carries_flexcanGetMsgBuff (m : FlexcanIpMsgBuff) (f : CanFrame) :
    (flexcanGetMsgBuff m f).Carries f := by
  have h := f.length_le
  refine ⟨rfl, ?_, List.take_left⟩
  show (UInt8.ofNat f.data.length).toNat = f.data.length
  rw [UInt8.toNat_ofNat']
  omega

theorem filterMap_snoc {α β : Type} (g : α → Option β) (l : List α) (a : α) :
    (l ++ [a]).filterMap g = l.filterMap g ++ (g a).toList := by
  rw [List.filterMap_append]
  cases h : g a <;> simp [h]

theorem queuedItems_snoc (tr : List RxEvent) (e : RxEvent) :
    queuedItems (tr ++ [e]) = queuedItems tr ++ e.queuedItem.toList := filterMap_snoc _ _ _

theorem dequeued_snoc (tr : List RxEvent) (e : RxEvent) :
    dequeued (tr ++ [e]) = dequeued tr ++ e.dequeuedItem.toList := filterMap_snoc _ _ _

/-! ## The frames of one mailbox -/

/-- From `s` to `s'`, if no frame was lost, the frames that waited or arrived have been read
in order or wait. -/
def InOrder (inst mb : UInt8) (s : RxState) (tr : List RxEvent) (s' : RxState) : Prop :=
  framesLost inst mb tr = [] → (s.available inst mb).toList ++ framesArrived inst mb tr =
    framesRead inst mb tr ++ (s'.available inst mb).toList

section InOrder

variable {inst mb : UInt8} {s s₁ s₂ : RxState} {tr es : List RxEvent}

theorem InOrder.nil (h : s₁.available = s.available) : InOrder inst mb s [] s₁ := by
  intro _
  rw [h]
  exact List.append_nil _

theorem InOrder.trans (h : InOrder inst mb s tr s₁) (h' : InOrder inst mb s₁ es s₂) :
    InOrder inst mb s (tr ++ es) s₂ := by
  intro hlost
  unfold framesLost at hlost
  rw [List.filterMap_append, List.append_eq_nil_iff] at hlost
  have h₁ := h hlost.1
  have h₂ := h' hlost.2
  unfold framesArrived framesRead at h₁ h₂ ⊢
  rw [List.filterMap_append, List.filterMap_append, ← List.append_assoc, h₁, List.append_assoc, h₂,
    List.append_assoc]

theorem inOrder_arrives (s : RxState) (i m : UInt8) (f : CanFrame) :
    InOrder inst mb s [.arrived i m f (s.available i m)] (s.setAvailable i m (some f)) := by
  intro hlost
  by_cases heq : i = inst ∧ m = mb
  · obtain ⟨rfl, rfl⟩ := heq
    have hav : s.available i m = none := by
      cases hav : s.available i m with
      | none => rfl
      | some f' => simp [framesLost, RxEvent.frameLost, hav] at hlost
    simp [framesArrived, framesRead, RxEvent.frameArrived, RxEvent.frameRead, RxState.setAvailable, hav]
  · have heq' : ¬(inst = i ∧ mb = m) := fun hc => heq ⟨hc.1.symm, hc.2.symm⟩
    simp [framesArrived, framesRead, RxEvent.frameArrived, RxEvent.frameRead, RxState.setAvailable, heq, heq']

theorem inOrder_receive (inst mb : UInt8) (s : RxState) :
    InOrder inst mb s (queueReceive s).2 (queueReceive s).1 := by
  intro _
  unfold queueReceive
  simp only
  cases (receive s.xQueueCan).1 with
  | none => exact List.append_nil _
  | some m => exact List.append_nil _

theorem inOrder_read {i m : UInt8} {f : CanFrame} {sent : QueueSend} (hav : s.available i m = some f)
    (hs : HandlerEffect s i m f s₁ sent) : InOrder inst mb s [.rxComplete i m f sent] s₁ := by
  intro _
  rw [hs.available]
  by_cases heq : i = inst ∧ m = mb
  · obtain ⟨rfl, rfl⟩ := heq
    simp [framesArrived, framesRead, RxEvent.frameArrived, RxEvent.frameRead, RxState.setAvailable, hav]
  · have heq' : ¬(inst = i ∧ mb = m) := fun hc => heq ⟨hc.1.symm, hc.2.symm⟩
    simp [framesArrived, framesRead, RxEvent.frameArrived, RxEvent.frameRead, RxState.setAvailable, heq, heq']

/-- The same from the start, where nothing waits. -/
theorem InOrder.from_start (hread : framesLost inst mb tr = [] →
      framesArrived inst mb tr = framesRead inst mb tr ++ (s.available inst mb).toList)
    (h : InOrder inst mb s es s₁) : framesLost inst mb (tr ++ es) = [] →
      framesArrived inst mb (tr ++ es) = framesRead inst mb (tr ++ es) ++ (s₁.available inst mb).toList := by
  have hstart : InOrder inst mb { s with available := fun _ _ => none } tr s := hread
  exact hstart.trans h

end InOrder

/-- When every message is faithful, the queue has taken messages that carry the frames. -/
theorem queuedItems_carry {tr : List RxEvent} (h : ∀ e ∈ tr, e.Faithful) :
    List.Forall₂ FlexcanIpMsgBuff.Carries (queuedItems tr) (queuedFrames tr) := by
  induction tr with
  | nil => exact .nil
  | cons e tr ih =>
    have ih' := ih fun e' he' => h e' (List.mem_cons_of_mem e he')
    unfold queuedItems queuedFrames at ih' ⊢
    cases e with
    | rxComplete inst mb f sent =>
      have hf : sent.item.Carries f := h _ List.mem_cons_self
      cases hacc : sent.accepted with
      | true =>
        simp only [List.filterMap_cons, RxEvent.queuedItem, RxEvent.queuedFrame, hacc, if_true]
        exact .cons hf ih'
      | false =>
        simpa only [List.filterMap_cons, RxEvent.queuedItem, RxEvent.queuedFrame, hacc, Bool.false_eq_true,
          if_false] using ih'
    | arrived inst mb f lost => exact ih'
    | received m => exact ih'

/-! ## The invariant -/

/-- Where the mailboxes point, what `rxData` holds, what has entered the queue and what
has become of the frames. -/
structure RxInv (capacity : Nat) (s : RxState) (tr : List RxEvent) : Prop where
  armed : ∀ inst mb, (s.mbs inst mb).state = .rxBusy →
    ((s.mbs inst mb).pMBmessage = some .rxData ↔ inUse tr inst mb = true)
  shared : s.rxData.Carries (sharedFrame tr)
  queue : queuedItems tr = dequeued tr ++ s.xQueueCan.items
  capacity_eq : s.xQueueCan.capacity = capacity
  accepted : AtEvery (AcceptedIfRoom capacity) [] tr
  read : ∀ inst mb, framesLost inst mb tr = [] →
    framesArrived inst mb tr = framesRead inst mb tr ++ (s.available inst mb).toList

/-- An event that is no read leaves uses and `rxData` as they are. -/
theorem inUse_snoc_of_not_read (tr : List RxEvent) {e : RxEvent} (he : ∀ i m, e.readFrom i m = false)
    (i m : UInt8) : inUse (tr ++ [e]) i m = inUse tr i m := by
  rw [inUse_snoc, he, Bool.or_false]

theorem sharedFrame_snoc_of_not_read (tr : List RxEvent) {e : RxEvent}
    (he : ∀ i m, e.readFrom i m = false) : sharedFrame (tr ++ [e]) = sharedFrame tr := by
  unfold sharedFrame
  rw [List.reverse_append]
  cases e with
  | rxComplete inst mb f sent => exact absurd (he inst mb) (by simp [RxEvent.readFrom])
  | arrived inst mb f lost => rfl
  | received m => rfl

theorem rxInv_arrives {capacity : Nat} {s : RxState} {tr : List RxEvent} (h : RxInv capacity s tr)
    (inst mb : UInt8) (f : CanFrame) :
    RxInv capacity (s.setAvailable inst mb (some f)) (tr ++ [.arrived inst mb f (s.available inst mb)]) where
  armed i m hbusy := by
    rw [inUse_snoc_of_not_read tr fun _ _ => rfl]
    exact h.armed i m hbusy
  shared := by
    rw [sharedFrame_snoc_of_not_read tr fun _ _ => rfl]
    exact h.shared
  queue := by
    rw [queuedItems_snoc, dequeued_snoc]
    show queuedItems tr ++ [] = dequeued tr ++ [] ++ s.xQueueCan.items
    rw [List.append_nil, List.append_nil]
    exact h.queue
  capacity_eq := h.capacity_eq
  accepted := atEvery_append.2 ⟨h.accepted, trivial, trivial⟩
  read i m := (inOrder_arrives s inst mb f).from_start (h.read i m)

theorem rxInv_receive {capacity : Nat} {s : RxState} {tr : List RxEvent} (h : RxInv capacity s tr) :
    RxInv capacity (queueReceive s).1 (tr ++ (queueReceive s).2) := by
  have hitems := items_receive s.xQueueCan
  have hcap := (capacity_receive s.xQueueCan).trans h.capacity_eq
  have hread := fun i b => (inOrder_receive i b s).from_start (h.read i b)
  unfold queueReceive at hread ⊢
  simp only at hread ⊢
  cases hm : (receive s.xQueueCan).1 with
  | none =>
    rw [hm, Option.toList_none, List.nil_append] at hitems
    rw [Option.toList_none, List.map_nil, List.append_nil]
    exact ⟨h.armed, h.shared, by rw [h.queue, hitems], hcap, h.accepted, h.read⟩
  | some m =>
    rw [hm] at hitems
    rw [hm] at hread
    refine ⟨fun i b hbusy => ?_, ?_, ?_, hcap, atEvery_append.2 ⟨h.accepted, trivial, trivial⟩, hread⟩
    · exact (h.armed i b hbusy).trans (by rw [Option.toList_some, List.map_singleton,
        inUse_snoc_of_not_read tr fun _ _ => rfl])
    · rw [Option.toList_some, List.map_singleton, sharedFrame_snoc_of_not_read tr fun _ _ => rfl]
      exact h.shared
    · rw [Option.toList_some, List.map_singleton, queuedItems_snoc, dequeued_snoc, h.queue, hitems]
      simp only [RxEvent.queuedItem, RxEvent.dequeuedItem, Option.toList_none, List.append_nil,
        List.append_assoc]
/-- The message of a read is the frame exactly if the read is no first one or repeats. -/
theorem faithful_iff {capacity : Nat} {s s' : RxState} {tr : List RxEvent} {inst mb : UInt8} {f : CanFrame}
    {sent : QueueSend} (h : RxInv capacity s tr) (hbusy : (s.mbs inst mb).state = .rxBusy)
    (hs : HandlerEffect s inst mb f s' sent) :
    s'.rxData.Carries (if inUse tr inst mb then f else sharedFrame tr) ∧
    ((RxEvent.rxComplete inst mb f sent).Faithful ↔
      FirstReadRepeats tr (.rxComplete inst mb f sent)) := by
  have harmed := h.armed inst mb hbusy
  show _ ∧ (sent.item.Carries f ↔ (inUse tr inst mb = false → f = sharedFrame tr))
  rw [hs.item, hs.rxData]
  cases huse : inUse tr inst mb with
  | true =>
    rw [if_pos (harmed.2 huse), if_pos rfl]
    have hf := carries_flexcanGetMsgBuff s.rxData f
    exact ⟨hf, iff_of_true hf fun hno => nomatch hno⟩
  | false =>
    have hshadow : (s.mbs inst mb).pMBmessage ≠ some .rxData := fun hp =>
      Bool.false_ne_true (huse.symm.trans (harmed.1 hp))
    rw [if_neg hshadow, if_neg Bool.false_ne_true]
    refine ⟨h.shared, fun hf _ => hf.unique h.shared, fun heq => ?_⟩
    rw [heq rfl]
    exact h.shared

theorem rxInv_read {capacity : Nat} {s s' : RxState} {tr : List RxEvent} {inst mb : UInt8} {f : CanFrame}
    {sent : QueueSend} (h : RxInv capacity s tr) (hav : s.available inst mb = some f)
    (hbusy : (s.mbs inst mb).state = .rxBusy) (hs : HandlerEffect s inst mb f s' sent) :
    RxInv capacity s' (tr ++ [.rxComplete inst mb f sent]) := by
  have hitems := items_countAndSend s.canStats s.xQueueCan s'.rxData
  have hcap := capacity_countAndSend s.canStats s.xQueueCan s'.rxData
  have hroom := countAndSend_accepts_iff s.canStats s.xQueueCan s'.rxData
  rw [← hs.queue] at hitems hcap hroom
  refine ⟨fun i m hb => ?_, ?_, ?_, hcap.trans h.capacity_eq, ?_,
    fun i m => (inOrder_read hav hs).from_start (h.read i m)⟩
  · rw [inUse_rxComplete]
    split
    · next heq =>
      obtain ⟨rfl, rfl⟩ := heq
      rcases hs.mailbox with hidle | harmed
      · rw [hidle] at hb
        cases hb
      · exact iff_of_true (by rw [harmed]) rfl
    · next hne =>
      rw [hs.others i m hne] at hb ⊢
      exact h.armed i m hb
  · rw [sharedFrame_rxComplete]
    exact (faithful_iff h hbusy hs).1
  · rw [queuedItems_snoc, dequeued_snoc, hitems, h.queue, List.append_assoc, List.append_assoc]
    show _ ++ (_ ++ (if sent.accepted then some sent.item else none).toList) = _
    rw [hs.item]
    cases sent.accepted <;> rfl
  · refine atEvery_append.2 ⟨h.accepted, ?_, trivial⟩
    show sent.accepted = true ↔ (queuedItems ([] ++ tr)).length < (dequeued ([] ++ tr)).length + capacity
    rw [List.nil_append, h.queue, List.length_append]
    refine hroom.trans ?_
    rw [h.capacity_eq]
    omega

/-! ## Steps and runs -/

/-- Poll positions aside, the states are the same. -/
def SameButNext (s s' : RxState) : Prop := s' = { s with next := s'.next }

theorem rxInv_of_same {capacity : Nat} {s s' : RxState} {tr : List RxEvent} (h : RxInv capacity s tr)
    (hsame : SameButNext s s') : RxInv capacity s' tr := by
  rw [hsame]
  exact ⟨h.armed, h.shared, h.queue, h.capacity_eq, h.accepted, h.read⟩

/-- A poll reads a frame from an armed mailbox or does nothing. -/
theorem poll_cases (p : CanRxTaskParam) (s : RxState) :
    (∃ s', poll p s = (s', []) ∧ SameButNext s s') ∨
    ∃ s₁ s' inst mb f sent, poll p s = (s', [.rxComplete inst mb f sent]) ∧ SameButNext s s₁ ∧
      s₁.available inst mb = some f ∧ (s₁.mbs inst mb).state = .rxBusy ∧
      HandlerEffect s₁ inst mb f s' sent := by
  unfold poll
  cases p.pollOrder[s.next]? with
  | none => exact .inl ⟨s, rfl, rfl⟩
  | some r =>
    obtain ⟨inst, i⟩ := r
    simp only
    generalize hs₁ : ({ s with next := (s.next + 1) % p.pollOrder.length } : RxState) = s₁
    have hsame : SameButNext s s₁ := by rw [← hs₁]; rfl
    rcases mainFunctionRead_cases s₁ inst (p.mb inst i) with ⟨hread, -⟩ | ⟨f, sent, hread, hav, hbusy, heff⟩
    · exact .inl ⟨s₁, hread, hsame⟩
    · exact .inr ⟨s₁, _, inst, _, f, sent, hread, hsame, hav, hbusy, heff⟩

theorem rxInv_step {p : CanRxTaskParam} {capacity : Nat} {s s' : RxState} {tr es : List RxEvent}
    {i : RxInput} (h : RxInv capacity s tr) (hs : (canReceivePollingTask p).step s i = some (s', es)) :
    RxInv capacity s' (tr ++ es) ∧
      (AtEvery (fun _ e => e.Faithful) tr es ↔ AtEvery FirstReadRepeats tr es) := by
  cases i with
  | arrive inst mb f =>
    obtain ⟨rfl, rfl⟩ := Prod.mk.inj (Option.some.inj hs)
    exact ⟨rxInv_arrives h inst mb f, Iff.rfl⟩
  | receive =>
    have heq : queueReceive s = (s', es) := Option.some.inj hs
    have hinv := rxInv_receive h
    rw [heq] at hinv
    refine ⟨hinv, ?_⟩
    obtain rfl : (receive s.xQueueCan).1.toList.map RxEvent.received = es := congrArg Prod.snd heq
    cases (receive s.xQueueCan).1 <;> exact Iff.rfl
  | poll =>
    have heq : poll p s = (s', es) := Option.some.inj hs
    rcases poll_cases p s with ⟨s₁, hp, hsame⟩ | ⟨s₁, s₂, inst, mb, f, sent, hp, hsame, hav, hbusy, heff⟩
    · obtain ⟨rfl, rfl⟩ := Prod.mk.inj (hp.symm.trans heq)
      rw [List.append_nil]
      exact ⟨rxInv_of_same h hsame, Iff.rfl⟩
    · obtain ⟨rfl, rfl⟩ := Prod.mk.inj (hp.symm.trans heq)
      have h₁ := rxInv_of_same h hsame
      refine ⟨rxInv_read h₁ hav hbusy heff, ?_⟩
      show _ ∧ True ↔ _ ∧ True
      rw [and_true, and_true]
      exact (faithful_iff h₁ hbusy heff).2

/-- What the initialisation loop leaves alone; no mailbox points to `rxData`. -/
structure Armed (s₀ s : RxState) : Prop where
  mbs : ∀ inst mb, (s.mbs inst mb).pMBmessage ≠ some .rxData
  rest : s = { s₀ with mbs := s.mbs, imask := s.imask }

theorem armed_start (p : CanRxTaskParam) (handlerData : FlexcanIpMsgBuff) (capacity : Nat) :
    Armed (.init handlerData capacity) (.start p handlerData capacity) := by
  unfold RxState.start
  refine List.foldlRecOn p.pollOrder _ ⟨fun _ _ => nofun, rfl⟩ fun s h r _ => ?_
  obtain ⟨inst, i⟩ := r
  have honly : OnlyMb inst (p.mb inst i) s (armShadow p s (inst, i)) := onlyMb_receive s inst _ _
  refine ⟨fun i' m => ?_, by rw [honly.rest, h.rest]⟩
  by_cases heq : i' = inst ∧ m = p.mb inst i
  · obtain ⟨rfl, rfl⟩ := heq
    unfold armShadow
    rw [flexcanIpReceive_polling]
    split
    · rw [mbs_setMb]
      nofun
    · exact h.mbs i' _
  · rw [honly.others i' m heq]
    exact h.mbs i' m

theorem rxInv_start (p : CanRxTaskParam) (handlerData : FlexcanIpMsgBuff) (capacity : Nat) :
    RxInv capacity (.start p handlerData capacity) [] := by
  obtain ⟨hmbs, hrest⟩ := armed_start p handlerData capacity
  generalize RxState.start p handlerData capacity = s at hmbs hrest
  rw [hrest]
  refine ⟨fun inst mb _ => iff_of_false (hmbs inst mb) nofun, ?_, rfl, rfl, trivial, fun _ _ _ => rfl⟩
  exact ⟨rfl, rfl, rfl⟩

/-- The invariant of a run, and where its messages are the frames. -/
theorem rxInv_run {p : CanRxTaskParam} {handlerData : FlexcanIpMsgBuff} {capacity : Nat}
    {is : List RxInput} {s : RxState} {tr : List RxEvent}
    (hrun : (canReceivePollingTask p).run (.start p handlerData capacity) is = some (s, tr)) :
    RxInv capacity s tr ∧ (AtEvery (fun _ e => e.Faithful) [] tr ↔ AtEvery FirstReadRepeats [] tr) := by
  refine (canReceivePollingTask p).run_invariant_always (fun s tr => RxInv capacity s tr ∧
    (AtEvery (fun _ e => e.Faithful) [] tr ↔ AtEvery FirstReadRepeats [] tr)) ?_
    ⟨rxInv_start p handlerData capacity, Iff.rfl⟩ hrun
  rintro s tr i s₁ es ⟨h, hiff⟩ hs
  obtain ⟨h₁, hes⟩ := rxInv_step h hs
  refine ⟨h₁, ?_⟩
  rw [atEvery_append, atEvery_append, hiff, List.nil_append, hes]

/-- **Receive fidelity.**  A run is faithful exactly if in every first read of a mailbox the
frame is the one that `rxData` holds already. -/
theorem receiveFidelity_iff (p : CanRxTaskParam) (handlerData : FlexcanIpMsgBuff) (capacity : Nat)
    (is : List RxInput) (s : RxState) (tr : List RxEvent)
    (hrun : (canReceivePollingTask p).run (.start p handlerData capacity) is = some (s, tr)) :
    ReceiveFidelity capacity s tr ↔ AtEvery FirstReadRepeats [] tr := by
  obtain ⟨h, hiff⟩ := rxInv_run hrun
  refine ⟨fun hf => hiff.1 hf.passed, fun hfirst => ?_⟩
  have hpassed := hiff.2 hfirst
  refine ⟨hpassed, ?_, h.accepted, h.read⟩
  rw [← h.queue]
  exact queuedItems_carry fun e he => hpassed.mem (Q := fun _ e => e.Faithful) he

/-- Mailbox 0 of instance 0 first brings the frame that `rxData` holds from the start, and
once it is in use any frame. -/
theorem receiveFidelity_repeats :
    ∃ s tr, (canReceivePollingTask rxp).run (.start rxp .zero 64)
        [.arrive 0 0 .zero, .poll, .poll, .poll, .poll, .arrive 0 0 ⟨1, [0xAB], by decide⟩, .poll] =
          some (s, tr) ∧ ReceiveFidelity 64 s tr := by
  obtain ⟨s, tr, hrun, sent, sent', rfl⟩ : ∃ s tr, (canReceivePollingTask rxp).run (.start rxp .zero 64)
      [.arrive 0 0 .zero, .poll, .poll, .poll, .poll, .arrive 0 0 ⟨1, [0xAB], by decide⟩, .poll] =
        some (s, tr) ∧ ∃ sent sent', tr = [.arrived 0 0 .zero none, .rxComplete 0 0 .zero sent,
          .arrived 0 0 ⟨1, [0xAB], by decide⟩ none, .rxComplete 0 0 ⟨1, [0xAB], by decide⟩ sent'] :=
    ⟨_, _, rfl, _, _, rfl⟩
  refine ⟨s, _, hrun, (receiveFidelity_iff rxp .zero 64 _ s _ hrun).2 ?_⟩
  exact ⟨trivial, ⟨fun _ => rfl, ⟨trivial, ⟨fun hno => Bool.noConfusion hno, trivial⟩⟩⟩⟩

/-- One frame with identifier 1 in mailbox 0 of instance 0, and one poll: the queue gets
the zero message. -/
theorem first_message_stale :
    ∃ s tr, (canReceivePollingTask rxp).run (.start rxp .zero 64)
        [.arrive 0 0 ⟨1, [0xAB], by decide⟩, .poll] = some (s, tr) ∧
      s.xQueueCan.items = [.zero] ∧ ¬ReceiveFidelity 64 s tr := by
  obtain ⟨s, tr, hrun, hitems, rfl⟩ : ∃ s tr, (canReceivePollingTask rxp).run (.start rxp .zero 64)
      [.arrive 0 0 ⟨1, [0xAB], by decide⟩, .poll] = some (s, tr) ∧ s.xQueueCan.items = [.zero] ∧
        tr = [.arrived 0 0 ⟨1, [0xAB], by decide⟩ none,
          .rxComplete 0 0 ⟨1, [0xAB], by decide⟩ ⟨.zero, true⟩] := ⟨_, _, rfl, rfl, rfl⟩
  refine ⟨s, _, hrun, hitems, fun h => ?_⟩
  have hf : FlexcanIpMsgBuff.zero.Carries ⟨1, [0xAB], by decide⟩ := h.passed.2.1
  exact absurd hf (by decide)

end CanTsn
