import Mathlib.Data.List.Forall2
import CanTsnGateway.Lib.Packer
import CanTsnGateway.Model.Container
import CanTsnGateway.Model.Gateway

/-!
# The gateway loop packs its stream in order

`Sim map s p`: the loop state `s` is the packer state `p` of `Lib.Packer`, with routed
messages as items, a 2-byte header and 1518 bytes of room.  The flag, the length, the
count byte, the class and the container bytes of `s` all follow from `p`.

    Sim map s p → Sim map s' (the packer's step)       one round (history_step)
    gateway.run (start u) is = some (s, tr) → ∃ p, History map tr s p   (history_run)

`History` adds what has happened: the packer's contents are the routed messages taken
from the queue, and every closed container is the bytes of its items.
-/

namespace CanTsn

open ByteBlock Packer PrefixCode StepMachine

/-- Room for records and header in a container. -/
def containerRoom : Nat := containerMaxSize - 18

/-- `tc` is the most urgent class among the records. -/
def IsMinTC (tc : UInt8) (rs : List RoutedPdu) : Prop :=
  (∃ r ∈ rs, r.msgTC = tc) ∧ ∀ r ∈ rs, tc ≤ r.msgTC

/-- Every message has at most 64 data bytes. -/
def Short (rs : List RoutedPdu) : Prop := ∀ r ∈ rs, r.msg.dataLen ≤ 64

/-- A container with these records. -/
def containerBytes (rs : List RoutedPdu) : List UInt8 :=
  gwContainerVersion :: rs.length.toUInt8 :: pduCode.encodeAll (rs.map RoutedPdu.toPdu)

abbrev recordsLoad (rs : List RoutedPdu) : Nat := load RoutedPdu.size rs

structure Sim (map : List CanIdToPduId) (s : GwState) (p : Packer RoutedPdu) : Prop where
  carry : p.carry = if s.hasOverflowPdu then route map s.overflowPdu else none
  carried : s.hasOverflowPdu = true → p.carry.isSome = true
  pending : s.containerPending = !p.pending.isEmpty
  len : s.containerLen.toNat = if p.pending = [] then 0 else 2 + recordsLoad p.pending
  count : s.iPduCount = p.pending.length.toUInt8
  tc : p.pending ≠ [] → IsMinTC s.currentTC p.pending
  bytes : p.pending ≠ [] → Short p.pending →
    s.currentContainer.upto s.containerLen.toNat = containerBytes p.pending

/-! ## Section 2: adding a routed message -/

/-- The state between the start of a container and the fit test. -/
structure Opened (s : GwState) (msgTC : UInt8) (rs : List RoutedPdu) : Prop where
  flag : s.hasOverflowPdu = false
  pending : s.containerPending = true
  len : s.containerLen.toNat = 2 + recordsLoad rs
  count : s.iPduCount = rs.length.toUInt8
  tc : (rs = [] ∧ s.currentTC = msgTC) ∨ IsMinTC s.currentTC rs
  bytes : Short rs → s.currentContainer.upto s.containerLen.toNat = containerBytes rs

theorem upto_header (b : Block UInt8 containerMaxSize) :
    ((b.store 0 gwContainerVersion).store 1 0).upto 2 = [gwContainerVersion, 0] := by
  rw [Block.upto_store_succ _ _ _ (by decide), Block.upto_store_succ _ _ _ (by decide)]
  rfl

theorem opened_startContainer {map : List CanIdToPduId} {s : GwState} {p : Packer RoutedPdu}
    (h : Sim map s p) (msgTC : UInt8) :
    Opened (startContainer { s with hasOverflowPdu := false } msgTC).1 msgTC p.pending := by
  have hpend := h.pending
  have hlen := h.len
  unfold startContainer
  by_cases hnil : p.pending = []
  · rw [hnil] at hpend ⊢
    have hfalse : s.containerPending = false := hpend
    simp only [hfalse, Bool.false_eq_true, if_false]
    exact ⟨rfl, rfl, rfl, rfl, Or.inl ⟨rfl, rfl⟩, fun _ => upto_header s.currentContainer⟩
  · have htrue : s.containerPending = true := by
      rw [hpend]; simpa using hnil
    rw [if_neg hnil] at hlen
    simp only [htrue, if_true]
    exact ⟨rfl, rfl, hlen, h.count, Or.inr (h.tc hnil), h.bytes hnil⟩

theorem isMinTC_append {tc : UInt8} {rs : List RoutedPdu} (r : RoutedPdu)
    (h : (rs = [] ∧ tc = r.msgTC) ∨ IsMinTC tc rs) :
    IsMinTC (if r.msgTC < tc then r.msgTC else tc) (rs ++ [r]) := by
  have hr : r ∈ rs ++ [r] := List.mem_append_right rs (List.mem_singleton_self r)
  have mem_cases : ∀ x ∈ rs ++ [r], x ∈ rs ∨ x = r := by
    intro x hx
    rcases List.mem_append.1 hx with hx | hx
    · exact Or.inl hx
    · exact Or.inr (List.mem_singleton.1 hx)
  split
  · next hlt =>
    refine ⟨⟨r, hr, rfl⟩, fun x hx => ?_⟩
    rcases mem_cases x hx with hx | rfl
    · rcases h with ⟨rfl, -⟩ | ⟨-, hmin⟩
      · cases hx
      · exact UInt8.le_trans (UInt8.le_of_lt hlt) (hmin x hx)
    · exact UInt8.le_refl _
  · next hge =>
    have hle : tc ≤ r.msgTC := UInt8.not_lt.1 hge
    rcases h with ⟨rfl, rfl⟩ | ⟨⟨x, hx, hxtc⟩, hmin⟩
    · refine ⟨⟨r, hr, rfl⟩, fun x hx => ?_⟩
      rcases mem_cases x hx with hx | rfl
      · cases hx
      · exact UInt8.le_refl _
    · refine ⟨⟨x, List.mem_append_left _ hx, hxtc⟩, fun y hy => ?_⟩
      rcases mem_cases y hy with hy | rfl
      · exact hmin y hy
      · exact hle

theorem toNat_requiredSpace (r : RoutedPdu) :
    (gwIPduHdrSize + r.msg.dataLen.toUInt16).toNat = r.size := by
  have := r.msg.dataLen.toNat_lt
  have h3 : gwIPduHdrSize.toNat = 3 := rfl
  rw [UInt16.toNat_add, UInt8.toNat_toUInt16, h3]
  unfold RoutedPdu.size
  omega

/-- Three header stores and the copy are one write. -/
theorem stores_eq_memcpy (b : Block UInt8 containerMaxSize) (off : Nat) (x y z : UInt8) (data : List UInt8) :
    (((b.store (off + 0) x).store (off + 1) y).store (off + 2) z).memcpy (off + 3) data =
      b.memcpy off (x :: y :: z :: data) := by
  simp only [Block.memcpy_cons, Nat.add_zero, Nat.add_assoc, Nat.reduceAdd]

/-- The header stores and the copy are the record, written in one go. -/
theorem record_stores (b : Block UInt8 containerMaxSize) (off : Nat) (r : RoutedPdu)
    (beyond : Nat → UInt8) (h : r.msg.dataLen ≤ 64) :
    ((((b.store (off + 0) (r.iPduId >>> 8).toUInt8).store (off + 1) (r.iPduId &&& 0xFF).toUInt8).store
      (off + 2) r.msg.dataLen).memcpy (off + 3) (r.msg.readData beyond)) =
      b.memcpy off (encodePdu r.toPdu) := by
  have hlen : r.msg.payload.length.toUInt8 = r.msg.dataLen := by
    rw [r.msg.length_payload h]; exact UInt8.ofNat_toNat
  rw [stores_eq_memcpy, r.msg.readData_eq_payload beyond h]
  unfold encodePdu RoutedPdu.toPdu
  simp only [hlen]

theorem length_encodePdu_toPdu (r : RoutedPdu) (h : r.msg.dataLen ≤ 64) :
    (encodePdu r.toPdu).length = r.size := by
  rw [length_encodePdu]
  show 3 + r.msg.payload.length = r.size
  rw [r.msg.length_payload h]
  rfl

/-- Appending a record and rewriting the count byte gives the container with one record
more. -/
theorem upto_append_record (b : Block UInt8 containerMaxSize) (rs : List RoutedPdu) (r : RoutedPdu)
    (beyond : Nat → UInt8) (off : Nat) (hroom : off + r.size ≤ containerMaxSize) (hr : r.msg.dataLen ≤ 64)
    (hb : b.upto off = containerBytes rs) :
    (((((b.store (off + 0) (r.iPduId >>> 8).toUInt8).store (off + 1) (r.iPduId &&& 0xFF).toUInt8).store
      (off + 2) r.msg.dataLen).memcpy (off + 3) (r.msg.readData beyond)).store 1
        (rs ++ [r]).length.toUInt8).upto (off + r.size) = containerBytes (rs ++ [r]) := by
  have hlen := length_encodePdu_toPdu r hr
  rw [record_stores b off r beyond hr, Block.upto_store, ← hlen,
    Block.upto_memcpy b off _ (by rw [hlen]; exact hroom), hb]
  unfold containerBytes
  rw [List.map_append, pduCode.encodeAll_append, List.map_singleton, pduCode.encodeAll_singleton]
  rfl

theorem sim_addPdu_fits {map : List CanIdToPduId} {s : GwState} {p : Packer RoutedPdu} (i : GwInput)
    {r : RoutedPdu} (h : Opened s r.msgTC p.pending) (hcarry : p.carry = none)
    (hf : 2 + recordsLoad p.pending + r.size ≤ containerRoom) :
    Sim map (addPdu s i r).1 { p with pending := p.pending ++ [r] } := by
  have hreq := toNat_requiredSpace r
  have hlen := h.len
  have h1518 : containerRoom = 1518 := rfl
  have hload : recordsLoad (p.pending ++ [r]) = recordsLoad p.pending + r.size := by
    rw [recordsLoad, load_append, load_singleton]
  have hlen' : (s.containerLen + (gwIPduHdrSize + r.msg.dataLen.toUInt16)).toNat =
      2 + recordsLoad p.pending + r.size := by
    rw [UInt16.toNat_add, hreq, hlen]
    omega
  have hcount : s.iPduCount + 1 = (p.pending ++ [r]).length.toUInt8 := by
    rw [h.count, List.length_append, List.length_singleton]
    simp
  have hne : p.pending ++ [r] ≠ [] := List.append_ne_nil_of_right_ne_nil _ (List.cons_ne_nil r [])
  unfold addPdu
  simp only [hreq, hlen]
  rw [if_pos (show _ ≤ containerMaxSize - 18 from hf)]
  refine ⟨?_, fun hov => ?_, ?_, ?_, hcount, fun _ => isMinTC_append r h.tc, fun _ hshort => ?_⟩
  · show p.carry = if s.hasOverflowPdu then _ else none
    rw [hcarry, h.flag]; rfl
  · exact absurd (h.flag.symm.trans hov) Bool.false_ne_true
  · show s.containerPending = !(p.pending ++ [r]).isEmpty
    rw [h.pending]; simp
  · show (s.containerLen + (gwIPduHdrSize + r.msg.dataLen.toUInt16)).toNat =
      if p.pending ++ [r] = [] then 0 else 2 + recordsLoad (p.pending ++ [r])
    rw [if_neg hne, hlen', hload, Nat.add_assoc]
  · have hshort' : Short p.pending := fun x hx => hshort x (List.mem_append_left _ hx)
    have hr64 : r.msg.dataLen ≤ 64 := hshort r (List.mem_append_right _ (List.mem_singleton_self r))
    have hb := h.bytes hshort'
    rw [hlen] at hb
    simp only [hlen', hcount]
    exact upto_append_record s.currentContainer p.pending r i.beyond _
      (by have : containerMaxSize = 1536 := rfl; omega) hr64 hb

theorem sim_addPdu_over {map : List CanIdToPduId} {s : GwState} {p : Packer RoutedPdu} (i : GwInput)
    {r : RoutedPdu} (hr : route map r.msg = some r) (h : Opened s r.msgTC p.pending)
    (hf : ¬ 2 + recordsLoad p.pending + r.size ≤ containerRoom) :
    Sim map (addPdu s i r).1 { p with carry := some r } := by
  have hlen := h.len
  -- an empty container takes any one message, so this one holds something
  have hne : p.pending ≠ [] := by
    intro hnil
    have := r.msg.dataLen.toNat_lt
    have h1518 : containerRoom = 1518 := rfl
    rw [hnil] at hf
    simp only [recordsLoad, load_nil, RoutedPdu.size] at hf
    omega
  have htc : IsMinTC s.currentTC p.pending := by
    rcases h.tc with ⟨hnil, -⟩ | hmin
    · exact absurd hnil hne
    · exact hmin
  unfold addPdu
  simp only [toNat_requiredSpace r, hlen]
  rw [if_neg (show ¬ _ ≤ containerMaxSize - 18 from hf)]
  refine ⟨by simp [hr], fun _ => rfl, ?_, ?_, h.count, fun _ => htc, fun _ hshort => h.bytes hshort⟩
  · simp [h.pending, hne]
  · rw [if_neg hne]; exact hlen

theorem sim_addPdu {map : List CanIdToPduId} {s : GwState} {p : Packer RoutedPdu} (i : GwInput)
    {r : RoutedPdu} (hr : route map r.msg = some r) (h : Opened s r.msgTC p.pending)
    (hcarry : p.carry = none) :
    Sim map (addPdu s i r).1 (put RoutedPdu.size 2 containerRoom p r) := by
  unfold put
  split
  · next hf => exact sim_addPdu_fits i h hcarry hf
  · next hf => exact sim_addPdu_over i hr h hf

/-! ## Sections 3 and 4: sending -/

/-- The records appended to the open container, given those it held before. -/
def openFrom (rs : List RoutedPdu) (tr : List GwEvent) : List RoutedPdu :=
  tr.foldl (fun rs e => match e with
    | .appended r => rs ++ [r]
    | .closed _ => []
    | _ => rs) rs

/-- The records appended since the last container was closed. -/
def openRecords (tr : List GwEvent) : List RoutedPdu := openFrom [] tr

theorem openFrom_append (rs : List RoutedPdu) (tr es : List GwEvent) :
    openFrom rs (tr ++ es) = openFrom (openFrom rs tr) es := List.foldl_append

/-- The records of the containers closed, given the ones the open container held before. -/
def closedFrom : List RoutedPdu → List GwEvent → List (List RoutedPdu)
  | _, [] => []
  | rs, .appended r :: tr => closedFrom (rs ++ [r]) tr
  | rs, .closed _ :: tr => rs :: closedFrom [] tr
  | rs, _ :: tr => closedFrom rs tr

/-- The records of the closed containers, in closing order. -/
def closedRecords (tr : List GwEvent) : List (List RoutedPdu) := closedFrom [] tr

theorem closedFrom_append (rs : List RoutedPdu) (tr es : List GwEvent) :
    closedFrom rs (tr ++ es) = closedFrom rs tr ++ closedFrom (openFrom rs tr) es := by
  induction tr generalizing rs with
  | nil => rfl
  | cons e tr ih =>
    cases e with
    | closed c => exact congrArg (rs :: ·) (ih [])
    | appended r => exact ih (rs ++ [r])
    | _ => exact ih rs

/-- What a closed container is, given its records. -/
structure ClosedOk (rs : List RoutedPdu) (c : ClosedContainer) : Prop where
  tc : IsMinTC c.currentTC rs
  fifo : c.fifoIdx = tcToFifo c.currentTC
  length : c.bytes.length = 2 + recordsLoad rs
  bytes : Short rs → c.bytes = containerBytes rs

theorem three_le_recordsLoad {rs : List RoutedPdu} (h : rs ≠ []) : 3 ≤ recordsLoad rs := by
  cases rs with
  | nil => exact absurd rfl h
  | cons r rs =>
    simp only [recordsLoad, load, List.map_cons, List.sum_cons, RoutedPdu.size]
    omega

theorem Sim.carry_isSome {map : List CanIdToPduId} {s : GwState} {p : Packer RoutedPdu}
    (h : Sim map s p) : p.carry.isSome = s.hasOverflowPdu := by
  cases hov : s.hasOverflowPdu with
  | true => exact h.carried hov
  | false => rw [h.carry, hov]; rfl

/-- The send decision is the packer's. -/
theorem shouldTransmit_isSome {map : List CanIdToPduId} {s : GwState} {p : Packer RoutedPdu}
    (h : Sim map s p) (gateOpen : Bool) :
    (shouldTransmit s gateOpen).isSome = closes RoutedPdu.size 2 containerRoom p gateOpen := by
  have hcarry := h.carry_isSome
  have hlen := h.len
  unfold shouldTransmit closes
  by_cases hnil : p.pending = []
  · have hpend : s.containerPending = false := by rw [h.pending, hnil]; rfl
    simp [hpend, hnil]
  · have hpend : s.containerPending = true := by rw [h.pending]; simpa using hnil
    rw [if_neg hnil] at hlen
    have h3 := three_le_recordsLoad hnil
    have hgt : s.containerLen > gwContainerHdrSize := by
      apply UInt16.lt_iff_toNat_lt.2
      rw [hlen]
      show 2 < _
      omega
    have hge : s.containerLen ≥ 2 := UInt16.le_of_lt hgt
    rw [if_pos ⟨hpend, hgt⟩, hcarry]
    have hfull : (s.containerLen.toNat ≥ containerMaxSize - 18) ↔
        containerRoom ≤ 2 + load RoutedPdu.size p.pending := by rw [hlen]; exact Iff.rfl
    cases hov : s.hasOverflowPdu with
    | true => simp [hnil]
    | false =>
      by_cases hf : containerRoom ≤ 2 + load RoutedPdu.size p.pending
      · simp [hfull.2 hf, hf, hnil]
      · simp only [Bool.false_eq_true, if_false, if_neg (fun hx => hf (hfull.1 hx)), hge, and_true,
          hf, decide_false, Bool.false_or]
        cases gateOpen <;> simp [hnil]

@[simp] theorem driverCalls_state (s : GwState) (i : GwInput) :
    (driverCalls s i).1.overflowPdu = s.overflowPdu ∧
    (driverCalls s i).1.hasOverflowPdu = s.hasOverflowPdu ∧
    (driverCalls s i).1.currentContainer = s.currentContainer ∧
    (driverCalls s i).1.currentTC = s.currentTC := by
  unfold driverCalls
  split <;> exact ⟨rfl, rfl, rfl, rfl⟩

/-- The send section leaves the overflow slot, the container bytes and the class alone. -/
theorem sendPhase_state (s : GwState) (i : GwInput) :
    (sendPhase s i).1.overflowPdu = s.overflowPdu ∧
    (sendPhase s i).1.hasOverflowPdu = s.hasOverflowPdu ∧
    (sendPhase s i).1.currentContainer = s.currentContainer ∧
    (sendPhase s i).1.currentTC = s.currentTC := by
  unfold sendPhase
  split
  · exact driverCalls_state s i
  · exact ⟨rfl, rfl, rfl, rfl⟩

theorem trace_driverCalls (s : GwState) (i : GwInput) :
    received (driverCalls s i).2 = [] ∧ closings (driverCalls s i).2 = [] ∧
      ignored (driverCalls s i).2 = [] := by
  unfold driverCalls
  split <;> exact ⟨rfl, rfl, rfl⟩

theorem trace_sendPhase (s : GwState) (i : GwInput) :
    received (sendPhase s i).2 = [] ∧ ignored (sendPhase s i).2 = [] := by
  obtain ⟨hrecv, -, hign⟩ := trace_driverCalls s i
  unfold sendPhase
  split
  · unfold sendContainer
    rw [received_append, ignored_append, hrecv, hign]
    exact ⟨rfl, rfl⟩
  · exact ⟨rfl, rfl⟩

theorem sim_sendPhase {map : List CanIdToPduId} {s : GwState} {p : Packer RoutedPdu} (i : GwInput)
    (h : Sim map s p) (hle : 2 + recordsLoad p.pending ≤ containerRoom) :
    Sim map (sendPhase s i).1 (close RoutedPdu.size 2 containerRoom p i.gateOpen) ∧
    openFrom p.pending (sendPhase s i).2 =
      (close RoutedPdu.size 2 containerRoom p i.gateOpen).pending ∧
    (close RoutedPdu.size 2 containerRoom p i.gateOpen).closed =
      p.closed ++ closedFrom p.pending (sendPhase s i).2 ∧
    ∃ cs, closings (sendPhase s i).2 = cs ∧
      (close RoutedPdu.size 2 containerRoom p i.gateOpen).closed =
        p.closed ++ cs.map (fun _ => p.pending) ∧
      ∀ c ∈ cs, ClosedOk p.pending c := by
  have hsome := shouldTransmit_isSome h i.gateOpen
  unfold sendPhase close
  cases hst : shouldTransmit s i.gateOpen with
  | none =>
    rw [hst] at hsome
    rw [← hsome]
    exact ⟨by simpa using h, rfl, (List.append_nil _).symm, [], rfl, by simp, by simp⟩
  | some cause =>
    rw [hst] at hsome
    have hcl : closes RoutedPdu.size 2 containerRoom p i.gateOpen = true := by rw [← hsome]; rfl
    have hne : p.pending ≠ [] := by
      unfold closes at hcl
      simp only [Bool.and_eq_true, Bool.not_eq_true', List.isEmpty_eq_false_iff] at hcl
      exact hcl.1
    obtain ⟨h1, h2, h3, h4⟩ := driverCalls_state s i
    have hnone := (trace_driverCalls s i).2.1
    have hlen := h.len
    rw [if_neg hne] at hlen
    rw [if_pos hcl]
    unfold sendContainer
    have hdriver : closedFrom p.pending (driverCalls s i).2 = [] ∧
        openFrom p.pending (driverCalls s i).2 = p.pending := by
      unfold driverCalls
      split <;> exact ⟨rfl, rfl⟩
    refine ⟨?_, by rw [openFrom_append]; rfl,
      by rw [closedFrom_append, hdriver.1, hdriver.2]; rfl, [⟨cause, s.currentTC, tcToFifo s.currentTC,
      s.currentContainer.upto s.containerLen.toNat⟩], ?_, rfl, ?_⟩
    · refine ⟨?_, ?_, rfl, rfl, rfl, fun hx => absurd rfl hx, fun hx => absurd rfl hx⟩
      · simp only [h1, h2]; exact h.carry
      · simp only [h2]; exact h.carried
    · simp only [closings_append, hnone, List.nil_append]; rfl
    · intro c hc
      obtain rfl := List.mem_singleton.1 hc
      refine ⟨h.tc hne, rfl, ?_, h.bytes hne⟩
      rw [Block.length_upto _ _ (by rw [hlen]; exact Nat.le_trans hle (by decide)), hlen]

/-! ## One round -/

/-- The event belongs to section 4. -/
def GwEvent.isSend : GwEvent → Bool
  | .provided .. | .copied .. | .transmitted .. | .closed .. => true
  | _ => false

/-- The event belongs to section 2. -/
def GwEvent.isLocal : GwEvent → Bool
  | .fitTest .. | .wrote .. | .readData .. | .appended .. | .carried .. => true
  | _ => false

theorem isLocal_startContainer (s : GwState) (msgTC : UInt8) :
    ∀ e ∈ (startContainer s msgTC).2, e.isLocal = true := by
  unfold startContainer
  split <;> simp [GwEvent.isLocal]

theorem isLocal_addPdu (s : GwState) (i : GwInput) (r : RoutedPdu) :
    ∀ e ∈ (addPdu s i r).2, e.isLocal = true := by
  unfold addPdu
  simp only
  split <;> simp [GwEvent.isLocal]

section Local

variable {es : List GwEvent} (h : ∀ e ∈ es, e.isLocal = true)

include h

theorem isSend_of_local : ∀ e ∈ es, e.isSend = false := by
  intro e he
  have hl := h e he
  cases e <;> first | rfl | exact absurd hl Bool.false_ne_true

theorem received_of_local : received es = [] := by
  unfold received
  rw [List.filterMap_eq_nil_iff]
  intro e he
  have hl := h e he
  cases e <;> first | rfl | exact absurd hl Bool.false_ne_true

theorem ignored_of_local : ignored es = [] := by
  unfold ignored
  rw [List.filterMap_eq_nil_iff]
  intro e he
  have hl := h e he
  cases e <;> first | rfl | exact absurd hl Bool.false_ne_true

end Local

/-- The routed message a round works on. -/
def routed (map : List CanIdToPduId) (s : GwState) (i : GwInput) : Option RoutedPdu :=
  (taken s i).bind (route map)

theorem routed_of_taken (map : List CanIdToPduId) {s : GwState} {i : GwInput} {m : FlexcanIpMsgBuff}
    (hm : taken s i = some m) : routed map s i = route map m := by
  unfold routed
  rw [hm, Option.bind_some]

theorem routed_eq_none_of_taken (map : List CanIdToPduId) {s : GwState} {i : GwInput}
    (hm : taken s i = none) : routed map s i = none := by
  unfold routed
  rw [hm, Option.bind_none]

/-- What sections 1 and 2 leave for the send decision: the packer has taken the routed
message, if any. -/
structure Loaded (map : List CanIdToPduId) (s : GwState) (i : GwInput) (p : Packer RoutedPdu)
    (s₁ : GwState) (e₁ : List GwEvent) : Prop where
  sim : Sim map s₁ (take RoutedPdu.size 2 containerRoom p (routed map s i))
  le : 2 + recordsLoad (take RoutedPdu.size 2 containerRoom p (routed map s i)).pending ≤ containerRoom
  quiet : ∀ e ∈ e₁, e.isSend = false
  received : received e₁ = if s.hasOverflowPdu then [] else i.queue.toList
  ignored : ignored e₁ = []
  opened : openFrom p.pending e₁ = (take RoutedPdu.size 2 containerRoom p (routed map s i)).pending

theorem closedFrom_of_quiet {es : List GwEvent} (h : ∀ e ∈ es, e.isSend = false) (rs : List RoutedPdu) :
    closedFrom rs es = [] := by
  induction es generalizing rs with
  | nil => rfl
  | cons e es ih =>
    have hq := h e List.mem_cons_self
    have hes := ih fun e' he' => h e' (List.mem_cons_of_mem e he')
    cases e with
    | closed c => cases hq
    | appended r => exact hes (rs ++ [r])
    | _ => exact hes rs

theorem closings_of_quiet {es : List GwEvent} (h : ∀ e ∈ es, e.isSend = false) : closings es = [] := by
  unfold closings
  rw [List.filterMap_eq_nil_iff]
  intro e he
  have hq := h e he
  cases e <;> first | rfl | exact absurd hq.symm Bool.false_ne_true

structure History (map : List CanIdToPduId) (tr : List GwEvent) (s : GwState)
    (p : Packer RoutedPdu) : Prop where
  sim : Sim map s p
  wf : Wf RoutedPdu.size 2 containerRoom p
  contents : contents p = (received tr).filterMap (route map)
  closed : List.Forall₂ ClosedOk p.closed (closings tr)
  opened : openRecords tr = p.pending
  records : closedRecords tr = p.closed

theorem route_msg {map : List CanIdToPduId} {m : FlexcanIpMsgBuff} {r : RoutedPdu}
    (h : route map m = some r) : r.msg = m := by
  unfold route at h
  split at h
  · split at h
    · cases h
    · cases h; rfl
  · cases h

/-- One more record of any kind fits an empty container. -/
theorem single_fits (r : RoutedPdu) : 2 + r.size ≤ containerRoom := by
  have := r.msg.dataLen.toNat_lt
  have h1518 : containerRoom = 1518 := rfl
  unfold RoutedPdu.size
  omega

theorem receiveEvents_eq (s : GwState) (i : GwInput) :
    receiveEvents s i = (if s.hasOverflowPdu then [] else i.queue.toList).map .received := by
  unfold receiveEvents
  cases s.hasOverflowPdu <;> cases i.queue <;> rfl

theorem isSend_receiveEvents (s : GwState) (i : GwInput) : ∀ e ∈ receiveEvents s i, e.isSend = false := by
  intro e he
  rw [receiveEvents_eq] at he
  obtain ⟨m, -, rfl⟩ := List.mem_map.1 he
  rfl

theorem closings_receiveEvents (s : GwState) (i : GwInput) : closings (receiveEvents s i) = [] :=
  closings_of_quiet (isSend_receiveEvents s i)

theorem received_receiveEvents (s : GwState) (i : GwInput) :
    received (receiveEvents s i) = if s.hasOverflowPdu then [] else i.queue.toList := by
  rw [receiveEvents_eq]
  cases s.hasOverflowPdu <;> cases i.queue <;> rfl

theorem ignored_receiveEvents (s : GwState) (i : GwInput) : ignored (receiveEvents s i) = [] := by
  rw [receiveEvents_eq]
  cases s.hasOverflowPdu <;> cases i.queue <;> rfl

theorem openFrom_startContainer (rs : List RoutedPdu) (s : GwState) (msgTC : UInt8) :
    openFrom rs (startContainer s msgTC).2 = rs := by
  unfold startContainer
  split <;> rfl

theorem Sim.of_carry_none {map : List CanIdToPduId} {s : GwState} {p : Packer RoutedPdu}
    (h : Sim map s p) (hov : s.hasOverflowPdu = false) : p.carry = none := by
  rw [h.carry, hov]; rfl

/-- The carried record is the routed message of the round. -/
theorem Sim.carry_of_overflow {map : List CanIdToPduId} {s : GwState} {p : Packer RoutedPdu}
    (h : Sim map s p) (hov : s.hasOverflowPdu = true) (i : GwInput) : p.carry = routed map s i := by
  rw [h.carry, if_pos hov, routed_of_taken map (taken_of_overflow hov i)]

/-- What the packer takes in a round. -/
theorem take_routed {map : List CanIdToPduId} {s : GwState} {p : Packer RoutedPdu} (i : GwInput)
    (h : Sim map s p) :
    take RoutedPdu.size 2 containerRoom p (routed map s i) =
      match routed map s i with
      | some r => put RoutedPdu.size 2 containerRoom { p with carry := none } r
      | none => p := by
  unfold take
  cases hov : s.hasOverflowPdu with
  | true =>
    have hcarry := h.carry_of_overflow hov i
    obtain ⟨r, hr⟩ := Option.isSome_iff_exists.1 (h.carried hov)
    rw [← hcarry, hr]
  | false =>
    have hcarry := h.of_carry_none hov
    have hp : { p with carry := none } = p := by rw [← hcarry]
    rw [hcarry, hp]
    cases routed map s i <;> rfl

theorem Sim.carry_eq_none {map : List CanIdToPduId} {s : GwState} {i : GwInput} {p : Packer RoutedPdu}
    (h : Sim map s p) (hr : routed map s i = none) : p.carry = none := by
  cases hov : s.hasOverflowPdu with
  | false => exact h.of_carry_none hov
  | true =>
    rw [h.carry_of_overflow hov i, hr]

/-- Sections 1 and 2 without a message. -/
theorem loaded_idle {map : List CanIdToPduId} {tr : List GwEvent} {s : GwState} {i : GwInput}
    {p : Packer RoutedPdu} (h : History map tr s p) (hm : taken s i = none) :
    Loaded map s i p { s with hasOverflowPdu := false } (receiveEvents s i) := by
  have hov : s.hasOverflowPdu = false := by
    cases hov : s.hasOverflowPdu with
    | false => rfl
    | true => rw [taken_of_overflow hov] at hm; cases hm
  have hq : i.queue = none := (taken_of_no_overflow hov i).symm.trans hm
  have hrouted := routed_eq_none_of_taken map hm
  have htake : take RoutedPdu.size 2 containerRoom p (routed map s i) = p := by
    rw [take_routed i h.sim, hrouted]
  have hevents : receiveEvents s i = [] := by rw [receiveEvents_eq, hov, hq]; rfl
  rw [released_eq hov, hevents]
  refine ⟨by rw [htake]; exact h.sim, ?_, by simp, by rw [hov, hq]; rfl, rfl, by rw [htake]; rfl⟩
  rw [htake]
  exact Nat.le_of_lt h.wf.room

/-- Sections 1 and 2 with a routed message, carried over or from the queue. -/
theorem loaded_added {map : List CanIdToPduId} {tr : List GwEvent} {s : GwState} {i : GwInput}
    {p : Packer RoutedPdu} {m : FlexcanIpMsgBuff} {r : RoutedPdu} (h : History map tr s p)
    (hm : taken s i = some m) (hr : route map m = some r) :
    Loaded map s i p
      (addPdu (startContainer { s with hasOverflowPdu := false } r.msgTC).1 i r).1
      (receiveEvents s i ++ (startContainer { s with hasOverflowPdu := false } r.msgTC).2 ++
        (addPdu (startContainer { s with hasOverflowPdu := false } r.msgTC).1 i r).2) := by
  have hrm := route_msg hr
  have hrouted : routed map s i = some r := (routed_of_taken map hm).trans hr
  have htake : take RoutedPdu.size 2 containerRoom p (some r) =
      put RoutedPdu.size 2 containerRoom { p with carry := none } r := by
    have := take_routed i h.sim
    rwa [hrouted] at this
  have hopened := opened_startContainer h.sim r.msgTC
  have hadd := sim_addPdu (p := { p with carry := none }) i (by rw [hrm]; exact hr) hopened rfl
  have hle := (take_spec RoutedPdu.size 2 containerRoom single_fits p h.wf (some r)).2.1
  rw [← htake] at hadd
  have hlocal : ∀ e ∈ (startContainer { s with hasOverflowPdu := false } r.msgTC).2 ++
      (addPdu (startContainer { s with hasOverflowPdu := false } r.msgTC).1 i r).2, e.isLocal = true := by
    intro e he
    rcases List.mem_append.1 he with he | he
    · exact isLocal_startContainer _ _ e he
    · exact isLocal_addPdu _ _ _ e he
  refine ⟨by rw [hrouted]; exact hadd, by rw [hrouted]; exact hle, fun e he => ?_, ?_, ?_, ?_⟩
  · rw [List.append_assoc] at he
    rcases List.mem_append.1 he with he | he
    · exact isSend_receiveEvents s i e he
    · exact isSend_of_local hlocal e he
  · rw [List.append_assoc, received_append, received_of_local hlocal, received_receiveEvents, List.append_nil]
  · rw [List.append_assoc, ignored_append, ignored_of_local hlocal, ignored_receiveEvents, List.append_nil]
  · have hrecv : openFrom p.pending (receiveEvents s i) = p.pending := by
      rw [receiveEvents_eq]; cases s.hasOverflowPdu <;> cases i.queue <;> rfl
    rw [openFrom_append, openFrom_append, hrecv, openFrom_startContainer, hrouted, htake]
    unfold addPdu put
    simp only [toNat_requiredSpace r, hopened.len]
    by_cases hf : 2 + load RoutedPdu.size p.pending + r.size ≤ containerRoom
    · rw [if_pos hf, if_pos (show 2 + recordsLoad p.pending + r.size ≤ containerMaxSize - 18 from hf)]
      rfl
    · rw [if_neg hf, if_neg (show ¬ 2 + recordsLoad p.pending + r.size ≤ containerMaxSize - 18 from hf)]
      rfl

/-- The round takes a message from the queue that has no route. -/
def Skips (map : List CanIdToPduId) (s : GwState) (i : GwInput) : Prop :=
  (taken s i).isSome = true ∧ routed map s i = none

instance (map : List CanIdToPduId) (s : GwState) (i : GwInput) : Decidable (Skips map s i) :=
  decidable_of_iff ((taken s i).isSome = true ∧ (routed map s i).isNone = true) (by
    rw [Option.isNone_iff_eq_none]; exact Iff.rfl)

theorem not_skips_of_routed {map : List CanIdToPduId} {s : GwState} {i : GwInput} {r : RoutedPdu}
    (hr : routed map s i = some r) : ¬ Skips map s i := by
  intro hsk
  rw [Skips, hr] at hsk
  cases hsk.2

/-- **A round** ignores a message from the queue, or takes what there is to take and
decides whether to send. -/
theorem round_cases {map : List CanIdToPduId} {tr es : List GwEvent} {s s' : GwState} {i : GwInput}
    {p : Packer RoutedPdu} (h : History map tr s p) (hs : ethPduSendTas map s i = some (s', es)) :
    (Skips map s i ∧ ∃ m, s.hasOverflowPdu = false ∧ i.queue = some m ∧ route map m = none ∧
      s' = s ∧ es = [.received m, .ignored m]) ∨
    (¬ Skips map s i ∧ ∃ s₁ e₁, Loaded map s i p s₁ e₁ ∧ s' = (sendPhase s₁ i).1 ∧
      es = e₁ ++ (sendPhase s₁ i).2) := by
  rcases ethPduSendTas_cases hs with ⟨hm, rfl, rfl⟩ | ⟨m, hm, hr, rfl, rfl⟩ |
    ⟨m, r, s₂, s₃, hm, hr, rfl, rfl, rfl, rfl⟩
  · refine Or.inr ⟨fun hsk => ?_, _, _, loaded_idle h hm, rfl, rfl⟩
    rw [Skips, hm] at hsk
    exact Bool.false_ne_true hsk.1
  · -- a carried message has a route, so this one came from the queue
    have hov : s.hasOverflowPdu = false := by
      cases hov : s.hasOverflowPdu with
      | false => rfl
      | true =>
        have hc := h.sim.carried hov
        rw [taken_of_overflow hov] at hm
        rw [h.sim.carry, hov, if_pos rfl, Option.some.inj hm, hr] at hc
        cases hc
    have hq : i.queue = some m := (taken_of_no_overflow hov i).symm.trans hm
    refine Or.inl ⟨⟨by rw [hm]; rfl, (routed_of_taken map hm).trans hr⟩, m, hov, hq, hr, released_eq hov, ?_⟩
    rw [receiveEvents_eq, hov, hq]
    rfl
  · exact Or.inr ⟨not_skips_of_routed ((routed_of_taken map hm).trans hr), _, _, loaded_added h hm hr, rfl, rfl⟩

/-! ## Runs -/

theorem forall₂_map_const {rs : List RoutedPdu} :
    ∀ {cs : List ClosedContainer}, (∀ c ∈ cs, ClosedOk rs c) →
      List.Forall₂ ClosedOk (cs.map fun _ => rs) cs
  | [], _ => .nil
  | _ :: _, h => .cons (h _ List.mem_cons_self)
      (forall₂_map_const fun c' hc' => h c' (List.mem_cons_of_mem _ hc'))

/-- The packer's step in a round of the loop. -/
def packRound (map : List CanIdToPduId) (s : GwState) (i : GwInput) (p : Packer RoutedPdu) :
    Packer RoutedPdu :=
  if Skips map s i then p else step RoutedPdu.size 2 containerRoom p (routed map s i) i.gateOpen

/-- What the round takes in is what it dequeued and could route. -/
theorem contents_packStep {map : List CanIdToPduId} {tr : List GwEvent} {s : GwState}
    {p : Packer RoutedPdu} (h : History map tr s p) (i : GwInput) :
    contents (step RoutedPdu.size 2 containerRoom p (routed map s i) i.gateOpen) =
      contents p ++ (if s.hasOverflowPdu then [] else i.queue.toList).filterMap (route map) := by
  cases hov : s.hasOverflowPdu with
  | true =>
    obtain ⟨a, ha⟩ := Option.isSome_iff_exists.1 (h.sim.carried hov)
    rw [contents_step_of_carry _ _ _ _ a _ _ ha, if_pos rfl, List.filterMap_nil, List.append_nil]
  | false =>
    rw [contents_step_of_no_carry _ _ _ _ _ _ (h.sim.of_carry_none hov), routed, taken_of_no_overflow hov,
      if_neg Bool.false_ne_true]
    cases hq : i.queue with
    | none => rfl
    | some m => cases hr : route map m <;> simp [hr]

/-- **One round** of the loop is a step of the packer. -/
theorem history_step {map : List CanIdToPduId} {tr es : List GwEvent} {s s' : GwState}
    {i : GwInput} {p : Packer RoutedPdu} (h : History map tr s p)
    (hs : ethPduSendTas map s i = some (s', es)) :
    History map (tr ++ es) s' (packRound map s i p) := by
  unfold packRound
  rcases round_cases h hs with ⟨hsk, m, -, -, hr, rfl, rfl⟩ | ⟨hsk, s₁, e₁, hl, rfl, rfl⟩
  · rw [if_pos hsk]
    refine ⟨h.sim, h.wf, ?_, ?_, ?_, ?_⟩
    · rw [received_append, List.filterMap_append, ← h.contents]
      simp [received, hr]
    · rw [closings_append]
      simpa [closings] using h.closed
    · rw [openRecords, openFrom_append]
      exact h.opened
    · rw [closedRecords, closedFrom_append]
      exact (List.append_nil _).trans h.records
  · rw [if_neg hsk]
    obtain ⟨hsim, hopen, hrecords, cs, hcs, hclosed, hok⟩ := sim_sendPhase i hl.sim hl.le
    have htake := (take_spec RoutedPdu.size 2 containerRoom single_fits p h.wf (routed map s i)).1
    refine ⟨hsim, wf_step _ _ _ (by decide) single_fits p h.wf _ _, ?_, ?_, ?_, ?_⟩
    · rw [contents_packStep h, received_append, received_append, hl.received,
        (trace_sendPhase s₁ i).1, List.append_nil, List.filterMap_append, h.contents]
    · rw [closings_append, closings_append, closings_of_quiet hl.quiet, hcs, List.nil_append]
      show List.Forall₂ ClosedOk (close _ _ _ (take _ _ _ p _) i.gateOpen).closed _
      rw [hclosed, htake]
      exact List.rel_append h.closed (forall₂_map_const hok)
    · rw [openRecords, openFrom_append, openFrom_append]
      show openFrom (openFrom (openRecords tr) e₁) _ = _
      rw [h.opened, hl.opened]
      exact hopen
    · rw [closedRecords, closedFrom_append]
      show closedRecords tr ++ closedFrom (openRecords tr) _ = _
      rw [h.records, h.opened, closedFrom_append, closedFrom_of_quiet hl.quiet, hl.opened, List.nil_append,
        ← htake]
      exact hrecords.symm

theorem history_start (map : List CanIdToPduId) (u : UninitLocals) :
    History map [] (GwState.start u) empty where
  sim := ⟨rfl, fun h => (Bool.false_ne_true h).elim, rfl, rfl, rfl, fun h => absurd rfl h,
    fun h => absurd rfl h⟩
  wf := wf_empty _ _ _ (by decide)
  contents := rfl
  closed := .nil
  opened := rfl
  records := rfl

/-- **Every run** of the loop is a run of the packer. -/
theorem history_run {map : List CanIdToPduId} {u : UninitLocals} {is : List GwInput} {s : GwState}
    {tr : List GwEvent} (h : (gateway map).run (GwState.start u) is = some (s, tr)) :
    ∃ p, History map tr s p :=
  (gateway map).run_invariant_always (fun s tr => ∃ p, History map tr s p)
    (fun _ _ i _ _ ⟨p, hp⟩ hs => ⟨packRound map _ i p, history_step hp hs⟩)
    ⟨empty, history_start map u⟩ h

end CanTsn
