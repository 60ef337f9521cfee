import CanTsnGateway.Mailbox.Transmit
import CanTsnGateway.Model.CanSendTask

/-!
# What the send tasks put on the bus

A task sends only after `FlexCAN_Ip_GetTransferStatus` has found its message buffer idle,
and nobody else sends from it.  So none of its requests is refused.

    task p has counted to n → its frames carry 1, …, n in this order; all of them but at most
    the last are on the bus                                                (counters_on_bus)
-/

namespace CanTsn

open StepMachine

/-- The frame of a task. -/
def counterFrame (p : CanTxTaskParam) (counter : UInt32) : BusFrame :=
  ⟨false, p.canId &&& 0x7FF, false, true, true, counterData counter⟩

theorem requestedFrame_counter (p : CanTxTaskParam) (counter : UInt32) :
    requestedFrame txInfo.codeStatus p.canId (counterData counter) false = counterFrame p counter := by
  have hlen : (counterData counter).length = 64 := rfl
  unfold requestedFrame counterFrame
  rw [hlen]
  have hpad : frameLength 64 - 64 = 0 := by decide
  rw [hpad, List.replicate_zero, List.append_nil]
  rfl

/-- The tasks have message buffers of their own, with room for the frame. -/
structure OwnBuffers (t : UInt8 → FlexcanType) (p : CanRxTaskParam) (params : List CanTxTaskParam) : Prop where
  range : ∀ q ∈ params, q.mbIdx < maxMbNum
  notPolled : ∀ q ∈ params, ¬ p.Polls flexcanInst q.mbIdx
  room : ∀ q ∈ params, 64 ≤ mbRoom (t flexcanInst) q.mbIdx
  own : (params.map CanTxTaskParam.mbIdx).Nodup

theorem OwnBuffers.ne {t : UInt8 → FlexcanType} {p : CanRxTaskParam} {params : List CanTxTaskParam}
    (h : OwnBuffers t p params) {j k : Nat} {q r : CanTxTaskParam} (hj : params[j]? = some q) (hk : params[k]? = some r)
    (hne : j ≠ k) : q.mbIdx ≠ r.mbIdx := by
  intro heq
  obtain ⟨hlt, -⟩ := List.getElem?_eq_some_iff.1 hj
  refine hne ((List.getElem?_inj (by rwa [List.length_map]) h.own).1 ?_)
  rw [List.getElem?_map, List.getElem?_map, hj, hk]
  exact congrArg some heq

/-- What holds of a task. -/
structure TaskInv (t : UInt8 → FlexcanType) (q : CanTxTaskParam) (k : Nat) (s : SendState) (tr : List CanEvent) :
    Prop where
  tx : TxInv t flexcanInst q.mbIdx s.node tr
  counted : ∃ n, (s.tasks k).counter = UInt32.ofNat n ∧
    acceptedFrames flexcanInst q.mbIdx tr = (List.range n).map fun j => counterFrame q (UInt32.ofNat (j + 1))
  ready : (s.tasks k).next = .send → (s.node.rx.mbs flexcanInst q.mbIdx).state = .idle

section Steps

variable {t : UInt8 → FlexcanType} {p : CanRxTaskParam} {params : List CanTxTaskParam} {q r : CanTxTaskParam} {j k : Nat}
  {s : SendState} {tr es : List CanEvent} {node : CanNode} {task : CanSendTask}

/-- Steps of others. -/
theorem TaskInv.keep {s₁ : SendState} (h : TaskInv t q k s tr) (htx : TxInv t flexcanInst q.mbIdx s₁.node (tr ++ es))
    (htask : s₁.tasks k = s.tasks k) (hes : acceptedFrames flexcanInst q.mbIdx es = [])
    (hmbs : s₁.node.rx.mbs flexcanInst q.mbIdx = s.node.rx.mbs flexcanInst q.mbIdx) : TaskInv t q k s₁ (tr ++ es) where
  tx := htx
  counted := by
    rw [htask, acceptedFrames_append, hes, List.append_nil]
    exact h.counted
  ready := by
    rw [htask, hmbs]
    exact h.ready

/-- The node's own steps send nothing from a task's message buffer and leave its state. -/
theorem node_step_other {i : CanInput} {s s₁ : CanNode} {inst mb : UInt8} (hpoll : ¬ p.Polls inst mb)
    (hi : (∀ inst mb info msgId mbData, i ≠ .send inst mb info msgId mbData) ∧ ∀ inst mb, i ≠ .mainFunctionWrite inst mb)
    (hs : (canNode t p).step s i = some (s₁, es)) :
    acceptedFrames inst mb es = [] ∧ s₁.rx.mbs inst mb = s.rx.mbs inst mb := by
  cases i with
  | arrive i m f ram =>
    obtain ⟨rfl, rfl⟩ := Prod.mk.inj (Option.some.inj hs)
    exact ⟨rfl, rfl⟩
  | poll =>
    have hr : s.poll t p = (s₁, es) := Option.some.inj hs
    unfold CanNode.poll at hr
    cases hpos : p.pollOrder[s.rx.next]? with
    | none =>
      rw [hpos] at hr
      obtain ⟨rfl, rfl⟩ := Prod.mk.inj hr
      exact ⟨rfl, rfl⟩
    | some r =>
      obtain ⟨i, k⟩ := r
      have hne : ¬(inst = i ∧ mb = p.mb i k) := by
        rintro ⟨rfl, rfl⟩
        exact hpoll ⟨k, List.mem_of_getElem? hpos, rfl⟩
      obtain ⟨hmbs, -, -, haccepted, -⟩ := mainFunctionRead_other t
        { s with rx := { s.rx with next := (s.rx.next + 1) % p.pollOrder.length } } hne
      rw [hpos] at hr
      simp only at hr
      rw [hr] at hmbs haccepted
      exact ⟨haccepted, hmbs⟩
  | receive =>
    have hr : s.queueReceive = (s₁, es) := Option.some.inj hs
    unfold CanNode.queueReceive at hr
    simp only at hr
    obtain ⟨rfl, rfl⟩ := Prod.mk.inj hr
    refine ⟨?_, rfl⟩
    cases (BoundedQueue.receive s.rx.xQueueCan).1 <;> rfl
  | send i m info msgId mbData => exact absurd rfl (hi.1 i m info msgId mbData)
  | mainFunctionWrite i m => exact absurd rfl (hi.2 i m)
  | transmit i m ram =>
    obtain ⟨rfl, rfl⟩ := Prod.mk.inj (Option.some.inj hs)
    exact ⟨rfl, rfl⟩

/-- All tasks, and no error has been counted. -/
structure TasksInv (t : UInt8 → FlexcanType) (params : List CanTxTaskParam) (s : SendState) (tr : List CanEvent) :
    Prop where
  task : ∀ k q, params[k]? = some q → TaskInv t q k s tr
  noError : s.txErrCount = 0

theorem tasks_node_step {i : CanInput} {node : CanNode} (hl : ∀ inst, MbLayout (t inst)) (ho : OwnBuffers t p params)
    (h : TasksInv t params s tr) (hC : (SendInput.node i).Proper t p s)
    (hs : (canNode t p).step s.node i = some (node, es)) : TasksInv t params { s with node := node } (tr ++ es) := by
  have hproper : i.Proper t p s.node ∧ (∀ inst mb info msgId mbData, i ≠ .send inst mb info msgId mbData) ∧
      ∀ inst mb, i ≠ .mainFunctionWrite inst mb := by
    cases i with
    | send inst mb info msgId mbData => exact hC.elim
    | mainFunctionWrite inst mb => exact hC.elim
    | _ => exact ⟨hC, nofun, nofun⟩
  refine ⟨fun k q hq => ?_, h.noError⟩
  have hmem := List.mem_of_getElem? hq
  have hk := h.task k q hq
  obtain ⟨haccepted, hmbs⟩ := node_step_other (ho.notPolled q hmem) hproper.2 hs
  exact hk.keep (tx_step hl (ho.notPolled q hmem) (ho.range q hmem) hk.tx hproper.1 hs) rfl haccepted hmbs

/-! ## The steps of a task -/

theorem mainFunctionWrite_accepts (t : UInt8 → FlexcanType) (s : CanNode) (inst mb i m : UInt8) :
    acceptedFrames inst mb (s.flexcanIpMainFunctionWrite t i m).2 = [] ∧
      (¬(inst = i ∧ mb = m) → (s.flexcanIpMainFunctionWrite t i m).1.rx.mbs inst mb = s.rx.mbs inst mb) := by
  rcases mainFunctionWrite_cases t s i m with ⟨heq, -⟩ | ⟨s', heq, -, -, hrx, -, -⟩
  · rw [heq]
    exact ⟨rfl, fun _ => rfl⟩
  · rw [heq]
    refine ⟨rfl, fun hne => ?_⟩
    rw [hrx]
    exact if_neg hne

theorem tasks_setTask (s : SendState) (j k : Nat) (task : CanSendTask) :
    (s.setTask j task).tasks k = if k = j then task else s.tasks k := rfl

/-- A task has seen to its last frame. -/
theorem tasks_mainFunctionWrite (ho : OwnBuffers t p params) (h : TasksInv t params s tr) (hj : params[j]? = some r) :
    TasksInv t params
      (({ s with node := (s.node.flexcanIpMainFunctionWrite t flexcanInst r.mbIdx).1 } : SendState).setTask j
        { s.tasks j with next := .getTransferStatus })
      (tr ++ (s.node.flexcanIpMainFunctionWrite t flexcanInst r.mbIdx).2) := by
  refine ⟨fun k q hq => ?_, h.noError⟩
  have hk := h.task k q hq
  have htx := mainFunctionWrite_keeps (i := flexcanInst) (m := r.mbIdx) hk.tx
  obtain ⟨haccepted, hother⟩ := mainFunctionWrite_accepts t s.node flexcanInst q.mbIdx flexcanInst r.mbIdx
  by_cases hkj : k = j
  · subst hkj
    obtain rfl := Option.some.inj (hq.symm.trans hj)
    refine ⟨htx, ?_, fun hnext => ?_⟩
    · rw [tasks_setTask, if_pos rfl, acceptedFrames_append, haccepted, List.append_nil]
      exact hk.counted
    · rw [tasks_setTask, if_pos rfl] at hnext
      cases hnext
  · exact hk.keep htx (if_neg hkj) haccepted (hother fun hc => ho.ne hq hj hkj hc.2)

/-- A task has asked for its message buffer's state. -/
theorem tasks_getTransferStatus (h : TasksInv t params s tr) (hj : params[j]? = some r) :
    TasksInv t params
      (s.setTask j { s.tasks j with
        next := if s.node.flexcanIpGetTransferStatus flexcanInst r.mbIdx = .busy then .mainFunctionWrite else .send })
      tr := by
  refine ⟨fun k q hq => ?_, h.noError⟩
  have hk := h.task k q hq
  by_cases hkj : k = j
  · subst hkj
    obtain rfl := Option.some.inj (hq.symm.trans hj)
    refine ⟨hk.tx, ?_, fun hnext => ?_⟩
    · rw [tasks_setTask, if_pos rfl]
      exact hk.counted
    · rw [tasks_setTask, if_pos rfl] at hnext
      show (s.node.rx.mbs flexcanInst q.mbIdx).state = .idle
      by_contra hbusy
      have hst : s.node.flexcanIpGetTransferStatus flexcanInst q.mbIdx = .busy := if_neg hbusy
      simp only [hst, if_true] at hnext
      cases hnext
  · refine ⟨hk.tx, ?_, ?_⟩
    · rw [tasks_setTask, if_neg hkj]
      exact hk.counted
    · rw [tasks_setTask, if_neg hkj]
      exact hk.ready

/-- **A task's request is taken**, and its frame carries the next number. -/
theorem tasks_send (hl : ∀ inst, MbLayout (t inst)) (ho : OwnBuffers t p params) (h : TasksInv t params s tr)
    (hj : params[j]? = some r) (hnext : (s.tasks j).next = .send) :
    ∃ node, s.node.flexcanIpSend t flexcanInst r.mbIdx txInfo r.canId (some (counterData ((s.tasks j).counter + 1))) =
        some (.success, node) ∧
      TasksInv t params
        { ({ s with node := node } : SendState).setTask j ⟨(s.tasks j).counter + 1, .mainFunctionWrite⟩ with
          txCount := s.txCount + 1 }
        (tr ++ [.send flexcanInst r.mbIdx txInfo r.canId (some (counterData ((s.tasks j).counter + 1))) .success]) := by
  have hmem := List.mem_of_getElem? hj
  have hfits : txInfo.dataLength.toNat ≤ mbRoom (t flexcanInst) r.mbIdx := ho.room r hmem
  have hbs : (counterData ((s.tasks j).counter + 1)).length = txInfo.dataLength.toNat := rfl
  rcases send_cases s.node r.canId (some (counterData ((s.tasks j).counter + 1))) (assert_of_le hfits) with
    ⟨result, -, -, hrefused⟩ | ⟨node, heq, heff⟩
  · rcases hrefused with hrange | hbusy
    · exact absurd (of_decide_eq_true hrange) (UInt8.not_le.2 (ho.range r hmem))
    · exact absurd ((h.task j r hj).ready hnext) hbusy
  · refine ⟨node, heq, fun k q hq => ?_, h.noError⟩
    have hk := h.task k q hq
    have htx := send_keeps hl hk.tx (ho.range q (List.mem_of_getElem? hq)) hbs hfits heff
    by_cases hkj : k = j
    · subst hkj
      obtain rfl := Option.some.inj (hq.symm.trans hj)
      refine ⟨htx, ?_, fun hnext' => ?_⟩
      · obtain ⟨n, hcounter, hframes⟩ := hk.counted
        refine ⟨n + 1, ?_, ?_⟩
        · show (if k = k then _ else s.tasks k).counter = _
          rw [if_pos rfl, hcounter, UInt32.ofNat_add]
          rfl
        · rw [acceptedFrames_append, acceptedFrames_send, if_pos ⟨rfl, rfl⟩, requestedFrame_counter, hframes, hcounter,
            List.range_succ, List.map_append, List.map_singleton, UInt32.ofNat_add]
          rfl
      · have hcall : (if k = k then (⟨(s.tasks k).counter + 1, .mainFunctionWrite⟩ : CanSendTask) else s.tasks k).next =
            .send := hnext'
        rw [if_pos rfl] at hcall
        cases hcall
    · have hne : ¬(flexcanInst = flexcanInst ∧ r.mbIdx = q.mbIdx) := fun hc => ho.ne hq hj hkj hc.2.symm
      refine hk.keep htx (if_neg hkj) ?_ ?_
      · rw [acceptedFrames_send, if_neg hne]
      · show node.rx.mbs flexcanInst q.mbIdx = s.node.rx.mbs flexcanInst q.mbIdx
        rw [heff.mbs]
        exact if_neg fun hc => hne ⟨rfl, hc.2.symm⟩

/-! ## Steps and runs -/

theorem tasks_step {i : SendInput} (hl : ∀ inst, MbLayout (t inst)) (ho : OwnBuffers t p params)
    (h : TasksInv t params s tr) (hC : i.Proper t p s) :
    ∃ s₁ es, (canSendTasks t p params).step s i = some (s₁, es) ∧ TasksInv t params s₁ (tr ++ es) := by
  cases i with
  | node i =>
    have hproper : i.Proper t p s.node := by
      cases i with
      | send inst mb info msgId mbData => exact hC.elim
      | mainFunctionWrite inst mb => exact hC.elim
      | _ => exact hC
    obtain ⟨node, es, hs⟩ := step_exists hproper
    have hstep : (canSendTasks t p params).step s (.node i) = some ({ s with node := node }, es) := by
      unfold canSendTasks
      simp only [hs, Option.map_some]
    exact ⟨_, es, hstep, tasks_node_step hl ho h hC hs⟩
  | task j =>
    unfold canSendTasks
    simp only
    cases hj : params[j]? with
    | none => exact ⟨s, [], rfl, by rwa [List.append_nil]⟩
    | some r =>
      unfold canSendTaskGeneric
      simp only
      cases hnext : (s.tasks j).next with
      | mainFunctionWrite => exact ⟨_, _, rfl, tasks_mainFunctionWrite ho h hj⟩
      | getTransferStatus =>
        refine ⟨_, _, rfl, ?_⟩
        rw [List.append_nil]
        exact tasks_getTransferStatus h hj
      | send =>
        obtain ⟨node, heq, h'⟩ := tasks_send hl ho h hj hnext
        simp only [heq, Option.map_some]
        exact ⟨_, _, rfl, h'⟩

end Steps

/-- **The counters on the bus.**  No request fails, and a task's frames are on the bus in the
order of its counter but for the last one, which may be on its way. -/
theorem counters_on_bus {t : UInt8 → FlexcanType} {p : CanRxTaskParam} {params : List CanTxTaskParam}
    {m ram : UInt8 → ByteMemory.Memory} {handlerData : FlexcanIpMsgBuff} {capacity : Nat} {is : List SendInput}
    (hspace : ∀ inst, (t inst).InSpace)
    (hinit : ∀ inst, flexcanInitSkku (t inst) inst (m inst) = some (ram inst)) (ho : OwnBuffers t p params)
    (hC : (canSendTasks t p params).AllSteps (SendInput.Proper t p) (.start p handlerData capacity ram) is) :
    ∃ s tr, (canSendTasks t p params).run (.start p handlerData capacity ram) is = some (s, tr) ∧ s.txErrCount = 0 ∧
      ∀ k q, params[k]? = some q → ∃ n, (s.tasks k).counter = UInt32.ofNat n ∧
        busFrames flexcanInst q.mbIdx tr ++ (s.node.pending t flexcanInst q.mbIdx).toList =
          (List.range n).map fun j => counterFrame q (UInt32.ofNat (j + 1)) := by
  have hl : ∀ inst, MbLayout (t inst) := fun inst => (init_spec (hspace inst) (hinit inst)).1
  have hstart : TasksInv t params (.start p handlerData capacity ram) [] := by
    refine ⟨fun k q hq => ⟨txInv_start hspace hinit (ho.range q (List.mem_of_getElem? hq)), ⟨0, rfl, rfl⟩, nofun⟩, rfl⟩
  obtain ⟨s, tr, hrun, h⟩ := (canSendTasks t p params).run_exists (TasksInv t params)
    (fun s tr i h hC => tasks_step hl ho h hC) hstart hC
  refine ⟨s, tr, hrun, h.noError, fun k q hq => ?_⟩
  have hk := h.task k q hq
  obtain ⟨n, hcounter, hframes⟩ := hk.counted
  exact ⟨n, hcounter, hk.tx.frames.symm.trans hframes⟩

/-- The tasks of `start_CAN`. -/
theorem ownBuffers_txTasks : OwnBuffers (fun _ => controller64) rxp txTasks where
  range := by decide
  notPolled q hq h := by
    have hall : ∀ q ∈ txTasks, ¬ q.mbIdx < 2 := by decide
    exact hall q hq (rxp_polls h)
  room := by decide +kernel
  own := by decide

/-- The first task sends, its frame goes on the bus, and it sends again; the second task
takes its turns in between. -/
def tasksTwice : List SendInput :=
  [.task 0, .task 1, .task 0, .task 0, .node (.transmit 0 4 (ramSent (ramBusy (ram64 0) (counterData 1)))), .task 1,
    .task 0, .task 0, .task 1, .task 0]

theorem counters_on_bus_one :
    ∃ s tr, (canSendTasks (fun _ => controller64) rxp txTasks).run (.start rxp .zero 64 ram64)
        tasksTwice = some (s, tr) ∧ s.txErrCount = 0 ∧
      ∀ k q, txTasks[k]? = some q → ∃ n, (s.tasks k).counter = UInt32.ofNat n ∧
        busFrames flexcanInst q.mbIdx tr ++ (s.node.pending (fun _ => controller64) flexcanInst q.mbIdx).toList =
          (List.range n).map fun j => counterFrame q (UInt32.ofNat (j + 1)) :=
  have hpoll : ¬ rxp.Polls 0 4 := fun h => absurd (rxp_polls h) (by decide)
  have hsends := sends_ramBusy (ram64 0) (show (counterData 1).length = 64 from rfl)
  counters_on_bus (m := fun _ _ => 0) (fun _ => controller64_inSpace) init_ram64 ownBuffers_txTasks
    (.cons _ trivial rfl (.cons _ trivial rfl (.cons _ trivial rfl (.cons _ trivial rfl
      (.cons _ ⟨hpoll, by decide, hsends⟩ rfl (.cons _ trivial rfl (.cons _ trivial rfl (.cons _ trivial rfl
        (.cons _ trivial rfl (.cons _ trivial rfl trivial))))))))))

example : ((canSendTasks (fun _ => controller64) rxp txTasks).run (.start rxp .zero 64 ram64) tasksTwice).map
    (fun r => ((busFrames 0 4 r.2).length, (r.1.tasks 0).counter, (r.1.tasks 1).counter)) = some (1, 2, 1) := rfl

end CanTsn
