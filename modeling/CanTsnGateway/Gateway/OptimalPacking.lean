import CanTsnGateway.Gateway.Filling
import CanTsnGateway.Lib.GreedySplit

/-!
# Behind a closed gate the packing is optimal

While the gate stays closed a container goes only when it is full or when the next PDU does
not fit, so the containers are the blocks of a greedy split.  At every loop head the
containers closed so far, with one more for what is held, are as many as the shortest
split of the PDUs taken so far into blocks of at most 1518 bytes has (`packing_optimal`).
-/

namespace CanTsn

open Packer StepMachine

theorem size_pos (r : RoutedPdu) : 0 < r.size := by
  unfold RoutedPdu.size
  omega

theorem greedy_packRound {map : List CanIdToPduId} {tr : List GwEvent} {s : GwState} {i : GwInput}
    {p : Packer RoutedPdu} (h : History map tr s p) (hg : Greedy RoutedPdu.size 2 containerRoom p)
    (hclosed : i.gateOpen = false) : Greedy RoutedPdu.size 2 containerRoom (packRound map s i p) := by
  unfold packRound
  split
  · exact hg
  · rw [hclosed]
    exact greedy_step _ _ _ size_pos single_fits h.wf hg (routed map s i)

theorem greedy_run {map : List CanIdToPduId} {u : UninitLocals} {is : List GwInput} {s : GwState}
    {tr : List GwEvent} (hclosed : ∀ i ∈ is, i.gateOpen = false)
    (hrun : (gateway map).run (GwState.start u) is = some (s, tr)) :
    ∃ p, History map tr s p ∧ Greedy RoutedPdu.size 2 containerRoom p := by
  refine (gateway map).run_invariant
    (fun s tr => ∃ p, History map tr s p ∧ Greedy RoutedPdu.size 2 containerRoom p) ?_
    ⟨empty, history_start map u, greedy_empty _ _ _⟩ ((gateway map).allSteps_of_forall _ is hclosed) hrun
  rintro s tr i s₁ es ⟨p, h, hg⟩ hc hs
  exact ⟨packRound map s i p, history_step h hs, greedy_packRound h hg hc⟩

/-- One block for each closed container and one for what is held. -/
theorem length_blocks {map : List CanIdToPduId} {tr : List GwEvent} {s : GwState} {p : Packer RoutedPdu}
    (h : History map tr s p) : (blocks p).length =
      (closings tr).length + if s.containerPending = true ∨ s.hasOverflowPdu = true then 1 else 0 := by
  have hcarry := h.sim.carry_isSome
  unfold blocks
  rw [List.length_append, List.length_append, List.length_map, h.closed.length_eq, h.sim.pending, ← hcarry]
  cases hc : p.carry with
  | none => by_cases hnil : p.pending = [] <;> simp [hnil]
  | some a =>
    have hnil := h.wf.carry_open (by rw [hc]; rfl)
    simp [hnil]

/-- **Optimal packing.**  With the gate closed throughout, the closed containers and what
is held are as few blocks as the PDUs taken so far can be split into. -/
theorem packing_optimal (map : List CanIdToPduId) (u : UninitLocals) (is : List GwInput) (s : GwState)
    (tr : List GwEvent) (hclosed : ∀ i ∈ is, i.gateOpen = false)
    (hrun : (gateway map).run (GwState.start u) is = some (s, tr)) :
    IsLeast {n | ∃ bs, IsSplit RoutedPdu.size 2 containerRoom ((received tr).filterMap (route map)) bs ∧
        bs.length = n}
      ((closings tr).length + if s.containerPending = true ∨ s.hasOverflowPdu = true then 1 else 0) := by
  obtain ⟨p, h, hg⟩ := greedy_run hclosed hrun
  rw [← h.contents, ← length_blocks h]
  exact isLeast_length_of_greedy _ _ _ (isSplit_blocks _ _ _ single_fits h.wf) hg.ne_nil hg.chain

/-- 23 messages of 64 bytes. -/
theorem packing_optimal_full :
    ∃ s tr, (gateway canPduMap).run (GwState.start .zero) (List.replicate 23 (blankRound 64 false 0)) =
        some (s, tr) ∧
      IsLeast {n | ∃ bs, IsSplit RoutedPdu.size 2 containerRoom
        ((received tr).filterMap (route canPduMap)) bs ∧ bs.length = n} 2 := by
  obtain ⟨s, tr, hrun, hcount⟩ : ∃ s tr, (gateway canPduMap).run (GwState.start .zero)
      (List.replicate 23 (blankRound 64 false 0)) = some (s, tr) ∧ (closings tr).length +
        (if s.containerPending = true ∨ s.hasOverflowPdu = true then 1 else 0) = 2 :=
    ⟨_, _, rfl, rfl⟩
  have hleast := packing_optimal canPduMap .zero _ s tr
    (fun i hi => by rw [List.eq_of_mem_replicate hi]; rfl) hrun
  rw [hcount] at hleast
  exact ⟨s, tr, hrun, hleast⟩

end CanTsn
