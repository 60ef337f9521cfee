import CanTsnGateway.Gateway.Refinement

/-!
# The lookup of the routing table

The table stands for a partial map from CAN identifiers to PDU identifiers: the first row
with the identifier counts.  The lookup computes it for every table that its 8-bit counter
can search for the identifier, and the task ignores a message if there is no such row or
the row has the not-found value (`lookup_first_match`).

    the lookup returns ↔ map.length ≤ 255 or one of the first 256 rows has the identifier
                                                                      (lookup_returns_iff)
-/

namespace CanTsn

/-- What the lookup has to answer. -/
structure FirstMatch (map : List CanIdToPduId) (canId : UInt32) (trafficClass : UInt8)
    (r : UInt16 × UInt8) : Prop where
  found : ∀ e, IsFirstRow map canId e → r = (e.pduId, e.trafficClass)
  missing : (∀ e ∈ map, e.canId ≠ canId) → r = (pduIdNone, trafficClass)

/-- The table gives the caller no PDU identifier: it has no row for `canId`, or the first
one has the not-found value. -/
def NoPduId (map : List CanIdToPduId) (canId : UInt32) : Prop :=
  (∀ e ∈ map, e.canId ≠ canId) ∨ ∃ e, IsFirstRow map canId e ∧ e.pduId = pduIdNone

/-- The counter gets to the first row for `canId`, or to the end of the table. -/
def Searchable (map : List CanIdToPduId) (canId : UInt32) : Prop :=
  map.length ≤ 255 ∨ ∃ e ∈ map.take 256, e.canId = canId

variable {map : List CanIdToPduId} {canId : UInt32}

theorem lookup_returns_iff (tc : UInt8) :
    (∃ fuel r, gwGetPduIdLoop map canId tc fuel 0 = some r) ↔ Searchable map canId := by
  have hsome : (∃ fuel r, gwGetPduIdLoop map canId tc fuel 0 = some r) ↔
      gwGetPduIdFromCanFd map canId tc ≠ none := by
    rw [Option.ne_none_iff_exists']
    simp only [gwGetPduIdFromCanFd_eq_some_iff]
    exact exists_comm
  rw [hsome, Ne, gwGetPduIdFromCanFd_eq_none_iff, Searchable]
  constructor
  · intro h
    rcases Nat.lt_or_ge map.length 256 with hlt | hge
    · exact Or.inl (Nat.le_of_lt_succ hlt)
    · refine Or.inr (Classical.byContradiction fun hno => h ⟨hge, fun e he hid => hno ⟨e, he, hid⟩⟩)
  · rintro (hlen | ⟨e, he, hid⟩) ⟨hge, hmiss⟩
    · omega
    · exact hmiss e he hid

/-- A row that the counter reaches is the table's. -/
theorem lookup_of_searchable (tc : UInt8) (h : Searchable map canId) :
    gwGetPduIdFromCanFd map canId tc = some (lookupAnswer tc (routeOf map canId)) := by
  rcases h with hlen | ⟨e, he, hid⟩
  · rw [gwGetPduIdFromCanFd_eq map canId tc hlen]
    cases routeOf map canId <;> rfl
  · cases hr : routeOf (map.take 256) canId with
    | none => exact absurd hid (routeOf_eq_none_iff.1 hr e he)
    | some e' =>
      have hroute : routeOf map canId = some e' := by
        rw [← List.take_append_drop 256 map]
        unfold routeOf at hr ⊢
        rw [List.find?_append, hr, Option.some_or]
      rw [gwGetPduIdFromCanFd_take, hr, hroute]
      rfl

theorem firstMatch_lookupAnswer (tc : UInt8) : FirstMatch map canId tc (lookupAnswer tc (routeOf map canId)) where
  found := by
    intro e he
    rw [routeOf_eq_some_iff.2 he]
    rfl
  missing := by
    intro hno
    rw [routeOf_eq_none_iff.2 hno]
    rfl

theorem lookupAnswer_eq_none_iff (tc : UInt8) :
    (lookupAnswer tc (routeOf map canId)).1 = pduIdNone ↔ NoPduId map canId := by
  unfold NoPduId
  cases hr : routeOf map canId with
  | none => exact iff_of_true rfl (Or.inl (routeOf_eq_none_iff.1 hr))
  | some e =>
    have he := routeOf_eq_some_iff.1 hr
    constructor
    · exact fun hid => Or.inr ⟨e, he, hid⟩
    · rintro (hno | ⟨e', he', hid⟩)
      · rw [routeOf_eq_none_iff.2 hno] at hr
        cases hr
      · obtain rfl := Option.some.inj (hr.symm.trans (routeOf_eq_some_iff.2 he'))
        exact hid

/-! ## The caller -/

theorem route_eq_none_iff (m : FlexcanIpMsgBuff) (h : Searchable map m.msgId) :
    route map m = none ↔ NoPduId map m.msgId := by
  rw [← lookupAnswer_eq_none_iff tcBestEffort]
  unfold route
  rw [lookup_of_searchable tcBestEffort h]
  simp only [ite_eq_left_iff, reduceCtorEq, imp_false, not_not]

/-- A round ignores its message if the table does not route it. -/
theorem ignored_round {s s' : GwState} {i : GwInput} {es : List GwEvent} {m : FlexcanIpMsgBuff}
    (hm : taken s i = some m) (hs : ethPduSendTas map s i = some (s', es)) :
    m ∈ ignored es ↔ route map m = none := by
  have hrecv := ignored_receiveEvents s i
  rcases ethPduSendTas_cases hs with ⟨hm', -⟩ | ⟨m', hm', hr, -, rfl⟩ | ⟨m', r, _, _, hm', hr, rfl, rfl, -, rfl⟩
  · rw [hm] at hm'
    cases hm'
  · obtain rfl := Option.some.inj (hm.symm.trans hm')
    rw [ignored_append, hrecv]
    exact iff_of_true List.mem_cons_self hr
  · obtain rfl := Option.some.inj (hm.symm.trans hm')
    rw [ignored_append, ignored_append, ignored_append, hrecv, ignored_of_local (isLocal_startContainer _ _),
      ignored_of_local (isLocal_addPdu _ _ _), (trace_sendPhase _ i).2, hr]
    exact iff_of_false List.not_mem_nil (Option.some_ne_none r)

/-- **The lookup is a first-match search** of every table that its counter can search for
the identifier: it returns, and its answer is that of the first row.  The task's test of
the answer, and with it the round that ignores the message, tells whether there is a PDU
identifier. -/
theorem lookup_first_match (map : List CanIdToPduId) (canId : UInt32) (tc : UInt8)
    (h : map.length ≤ 255 ∨ ∃ e ∈ map.take 256, e.canId = canId) :
    (∃ r, gwGetPduIdFromCanFd map canId tc = some r ∧ FirstMatch map canId tc r ∧
      (r.1 = pduIdNone ↔ NoPduId map canId)) ∧
    ∀ s i m, taken s i = some m → m.msgId = canId →
      ∃ s' es, ethPduSendTas map s i = some (s', es) ∧ (m ∈ ignored es ↔ NoPduId map canId) := by
  refine ⟨⟨_, lookup_of_searchable tc h, firstMatch_lookupAnswer tc, lookupAnswer_eq_none_iff tc⟩, ?_⟩
  rintro s i m hm rfl
  obtain ⟨s', es, hs⟩ : ∃ s' es, ethPduSendTas map s i = some (s', es) := by
    refine ethPduSendTas_comes_back fun m' hm' => ?_
    obtain rfl := Option.some.inj (hm.symm.trans hm')
    rw [lookup_of_searchable tcBestEffort h]
    exact Option.some_ne_none _
  exact ⟨s', es, hs, (ignored_round hm hs).trans (route_eq_none_iff m h)⟩

/-- 256 rows, identifier 2 in the last one only. -/
def lastRowTable : List CanIdToPduId :=
  List.replicate 255 ⟨0x1, 1001, tcCritical⟩ ++ [⟨0x2, 1002, tcCritical⟩]

theorem lookup_first_match_last :
    gwGetPduIdFromCanFd lastRowTable 0x2 tcBestEffort = some (1002, tcCritical) ∧
    ∃ s es, ethPduSendTas lastRowTable (GwState.start .zero) (.granting (some (.blank 2 0)) false 0) =
      some (s, es) ∧ .blank 2 0 ∉ ignored es := by
  have hlen : lastRowTable.length ≤ 256 := by
    unfold lastRowTable
    rw [List.length_append, List.length_replicate]
    decide
  have hlast : ∃ e ∈ lastRowTable.take 256, e.canId = 0x2 := by
    rw [List.take_of_length_le hlen]
    exact ⟨_, List.mem_append_right _ List.mem_cons_self, rfl⟩
  have hrow : IsFirstRow lastRowTable 0x2 ⟨0x2, 1002, tcCritical⟩ := by
    refine ⟨rfl, _, [], rfl, fun b hb => ?_⟩
    rw [List.eq_of_mem_replicate hb]
    decide
  obtain ⟨⟨r, hr, hfirst, hnone⟩, hround⟩ := lookup_first_match lastRowTable 0x2 tcBestEffort (Or.inr hlast)
  obtain rfl := hfirst.found _ hrow
  obtain ⟨s, es, hs, hign⟩ := hround (GwState.start .zero) (.granting (some (.blank 2 0)) false 0) (.blank 2 0)
    rfl rfl
  exact ⟨hr, s, es, hs, fun hmem => absurd (hnone.2 (hign.1 hmem)) (by decide)⟩

/-- A table of 256 rows without the identifier is searched for ever; and a row with the
not-found value looks like none. -/
theorem lookup_not_every_table :
    (∀ fuel, gwGetPduIdLoop (List.replicate 256 ⟨0x1, 1001, tcCritical⟩) 0x9 tcBestEffort fuel 0 = none) ∧
    gwGetPduIdFromCanFd [⟨0x1, 0xFFFF, tcCritical⟩] 0x1 tcBestEffort = some (pduIdNone, tcCritical) ∧
    ¬ ∀ (map : List CanIdToPduId) (canId : UInt32) (tc : UInt8), ∃ fuel r,
      gwGetPduIdLoop map canId tc fuel 0 = some r ∧ FirstMatch map canId tc r ∧
        (r.1 = pduIdNone ↔ ∀ e ∈ map, e.canId ≠ canId) := by
  have hnever : ∀ fuel, gwGetPduIdLoop (List.replicate 256 ⟨0x1, 1001, tcCritical⟩) 0x9 tcBestEffort fuel 0 =
      none := by
    intro fuel
    rw [Option.eq_none_iff_forall_ne_some]
    intro r hr
    rcases (lookup_returns_iff tcBestEffort).1 ⟨fuel, r, hr⟩ with hlen | ⟨e, he, hid⟩
    · rw [List.length_replicate] at hlen
      exact absurd hlen (by decide)
    · rw [List.eq_of_mem_replicate (List.mem_of_mem_take he)] at hid
      exact absurd hid (by decide)
  refine ⟨hnever, rfl, fun hall => ?_⟩
  obtain ⟨fuel, r, hr, -⟩ := hall (List.replicate 256 ⟨0x1, 1001, tcCritical⟩) 0x9 tcBestEffort
  rw [hnever fuel] at hr
  cases hr

end CanTsn
