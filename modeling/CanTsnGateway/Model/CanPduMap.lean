import CanTsnGateway.Lib.CounterScan
import CanTsnGateway.Model.CanMessage

/-!
# CAN identifier → I-PDU identifier and traffic class

`gwGetPduIdFromCanFd` is the linear search of the routing table with its 8-bit loop
counter.  A table of more than 255 rows makes the loop condition always true, so a
missing identifier is then searched for ever; `none` is that case.

    map.length ≤ 255 → gwGetPduIdFromCanFd map canId tc = some (first match, or 0xFFFF)
                                                              (gwGetPduIdFromCanFd_eq)
    gwGetPduIdFromCanFd map canId tc = none ↔
      256 ≤ map.length and none of the first 256 rows has canId
                                                              (gwGetPduIdFromCanFd_eq_none_iff)
-/

namespace CanTsn

open CounterScan

def tcCritical : UInt8 := 0
def tcBestEffort : UInt8 := 7

/-- `CanIdToPduId_t` -/
structure CanIdToPduId where
  canId : UInt32
  pduId : UInt16
  trafficClass : UInt8
deriving DecidableEq

/-- `CanPduMap` as shipped -/
def canPduMap : List CanIdToPduId :=
  [⟨0x1, 1001, tcCritical⟩, ⟨0x2, 1002, tcCritical⟩, ⟨0x3, 1003, tcCritical⟩,
    ⟨0x4, 1004, tcCritical⟩]

/-- What the lookup answers for an identifier without a row. -/
def pduIdNone : UInt16 := 0xFFFF

/-- The search loop from counter `i`.  The counter is all the state the loop has, so 256
rounds without an answer mean that it never answers. -/
def gwGetPduIdLoop (map : List CanIdToPduId) (canId : UInt32) (trafficClass : UInt8) :
    (fuel : Nat) → (i : UInt8) → Option (UInt16 × UInt8)
  | 0, _ => none
  | fuel + 1, i =>
    match map[i.toNat]? with
    | some e =>
      if e.canId = canId then some (e.pduId, e.trafficClass)
      else gwGetPduIdLoop map canId trafficClass fuel (i + 1)
    | none => some (pduIdNone, trafficClass)

/-- `GW_GetPduId_FromCanFd`: the PDU identifier and what `*trafficClass` holds after the
call (`trafficClass` is what it holds before). -/
def gwGetPduIdFromCanFd (map : List CanIdToPduId) (canId : UInt32) (trafficClass : UInt8) :
    Option (UInt16 × UInt8) :=
  gwGetPduIdLoop map canId trafficClass 256 0

/-- The row that routes `canId`: the first one. -/
def routeOf (map : List CanIdToPduId) (canId : UInt32) : Option CanIdToPduId :=
  map.find? fun e => e.canId = canId

/-- `e` is the first row of the table with identifier `canId`. -/
def IsFirstRow (map : List CanIdToPduId) (canId : UInt32) (e : CanIdToPduId) : Prop :=
  e.canId = canId ∧ ∃ before after, map = before ++ e :: after ∧ ∀ b ∈ before, b.canId ≠ canId

theorem routeOf_eq_some_iff {map : List CanIdToPduId} {canId : UInt32} {e : CanIdToPduId} :
    routeOf map canId = some e ↔ IsFirstRow map canId e := by
  unfold routeOf IsFirstRow
  rw [List.find?_eq_some_iff_append]
  simp only [decide_eq_true_eq, Bool.not_eq_true', decide_eq_false_iff_not, ne_eq]

theorem routeOf_eq_none_iff {map : List CanIdToPduId} {canId : UInt32} :
    routeOf map canId = none ↔ ∀ e ∈ map, e.canId ≠ canId := by
  unfold routeOf
  rw [List.find?_eq_none]
  simp only [decide_eq_true_eq, ne_eq]

/-! ## The search loop -/

/-- The identifier returned and what `*trafficClass` then holds. -/
def lookupAnswer (trafficClass : UInt8) : Option CanIdToPduId → UInt16 × UInt8
  | some e => (e.pduId, e.trafficClass)
  | none => (pduIdNone, trafficClass)

theorem gwGetPduIdLoop_eq (map : List CanIdToPduId) (canId : UInt32) (tc : UInt8) (fuel : Nat) (i : UInt8) :
    gwGetPduIdLoop map canId tc fuel i =
      (scan 256 (fun e => decide (e.canId = canId)) map fuel i.toNat).map (lookupAnswer tc) := by
  induction fuel generalizing i with
  | zero => rfl
  | succ fuel ih =>
    unfold gwGetPduIdLoop scan
    cases map[i.toNat]? with
    | none => rfl
    | some e =>
      simp only [decide_eq_true_eq]
      split
      · rfl
      · rw [ih (i + 1), UInt8.toNat_add]
        rfl

/-- The lookup sees the first 256 rows. -/
theorem gwGetPduIdFromCanFd_take (map : List CanIdToPduId) (canId : UInt32) (tc : UInt8) :
    gwGetPduIdFromCanFd map canId tc =
      (result 256 map (routeOf (map.take 256) canId)).map (lookupAnswer tc) := by
  unfold gwGetPduIdFromCanFd routeOf
  rw [gwGetPduIdLoop_eq, UInt8.toNat_zero, scan_eq]

/-- 256 rounds decide: the loop comes to an answer after these, or never. -/
theorem gwGetPduIdFromCanFd_eq_some_iff {map : List CanIdToPduId} {canId : UInt32} {tc : UInt8}
    {r : UInt16 × UInt8} :
    gwGetPduIdFromCanFd map canId tc = some r ↔ ∃ fuel, gwGetPduIdLoop map canId tc fuel 0 = some r := by
  unfold gwGetPduIdFromCanFd
  simp only [gwGetPduIdLoop_eq, UInt8.toNat_zero, Option.map_eq_some_iff, scan_eq_some_iff (M := 256) (by decide)]
  constructor
  · rintro ⟨hit, ⟨fuel, h⟩, rfl⟩
    exact ⟨fuel, hit, h, rfl⟩
  · rintro ⟨fuel, hit, h, rfl⟩
    exact ⟨hit, ⟨fuel, h⟩, rfl⟩

/-- **The lookup never returns** if the first 256 rows of a larger table do not have the
identifier. -/
theorem gwGetPduIdFromCanFd_eq_none_iff {map : List CanIdToPduId} {canId : UInt32} {tc : UInt8} :
    gwGetPduIdFromCanFd map canId tc = none ↔ 256 ≤ map.length ∧ ∀ e ∈ map.take 256, e.canId ≠ canId := by
  unfold gwGetPduIdFromCanFd
  rw [gwGetPduIdLoop_eq, UInt8.toNat_zero, Option.map_eq_none_iff, scan_eq_none_iff]
  simp only [decide_eq_true_eq, ne_eq]

/-- **The lookup is a first-match search** of any table the counter can walk through. -/
theorem gwGetPduIdFromCanFd_eq (map : List CanIdToPduId) (canId : UInt32) (tc : UInt8)
    (hmap : map.length ≤ 255) :
    gwGetPduIdFromCanFd map canId tc =
      some (match routeOf map canId with
        | some e => (e.pduId, e.trafficClass)
        | none => (pduIdNone, tc)) := by
  rw [gwGetPduIdFromCanFd_take, List.take_of_length_le (Nat.le_succ_of_le hmap)]
  cases routeOf map canId with
  | some e => rfl
  | none =>
    unfold result
    simp only [if_pos (Nat.lt_succ_of_le hmap)]
    rfl

/-- A table the gateway can be given: the counter can walk through it and no row uses the
not-found value. -/
structure RoutingTable where
  rows : List CanIdToPduId
  length_le : rows.length ≤ 255
  pduId_ne : ∀ e ∈ rows, e.pduId ≠ pduIdNone

def shippedTable : RoutingTable := ⟨canPduMap, by decide, by decide⟩

/-- In a routing table the not-found value means that there is no row. -/
theorem RoutingTable.lookup_some (T : RoutingTable) (canId : UInt32) (tc : UInt8) (e : CanIdToPduId)
    (h : routeOf T.rows canId = some e) :
    gwGetPduIdFromCanFd T.rows canId tc = some (e.pduId, e.trafficClass) ∧ e.pduId ≠ pduIdNone := by
  refine ⟨?_, T.pduId_ne e (List.mem_of_find?_eq_some h)⟩
  rw [gwGetPduIdFromCanFd_eq _ _ _ T.length_le, h]

theorem RoutingTable.lookup_none (T : RoutingTable) (canId : UInt32) (tc : UInt8)
    (h : routeOf T.rows canId = none) :
    gwGetPduIdFromCanFd T.rows canId tc = some (pduIdNone, tc) := by
  rw [gwGetPduIdFromCanFd_eq _ _ _ T.length_le, h]

end CanTsn
