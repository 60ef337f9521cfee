import CanTsnGateway.Lib.PrefixCode
import CanTsnGateway.Model.CanMessage

/-!
# The container on the wire

    version | count | (pduId high, pduId low, length, data …) …

`encodePdu` is one record, `pduCode` the code of records, `parseContainer` the reader of
a whole container: it starts behind the 2-byte header and reads records to the end.

    parseContainer (v :: c :: pduCode.encodeAll ps) = some ps       (parseContainer_encodeAll)
-/

namespace CanTsn

open PrefixCode

def encodePdu (p : Pdu) : List UInt8 :=
  (p.pduId >>> 8).toUInt8 :: (p.pduId &&& 0xFF).toUInt8 :: p.data.length.toUInt8 :: p.data

/-- A 3-byte header and then as many bytes as it says. -/
def decodePdu : List UInt8 → Option (Pdu × List UInt8)
  | hi :: lo :: len :: rest =>
    if len.toNat ≤ rest.length then
      some (⟨hi.toUInt16 * 256 + lo.toUInt16, rest.take len.toNat, by
        have := len.toNat_lt
        rw [List.length_take]
        omega⟩, rest.drop len.toNat)
    else none
  | _ => none

theorem pduId_of_bytes (id : UInt16) :
    ((id >>> 8).toUInt8.toUInt16 * 256 + (id &&& 0xFF).toUInt8.toUInt16) = id := by
  have hlt := id.toNat_lt
  have hhi : (id >>> 8).toNat = id.toNat / 256 := by
    rw [UInt16.toNat_shiftRight]
    exact Nat.shiftRight_eq_div_pow id.toNat 8
  have hlo : (id &&& 0xFF).toNat = id.toNat % 256 := by
    rw [UInt16.toNat_and]
    exact Nat.and_two_pow_sub_one_eq_mod id.toNat 8
  apply UInt16.toNat_inj.1
  rw [UInt16.toNat_add, UInt16.toNat_mul, UInt8.toNat_toUInt16, UInt8.toNat_toUInt16,
    UInt16.toNat_toUInt8, UInt16.toNat_toUInt8, hhi, hlo]
  have h256 : (256 : UInt16).toNat = 256 := rfl
  rw [h256]
  omega

theorem decodePdu_encodePdu (p : Pdu) (rest : List UInt8) :
    decodePdu (encodePdu p ++ rest) = some (p, rest) := by
  have hlen : p.data.length.toUInt8.toNat = p.data.length := by
    rw [Nat.toUInt8_eq, UInt8.toNat_ofNat']
    exact Nat.mod_eq_of_lt p.length_lt
  simp only [encodePdu, List.cons_append, decodePdu, hlen]
  rw [if_pos (by rw [List.length_append]; omega)]
  have hdata : (p.data ++ rest).take p.data.length = p.data := List.take_left
  have hrest : (p.data ++ rest).drop p.data.length = rest := List.drop_left
  simp only [hrest, Option.some.injEq, Prod.mk.injEq, and_true]
  exact Pdu.ext (pduId_of_bytes p.pduId) hdata

def pduCode : PrefixCode Pdu UInt8 where
  enc := encodePdu
  dec := decodePdu
  dec_enc := decodePdu_encodePdu
  enc_ne_nil := by intro p; simp [encodePdu]

/-- The records from offset 2 to the end; `none` when they do not end there. -/
def parseContainer (bytes : List UInt8) : Option (List Pdu) := pduCode.decodeAll (bytes.drop 2)

theorem length_encodePdu (p : Pdu) : (encodePdu p).length = 3 + p.data.length := by
  simp only [encodePdu, List.length_cons]
  omega

theorem parseContainer_encodeAll (v c : UInt8) (ps : List Pdu) :
    parseContainer (v :: c :: pduCode.encodeAll ps) = some ps := pduCode.decodeAll_encodeAll ps

end CanTsn
