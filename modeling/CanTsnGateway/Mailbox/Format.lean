import Mathlib.Tactic.IntervalCases
import CanTsnGateway.Lib.Bits
import CanTsnGateway.Model.Mailbox

/-!
# The format of a message buffer

Data byte `j` of a message buffer is in the word of `j`, at the other end.  A word that is
byte-reversed on the way brings four of them to where they belong.

    after the copies byte j is the message's, or the padding                  (mbData_copyTxData)
    the words and bytes that FlexCAN_GetMsgBuff reads are the data bytes          (readMbData_eq)
-/

namespace CanTsn

open ByteMemory

/-! ## Reversed words -/

theorem getLsbD_revBytes32 (x : UInt32) {i : Nat} (hi : i < 32) :
    (revBytes32 x).toBitVec.getLsbD i = x.toBitVec.getLsbD (24 - i / 8 * 8 + i % 8) := by
  interval_cases i <;> simp [revBytes32]

/-- Byte `k` of the reversed word is byte `3 - k`. -/
theorem byte_revBytes32 (x : UInt32) {k : Nat} (hk : k < 4) :
    (revBytes32 x).toNat / 2 ^ (8 * k) % 2 ^ 8 = x.toNat / 2 ^ (8 * (3 - k)) % 2 ^ 8 := by
  apply Nat.eq_of_testBit_eq
  intro i
  rw [Nat.testBit_mod_two_pow, Nat.testBit_mod_two_pow, Nat.testBit_div_two_pow, Nat.testBit_div_two_pow]
  by_cases hi : i < 8
  · have h := getLsbD_revBytes32 x (i := 8 * k + i) (by omega)
    have hdiv : (8 * k + i) / 8 = k := by omega
    have hmod : (8 * k + i) % 8 = i := by omega
    have hpos : 24 - k * 8 + i = 8 * (3 - k) + i := by omega
    rw [hdiv, hmod, hpos] at h
    rw [decide_eq_true hi, Bool.true_and, Bool.true_and, Nat.add_comm i, Nat.add_comm i]
    exact h
  · rw [decide_eq_false hi, Bool.false_and, Bool.false_and]

theorem bytes_revBytes32 (x : UInt32) : WordBytes.bytes (revBytes32 x) = (WordBytes.bytes x).reverse := by
  have hbyte : ∀ k < 4, UInt8.ofNat ((revBytes32 x).toNat / 2 ^ (8 * k)) = UInt8.ofNat (x.toNat / 2 ^ (8 * (3 - k))) :=
    fun k hk => UInt8.toNat_inj.1 (by rw [UInt8.toNat_ofNat', UInt8.toNat_ofNat', byte_revBytes32 x hk])
  show [UInt8.ofNat _, UInt8.ofNat _, UInt8.ofNat _, UInt8.ofNat _] = [UInt8.ofNat _, UInt8.ofNat _, UInt8.ofNat _,
    UInt8.ofNat _]
  rw [hbyte 0 (by decide), hbyte 1 (by decide), hbyte 2 (by decide), hbyte 3 (by decide)]

/-! ## Data bytes -/

theorem mbByte_eq (mb : UInt32) {j : Nat} (hj : j < 64) :
    mbByte mb (UInt32.ofNat j) = mb + 8 + UInt32.ofNat (bytePos j) := by
  have hall : ∀ j < 64, swapBytesInWordIndex (UInt32.ofNat j) = UInt32.ofNat (bytePos j) := by decide +kernel
  unfold mbByte
  rw [hall j hj]

theorem bytePos_lt {j n : Nat} (hj : j < 4 * n) : bytePos j < 4 * n := by
  unfold bytePos
  omega

theorem bytePos_inj {j k : Nat} (h : bytePos j = bytePos k) : j = k := by
  unfold bytePos at h
  omega

theorem dataAddr_inj (mb : UInt32) {j k : Nat} (hj : j < 64) (hk : k < 64)
    (h : mb + 8 + UInt32.ofNat (bytePos j) = mb + 8 + UInt32.ofNat (bytePos k)) : j = k := by
  have hpos := congrArg UInt32.toNat ((UInt32.add_right_inj _).1 h)
  have hj' := bytePos_lt (n := 16) hj
  have hk' := bytePos_lt (n := 16) hk
  rw [UInt32.toNat_ofNat', UInt32.toNat_ofNat', Nat.mod_eq_of_lt (by omega), Nat.mod_eq_of_lt (by omega)] at hpos
  exact bytePos_inj hpos

/-- How far an offset lies behind another. -/
theorem toNat_sub_of_offsets (x : UInt32) {a b : Nat} (hb : b < 2 ^ 32) :
    (x + UInt32.ofNat a - (x + UInt32.ofNat b)).toNat = (2 ^ 32 - b + a) % 2 ^ 32 := by
  have hx := x.toNat_lt
  rw [UInt32.toNat_sub, UInt32.toNat_add, UInt32.toNat_add, UInt32.toNat_ofNat', UInt32.toNat_ofNat']
  omega

section Copies

variable {m : Memory} {mb : UInt32} {j : Nat}

theorem mbData_update {k : Nat} (hj : j < 64) (hk : k < 64) (b : UInt8) :
    mbData (Function.update m (mbByte mb (UInt32.ofNat k)) b) mb j = if j = k then b else mbData m mb j := by
  unfold mbData
  rw [mbByte_eq mb hk]
  split
  · next h =>
    subst h
    exact Function.update_self _ _ _
  · next h => exact Function.update_of_ne (fun h' => h (dataAddr_inj mb hj hk h')) _ _

/-- A reversed word is four data bytes. -/
theorem mbData_store {k : Nat} {bs : List UInt8} (hj : j < 64) (hk : k < 16) (hbs : bs.length = 4) :
    mbData (WordBytes.store m (mb + 8 + UInt32.ofNat (4 * k)) (revBytes32 (WordBytes.ofBytes bs))) mb j =
      if j / 4 = k then bs.getD (j % 4) 0 else mbData m mb j := by
  have hpos := bytePos_lt (n := 16) hj
  have hoff := toNat_sub_of_offsets (mb + 8) (a := bytePos j) (b := 4 * k) (by omega)
  unfold WordBytes.store mbData write
  rw [bytes_revBytes32, WordBytes.bytes_ofBytes_of_length hbs, hoff]
  split
  · next h =>
    have hin : (2 ^ 32 - 4 * k + bytePos j) % 2 ^ 32 = 3 - j % 4 := by
      unfold bytePos
      omega
    have hmod := Nat.mod_lt j (show 0 < 4 by decide)
    rw [hin, List.getD_eq_getElem?_getD, List.getElem?_reverse (by omega), hbs, List.getD_eq_getElem?_getD]
    have hidx : 4 - 1 - (3 - j % 4) = j % 4 := by omega
    rw [hidx, List.getElem?_eq_getElem (by omega)]
    rfl
  · next h =>
    have hout : bs.reverse.length ≤ (2 ^ 32 - 4 * k + bytePos j) % 2 ^ 32 := by
      rw [List.length_reverse, hbs]
      unfold bytePos at hpos ⊢
      omega
    rw [List.getD_eq_getElem?_getD, List.getElem?_eq_none hout]
    rfl

/-- The loop over whole words. -/
theorem mbData_words {bs : List UInt8} {n : Nat} (hj : j < 64) (hn : n ≤ 16) (hbs : 4 * n ≤ bs.length) :
    mbData ((List.range n).foldl
      (fun m k => WordBytes.store m (mb + 8 + UInt32.ofNat (4 * k)) (revBytes32 (msgWord bs k))) m) mb j =
      if j < 4 * n then bs.getD j 0 else mbData m mb j := by
  induction n with
  | zero => rfl
  | succ n ih =>
    have hword : ((bs.drop (4 * n)).take 4).length = 4 := by
      rw [List.length_take, List.length_drop]
      omega
    rw [List.range_succ, List.foldl_append, List.foldl_cons, List.foldl_nil]
    unfold msgWord
    rw [mbData_store hj (by omega) hword]
    split
    · next h =>
      have hmod := Nat.mod_lt j (show 0 < 4 by decide)
      have hidx : 4 * n + j % 4 = j := by omega
      rw [if_pos (by omega), List.getD_eq_getElem?_getD, List.getElem?_take_of_lt hmod, List.getElem?_drop, hidx,
        List.getD_eq_getElem?_getD]
    · next h =>
      have hrest := ih (by omega) (by omega)
      unfold msgWord at hrest
      rw [hrest]
      by_cases hlt : j < 4 * n
      · rw [if_pos hlt, if_pos (by omega)]
      · rw [if_neg hlt, if_neg (by omega)]

/-- The loops over single bytes. -/
theorem mbData_bytes (f : Nat → UInt8) {lo n : Nat} (hj : j < 64) (hn : lo + n ≤ 64) :
    mbData ((List.range' lo n).foldl (fun m i => Function.update m (mbByte mb (UInt32.ofNat i)) (f i)) m) mb j =
      if lo ≤ j ∧ j < lo + n then f j else mbData m mb j := by
  induction n generalizing lo m with
  | zero => rw [if_neg (by omega)]; rfl
  | succ n ih =>
    rw [List.range'_succ, List.foldl_cons, ih (by omega), mbData_update hj (by omega)]
    by_cases hlo : j = lo
    · subst hlo
      rw [if_neg (by omega), if_pos rfl, if_pos (by omega)]
    · rw [if_neg hlo]
      by_cases hin : lo + 1 ≤ j ∧ j < lo + 1 + n
      · rw [if_pos hin, if_pos (by omega)]
      · rw [if_neg hin, if_neg (by omega)]

/-- **The copy**, byte by byte. -/
theorem mbData_copyTxData {cs : MsbuffCodeStatus} {bs : List UInt8} (hj : j < 64) (hlen : bs.length = cs.dataLen.toNat)
    (hle : cs.dataLen.toNat ≤ 64) :
    mbData (copyTxData m mb cs bs) mb j =
      if j < cs.dataLen.toNat then bs.getD j 0
      else if j < (flexcanComputePayloadSize (flexcanComputeDlcValue cs.dataLen.toUInt8)).toNat then cs.fdPadding
      else mbData m mb j := by
  have hpayload : (flexcanComputePayloadSize (flexcanComputeDlcValue cs.dataLen.toUInt8)).toNat ≤ 64 :=
    flexcanComputePayloadSize_le _
  unfold copyTxData
  simp only
  rw [mbData_bytes (fun _ => cs.fdPadding) hj (by omega), mbData_bytes (fun i => bs.getD i 0) hj (by omega),
    mbData_words hj (by omega) (by omega)]
  generalize (flexcanComputePayloadSize (flexcanComputeDlcValue cs.dataLen.toUInt8)).toNat = payload at *
  generalize cs.dataLen.toNat = n at *
  by_cases hpad : n ≤ j ∧ j < n + (payload - n)
  · rw [if_pos hpad, if_neg (by omega), if_pos (by omega)]
  · rw [if_neg hpad]
    by_cases hlt : j < n
    · rw [if_pos hlt]
      split
      · rfl
      · next h => rw [if_pos (by omega)]
    · rw [if_neg hlt, if_neg (by omega), if_neg (by omega), if_neg (by omega)]

end Copies

/-! ## Reading -/

theorem read_four (m : Memory) (a : UInt32) :
    read m a 4 = [m (a + 0), m (a + 1), m (a + 2), m (a + 3)] := rfl

theorem range_flatMap_four {α : Type} (g : Nat → α) (n : Nat) :
    ((List.range n).flatMap fun k => [g (4 * k), g (4 * k + 1), g (4 * k + 2), g (4 * k + 3)]) =
      (List.range (4 * n)).map g := by
  induction n with
  | zero => rfl
  | succ n ih =>
    rw [List.range_succ, List.flatMap_append, ih, Nat.mul_succ, List.range_add, List.map_append]
    rfl

/-- A word that is read and reversed is four data bytes. -/
theorem bytes_load (m : Memory) (mb : UInt32) (k : Nat) :
    WordBytes.bytes (revBytes32 (WordBytes.load m (mb + 8 + UInt32.ofNat (4 * k)))) =
      [mbData m mb (4 * k), mbData m mb (4 * k + 1), mbData m mb (4 * k + 2), mbData m mb (4 * k + 3)] := by
  have hpos : ∀ i < 4, mbData m mb (4 * k + i) = m (mb + 8 + UInt32.ofNat (4 * k) + UInt32.ofNat (3 - i)) :=
    fun i hi => by
      have hbyte : bytePos (4 * k + i) = 4 * k + (3 - i) := by
        unfold bytePos
        omega
      unfold mbData
      rw [hbyte, UInt32.ofNat_add, ← UInt32.add_assoc]
  rw [bytes_revBytes32]
  unfold WordBytes.load
  rw [WordBytes.bytes_ofBytes_of_length (length_read _ _ _), read_four, ← Nat.add_zero (4 * k), hpos 0 (by decide),
    hpos 1 (by decide), hpos 2 (by decide), hpos 3 (by decide)]
  rfl

/-- **What `FlexCAN_GetMsgBuff` reads** are the data bytes in order. -/
theorem readMbData_eq (m : Memory) (mb : UInt32) {n : Nat} (hn : n ≤ 64) :
    readMbData m mb n = (List.range n).map (mbData m mb) := by
  have hwords : ((List.range (n / 4)).flatMap fun k =>
      WordBytes.bytes (revBytes32 (WordBytes.load m (mb + 8 + UInt32.ofNat (4 * k))))) =
        (List.range (4 * (n / 4))).map (mbData m mb) := by
    rw [← range_flatMap_four]
    exact List.flatMap_congr fun k _ => bytes_load m mb k
  have hrest : List.range (4 * (n / 4)) ++ List.range' (4 * (n / 4)) (n - 4 * (n / 4)) = List.range n := by
    have happend := @List.range'_append_1 0 (4 * (n / 4)) (n - 4 * (n / 4))
    have hsum : 4 * (n / 4) + (n - 4 * (n / 4)) = n := by omega
    rw [Nat.zero_add, hsum] at happend
    rw [List.range_eq_range', List.range_eq_range', happend]
  unfold readMbData
  simp only
  rw [hwords, ← hrest, List.map_append]
  congr 1
  refine List.map_congr_left fun i hi => ?_
  have hlt := (List.mem_range'_1.1 hi).2
  rw [mbByte_eq mb (by omega)]
  rfl

end CanTsn
