import Mathlib.Data.Nat.Bitwise
import CanTsnGateway.Model.TasGate

/-!
# The gate schedule in the MAC

`gmacTxTimeAwareShaperInit` writes a configured gate list into the MAC, each entry packed
into a word: the gates in the upper 8 bits, the interval in the lower 24.  `hwGateOpen`
is what the MAC does with it: from the base time on it repeats the list every cycle, and
a queue is open while the active entry has its bit set.

    interval < 2^24 → the word of an entry gives its interval and its gates back
                                                  (toNat_gateWord, gateWord_shiftRight)
-/

namespace CanTsn

open TimeSlots

/-- `Gmac_Ip_TxGateControl` -/
structure GmacTxGateControl where
  timeInterval : UInt32
  gateControl : UInt8
deriving DecidableEq

/-- `Gmac_Ip_TxTimeAwareShaper`; the depth is the number of entries of the list. -/
structure GmacTxTimeAwareShaper where
  baseTimeSecond : UInt32
  baseTimeNanoSecond : UInt32
  cycleTimeSecond : UInt32
  cycleTimeNanoSecond : UInt32
  gateControlDepth : UInt16
  gateControlList : List GmacTxGateControl
  depth_eq : gateControlDepth.toNat = gateControlList.length

/-- `GMAC_0_GateControlListPB` as shipped -/
def gmac0GateControlListPB : List GmacTxGateControl :=
  [⟨1000000, 1⟩, ⟨4000000, 2⟩, ⟨4000000, 4⟩, ⟨1000000, 0⟩]

/-- `GMAC_0_pTxTimeShaperPB` as shipped -/
def gmac0TxTimeShaperPB : GmacTxTimeAwareShaper :=
  ⟨0, 0, 0, 10000000, 4, gmac0GateControlListPB, by decide⟩

/-- The schedule registers of the MAC. -/
structure EstRegisters where
  /-- the gate control list memory, up to the list length -/
  words : List UInt32
  btrSecond : UInt32
  btrNanoSecond : UInt32
  ctrSecond : UInt32
  ctrNanoSecond : UInt32

/-- `WriteData` for one entry -/
def gateWord (e : GmacTxGateControl) : UInt32 := (e.gateControl.toUInt32 <<< 24) ||| e.timeInterval

/-- `Gmac_Ip_TxTimeAwareShaperInit`, every register write accepted -/
def gmacTxTimeAwareShaperInit (c : GmacTxTimeAwareShaper) : EstRegisters where
  words := (List.range c.gateControlDepth.toNat).map fun n => gateWord (c.gateControlList.getD n ⟨0, 0⟩)
  btrSecond := c.baseTimeSecond
  btrNanoSecond := c.baseTimeNanoSecond
  ctrSecond := c.cycleTimeSecond
  ctrNanoSecond := c.cycleTimeNanoSecond

/-! ## What the MAC does with the registers -/

def timeNs (second nanoSecond : UInt32) : Nat := second.toNat * 1000000000 + nanoSecond.toNat

/-- The instants the entries take, from the lower 24 bits of the words. -/
def wordIntervals (ws : List UInt32) : List Nat := ws.map fun w => w.toNat % 2 ^ 24

/-- The gate of `queue` at absolute time `t` (in nanoseconds, from the base time on). -/
def hwGateOpen (r : EstRegisters) (queue : UInt32) (t : Nat) : Bool :=
  match slotAt (wordIntervals r.words)
      ((t - timeNs r.btrSecond r.btrNanoSecond) % timeNs r.ctrSecond r.ctrNanoSecond) with
  | some i => (((r.words.getD i 0 >>> 24) >>> queue) &&& 0x1) != 0
  | none => false

/-! ## Reading the words back -/

theorem toNat_gateWord (e : GmacTxGateControl) (h : e.timeInterval.toNat < 2 ^ 24) :
    (gateWord e).toNat = e.gateControl.toNat * 2 ^ 24 + e.timeInterval.toNat := by
  have hg := e.gateControl.toNat_lt
  have hshift : (e.gateControl.toUInt32 <<< 24).toNat = e.gateControl.toNat <<< 24 := by
    rw [UInt32.toNat_shiftLeft, UInt8.toNat_toUInt32]
    have h24 : UInt32.toNat 24 % 32 = 24 := rfl
    rw [h24, Nat.shiftLeft_eq]
    exact Nat.mod_eq_of_lt (by omega)
  unfold gateWord
  rw [UInt32.toNat_or, hshift, ← Nat.shiftLeft_add_eq_or_of_lt h, Nat.shiftLeft_eq]

theorem gateWord_shiftRight (e : GmacTxGateControl) (h : e.timeInterval.toNat < 2 ^ 24) :
    gateWord e >>> 24 = e.gateControl.toUInt32 := by
  apply UInt32.toNat_inj.1
  have h24 : UInt32.toNat 24 % 32 = 24 := rfl
  rw [UInt32.toNat_shiftRight, h24, toNat_gateWord e h, Nat.shiftRight_eq_div_pow, UInt8.toNat_toUInt32]
  omega

theorem words_eq (c : GmacTxTimeAwareShaper) :
    (gmacTxTimeAwareShaperInit c).words = c.gateControlList.map gateWord := by
  unfold gmacTxTimeAwareShaperInit
  apply List.ext_getElem
  · simp [c.depth_eq]
  · intro k hk hk'
    rw [List.length_map] at hk'
    simp [List.getD_eq_getElem?_getD, hk']

theorem wordIntervals_eq (c : GmacTxTimeAwareShaper)
    (h : ∀ e ∈ c.gateControlList, e.timeInterval.toNat < 2 ^ 24) :
    wordIntervals (gmacTxTimeAwareShaperInit c).words =
      c.gateControlList.map fun e => e.timeInterval.toNat := by
  rw [words_eq, wordIntervals, List.map_map]
  apply List.map_congr_left
  intro e he
  show (gateWord e).toNat % 2 ^ 24 = e.timeInterval.toNat
  have hlt := h e he
  rw [toNat_gateWord e hlt]
  omega

end CanTsn
