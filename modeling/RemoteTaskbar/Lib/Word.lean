import Mathlib.Algebra.Group.Nat.Defs
import Mathlib.Data.List.Basic
import Mathlib.Data.List.GetD

/-!
# 32-bit words on the wire

A word is stored in memory least significant byte first and sent most
significant byte first.  `byteSwap` is what a little-endian host applies before
a store or after a load to get from one order to the other:

    leBytes (byteSwap w) = beBytes w                     (leBytes_byteSwap)
    byteSwap (leWord b₀ b₁ b₂ b₃) = beWord b₀ b₁ b₂ b₃   (byteSwap_leWord)
-/

namespace Wire

abbrev Byte := BitVec 8

abbrev Word := BitVec 32

/-- The bytes of `w` in memory order of a little-endian host. -/
def leBytes (w : Word) : List Byte :=
  [w.extractLsb' 0 8, w.extractLsb' 8 8, w.extractLsb' 16 8, w.extractLsb' 24 8]

/-- The bytes of `w` in network order. -/
def beBytes (w : Word) : List Byte :=
  [w.extractLsb' 24 8, w.extractLsb' 16 8, w.extractLsb' 8 8, w.extractLsb' 0 8]

def leWord (b0 b1 b2 b3 : Byte) : Word := b3 ++ b2 ++ b1 ++ b0

def beWord (b0 b1 b2 b3 : Byte) : Word := b0 ++ b1 ++ b2 ++ b3

/-- `htonl` and `ntohl` of a little-endian host. -/
def byteSwap (w : Word) : Word :=
  w.extractLsb' 0 8 ++ w.extractLsb' 8 8 ++ w.extractLsb' 16 8 ++ w.extractLsb' 24 8

/-- `((int*)buf)[i]` on a little-endian host. -/
def loadWord (buf : List Byte) (i : Nat) : Word :=
  leWord (buf.getD (4 * i) 0) (buf.getD (4 * i + 1) 0) (buf.getD (4 * i + 2) 0)
    (buf.getD (4 * i + 3) 0)

@[simp] theorem leBytes_length (w : Word) : (leBytes w).length = 4 := rfl

@[simp] theorem beBytes_length (w : Word) : (beBytes w).length = 4 := rfl

theorem beWord_beBytes (w : Word) :
    beWord (w.extractLsb' 24 8) (w.extractLsb' 16 8) (w.extractLsb' 8 8) (w.extractLsb' 0 8) = w := by
  apply BitVec.eq_of_getLsbD_eq
  intro i hi
  simp only [beWord, BitVec.getLsbD_append, BitVec.getLsbD_extractLsb']
  grind

theorem byteSwap_leWord (b0 b1 b2 b3 : Byte) :
    byteSwap (leWord b0 b1 b2 b3) = beWord b0 b1 b2 b3 := by
  apply BitVec.eq_of_getLsbD_eq
  intro i hi
  simp only [byteSwap, leWord, beWord, BitVec.getLsbD_append, BitVec.getLsbD_extractLsb']
  grind

/-- A swapped word lies in memory in network order. -/
theorem leBytes_byteSwap (w : Word) : leBytes (byteSwap w) = beBytes w := by
  simp only [leBytes, beBytes, List.cons.injEq, and_true]
  refine ⟨?_, ?_, ?_, ?_⟩ <;>
  · apply BitVec.eq_of_getLsbD_eq
    intro i hi
    simp only [byteSwap, BitVec.getLsbD_append, BitVec.getLsbD_extractLsb']
    grind

theorem byteSwap_loadWord_beBytes (w : Word) (rest : List Byte) :
    byteSwap (loadWord (beBytes w ++ rest) 0) = w := by
  show byteSwap (leWord _ _ _ _) = w
  rw [byteSwap_leWord]
  exact beWord_beBytes w

theorem byteSwap_loadWord_one (v w : Word) (rest : List Byte) :
    byteSwap (loadWord (beBytes v ++ (beBytes w ++ rest)) 1) = w := by
  show byteSwap (leWord _ _ _ _) = w
  rw [byteSwap_leWord]
  exact beWord_beBytes w

theorem beBytes_beWord (b0 b1 b2 b3 : Byte) : beBytes (beWord b0 b1 b2 b3) = [b0, b1, b2, b3] := by
  simp only [beBytes, List.cons.injEq, and_true]
  refine ⟨?_, ?_, ?_, ?_⟩ <;>
  · apply BitVec.eq_of_getLsbD_eq
    intro i hi
    simp only [beWord, BitVec.getLsbD_append, BitVec.getLsbD_extractLsb']
    grind

/-- The first word of a buffer is the one its bytes begin with. -/
theorem byteSwap_loadWord_eq_iff (buf : List Byte) (h : 4 ≤ buf.length) (w : Word) :
    byteSwap (loadWord buf 0) = w ↔ beBytes w <+: buf := by
  constructor
  · match buf, h with
    | b0 :: b1 :: b2 :: b3 :: rest, _ =>
      rintro rfl
      refine ⟨rest, ?_⟩
      show beBytes (byteSwap (leWord b0 b1 b2 b3)) ++ rest = _
      rw [byteSwap_leWord, beBytes_beWord]
      rfl
  · rintro ⟨rest, rfl⟩
    exact byteSwap_loadWord_beBytes w rest

/-- A word inside the front of a buffer does not depend on the rest. -/
theorem loadWord_append (bs rest : List Byte) (i : Nat) (h : 4 * i + 4 ≤ bs.length) :
    loadWord (bs ++ rest) i = loadWord bs i := by
  unfold loadWord
  rw [List.getD_append _ _ _ _ (by omega), List.getD_append _ _ _ _ (by omega),
    List.getD_append _ _ _ _ (by omega), List.getD_append _ _ _ _ (by omega)]

theorem toNat_ofNat_of_lt (n : Nat) (h : n < 2 ^ 32) : (BitVec.ofNat 32 n).toNat = n := by
  rw [BitVec.toNat_ofNat, Nat.mod_eq_of_lt h]

theorem toInt_ofNat_of_lt (n : Nat) (h : n < 2 ^ 31) : (BitVec.ofNat 32 n).toInt = n := by
  have hn := toNat_ofNat_of_lt n (by omega)
  rw [BitVec.toInt_eq_toNat_of_lt (by omega), hn]

/-! ## Overwriting the front of a buffer -/

/-- `new` stored over the front of `old`, as `recv` and a string copy do. -/
def overlay (new old : List Byte) : List Byte := new ++ old.drop new.length

theorem overlay_length (new old : List Byte) (h : new.length ≤ old.length) :
    (overlay new old).length = old.length := by
  simp [overlay]; omega

/-- The bytes before the first NUL. -/
def cString (buf : List Byte) : List Byte := buf.takeWhile (· != 0)

theorem cString_append_nul (s rest : List Byte) (h : 0 ∉ s) : cString (s ++ 0 :: rest) = s := by
  have hs : ∀ b ∈ s, (b != 0) = true := by
    intro b hb
    simp only [bne_iff_ne, ne_eq]
    rintro rfl
    exact h hb
  rw [cString, List.takeWhile_append_of_pos hs]
  simp

end Wire
