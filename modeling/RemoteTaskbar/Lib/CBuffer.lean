import RemoteTaskbar.Lib.Word

/-!
# A C buffer filled through a cursor

`cells` are the bytes of an array (`none`: not written yet) and `ptr` is the
cursor, as an offset from its start.  Every store checks its range: a store
that leaves the array is `none`, where C would write past the end.  `sent n`
reads back the first `n` bytes and is `none` if one of them is outside the
array or was never written.

`filled bs old` is the state of a buffer whose first bytes `bs` are written
with the cursor right behind them; the stores move it to the next such state.
-/

namespace Wire

structure CBuffer where
  cells : List (Option Byte)
  ptr : Nat
deriving DecidableEq

namespace CBuffer

/-- `char buffer[n]`. -/
def alloc (n : Nat) : CBuffer := ⟨List.replicate n none, 0⟩

/-- `new char[n]` with an `int` size: a negative one is refused. -/
def new (n : Word) : Option CBuffer :=
  if n.toInt < 0 then none else some (alloc n.toInt.toNat)

/-- Store `bs` at offset `off`; the cursor stays. -/
def storeAt (b : CBuffer) (off : Nat) (bs : List Byte) : Option CBuffer :=
  if off + bs.length ≤ b.cells.length then
    some { b with cells := b.cells.take off ++ bs.map some ++ b.cells.drop (off + bs.length) }
  else none

def advance (b : CBuffer) (n : Nat) : CBuffer := { b with ptr := b.ptr + n }

/-- `*((int*)ptr) = w; ptr += sizeof(int)`. -/
def putInt (b : CBuffer) (w : Word) : Option CBuffer :=
  (b.storeAt b.ptr (leBytes w)).map (·.advance 4)

/-- `strcpy(ptr, src)`; the cursor stays. -/
def strcpy (b : CBuffer) (src : List Byte) : Option CBuffer :=
  b.storeAt b.ptr (cString src ++ [0])

/-- All cells, if every one is written. -/
def readCells : List (Option Byte) → Option (List Byte)
  | [] => some []
  | none :: _ => none
  | some b :: cs => (readCells cs).map (b :: ·)

/-- The first `n` bytes, as a `send` of length `n` reads them. -/
def sent (b : CBuffer) (n : Nat) : Option (List Byte) :=
  if n ≤ b.cells.length then readCells (b.cells.take n) else none

/-- `bs` written, the cursor behind it, `old` beyond. -/
def filled (bs : List Byte) (old : List (Option Byte)) : CBuffer := ⟨bs.map some ++ old, bs.length⟩

theorem alloc_eq_filled (n : Nat) : alloc n = filled [] (List.replicate n none) := rfl

@[simp] theorem filled_ptr (bs : List Byte) (old : List (Option Byte)) :
    (filled bs old).ptr = bs.length := rfl

theorem storeAt_filled (bs new : List Byte) (old : List (Option Byte)) (h : new.length ≤ old.length) :
    (filled bs old).storeAt bs.length new =
      some ⟨bs.map some ++ (new.map some ++ old.drop new.length), bs.length⟩ := by
  unfold storeAt filled
  rw [if_pos (by simp; omega)]
  have ht : (bs.map some ++ old).take bs.length = bs.map some := by
    rw [List.take_append_of_le_length (by simp), List.take_of_length_le (by simp)]
  have hd : (bs.map some ++ old).drop (bs.length + new.length) = old.drop new.length := by
    rw [List.drop_append, List.drop_of_length_le (by simp)]
    simp
  simp only [ht, hd, List.append_assoc]

/-- A store ahead of the cursor into a fresh buffer. -/
theorem storeAt_alloc (n off : Nat) (bs : List Byte) (h : off + bs.length ≤ n) :
    (alloc n).storeAt off bs =
      some (filled [] (List.replicate off none ++
        (bs.map some ++ List.replicate (n - (off + bs.length)) none))) := by
  unfold storeAt alloc filled
  rw [if_pos (by simpa using h)]
  simp only [List.take_replicate, List.drop_replicate, List.map_nil, List.nil_append,
    List.length_nil, List.append_assoc, Nat.min_eq_left (Nat.le_trans (Nat.le_add_right _ _) h)]

/-- A store with too little room behind the cursor leaves the array. -/
theorem storeAt_filled_of_lt (bs new : List Byte) (old : List (Option Byte)) (h : old.length < new.length) :
    (filled bs old).storeAt bs.length new = none := by
  unfold storeAt filled
  rw [if_neg (by simp; omega)]

theorem putInt_filled_of_lt (bs : List Byte) (w : Word) (old : List (Option Byte)) (h : old.length < 4) :
    (filled bs old).putInt w = none := by
  unfold putInt
  rw [filled_ptr, storeAt_filled_of_lt bs _ old (by simpa using h)]
  rfl

theorem strcpy_filled_of_lt (bs src : List Byte) (old : List (Option Byte))
    (h : old.length < (cString src).length + 1) : (filled bs old).strcpy src = none := by
  unfold strcpy
  rw [filled_ptr]
  exact storeAt_filled_of_lt bs _ old (by simpa using h)

theorem putInt_filled (bs : List Byte) (w : Word) (old : List (Option Byte)) (h : 4 ≤ old.length) :
    (filled bs old).putInt w = some (filled (bs ++ leBytes w) (old.drop 4)) := by
  unfold putInt
  rw [filled_ptr, storeAt_filled bs _ old (by simpa using h)]
  simp [advance, filled]

/-- A string copy followed by the cursor moving past the copied NUL. -/
theorem strcpy_filled (bs src : List Byte) (old : List (Option Byte))
    (h : (cString src).length + 1 ≤ old.length) :
    ((filled bs old).strcpy src).map (·.advance ((cString src).length + 1)) =
      some (filled (bs ++ (cString src ++ [0])) (old.drop ((cString src).length + 1))) := by
  unfold strcpy
  rw [filled_ptr, storeAt_filled bs _ old (by simpa using h)]
  simp [advance, filled]

theorem readCells_map_some (bs : List Byte) : readCells (bs.map some) = some bs := by
  induction bs with
  | nil => rfl
  | cons b bs ih => simp [readCells, ih]

theorem sent_filled (bs : List Byte) (old : List (Option Byte)) :
    (filled bs old).sent bs.length = some bs := by
  unfold sent filled
  rw [if_pos (by simp), List.take_append_of_le_length (by simp), List.take_of_length_le (by simp)]
  exact readCells_map_some bs

theorem length_of_readCells {cells : List (Option Byte)} {bs : List Byte} (h : readCells cells = some bs) :
    bs.length = cells.length := by
  induction cells generalizing bs with
  | nil =>
    obtain rfl : [] = bs := Option.some.inj h
    rfl
  | cons c cells ih =>
    cases c with
    | none => exact absurd h (by simp [readCells])
    | some b =>
      obtain ⟨bs', hbs', rfl⟩ := Option.map_eq_some_iff.mp h
      rw [List.length_cons, List.length_cons, ih hbs']

/-- A send reads as many bytes as it was told to, all of them in the array. -/
theorem length_of_sent {b : CBuffer} {n : Nat} {bs : List Byte} (h : b.sent n = some bs) :
    bs.length = n ∧ n ≤ b.cells.length := by
  unfold sent at h
  split at h
  · next hn =>
    refine ⟨?_, hn⟩
    rw [length_of_readCells h, List.length_take, Nat.min_eq_left hn]
  · exact absurd h (by simp)

/-- What lies beyond the cursor may be counted to what is written. -/
theorem sent_filled_assoc (bs more : List Byte) (old : List (Option Byte)) (n : Nat) :
    (filled bs (more.map some ++ old)).sent n = (filled (bs ++ more) old).sent n := by
  have hcells : (filled bs (more.map some ++ old)).cells = (filled (bs ++ more) old).cells := by
    simp only [filled, List.map_append, List.append_assoc]
  unfold sent
  rw [hcells]

theorem readCells_unwritten (bs : List Byte) (more : List (Option Byte)) :
    readCells (bs.map some ++ none :: more) = none := by
  induction bs with
  | nil => rfl
  | cons b bs ih => simp [readCells, ih]

/-! ### Nothing written but a prefix -/

/-- An array of `size` bytes with `bs` written, the cursor behind it and no byte of the
rest written. -/
def written (size : Nat) (bs : List Byte) : CBuffer :=
  filled bs (List.replicate (size - bs.length) none)

/-- What the stores leave of a fresh array. -/
theorem filled_drop (size : Nat) (bs : List Byte) :
    filled bs ((List.replicate size none).drop bs.length) = written size bs := by
  unfold written
  rw [List.drop_replicate]

theorem written_cells_length {size : Nat} {bs : List Byte} (h : bs.length ≤ size) :
    (written size bs).cells.length = size := by
  simp only [written, filled, List.length_append, List.length_map, List.length_replicate]
  omega

theorem sent_written (size : Nat) (bs : List Byte) : (written size bs).sent bs.length = some bs :=
  sent_filled bs _

/-- Nothing longer than what is written can be sent. -/
theorem sent_written_of_lt (size : Nat) (bs : List Byte) {n : Nat} (h : bs.length < n) :
    (written size bs).sent n = none := by
  unfold sent
  split
  · next hn =>
    obtain ⟨k, hk⟩ : ∃ k, n = bs.length + (k + 1) := ⟨n - bs.length - 1, by omega⟩
    have hle : k + 1 ≤ size - bs.length := by
      simp only [written, filled, List.length_append, List.length_map, List.length_replicate] at hn
      omega
    have htake : (written size bs).cells.take n = bs.map some ++ none :: List.replicate k none := by
      rw [hk, written, filled, List.take_append, List.take_of_length_le (by simp), List.length_map,
        Nat.add_sub_cancel_left, List.take_replicate, Nat.min_eq_left hle, List.replicate_succ]
    rw [htake]
    exact readCells_unwritten bs _
  · rfl

end CBuffer

end Wire
