import RemoteTaskbar.Lib.Word

/-!
# Handles and signal codes

A window or icon handle is a pointer-sized value of which Windows promises that
it is the sign extension of its low 32 bits; `Handle` carries the promise.  The
server narrows a handle with `(int)h` before it sends it and widens the `int` it
receives with `(HWND)i`.  On handles neither cast loses anything:

    ofInt h.toInt = h        (Handle.ofInt_toInt)
    (ofInt i).toInt = i      (Handle.toInt_ofInt)
-/

namespace RemoteTaskbar

open Wire

/-! ## Handles -/

structure Handle where
  bits : BitVec 64
  canonical : bits = (bits.setWidth 32).signExtend 64
deriving DecidableEq

theorem setWidth_signExtend (i : Word) : (i.signExtend 64).setWidth 32 = i := by
  apply BitVec.eq_of_getLsbD_eq
  intro k hk
  simp only [BitVec.getLsbD_setWidth, BitVec.getLsbD_signExtend]
  grind

/-- `(int)h`. -/
def Handle.toInt (h : Handle) : Word := h.bits.setWidth 32

/-- `(HWND)i`. -/
def Handle.ofInt (i : Word) : Handle :=
  ⟨i.signExtend 64, by rw [setWidth_signExtend]⟩

@[simp] theorem Handle.toInt_ofInt (i : Word) : (Handle.ofInt i).toInt = i := setWidth_signExtend i

@[simp] theorem Handle.ofInt_toInt (h : Handle) : Handle.ofInt h.toInt = h := by
  obtain ⟨bits, hc⟩ := h
  simp only [Handle.ofInt, Handle.toInt, Handle.mk.injEq]
  exact hc.symm

theorem Handle.toInt_injective : Function.Injective Handle.toInt :=
  Function.LeftInverse.injective Handle.ofInt_toInt

@[simp] theorem Handle.toInt_inj {h k : Handle} : h.toInt = k.toInt ↔ h = k :=
  Handle.toInt_injective.eq_iff

abbrev HWND := Handle

abbrev HICON := Handle

def NULL : Handle := Handle.ofInt 0

instance : Inhabited Handle := ⟨NULL⟩

/-! ## Signals from the client to the server -/

def CLIENT_REQUEST_ACTIVE_TASK_LIST : Word := 1001
def CLIENT_SIGNAL_WINDOW_OPEN : Word := 1002
def CLIENT_SIGNAL_WINDOW_CLOSE : Word := 1003

/-! ## Signals from the server to the client -/

def SERVER_RESPONSE_ACTIVE_TASK_LIST : Word := 2001
def SERVER_RESPONSE_SEND_ICON : Word := 2002
def SERVER_RESPONSE_ADD_TASK : Word := 2003
def SERVER_RESPONSE_REMOVE_TASK : Word := 2004
def SERVER_RESPONSE_UPDATE_TASK : Word := 2005

end RemoteTaskbar
