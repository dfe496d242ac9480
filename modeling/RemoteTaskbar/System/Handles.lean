import RemoteTaskbar.Client.TasksActivity
import RemoteTaskbar.System.Dispatch
import RemoteTaskbar.System.Framing

/-!
# A window handle there and back

A pointer of `w` bits, 32 or 64, is narrowed to an `int` in a frame, read into
`Task.hwnd`, written back in a signal and widened again.  Nothing is lost on the
pointers that Windows hands out as handles (`IsHandle`), so the window a task is
opened or closed by is the one it was listed for.
-/

namespace RemoteTaskbar

open Wire Reader

/-! ## Pointers -/

section
variable {w : Nat}

/-- `(int)p`. -/
def castInt (p : BitVec w) : Word := p.setWidth 32

/-- `(HWND)i`, with pointers of `w` bits. -/
def castPointer (w : Nat) (i : Word) : BitVec w := i.signExtend w

/-- The pointer is the sign extension of its low 32 bits. -/
def IsHandle (p : BitVec w) : Prop := p = castPointer w (castInt p)

/-- The handle a pointer stands for. -/
def handleOf (p : BitVec w) : Handle := Handle.ofInt (castInt p)

/-- The pointer of `w` bits for a handle. -/
def Handle.pointer (w : Nat) (h : Handle) : BitVec w := castPointer w h.toInt

@[simp] theorem handleOf_toInt (p : BitVec w) : (handleOf p).toInt = castInt p := Handle.toInt_ofInt _

theorem pointer_ofInt (i : Word) : (Handle.ofInt i).pointer w = castPointer w i := by
  unfold Handle.pointer
  rw [Handle.toInt_ofInt]

/-- A handle is kept as the pointer it is with 64 bits. -/
theorem pointer_eq_bits (h : Handle) : h.pointer 64 = h.bits := h.canonical.symm

theorem IsHandle.castInt_injective {p q : BitVec w} (hp : IsHandle p) (hq : IsHandle q)
    (h : castInt p = castInt q) : p = q := by
  rw [hp, hq, h]

end

/-! ## Frames and signals -/

/-- The windows a frame is about. -/
def Packet.hwnds : Packet → List HWND
  | .activeTaskList tasks => tasks.map (·.hwnd)
  | .sendIcon _ _ => []
  | .addTask hwnd _ _ => [hwnd]
  | .removeTask hwnd => [hwnd]
  | .updateTask hwnd _ => [hwnd]

/-- The tasks a message puts into the task list. -/
def ServerMsg.tasks : ServerMsg → List Task
  | .activeTaskList tasks => tasks
  | .addTask task => [task]
  | _ => []

/-- The windows a message is about. -/
def ServerMsg.hwnds : ServerMsg → List Word
  | .removeTask hwnd => [hwnd]
  | .updateTask hwnd _ => [hwnd]
  | m => m.tasks.map (·.hwnd)

theorem mem_taskList_of_mem_tasks [BitmapFactory] (c : ClientState) {m : ServerMsg} {t : Task} (ht : t ∈ m.tasks) :
    t ∈ (c.apply m).taskList := by
  cases m with
  | activeTaskList tasks =>
    rw [apply_activeTaskList]
    exact ht
  | addTask task =>
    rw [apply_addTask]
    exact List.mem_append_right _ ht
  | sendIcon hicon png => exact absurd ht List.not_mem_nil
  | removeTask hwnd => exact absurd ht List.not_mem_nil
  | updateTask hwnd title => exact absurd ht List.not_mem_nil

theorem msg_hwnds (packet : Packet) : packet.msg.hwnds = packet.hwnds.map Handle.toInt := by
  cases packet with
  | activeTaskList tasks =>
    simp only [Packet.msg, ServerMsg.hwnds, ServerMsg.tasks, Packet.hwnds, List.map_map]
    rfl
  | sendIcon hIcon calls => rfl
  | addTask hwnd hIcon title => rfl
  | removeTask hwnd => rfl
  | updateTask hwnd title => rfl

/-- A frame alone is read as its message. -/
theorem clientThreadRun_bytes (packet : Packet) (h : packet.Fits) :
    clientThreadRun packet.bytes = ⟨packet.msg.acts, [some packet.msg], []⟩ := by
  have hrun := loop_cons consumes_readMessage (reads_packet packet h) []
  rw [List.append_nil] at hrun
  have hempty : clientThreadRun [] = ⟨[], [], []⟩ := rfl
  unfold clientThreadRun at hempty ⊢
  rw [hrun, hempty, List.append_nil]

/-- **Handles.**  The word the client reads for a window, written back in an open or a close,
makes the server open or close that window, and is no other window's. -/
theorem handle_round_trip [BitmapFactory] {w : Nat} (p : BitVec w) (hp : IsHandle p) (packet : Packet)
    (hfits : packet.Fits) (j : Nat) (hj : packet.hwnds[j]? = some (handleOf p)) :
    ∃ bytes m i, packet.frame = some bytes ∧ clientThreadRun bytes = ⟨m.acts, [some m], []⟩ ∧
      m.hwnds[j]? = some i ∧ (∀ c : ClientState, m.tasks ⊆ (c.apply m).taskList) ∧
      (∀ s : Server, ∃ hwnd, hwnd.pointer w = p ∧
        serverRecv (s.recv (.data (Request.windowOpen i).chunk)) = some (.performWindowOpen hwnd)) ∧
      (∀ s : Server, ∃ hwnd, hwnd.pointer w = p ∧
        serverRecv (s.recv (.data (Request.windowClose i).chunk)) = some (.performWindowClose hwnd)) ∧
      ∀ q : BitVec w, IsHandle q → (handleOf q).toInt = i → q = p := by
  have hback : (Handle.ofInt (castInt p)).pointer w = p := by
    rw [pointer_ofInt]
    exact hp.symm
  refine ⟨packet.bytes, packet.msg, castInt p, frame_eq packet hfits, clientThreadRun_bytes packet hfits,
    ?_, fun c t => mem_taskList_of_mem_tasks c, ?_, ?_, ?_⟩
  · rw [msg_hwnds, List.getElem?_map, hj, Option.map_some, handleOf_toInt]
  · exact fun s => ⟨_, hback, serverRecv_chunk s (.windowOpen (castInt p))⟩
  · exact fun s => ⟨_, hback, serverRecv_chunk s (.windowClose (castInt p))⟩
  · intro q hq h
    rw [handleOf_toInt] at h
    exact hq.castInt_injective hp h

/-- A 64-bit handle with the top bit set, listed as the second of two windows. -/
theorem handle_round_trip_negative :
    letI := BitmapFactory.pngOnly
    let p : BitVec 64 := 0xFFFFFFFF80010A12
    let tasks : List TaskRecord :=
      [⟨Handle.ofInt 7, NULL, getWindowTitle default⟩, ⟨handleOf p, NULL, getWindowTitle default⟩]
    ∃ bytes m i, (Packet.activeTaskList tasks).frame = some bytes ∧
      clientThreadRun bytes = ⟨m.acts, [some m], []⟩ ∧ m.hwnds[1]? = some i ∧
      (∀ c : ClientState, m.tasks ⊆ (c.apply m).taskList) ∧
      (∀ s : Server, ∃ hwnd, hwnd.pointer 64 = p ∧
        serverRecv (s.recv (.data (Request.windowOpen i).chunk)) = some (.performWindowOpen hwnd)) ∧
      (∀ s : Server, ∃ hwnd, hwnd.pointer 64 = p ∧
        serverRecv (s.recv (.data (Request.windowClose i).chunk)) = some (.performWindowClose hwnd)) ∧
      ∀ q : BitVec 64, IsHandle q → (handleOf q).toInt = i → q = p := by
  let := BitmapFactory.pngOnly
  intro p tasks
  have hfits : (Packet.activeTaskList tasks).Fits := by
    show 4 + 4 + recordSize * 2 < 2 ^ 31
    decide
  have hp : p = castPointer 64 (castInt p) := by decide
  exact handle_round_trip p hp (.activeTaskList tasks) hfits 1 rfl

end RemoteTaskbar
