import RemoteTaskbar.Lib.Reader
import RemoteTaskbar.Server.Global

/-!
# The client's network thread

`readMessage` is one turn of the loop of `ClientThread.run`: a reader of the
server's byte stream that acts on the activity while it reads.  A task list is
acted on record by record, every other message once it is read whole.  The
reader returns the message it decoded, which the Java code does not: nothing
depends on it, it only names what was read.

`ServerMsg.acts` are the actions of a whole message.

`titleBuffer` stands for the `String` built from it.

`Request.bytes` is what the other direction writes: a signal code, and the handle
the signal is about.
-/

namespace RemoteTaskbar

open Wire Reader

/-! ## Tasks, actions and messages -/

structure Task where
  hwnd : Word
  hicon : Word
  title : List Byte
deriving DecidableEq

/-- What is posted to the UI thread. -/
inductive UiOp where
  | clear
  | add (task : Task)
  | remove (hwnd : Word)
  | notifyDataSetChanged
deriving DecidableEq

inductive ClientAct where
  | runOnUiThread (op : UiOp)
  | putIcon (hicon : Word) (png : List Byte)
  /-- `getTaskByHwnd` and the assignment to the title of the task it finds -/
  | setTitle (hwnd : Word) (title : List Byte)
deriving DecidableEq

inductive ServerMsg where
  | activeTaskList (tasks : List Task)
  | sendIcon (hicon : Word) (png : List Byte)
  | addTask (task : Task)
  | removeTask (hwnd : Word)
  | updateTask (hwnd : Word) (title : List Byte)
deriving DecidableEq

def clearTaskList : ClientAct := .runOnUiThread .clear

def addTask (task : Task) : ClientAct := .runOnUiThread (.add task)

def removeTaskByHwnd (hwnd : Word) : ClientAct := .runOnUiThread (.remove hwnd)

def updateItems : ClientAct := .runOnUiThread .notifyDataSetChanged

def ServerMsg.acts : ServerMsg → List ClientAct
  | .activeTaskList tasks => clearTaskList :: (tasks.map RemoteTaskbar.addTask ++ [updateItems])
  | .sendIcon hicon png => [.putIcon hicon png]
  | .addTask task => [RemoteTaskbar.addTask task, updateItems]
  | .removeTask hwnd => [removeTaskByHwnd hwnd, updateItems]
  | .updateTask hwnd title => [.setTitle hwnd title, updateItems]

/-! ## Reading -/

abbrev ClientReader (α : Type) : Type := Reader Byte ClientAct α

/-- `DataInputStream.readInt`. -/
def readInt : ClientReader Word
  | b0 :: b1 :: b2 :: b3 :: rest => ([], some (beWord b0 b1 b2 b3, rest))
  | _ => ([], none)

/-- `new byte[length]` and `readFully`; a negative length throws. -/
def readBuffer (length : Word) : ClientReader (List Byte) :=
  if length.toInt < 0 then stop else readFully length.toInt.toNat

/-- One record of a task list. -/
def readTask : ClientReader Task := do
  let hwnd ← readInt
  let hicon ← readInt
  let titleLength ← readInt
  let titleBuffer ← readBuffer titleLength
  emit (addTask ⟨hwnd, hicon, titleBuffer⟩)
  pure ⟨hwnd, hicon, titleBuffer⟩

/-! The cases of the `switch`. -/

def readActiveTaskList : ClientReader (Option ServerMsg) := do
  emit clearTaskList
  let numTasks ← readInt
  let tasks ← readMany readTask numTasks.toInt.toNat
  emit updateItems
  pure (some (.activeTaskList tasks))

def readSendIcon : ClientReader (Option ServerMsg) := do
  let hicon ← readInt
  let pngSize ← readInt
  let pngBuffer ← readBuffer pngSize
  emit (.putIcon hicon pngBuffer)
  pure (some (.sendIcon hicon pngBuffer))

def readAddTask : ClientReader (Option ServerMsg) := do
  let task ← readTask
  emit updateItems
  pure (some (.addTask task))

def readRemoveTask : ClientReader (Option ServerMsg) := do
  let hwnd ← readInt
  emit (removeTaskByHwnd hwnd)
  emit updateItems
  pure (some (.removeTask hwnd))

def readUpdateTask : ClientReader (Option ServerMsg) := do
  let hwnd ← readInt
  let titleLength ← readInt
  let titleBuffer ← readBuffer titleLength
  emit (.setTitle hwnd titleBuffer)
  emit updateItems
  pure (some (.updateTask hwnd titleBuffer))

def readCase (serverResponseType : Word) : ClientReader (Option ServerMsg) :=
  if serverResponseType = SERVER_RESPONSE_ACTIVE_TASK_LIST then readActiveTaskList
  else if serverResponseType = SERVER_RESPONSE_SEND_ICON then readSendIcon
  else if serverResponseType = SERVER_RESPONSE_ADD_TASK then readAddTask
  else if serverResponseType = SERVER_RESPONSE_REMOVE_TASK then readRemoveTask
  else if serverResponseType = SERVER_RESPONSE_UPDATE_TASK then readUpdateTask
  else pure none

/-- One turn of the loop of `ClientThread.run`. -/
def readMessage : ClientReader (Option ServerMsg) := do
  let serverResponseType ← readInt
  readCase serverResponseType

/-- The loop of `ClientThread.run` on the bytes received; it ends where a read
throws. -/
def clientThreadRun (stream : List Byte) : Run Byte ClientAct (Option ServerMsg) :=
  loop readMessage stream

/-! Which case a response type is. -/

theorem readCase_activeTaskList : readCase SERVER_RESPONSE_ACTIVE_TASK_LIST = readActiveTaskList := rfl

theorem readCase_sendIcon : readCase SERVER_RESPONSE_SEND_ICON = readSendIcon := rfl

theorem readCase_addTask : readCase SERVER_RESPONSE_ADD_TASK = readAddTask := rfl

theorem readCase_removeTask : readCase SERVER_RESPONSE_REMOVE_TASK = readRemoveTask := rfl

theorem readCase_updateTask : readCase SERVER_RESPONSE_UPDATE_TASK = readUpdateTask := rfl

/-! ## Progress -/

theorem readInt_eq_some {s rest : List Byte} {log : List ClientAct} {w : Word}
    (h : readInt s = (log, some (w, rest))) : s.length = rest.length + 4 := by
  match s with
  | b0 :: b1 :: b2 :: b3 :: tail =>
    cases h
    rfl
  | [] | [_] | [_, _] | [_, _, _] => cases h

theorem consumes_readInt : Consumes readInt := by
  intro s log w rest h
  have := readInt_eq_some h
  omega

theorem shrinks_readBuffer (length : Word) : Shrinks (readBuffer length) := by
  unfold readBuffer
  split
  · exact shrinks_stop
  · exact shrinks_readFully _

theorem shrinks_readTask : Shrinks readTask :=
  shrinks_bind consumes_readInt.shrinks fun _ => shrinks_bind consumes_readInt.shrinks fun _ =>
    shrinks_bind consumes_readInt.shrinks fun _ => shrinks_bind (shrinks_readBuffer _) fun _ =>
      shrinks_bind (shrinks_emit _) fun _ => shrinks_pure _

theorem shrinks_readCase (serverResponseType : Word) : Shrinks (readCase serverResponseType) := by
  unfold readCase
  split
  · exact shrinks_bind (shrinks_emit _) fun _ => shrinks_bind consumes_readInt.shrinks fun _ =>
      shrinks_bind (shrinks_readMany shrinks_readTask _) fun _ => shrinks_bind (shrinks_emit _) fun _ =>
        shrinks_pure _
  split
  · exact shrinks_bind consumes_readInt.shrinks fun _ => shrinks_bind consumes_readInt.shrinks fun _ =>
      shrinks_bind (shrinks_readBuffer _) fun _ => shrinks_bind (shrinks_emit _) fun _ => shrinks_pure _
  split
  · exact shrinks_bind shrinks_readTask fun _ => shrinks_bind (shrinks_emit _) fun _ => shrinks_pure _
  split
  · exact shrinks_bind consumes_readInt.shrinks fun _ => shrinks_bind (shrinks_emit _) fun _ =>
      shrinks_bind (shrinks_emit _) fun _ => shrinks_pure _
  split
  · exact shrinks_bind consumes_readInt.shrinks fun _ => shrinks_bind consumes_readInt.shrinks fun _ =>
      shrinks_bind (shrinks_readBuffer _) fun _ => shrinks_bind (shrinks_emit _) fun _ =>
        shrinks_bind (shrinks_emit _) fun _ => shrinks_pure _
  · exact shrinks_pure _

/-- Every turn of the loop takes at least the response type off the stream. -/
theorem consumes_readMessage : Consumes readMessage := consumes_bind consumes_readInt shrinks_readCase

/-! ## Reading what was written -/

theorem reads_readInt (w : Word) : Reads readInt (beBytes w) [] w := by
  intro rest
  show ([], some (beWord _ _ _ _, rest)) = _
  rw [beWord_beBytes]

/-- A length below 2^31 and that many bytes. -/
theorem reads_readBuffer (xs : List Byte) (h : xs.length < 2 ^ 31) :
    Reads (readBuffer (BitVec.ofNat 32 xs.length)) xs [] xs := by
  unfold readBuffer
  rw [toInt_ofNat_of_lt _ h, if_neg (by omega), Int.toNat_natCast]
  exact reads_readFully xs

/-! ## Requests to the server -/

/-- What the user asks of the server. -/
inductive Request where
  | activeTaskList
  | windowOpen (hwnd : Word)
  | windowClose (hwnd : Word)
deriving DecidableEq

def requestActiveTaskList : List Byte := beBytes CLIENT_REQUEST_ACTIVE_TASK_LIST

def signalWindowOpen (hwnd : Word) : List Byte := beBytes CLIENT_SIGNAL_WINDOW_OPEN ++ beBytes hwnd

def signalWindowClose (hwnd : Word) : List Byte := beBytes CLIENT_SIGNAL_WINDOW_CLOSE ++ beBytes hwnd

namespace Request

def bytes : Request → List Byte
  | activeTaskList => requestActiveTaskList
  | windowOpen hwnd => signalWindowOpen hwnd
  | windowClose hwnd => signalWindowClose hwnd

theorem bytes_ne_nil (r : Request) : r.bytes ≠ [] := by
  cases r <;> exact List.cons_ne_nil _ _

theorem bytes_length_le (r : Request) : r.bytes.length ≤ 8 := by
  cases r with
  | activeTaskList => decide
  | windowOpen hwnd => exact Nat.le_refl 8
  | windowClose hwnd => exact Nat.le_refl 8

end Request

end RemoteTaskbar
