import Mathlib.Data.List.AList
import RemoteTaskbar.Lib.FirstMatch
import RemoteTaskbar.Client.ClientThread

/-!
# The client's task list

The operations of `TasksActivity` on `taskList` and `iconMap`, and what a
message means when its actions are carried out one after the other
(`ClientState.apply`).  A handle is looked up by its first match; the activity
checks neither for duplicates nor for unknown handles.

The decoder of images is Android's: everything about the client is for any
`BitmapFactory`.
-/

namespace RemoteTaskbar

open Wire

/-! ## Bitmaps -/

/-- `android.graphics.BitmapFactory`, which is not in the repository. -/
class BitmapFactory where
  Bitmap : Type
  /-- `decodeByteArray(data, 0, data.length)`; `none` is null, for bytes that are no image -/
  decodeByteArray : List Byte → Option Bitmap

/-- A decoder for runs on fixed inputs: what begins like a PNG is an image, nothing else is. -/
@[reducible]
def BitmapFactory.pngOnly : BitmapFactory where
  Bitmap := List Byte
  decodeByteArray data :=
    if [0x89, 0x50, 0x4E, 0x47, 0x0D, 0x0A, 0x1A, 0x0A] <+: data then some data else none

/-! ## The task list -/

def getTaskByHwnd (taskList : List Task) (hwnd : Word) : Option Task :=
  taskList.find? (·.hwnd == hwnd)

/-- A posted runnable. -/
def UiOp.run (taskList : List Task) : UiOp → List Task
  | .clear => []
  | .add task => taskList ++ [task]
  | .remove hwnd => taskList.eraseP (·.hwnd == hwnd)
  | .notifyDataSetChanged => taskList

/-- `Task t = getTaskByHwnd(hwnd); if (t != null) t.title = title;` -/
def setTitle (taskList : List Task) (hwnd : Word) (title : List Byte) : List Task :=
  taskList.updateFirst (·.hwnd == hwnd) fun t => { t with title := title }

/-- The task that `getTaskByHwnd` finds is the one whose title is set. -/
theorem getTaskByHwnd_setTitle (taskList : List Task) (hwnd : Word) (title : List Byte) :
    getTaskByHwnd (setTitle taskList hwnd title) hwnd =
      (getTaskByHwnd taskList hwnd).map fun t => { t with title := title } := by
  unfold getTaskByHwnd setTitle
  refine List.find?_updateFirst ?_ taskList
  intro t
  rfl

theorem foldl_run_add (tasks l : List Task) : (tasks.map .add).foldl UiOp.run l = l ++ tasks := by
  induction tasks generalizing l with
  | nil => rw [List.map_nil, List.foldl_nil, List.append_nil]
  | cons t tasks ih =>
    rw [List.map_cons, List.foldl_cons, ih]
    exact List.append_assoc l [t] tasks

/-! ## The activity -/

open BitmapFactory

variable [BitmapFactory]

structure ClientState where
  taskList : List Task
  /-- a `HashMap<Integer, Bitmap>`, which may hold null -/
  iconMap : AList fun _ : Word => Option BitmapFactory.Bitmap

/-- The activity as `onCreate` leaves it. -/
def ClientState.init : ClientState := ⟨[], ∅⟩

def ClientState.perform (c : ClientState) : ClientAct → ClientState
  | .runOnUiThread op => { c with taskList := op.run c.taskList }
  | .putIcon hicon png => { c with iconMap := c.iconMap.insert hicon (decodeByteArray png) }
  | .setTitle hwnd title => { c with taskList := setTitle c.taskList hwnd title }

/-- A whole message, its actions at once and in order. -/
def ClientState.apply (c : ClientState) (m : ServerMsg) : ClientState := m.acts.foldl perform c

def ClientState.applyAll (c : ClientState) (ms : List ServerMsg) : ClientState := ms.foldl apply c

/-! ## Posted runnables -/

theorem foldl_perform_posts (posted : List UiOp) (c : ClientState) :
    (posted.map .runOnUiThread).foldl ClientState.perform c =
      { c with taskList := posted.foldl UiOp.run c.taskList } := by
  induction posted generalizing c with
  | nil => rfl
  | cons op posted ih => exact ih (c.perform (.runOnUiThread op))

/-! ## Messages on the task list -/

section
variable (c : ClientState)

theorem foldl_perform_addTask (tasks : List Task) :
    ((tasks.map addTask).foldl ClientState.perform c).taskList = c.taskList ++ tasks := by
  have hposts : tasks.map addTask = (tasks.map .add).map .runOnUiThread := by
    rw [List.map_map]
    rfl
  rw [hposts, foldl_perform_posts, foldl_run_add]

@[simp] theorem apply_activeTaskList (tasks : List Task) :
    (c.apply (.activeTaskList tasks)).taskList = tasks := by
  unfold ClientState.apply ServerMsg.acts
  rw [List.foldl_cons, List.foldl_append]
  show ((tasks.map addTask).foldl ClientState.perform _).taskList = tasks
  rw [foldl_perform_addTask]
  rfl

@[simp] theorem apply_sendIcon (hicon : Word) (png : List Byte) :
    (c.apply (.sendIcon hicon png)).taskList = c.taskList := rfl

@[simp] theorem apply_addTask (task : Task) :
    (c.apply (.addTask task)).taskList = c.taskList ++ [task] := rfl

@[simp] theorem apply_removeTask (hwnd : Word) :
    (c.apply (.removeTask hwnd)).taskList = c.taskList.eraseP (·.hwnd == hwnd) := rfl

@[simp] theorem apply_updateTask (hwnd : Word) (title : List Byte) :
    (c.apply (.updateTask hwnd title)).taskList = setTitle c.taskList hwnd title := rfl

theorem applyAll_append (ms ms' : List ServerMsg) :
    c.applyAll (ms ++ ms') = (c.applyAll ms).applyAll ms' := List.foldl_append ..

end

end RemoteTaskbar
