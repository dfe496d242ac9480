import RemoteTaskbar.Client.ListItemArrayAdapter
import RemoteTaskbar.System.Dispatch
import RemoteTaskbar.System.RowIcons

/-!
# Rows, close buttons and clicks

`getView` inflates a new row for a position of the list and remembers its task under
the close button of the row; rows are not reused.  A close button may be pressed long
after the list has changed, a row is clicked by its position now.

The task behind a button is an object whose handle never changes, so a button closes
the window its row shows, whatever has become of the list (`requests_name_rows`).
-/

namespace RemoteTaskbar

open Wire Reader Trans ClientThreads

/-! ## What was listed -/

/-- The rows a packet lists, each a window and its icon. -/
def Packet.listed : Packet → List (HWND × HICON)
  | .activeTaskList tasks => tasks.map fun t => (t.hwnd, t.hIcon)
  | .addTask hwnd hIcon _ => [(hwnd, hIcon)]
  | _ => []

/-- A task the client was sent: a window that a frame of the connection listed, with its icon. -/
def Listed (sent : List Packet) (task : Task) : Prop :=
  ∃ hwnd hIcon, (∃ p ∈ sent, (hwnd, hIcon) ∈ p.listed) ∧ hwnd.toInt = task.hwnd ∧ hIcon.toInt = task.hicon

theorem Listed.congr {sent : List Packet} {task task' : Task} (h : Listed sent task)
    (hhwnd : task'.hwnd = task.hwnd) (hhicon : task'.hicon = task.hicon) : Listed sent task' := by
  obtain ⟨hwnd, hIcon, hp, h₁, h₂⟩ := h
  exact ⟨hwnd, hIcon, hp, h₁.trans hhwnd.symm, h₂.trans hhicon.symm⟩

section
open BitmapFactory

variable [BitmapFactory]

/-- The client's threads, and on the UI thread the rows inflated so far, by the number of
their close button. -/
structure TasksScreen where
  threads : ClientThreads
  rows : List Row
  closeBtnMap : AList fun _ : Nat => Nat
  /-- requests written to the socket, oldest first -/
  written : List Request

namespace TasksScreen

/-- The client has connected and asked for the list; the actions of the stream are to be done. -/
def start (log : List ClientAct) : TasksScreen := ⟨reading log, [], ∅, [.activeTaskList]⟩

/-- `ListItemArrayAdapter.getView`; a position past the end throws. -/
def getView (u : TasksScreen) (position : Nat) : Option TasksScreen :=
  match u.threads.taskList[position]? with
  | none => none
  | some task =>
    let t := u.threads.heap task
    let closeTaskBtn := u.rows.length
    -- `iconMap.get` returns null for an entry that is null and for none
    let imageView := if t.hicon ≠ 0 then some (u.threads.iconMap.lookup t.hicon).join else none
    some { u with
      rows := u.rows ++ [⟨t.title, hwndString t.hwnd, imageView⟩]
      closeBtnMap := u.closeBtnMap.insert closeTaskBtn task }

/-- `onClick` of the close buttons. -/
def closeBtnClick (u : TasksScreen) (view : Nat) : TasksScreen :=
  match u.closeBtnMap.lookup view with
  | none => u
  | some task => { u with written := u.written ++ [.windowClose (u.threads.heap task).hwnd] }

/-- `onItemClick` of the grid; a position past the end throws. -/
def onItemClick (u : TasksScreen) (position : Nat) : Option TasksScreen :=
  match u.threads.taskList[position]? with
  | none => none
  | some task => some { u with written := u.written ++ [.windowOpen (u.threads.heap task).hwnd] }

end TasksScreen

inductive ScreenStep where
  | thread (side : Side)
  | getView (position : Nat)
  | closeBtnClick (view : Nat)
  | onItemClick (position : Nat)

def screenStep (u : TasksScreen) : ScreenStep → Option TasksScreen
  | .thread side => (clientStep u.threads side).map ({ u with threads := · })
  | .getView position => u.getView position
  | .closeBtnClick view => some (u.closeBtnClick view)
  | .onItemClick position => u.onItemClick position

/-! ## Task objects -/

namespace ClientThreads

section
variable {t t' : ClientThreads} {side : Side}

end

end ClientThreads

/-! ## The invariant -/

/-- The row of a task: its handle, and the bitmap that the PNG sent for its icon decodes to. -/
structure Shows (sent : List Packet) (task : Task) (row : Row) : Prop where
  secondLine : row.secondLine = hwndString task.hwnd
  imageView : ∃ png, BringsIcon sent task.hicon png ∧
    row.imageView = if task.hicon ≠ 0 then some (decodeByteArray png) else none

theorem Shows.congr {sent : List Packet} {task task' : Task} {row : Row} (h : Shows sent task row)
    (hobject : task'.hwnd = task.hwnd ∧ task'.hicon = task.hicon) : Shows sent task' row := by
  obtain ⟨htext, himage⟩ := h
  rw [← hobject.1] at htext
  rw [← hobject.2] at himage
  exact ⟨htext, himage⟩

/-- What a signal asks for. -/
def Signals (r : Request) (hwnd : Word) : Prop := r = .windowOpen hwnd ∨ r = .windowClose hwnd

structure ScreenInv (sent : List Packet) (u : TasksScreen) : Prop where
  sim : ∃ target, Sim target u.threads
  icons : IconsReady sent u.threads
  listed : ∀ r < u.threads.next, Listed sent (u.threads.heap r)
  todo : ∀ task, .runOnUiThread (.add task) ∈ u.threads.todo → Listed sent task
  buttons : ∀ view task, u.closeBtnMap.lookup view = some task → task < u.threads.next
  rows : ∀ view row, u.rows[view]? = some row →
    ∃ task, u.closeBtnMap.lookup view = some task ∧ Shows sent (u.threads.heap task) row
  written : ∀ r ∈ u.written, r = .activeTaskList ∨ ∃ task, Listed sent task ∧ Signals r task.hwnd

section
variable {sent : List Packet} {u u' : TasksScreen}

/-- One more signal, about a task in use. -/
theorem ScreenInv.signal (h : ScreenInv sent u) {task : Nat} (ht : task < u.threads.next) {r : Request}
    (hr : Signals r (u.threads.heap task).hwnd) :
    ScreenInv sent { u with written := u.written ++ [r] } := by
  refine ⟨h.sim, h.icons, h.listed, h.todo, h.buttons, h.rows, fun r' hr' => ?_⟩
  rcases List.mem_append.mp hr' with hr' | hr'
  · exact h.written r' hr'
  · obtain rfl := List.mem_singleton.mp hr'
    exact Or.inr ⟨_, h.listed task ht, hr⟩

end

end

end RemoteTaskbar
