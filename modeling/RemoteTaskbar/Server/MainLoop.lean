import RemoteTaskbar.Server.WindowManager

/-!
# From accessibility events to handlers

`hookEventProc` turns an accessibility event into at most one message for the
server's window; `mainLoopStep` is what the message loop of `WinMain` does with
it.  `deliver` is both, for one event.

A message carries a window and one of three codes: neither `idObject` nor
`idChild` of the event is in it.
-/

namespace RemoteTaskbar

open Wire

/-! ## The hook -/

def EVENT_OBJECT_DESTROY : Word := 0x8001
def EVENT_OBJECT_SHOW : Word := 0x8002
def EVENT_OBJECT_HIDE : Word := 0x8003
def EVENT_OBJECT_NAMECHANGE : Word := 0x800C

def OBJID_WINDOW : Word := 0
def CHILDID_SELF : Word := 0

/-- The arguments of `hookEventProc` that an event brings. -/
structure WinEvent where
  event : Word
  hwnd : HWND
  idObject : Word
  idChild : Word
deriving DecidableEq

/-- `CBTHOOK_WINDOWS_CREATE`, `_DESTROY` and `_RENAME`. -/
inductive CbtHook where
  | windowsCreate
  | windowsDestroy
  | windowsRename
deriving DecidableEq

/-- A posted `WM_CBTHOOK` message. -/
structure HookMsg where
  wParam : HWND
  lParam : CbtHook
deriving DecidableEq

namespace HookDLL

/-- `IsAltTabWindow` of the hook, which unlike `WindowManager::isAltTabWindow`
asks for a title. -/
def isAltTabWindow (env : Env) (hWnd : HWND) (visibilityCheck : Bool) : Bool :=
  if hWnd = NULL then false
  else if !visibilityCheck || (visibilityCheck && env.isWindowVisible hWnd) then
    if env.getParent hWnd = NULL ∧ env.getOwner hWnd = NULL then
      let titleLength := (getWindowText (env.windowText hWnd) 3).bytes.length
      if 0 < titleLength then
        if env.exStyle hWnd &&& WS_EX_TOOLWINDOW = 0 then true else false
      else false
    else false
  else false

def hookEventProc (env : Env) (e : WinEvent) : Option HookMsg :=
  if e.event = EVENT_OBJECT_DESTROY ∨ e.event = EVENT_OBJECT_HIDE then
    some ⟨e.hwnd, .windowsDestroy⟩
  else if e.event = EVENT_OBJECT_SHOW then
    if isAltTabWindow env e.hwnd false then some ⟨e.hwnd, .windowsCreate⟩ else none
  else if e.event = EVENT_OBJECT_NAMECHANGE then
    if isAltTabWindow env e.hwnd false then some ⟨e.hwnd, .windowsRename⟩ else none
  else none

/-- Without the visibility check: a window with neither parent nor owner, with a
title, and no tool window. -/
theorem isAltTabWindow_iff (env : Env) (hWnd : HWND) :
    isAltTabWindow env hWnd false = true ↔
      hWnd ≠ NULL ∧ (env.getParent hWnd = NULL ∧ env.getOwner hWnd = NULL) ∧
        (env.windowText hWnd).bytes ≠ [] ∧ env.exStyle hWnd &&& WS_EX_TOOLWINDOW = 0 := by
  have htitle : 0 < (getWindowText (env.windowText hWnd) 3).bytes.length ↔
      (env.windowText hWnd).bytes ≠ [] := by
    rw [← List.length_pos_iff]
    show 0 < ((env.windowText hWnd).bytes.take 2).length ↔ _
    rw [List.length_take]
    omega
  unfold isAltTabWindow
  simp only [htitle]
  by_cases hnull : hWnd = NULL
  · simp [hnull]
  · simp [hnull]

end HookDLL

/-! ## The message loop -/

/-- `NetworkManager::state`. -/
inductive NetState where
  | disconnected
  | awaitClient
  | connected
deriving DecidableEq

/-- A turn of the message loop of `WinMain` for a `WM_CBTHOOK` message. -/
def mainLoopStep (state : NetState) (env : Env) (msg : HookMsg) (s : Session) : Session :=
  if state = .connected then
    match msg.lParam with
    | .windowsCreate => addWindowTask env msg.wParam s
    | .windowsDestroy => removeWindowTask msg.wParam s
    | .windowsRename => updateWindowTaskTitle env msg.wParam s
  else s

/-- An event with what the OS answers to the hook and, later, to the handler. -/
structure Delivery where
  event : WinEvent
  hookEnv : Env
  env : Env

def deliver (state : NetState) (s : Session) (d : Delivery) : Session :=
  match HookDLL.hookEventProc d.hookEnv d.event with
  | none => s
  | some msg => mainLoopStep state d.env msg s

/-- Unless a client is connected no event has an effect. -/
theorem deliver_of_not_connected {state : NetState} (h : state ≠ .connected) (s : Session) (d : Delivery) :
    deliver state s d = s := by
  unfold deliver
  split
  · rfl
  · exact if_neg h

section
variable (s : Session) (d : Delivery)

theorem deliver_hide (h : d.event.event = EVENT_OBJECT_DESTROY ∨ d.event.event = EVENT_OBJECT_HIDE) :
    deliver .connected s d = removeWindowTask d.event.hwnd s := by
  unfold deliver HookDLL.hookEventProc
  rw [if_pos h]
  rfl

theorem deliver_show (h : d.event.event = EVENT_OBJECT_SHOW) :
    deliver .connected s d =
      if HookDLL.isAltTabWindow d.hookEnv d.event.hwnd false then addWindowTask d.env d.event.hwnd s
      else s := by
  have hne : ¬(EVENT_OBJECT_SHOW = EVENT_OBJECT_DESTROY ∨ EVENT_OBJECT_SHOW = EVENT_OBJECT_HIDE) := by
    decide
  unfold deliver HookDLL.hookEventProc
  rw [h, if_neg hne, if_pos rfl]
  by_cases ha : HookDLL.isAltTabWindow d.hookEnv d.event.hwnd false = true
  · rw [if_pos ha, if_pos ha]
    rfl
  · rw [if_neg ha, if_neg ha]

theorem deliver_nameChange (h : d.event.event = EVENT_OBJECT_NAMECHANGE) :
    deliver .connected s d =
      if HookDLL.isAltTabWindow d.hookEnv d.event.hwnd false then
        updateWindowTaskTitle d.env d.event.hwnd s
      else s := by
  have hne : ¬(EVENT_OBJECT_NAMECHANGE = EVENT_OBJECT_DESTROY ∨
      EVENT_OBJECT_NAMECHANGE = EVENT_OBJECT_HIDE) := by decide
  have hne' : EVENT_OBJECT_NAMECHANGE ≠ EVENT_OBJECT_SHOW := by decide
  unfold deliver HookDLL.hookEventProc
  rw [h, if_neg hne, if_neg hne', if_pos rfl]
  by_cases ha : HookDLL.isAltTabWindow d.hookEnv d.event.hwnd false = true
  · rw [if_pos ha, if_pos ha]
    rfl
  · rw [if_neg ha, if_neg ha]

end

end RemoteTaskbar
