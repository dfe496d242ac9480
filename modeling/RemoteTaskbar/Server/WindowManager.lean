import Mathlib.Data.List.AList
import RemoteTaskbar.Server.Frames

/-!
# The window manager

`WindowManager` holds the two maps of the server: the windows listed, each with
its icon, and the icons the client was sent.  `Session` adds what was handed to
`sendMessage` so far, oldest first.

A handler is cut where another thread can come in between: `addWindowTask` is
`insertTask`, `sendMissingIcon`, `sendAddTask`; a list request is `clearTasks`,
`enumTasks`, `sendMissingIcons` and then `sendWindowTasksToClient`.  Each piece
has lemmas for the fields it leaves alone.
-/

namespace RemoteTaskbar

open Wire

structure WindowManager where
  activeWindowTasks : AList fun _ : HWND => HICON
  clientCachedIcons : AList fun _ : HICON => Int

structure Session where
  wm : WindowManager
  sent : List Packet

namespace Session

/-- Windows listed, in the order the map keeps them. -/
def keys (s : Session) : List HWND := s.wm.activeWindowTasks.keys

/-- `gNetworkManager->sendMessage`. -/
def sendMessage (s : Session) (p : Packet) : Session := { s with sent := s.sent ++ [p] }

@[simp] theorem sendMessage_wm (s : Session) (p : Packet) : (s.sendMessage p).wm = s.wm := rfl

@[simp] theorem sendMessage_keys (s : Session) (p : Packet) : (s.sendMessage p).keys = s.keys := rfl

@[simp] theorem sendMessage_sent (s : Session) (p : Packet) :
    (s.sendMessage p).sent = s.sent ++ [p] := rfl

end Session

/-- `WindowManager::reset`. -/
def reset : WindowManager := ⟨∅, ∅⟩

/-- The session right after `reset`. -/
def Session.init : Session := ⟨reset, []⟩

/-! ## The icon cache -/

def iconExistsInClientCache (wm : WindowManager) (hIcon : HICON) : Bool :=
  (wm.clientCachedIcons.lookup hIcon).isSome

/-- `insert` of a standard map: a key that is there keeps its value. -/
def insertNew {α β : Type} [DecidableEq α] (m : AList fun _ : α => β) (a : α) (b : β) :
    AList fun _ : α => β :=
  if a ∈ m then m else m.insert a b

def addIconToClientCache (wm : WindowManager) (hIcon : HICON) : WindowManager :=
  { wm with clientCachedIcons := insertNew wm.clientCachedIcons hIcon 1 }

def sendIconToClient (env : Env) (hIcon : HICON) (s : Session) : Session :=
  s.sendMessage (.sendIcon hIcon (env.png hIcon))

/-- `if(!iconExistsInClientCache(hIcon)) { sendIconToClient(hIcon); addIconToClientCache(hIcon); }` -/
def sendMissingIcon (env : Env) (hIcon : HICON) (s : Session) : Session :=
  if !iconExistsInClientCache s.wm hIcon then
    let s := sendIconToClient env hIcon s
    { s with wm := addIconToClientCache s.wm hIcon }
  else s

/-! ## List requests -/

/-- `WindowManager::isAltTabWindow`. -/
def isAltTabWindow (env : Env) (hwnd : HWND) : Bool :=
  if env.isWindowVisible hwnd then
    if env.getParent hwnd = NULL ∧ env.getOwner hwnd = NULL then
      if env.exStyle hwnd &&& WS_EX_TOOLWINDOW = 0 then true else false
    else false
  else false

def clearTasks (s : Session) : Session := { s with wm := { s.wm with activeWindowTasks := ∅ } }

def insertTask (hwnd : HWND) (hIcon : HICON) (s : Session) : Session :=
  { s with wm := { s.wm with activeWindowTasks := insertNew s.wm.activeWindowTasks hwnd hIcon } }

def enumWindowsProc (env : Env) (s : Session) (hwnd : HWND) : Session :=
  if isAltTabWindow env hwnd then insertTask hwnd NULL s else s

/-- `EnumWindows(enumWindowsProc, 0)`. -/
def enumTasks (env : Env) (s : Session) : Session := env.enumWindows.foldl (enumWindowsProc env) s

/-- One turn of the loop of `refreshWindowTasksList`. -/
def refreshTask (env : Env) (s : Session) (hwnd : HWND) : Session :=
  let hIcon := getHICON env hwnd
  sendMissingIcon env hIcon
    { s with wm := { s.wm with activeWindowTasks := s.wm.activeWindowTasks.insert hwnd hIcon } }

def sendMissingIcons (env : Env) (s : Session) : Session :=
  (env.order.visit s.keys).foldl (refreshTask env) s

def refreshWindowTasksList (env : Env) (s : Session) : Session :=
  sendMissingIcons env (enumTasks env (clearTasks s))

/-- The records of a task list frame, in the order of the loop. -/
def taskRecords (env : Env) (s : Session) : List TaskRecord :=
  (env.order.visit s.keys).map fun hwnd =>
    ⟨hwnd, (s.wm.activeWindowTasks.lookup hwnd).getD NULL, getWindowTitle (env.windowText hwnd)⟩

def sendWindowTasksToClient (env : Env) (s : Session) : Session :=
  s.sendMessage (.activeTaskList (taskRecords env s))

/-! ## Window events -/

def sendAddTask (env : Env) (hwnd : HWND) (hIcon : HICON) (s : Session) : Session :=
  s.sendMessage (.addTask hwnd hIcon (getWindowTitle (env.windowText hwnd)))

def addWindowTask (env : Env) (hwnd : HWND) (s : Session) : Session :=
  if hwnd ∈ s.wm.activeWindowTasks then s
  else
    let hIcon := getHICON env hwnd
    sendAddTask env hwnd hIcon (sendMissingIcon env hIcon (insertTask hwnd hIcon s))

def eraseTask (hwnd : HWND) (s : Session) : Session :=
  { s with wm := { s.wm with activeWindowTasks := s.wm.activeWindowTasks.erase hwnd } }

def removeWindowTask (hwnd : HWND) (s : Session) : Session :=
  if hwnd ∈ s.wm.activeWindowTasks then (eraseTask hwnd s).sendMessage (.removeTask hwnd) else s

def updateWindowTaskTitle (env : Env) (hwnd : HWND) (s : Session) : Session :=
  if hwnd ∈ s.wm.activeWindowTasks then
    s.sendMessage (.updateTask hwnd (getWindowTitle (env.windowText hwnd)))
  else s

/-- A handler, with what the OS answers while it runs. -/
inductive Event where
  /-- request for the task list -/
  | list (env : Env)
  | create (env : Env) (hwnd : HWND)
  | destroy (hwnd : HWND)
  | rename (env : Env) (hwnd : HWND)

def handle (s : Session) : Event → Session
  | .list env => sendWindowTasksToClient env (refreshWindowTasksList env s)
  | .create env hwnd => addWindowTask env hwnd s
  | .destroy hwnd => removeWindowTask hwnd s
  | .rename env hwnd => updateWindowTaskTitle env hwnd s

/-! ## The pieces, field by field -/

theorem mem_insertNew {α β : Type} [DecidableEq α] (m : AList fun _ : α => β) (a c : α) (b : β) :
    c ∈ insertNew m a b ↔ c = a ∨ c ∈ m := by
  unfold insertNew
  split
  · next h =>
    constructor
    · exact Or.inr
    · rintro (rfl | hc)
      · exact h
      · exact hc
  · exact AList.mem_insert m

theorem iconExistsInClientCache_eq (wm : WindowManager) (hIcon : HICON) :
    iconExistsInClientCache wm hIcon = true ↔ hIcon ∈ wm.clientCachedIcons := AList.lookup_isSome

section
variable (env : Env) (s : Session) (hwnd : HWND) (hIcon : HICON)

/-- What a check of the cache does: nothing, or one icon frame and its record. -/
theorem sendMissingIcon_cases :
    (hIcon ∈ s.wm.clientCachedIcons ∧ sendMissingIcon env hIcon s = s) ∨
    (hIcon ∉ s.wm.clientCachedIcons ∧ sendMissingIcon env hIcon s =
      ⟨addIconToClientCache s.wm hIcon, s.sent ++ [.sendIcon hIcon (env.png hIcon)]⟩) := by
  by_cases h : hIcon ∈ s.wm.clientCachedIcons
  · refine Or.inl ⟨h, ?_⟩
    unfold sendMissingIcon
    rw [(iconExistsInClientCache_eq s.wm hIcon).mpr h]
    rfl
  · refine Or.inr ⟨h, ?_⟩
    have hf : iconExistsInClientCache s.wm hIcon = false := by
      rw [← Bool.not_eq_true, iconExistsInClientCache_eq]
      exact h
    unfold sendMissingIcon
    rw [hf]
    rfl

@[simp] theorem sendMissingIcon_tasks :
    (sendMissingIcon env hIcon s).wm.activeWindowTasks = s.wm.activeWindowTasks := by
  rcases sendMissingIcon_cases env s hIcon with ⟨-, h⟩ | ⟨-, h⟩
  · rw [h]
  · rw [h]
    rfl

@[simp] theorem sendMissingIcon_keys : (sendMissingIcon env hIcon s).keys = s.keys := by
  unfold Session.keys
  rw [sendMissingIcon_tasks]

theorem mem_insertTask (k : HWND) :
    k ∈ (insertTask hwnd hIcon s).wm.activeWindowTasks ↔ k = hwnd ∨ k ∈ s.wm.activeWindowTasks :=
  mem_insertNew _ _ _ _

theorem insertTask_keys_of_notMem (h : hwnd ∉ s.wm.activeWindowTasks) :
    (insertTask hwnd hIcon s).keys = hwnd :: s.keys := by
  unfold Session.keys insertTask insertNew
  rw [if_neg h, AList.keys_insert, List.erase_of_not_mem (by rwa [← AList.mem_keys])]

theorem eraseTask_keys : (eraseTask hwnd s).keys = s.keys.erase hwnd := AList.keys_erase _ _

theorem refreshTask_tasks :
    (refreshTask env s hwnd).wm.activeWindowTasks =
      s.wm.activeWindowTasks.insert hwnd (getHICON env hwnd) := by
  unfold refreshTask
  rw [sendMissingIcon_tasks]

/-- The refresh loop adds no key that it is not run for. -/
theorem mem_foldl_refreshTask (ks : List HWND) (k : HWND) :
    k ∈ (ks.foldl (refreshTask env) s).wm.activeWindowTasks ↔
      k ∈ ks ∨ k ∈ s.wm.activeWindowTasks := by
  induction ks generalizing s with
  | nil => simp
  | cons k' ks ih =>
    rw [List.foldl_cons, ih, refreshTask_tasks, AList.mem_insert, List.mem_cons, or_left_comm, or_assoc]

@[simp] theorem mem_sendMissingIcons (k : HWND) :
    k ∈ (sendMissingIcons env s).wm.activeWindowTasks ↔ k ∈ s.wm.activeWindowTasks := by
  unfold sendMissingIcons
  rw [mem_foldl_refreshTask, (env.order.perm s.keys).mem_iff, Session.keys, ← AList.mem_keys, or_self]

theorem isAltTabWindow_iff :
    isAltTabWindow env hwnd = true ↔ env.isWindowVisible hwnd = true ∧
      (env.getParent hwnd = NULL ∧ env.getOwner hwnd = NULL) ∧
      env.exStyle hwnd &&& WS_EX_TOOLWINDOW = 0 := by
  unfold isAltTabWindow
  by_cases hv : env.isWindowVisible hwnd = true
  · simp [hv]
  · simp [hv]

theorem mem_enumWindowsProc (k : HWND) :
    k ∈ (enumWindowsProc env s hwnd).wm.activeWindowTasks ↔
      (k = hwnd ∧ isAltTabWindow env k = true) ∨ k ∈ s.wm.activeWindowTasks := by
  unfold enumWindowsProc
  split
  · next h =>
    rw [mem_insertTask]
    constructor
    · rintro (rfl | hk)
      · exact Or.inl ⟨rfl, h⟩
      · exact Or.inr hk
    · rintro (⟨rfl, -⟩ | hk)
      · exact Or.inl rfl
      · exact Or.inr hk
  · next h =>
    constructor
    · exact Or.inr
    · rintro (⟨rfl, hk⟩ | hk)
      · exact absurd hk h
      · exact hk

theorem mem_foldl_enumWindowsProc (ks : List HWND) (k : HWND) :
    k ∈ (ks.foldl (enumWindowsProc env) s).wm.activeWindowTasks ↔
      (k ∈ ks ∧ isAltTabWindow env k = true) ∨ k ∈ s.wm.activeWindowTasks := by
  induction ks generalizing s with
  | nil => simp
  | cons k' ks ih => rw [List.foldl_cons, ih, mem_enumWindowsProc, List.mem_cons, or_and_right, or_left_comm,
      or_assoc]

theorem mem_enumTasks (k : HWND) :
    k ∈ (enumTasks env s).wm.activeWindowTasks ↔
      (k ∈ env.enumWindows ∧ isAltTabWindow env k = true) ∨ k ∈ s.wm.activeWindowTasks :=
  mem_foldl_enumWindowsProc env s env.enumWindows k

/-- The enumeration sends nothing and leaves the icon cache alone. -/
theorem enumTasks_sent :
    (enumTasks env s).sent = s.sent ∧
      (enumTasks env s).wm.clientCachedIcons = s.wm.clientCachedIcons := by
  unfold enumTasks
  induction env.enumWindows generalizing s with
  | nil => exact ⟨rfl, rfl⟩
  | cons k ks ih =>
    obtain ⟨hs, hc⟩ := ih (enumWindowsProc env s k)
    have hk : (enumWindowsProc env s k).sent = s.sent ∧
        (enumWindowsProc env s k).wm.clientCachedIcons = s.wm.clientCachedIcons := by
      unfold enumWindowsProc
      split <;> exact ⟨rfl, rfl⟩
    exact ⟨hs.trans hk.1, hc.trans hk.2⟩

/-- After a refresh the map lists exactly the enumerated taskbar windows. -/
theorem mem_refreshWindowTasksList (k : HWND) :
    k ∈ (refreshWindowTasksList env s).wm.activeWindowTasks ↔
      k ∈ env.enumWindows ∧ isAltTabWindow env k = true := by
  unfold refreshWindowTasksList
  rw [mem_sendMissingIcons, mem_enumTasks]
  constructor
  · rintro (h | h)
    · exact h
    · exact absurd h (AList.notMem_empty k)
  · exact Or.inl

theorem mem_addWindowTask (k : HWND) :
    k ∈ (addWindowTask env hwnd s).wm.activeWindowTasks ↔ k = hwnd ∨ k ∈ s.wm.activeWindowTasks := by
  unfold addWindowTask
  split
  · next h =>
    constructor
    · exact Or.inr
    · rintro (rfl | hk)
      · exact h
      · exact hk
  · show k ∈ (sendMissingIcon env _ _).wm.activeWindowTasks ↔ _
    rw [sendMissingIcon_tasks, mem_insertTask]

theorem mem_removeWindowTask (k : HWND) :
    k ∈ (removeWindowTask hwnd s).wm.activeWindowTasks ↔ k ≠ hwnd ∧ k ∈ s.wm.activeWindowTasks := by
  unfold removeWindowTask
  split
  · exact AList.mem_erase
  · next h =>
    constructor
    · exact fun hk => ⟨fun e => h (e ▸ hk), hk⟩
    · exact And.right

theorem updateWindowTaskTitle_tasks :
    (updateWindowTaskTitle env hwnd s).wm.activeWindowTasks = s.wm.activeWindowTasks := by
  unfold updateWindowTaskTitle
  split <;> rfl

end

end RemoteTaskbar
