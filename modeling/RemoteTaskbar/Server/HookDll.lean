import RemoteTaskbar.Server.Global

/-!
# Who owns the hook

The hook DLL keeps three shared variables: the window that hook messages go to,
which doubles as the lock, and a handle for each kind of hook.  A handle is never
cleared by an uninstall, and a failed install overwrites it with NULL.

`HookState` is these variables with the hooks the OS has installed; `destination`
of a hook is bookkeeping and read by no function.  What the OS answers is an
argument: a handle or NULL (`none`) to an install, and whether it is willing to
remove a live hook to an uninstall.
-/

namespace RemoteTaskbar

namespace HookDLL

/-! ## The state -/

/-- Installed by `SetWindowsHookEx` or by `SetWinEventHook`. -/
inductive HookKind where
  | windowsHook
  | winEventHook
deriving DecidableEq

structure LiveHook (η : Type) where
  kind : HookKind
  handle : η
  /-- the argument of the install that created it -/
  destination : HWND
deriving DecidableEq

structure HookState (η : Type) where
  msgRedirectDestination : HWND
  hookHandle : Option η
  hookEventHandle : Option η
  live : List (LiveHook η)
deriving DecidableEq

variable {η : Type}

namespace HookState

def init : HookState η := ⟨NULL, none, none, []⟩

/-- The variable for handles of this kind. -/
def handle (s : HookState η) : HookKind → Option η
  | .windowsHook => s.hookHandle
  | .winEventHook => s.hookEventHandle

def setHandle (s : HookState η) (kind : HookKind) (handle : Option η) : HookState η :=
  match kind with
  | .windowsHook => { s with hookHandle := handle }
  | .winEventHook => { s with hookEventHandle := handle }

end HookState

/-! ## The OS -/

/-- `SetWindowsHookEx` or `SetWinEventHook`, its answer stored in the variable. -/
def setHook (kind : HookKind) (msgDestination : HWND) (answer : Option η) (s : HookState η) :
    HookState η :=
  { s.setHandle kind answer with
    live := (answer.map fun handle => ⟨kind, handle, msgDestination⟩).toList ++ s.live }

variable [DecidableEq η]

/-- The hook is of this kind, and its handle is in the variable. -/
def holds (kind : HookKind) (s : HookState η) (hook : LiveHook η) : Bool :=
  hook.kind = kind ∧ s.handle kind = some hook.handle

/-- `UnhookWindowsHookEx` or `UnhookWinEvent` on the variable: at most a live hook of its
own kind is removed. -/
def unhook (kind : HookKind) (willing : Bool) (s : HookState η) : Bool × HookState η :=
  if willing && s.live.any (holds kind s) then
    (true, { s with live := s.live.filter (!holds kind s ·) })
  else (false, s)

/-! ## The exported functions -/

def install (kind : HookKind) (msgDestination : HWND) (answer : Option η) (s : HookState η) :
    Bool × HookState η :=
  if s.msgRedirectDestination ≠ NULL then (false, s)
  else
    let s := setHook kind msgDestination answer s
    if s.handle kind ≠ none then (true, { s with msgRedirectDestination := msgDestination })
    else (false, s)

def uninstall (kind : HookKind) (msgDestination : HWND) (willing : Bool) (s : HookState η) :
    Bool × HookState η :=
  if msgDestination ≠ s.msgRedirectDestination then (false, s)
  else
    let (unhooked, s) := unhook kind willing s
    if unhooked then (unhooked, { s with msgRedirectDestination := NULL }) else (unhooked, s)

def installHook (msgDestination : HWND) (answer : Option η) (s : HookState η) : Bool × HookState η :=
  install .windowsHook msgDestination answer s

def installEventHook (msgDestination : HWND) (answer : Option η) (s : HookState η) :
    Bool × HookState η :=
  install .winEventHook msgDestination answer s

def uninstallHook (msgDestination : HWND) (willing : Bool) (s : HookState η) : Bool × HookState η :=
  uninstall .windowsHook msgDestination willing s

def uninstallEventHook (msgDestination : HWND) (willing : Bool) (s : HookState η) :
    Bool × HookState η :=
  uninstall .winEventHook msgDestination willing s

/-! ## What they do -/

section
variable (kind : HookKind) (msgDestination : HWND) (s : HookState η)

omit [DecidableEq η] in
/-- An install does nothing that lasts, or it installs its hook on a free DLL. -/
theorem install_cases (answer : Option η) :
    (∃ s', install kind msgDestination answer s = (false, s') ∧
      s'.msgRedirectDestination = s.msgRedirectDestination ∧ s'.live = s.live ∧
      (s.msgRedirectDestination ≠ NULL → s' = s)) ∨
    (s.msgRedirectDestination = NULL ∧ ∃ handle s',
      install kind msgDestination answer s = (true, s') ∧
      s'.msgRedirectDestination = msgDestination ∧
      s'.live = ⟨kind, handle, msgDestination⟩ :: s.live ∧ s'.handle kind = some handle) := by
  unfold install
  by_cases hdest : s.msgRedirectDestination = NULL
  · rw [if_neg (not_not.mpr hdest)]
    cases answer with
    | none =>
      refine Or.inl ⟨setHook kind msgDestination none s, ?_, ?_, ?_, fun hne => absurd hdest hne⟩
      · cases kind <;> rfl
      · cases kind <;> rfl
      · rfl
    | some handle =>
      refine Or.inr ⟨hdest, handle, { setHook kind msgDestination (some handle) s with
        msgRedirectDestination := msgDestination }, ?_, rfl, rfl, ?_⟩
      · cases kind <;> rfl
      · cases kind <;> rfl
  · rw [if_pos hdest]
    exact Or.inl ⟨s, rfl, rfl, rfl, fun _ => rfl⟩

/-- An uninstall does nothing, or the owner removes the hook in the variable. -/
theorem uninstall_cases (willing : Bool) :
    uninstall kind msgDestination willing s = (false, s) ∨
    (msgDestination = s.msgRedirectDestination ∧ (∃ hook ∈ s.live, holds kind s hook = true) ∧
      uninstall kind msgDestination willing s =
        (true, ⟨NULL, s.hookHandle, s.hookEventHandle, s.live.filter (!holds kind s ·)⟩)) := by
  unfold uninstall
  by_cases hdest : msgDestination = s.msgRedirectDestination
  · rw [if_neg (not_not.mpr hdest)]
    unfold unhook
    by_cases hany : (willing && s.live.any (holds kind s)) = true
    · rw [if_pos hany]
      rw [Bool.and_eq_true, List.any_eq_true] at hany
      exact Or.inr ⟨hdest, hany.2, rfl⟩
    · rw [if_neg hany]
      exact Or.inl rfl
  · rw [if_pos hdest]
    exact Or.inl rfl

end

end HookDLL

/-! ## The controller -/

structure HookController where
  msgReturnHwnd : HWND

namespace HookController

variable {η : Type} (c : HookController)

/-- `installHookFunction` is the DLL's `installEventHook`. -/
def hook (answer : Option η) (s : HookDLL.HookState η) : Bool × HookDLL.HookState η :=
  HookDLL.installEventHook c.msgReturnHwnd answer s

/-- `uninstallHookFunction` is the DLL's `uninstallEventHook`. -/
def unhook [DecidableEq η] (willing : Bool) (s : HookDLL.HookState η) :
    Bool × HookDLL.HookState η :=
  HookDLL.uninstallEventHook c.msgReturnHwnd willing s

end HookController

end RemoteTaskbar
