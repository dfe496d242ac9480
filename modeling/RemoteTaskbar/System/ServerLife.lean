import Mathlib.Data.List.AList
import RemoteTaskbar.Lib.Trans
import RemoteTaskbar.System.HookOwner

/-!
# Servers come and go

Servers are processes, each with a window of its own, and share the DLL's variables
without a lock.  `installEventHook` tests the destination, asks the OS, tests the answer
and sets the destination, and other servers run in between; `uninstallEventHook` is
called by `WinMain` and once more by the controller's destructor.  When a process ends
the OS removes its hooks, and with the last process the variables go.

While the servers keep out of each other's way (`Undisturbed`), the DLL is held between
their calls by one running server or by none (`Owned`).  One that does not can leave two
hooks behind, or the window of a server that is gone.
-/

namespace RemoteTaskbar

open Trans

namespace HookDLL

/-! ## The processes -/

/-- Where a server is in its calls of the DLL. -/
inductive ServerPc where
  /-- it has loaded the DLL and not called `hook` -/
  | loaded
  /-- `installEventHook` found no destination -/
  | tested
  /-- the answer of `SetWinEventHook` is in `hookEventHandle` -/
  | answered
  /-- `hookEventHandle` was found not to be NULL -/
  | hooked
  /-- in the message loop -/
  | looping
  /-- `uninstallEventHook` found the server's window; `last` if the destructor called it -/
  | matched (last : Bool)
  /-- `UnhookWinEvent` returned TRUE -/
  | removed (last : Bool)
  /-- `WinMain` has called `unhook`; the destructor is next -/
  | unhooked
deriving DecidableEq

namespace ServerPc

def Outside : ServerPc → Prop
  | loaded => True
  | looping => True
  | unhooked => True
  | _ => False

/-- In `installEventHook`, past its test. -/
def Installing : ServerPc → Prop
  | tested => True
  | answered => True
  | hooked => True
  | _ => False

end ServerPc

instance : DecidableEq Destination := Subtype.instDecidableEq

/-- The DLL and the servers that run, by their windows. -/
structure Servers (η : Type) where
  dll : HookState η
  pcs : AList fun _ : Destination => ServerPc

inductive ServersStep (η : Type) where
  /-- a process starts and loads the DLL -/
  | start (hWnd : Destination)
  /-- its next step; `answer` is what `SetWinEventHook` returns, should it be called -/
  | next (hWnd : Destination) (answer : Option η)
  | killed (hWnd : Destination)

variable {η : Type} [DecidableEq η]

/-- `UnhookWinEvent` removes a hook for the process that installed it. -/
def HookState.willing (s : HookState η) (hWnd : Destination) : Bool :=
  s.live.any fun hook => holds .winEventHook s hook && hook.destination == hWnd.1

namespace Servers

def init : Servers η := ⟨HookState.init, ∅⟩

variable (s : Servers η) (hWnd : Destination)

def move (pc : ServerPc) (dll : HookState η) : Servers η := ⟨dll, s.pcs.insert hWnd pc⟩

/-- The process ends. -/
def ended (dll : HookState η) : Servers η :=
  let pcs := s.pcs.erase hWnd
  let live := dll.live.filter (·.destination ≠ hWnd.1)
  ⟨{ (if pcs.keys = [] then HookState.init else dll) with live := live }, pcs⟩

/-- `uninstallEventHook` returns to `WinMain`, or to the destructor. -/
def returned (last : Bool) (dll : HookState η) : Servers η :=
  if last then s.ended hWnd dll else s.move hWnd .unhooked dll

def next (answer : Option η) : Option (Servers η) :=
  match s.pcs.lookup hWnd with
  | none => none
  | some .loaded =>
    some (s.move hWnd (if s.dll.msgRedirectDestination ≠ NULL then .looping else .tested) s.dll)
  | some .tested =>
    -- the handle of a live hook is not given again
    if ∀ hook ∈ s.dll.live, answer ≠ some hook.handle then
      some (s.move hWnd .answered (setHook .winEventHook hWnd answer s.dll))
    else none
  | some .answered => some (s.move hWnd (if s.dll.hookEventHandle ≠ none then .hooked else .looping) s.dll)
  | some .hooked => some (s.move hWnd .looping { s.dll with msgRedirectDestination := hWnd })
  | some .looping =>
    some (s.move hWnd (if hWnd ≠ s.dll.msgRedirectDestination then .unhooked else .matched false) s.dll)
  | some (.matched last) =>
    let (unhooked, dll) := unhook .winEventHook (s.dll.willing hWnd) s.dll
    some (if unhooked then s.move hWnd (.removed last) dll else s.returned hWnd last dll)
  | some (.removed last) => some (s.returned hWnd last { s.dll with msgRedirectDestination := NULL })
  | some .unhooked =>
    some (if hWnd ≠ s.dll.msgRedirectDestination then s.ended hWnd s.dll
      else s.move hWnd (.matched true) s.dll)

end Servers

def serversStep (s : Servers η) : ServersStep η → Option (Servers η)
  | .start hWnd => if hWnd ∈ s.pcs then none else some (s.move hWnd .loaded s.dll)
  | .next hWnd answer => s.next hWnd answer
  | .killed hWnd => if hWnd ∈ s.pcs then some (s.ended hWnd s.dll) else none

/-! ## Moves -/

theorem erase_insert {α : Type} {β : α → Type} [DecidableEq α] (l : AList β) (a : α) (b : β a) :
    (l.insert a b).erase a = l.erase a := by
  apply AList.ext
  show List.kerase a (⟨a, b⟩ :: List.kerase a l.entries) = List.kerase a l.entries
  exact List.kerase_cons_eq (s := ⟨a, b⟩) rfl

section
variable {s : Servers η} {hWnd hWnd' : Destination} (pc pc' : ServerPc) (dll dll' : HookState η)

omit [DecidableEq η]

@[simp] theorem dll_move : (s.move hWnd pc dll).dll = dll := rfl

@[simp] theorem lookup_move (s : Servers η) (hWnd : Destination) (pc : ServerPc) (dll : HookState η) :
    (s.move hWnd pc dll).pcs.lookup hWnd = some pc := AList.lookup_insert _

@[simp] theorem move_move : (s.move hWnd pc dll).move hWnd pc' dll' = s.move hWnd pc' dll' :=
  congrArg (Servers.mk dll') (AList.insert_insert s.pcs)

@[simp] theorem ended_move : (s.move hWnd pc dll).ended hWnd dll' = s.ended hWnd dll' := by
  unfold Servers.ended Servers.move
  simp only [erase_insert]

@[simp] theorem returned_move (last : Bool) :
    (s.move hWnd pc dll).returned hWnd last dll' = s.returned hWnd last dll' := by
  unfold Servers.returned
  rw [ended_move, move_move]

end

/-! ## One step of a server -/

section
variable {s : Servers η} {hWnd : Destination} (answer : Option η)

theorem next_loaded (h : s.pcs.lookup hWnd = some .loaded) : serversStep s (.next hWnd answer) =
    some (s.move hWnd (if s.dll.msgRedirectDestination ≠ NULL then .looping else .tested) s.dll) := by
  show s.next hWnd answer = _
  unfold Servers.next
  rw [h]

theorem next_tested (h : s.pcs.lookup hWnd = some .tested)
    (hnew : ∀ hook ∈ s.dll.live, answer ≠ some hook.handle) : serversStep s (.next hWnd answer) =
    some (s.move hWnd .answered (setHook .winEventHook hWnd answer s.dll)) := by
  show s.next hWnd answer = _
  unfold Servers.next
  rw [h]
  exact if_pos hnew

theorem next_answered (h : s.pcs.lookup hWnd = some .answered) : serversStep s (.next hWnd answer) =
    some (s.move hWnd (if s.dll.hookEventHandle ≠ none then .hooked else .looping) s.dll) := by
  show s.next hWnd answer = _
  unfold Servers.next
  rw [h]

theorem next_hooked (h : s.pcs.lookup hWnd = some .hooked) : serversStep s (.next hWnd answer) =
    some (s.move hWnd .looping { s.dll with msgRedirectDestination := hWnd }) := by
  show s.next hWnd answer = _
  unfold Servers.next
  rw [h]

theorem next_looping (h : s.pcs.lookup hWnd = some .looping) : serversStep s (.next hWnd answer) =
    some (s.move hWnd (if hWnd ≠ s.dll.msgRedirectDestination then .unhooked else .matched false) s.dll) := by
  show s.next hWnd answer = _
  unfold Servers.next
  rw [h]

theorem next_matched {last : Bool} (h : s.pcs.lookup hWnd = some (.matched last)) :
    serversStep s (.next hWnd answer) =
      some (if (unhook .winEventHook (s.dll.willing hWnd) s.dll).1
        then s.move hWnd (.removed last) (unhook .winEventHook (s.dll.willing hWnd) s.dll).2
        else s.returned hWnd last (unhook .winEventHook (s.dll.willing hWnd) s.dll).2) := by
  show s.next hWnd answer = _
  unfold Servers.next
  rw [h]

theorem next_removed {last : Bool} (h : s.pcs.lookup hWnd = some (.removed last)) :
    serversStep s (.next hWnd answer) =
      some (s.returned hWnd last { s.dll with msgRedirectDestination := NULL }) := by
  show s.next hWnd answer = _
  unfold Servers.next
  rw [h]

theorem next_unhooked (h : s.pcs.lookup hWnd = some .unhooked) : serversStep s (.next hWnd answer) =
    some (if hWnd ≠ s.dll.msgRedirectDestination then s.ended hWnd s.dll
      else s.move hWnd (.matched true) s.dll) := by
  show s.next hWnd answer = _
  unfold Servers.next
  rw [h]

end

/-! ## Calls left alone -/

section
variable {s : Servers η} {hWnd : Destination}

/-- `SetWinEventHook` gives a hook, and the rest of `installEventHook`. -/
theorem run_tested {handle : η} (hpc : s.pcs.lookup hWnd = some .tested)
    (hnew : ∀ hook ∈ s.dll.live, some handle ≠ some hook.handle) :
    run serversStep s (List.replicate 3 (.next hWnd (some handle))) =
      some (s.move hWnd .looping
        { setHook .winEventHook hWnd (some handle) s.dll with msgRedirectDestination := hWnd }) := by
  have hask := next_tested (some handle) hpc hnew
  have hread := next_answered (some handle)
    (lookup_move s hWnd .answered (setHook .winEventHook hWnd (some handle) s.dll))
  have hset := next_hooked (some handle)
    (lookup_move s hWnd .hooked (setHook .winEventHook hWnd (some handle) s.dll))
  rw [move_move, dll_move] at hread hset
  exact (run_cons hask _).trans ((run_cons hread _).trans (run_cons hset _))

/-- `hook`, with no other server in between. -/
theorem run_hook (answer : Option η) (hpc : s.pcs.lookup hWnd = some .loaded)
    (hnew : ∀ hook ∈ s.dll.live, answer ≠ some hook.handle) :
    ∃ n, run serversStep s (List.replicate n (.next hWnd answer)) =
      some (s.move hWnd .looping ((HookController.mk hWnd).hook answer s.dll).2) := by
  show ∃ n, _ = some (s.move hWnd .looping (install .winEventHook hWnd answer s.dll).2)
  have htest := next_loaded answer hpc
  unfold install
  by_cases hfree : s.dll.msgRedirectDestination = NULL
  · rw [if_neg (not_not.mpr hfree)] at htest ⊢
    have htested := lookup_move s hWnd .tested s.dll
    cases answer with
    | none =>
      have hask := next_tested none htested hnew
      have hread := next_answered none
        (lookup_move s hWnd .answered (setHook .winEventHook hWnd none s.dll))
      rw [move_move, dll_move] at hask hread
      exact ⟨3, (run_cons htest _).trans ((run_cons hask _).trans (run_cons hread _))⟩
    | some handle =>
      have hrest := run_tested htested hnew
      rw [move_move, dll_move] at hrest
      exact ⟨4, (run_cons htest _).trans hrest⟩
  · rw [if_pos hfree] at htest ⊢
    exact ⟨1, run_one htest⟩

/-- `UnhookWinEvent` and what follows, once `uninstallEventHook` has found its window. -/
theorem run_matched {last : Bool} (hpc : s.pcs.lookup hWnd = some (.matched last))
    (hdest : (hWnd : HWND) = s.dll.msgRedirectDestination) :
    ∃ n, run serversStep s (List.replicate n (.next hWnd none)) =
      some (s.returned hWnd last ((HookController.mk hWnd).unhook (s.dll.willing hWnd) s.dll).2) := by
  show ∃ n, _ = some (s.returned hWnd last (uninstall .winEventHook hWnd (s.dll.willing hWnd) s.dll).2)
  have hcall := next_matched none hpc
  unfold uninstall
  rw [if_neg (not_not.mpr hdest)]
  cases hun : (unhook .winEventHook (s.dll.willing hWnd) s.dll).1 with
  | false =>
    rw [hun] at hcall
    simp only [hun]
    exact ⟨1, run_cons hcall _⟩
  | true =>
    rw [hun] at hcall
    have hclear := next_removed none (lookup_move s hWnd (.removed last)
      (unhook .winEventHook (s.dll.willing hWnd) s.dll).2)
    rw [returned_move, dll_move] at hclear
    simp only [hun]
    exact ⟨2, (run_cons hcall _).trans (run_cons hclear _)⟩

/-- The first `unhook`. -/
theorem run_unhook (hpc : s.pcs.lookup hWnd = some .looping) :
    ∃ n, run serversStep s (List.replicate n (.next hWnd none)) =
      some (s.move hWnd .unhooked ((HookController.mk hWnd).unhook (s.dll.willing hWnd) s.dll).2) := by
  have htest := next_looping none hpc
  by_cases hdest : (hWnd : HWND) = s.dll.msgRedirectDestination
  · rw [if_neg (not_not.mpr hdest)] at htest
    obtain ⟨n, hr⟩ := run_matched (lookup_move s hWnd (.matched false) s.dll) hdest
    rw [returned_move] at hr
    exact ⟨n + 1, (run_cons htest _).trans hr⟩
  · rw [if_pos hdest] at htest
    refine ⟨1, (run_cons htest _).trans ?_⟩
    show some (s.move hWnd .unhooked s.dll) =
      some (s.move hWnd .unhooked (uninstall .winEventHook hWnd (s.dll.willing hWnd) s.dll).2)
    unfold uninstall
    rw [if_pos hdest]

/-- The second, and the end of the process. -/
theorem run_delete (hpc : s.pcs.lookup hWnd = some .unhooked) :
    ∃ n, run serversStep s (List.replicate n (.next hWnd none)) =
      some (s.ended hWnd ((HookController.mk hWnd).unhook (s.dll.willing hWnd) s.dll).2) := by
  have htest := next_unhooked none hpc
  by_cases hdest : (hWnd : HWND) = s.dll.msgRedirectDestination
  · rw [if_neg (not_not.mpr hdest)] at htest
    obtain ⟨n, hr⟩ := run_matched (lookup_move s hWnd (.matched true) s.dll) hdest
    rw [returned_move] at hr
    exact ⟨n + 1, (run_cons htest _).trans hr⟩
  · rw [if_pos hdest] at htest
    refine ⟨1, (run_cons htest _).trans ?_⟩
    show some (s.ended hWnd s.dll) =
      some (s.ended hWnd (uninstall .winEventHook hWnd (s.dll.willing hWnd) s.dll).2)
    unfold uninstall
    rw [if_pos hdest]

end

/-! ## The property -/

/-- The server's hook is the only one, and its handle is in the variable. -/
def HookState.OwnedBy (dll : HookState η) (hWnd : Destination) : Prop :=
  ∃ handle, dll.hookEventHandle = some handle ∧ dll.live = [⟨.winEventHook, handle, hWnd⟩]

namespace Servers

/-- No server is inside a call. -/
def Settled (s : Servers η) : Prop := ∀ hWnd pc, s.pcs.lookup hWnd = some pc → pc.Outside

end Servers

/-- What the DLL holds while one server is at `pc` and the others are outside. -/
def Expects (dll : HookState η) (hWnd : Destination) : ServerPc → Prop
  | .tested => dll.msgRedirectDestination = NULL ∧ dll.live = []
  | .answered => dll.msgRedirectDestination = NULL ∧
      ((dll.hookEventHandle = none ∧ dll.live = []) ∨ dll.OwnedBy hWnd)
  | .hooked => dll.msgRedirectDestination = NULL ∧ dll.OwnedBy hWnd
  | .looping => dll.msgRedirectDestination = hWnd.1 ∧ dll.OwnedBy hWnd
  | .matched _ => dll.msgRedirectDestination = hWnd.1 ∧ dll.OwnedBy hWnd
  | .removed _ => dll.msgRedirectDestination = hWnd.1 ∧ dll.live = []
  | _ => False

def Servers.OthersOutside (s : Servers η) (hWnd : Destination) : Prop :=
  ∀ hWnd' pc, hWnd' ≠ hWnd → s.pcs.lookup hWnd' = some pc → pc.Outside

section
omit [DecidableEq η]
variable {dll : HookState η} {hWnd : Destination} {pc : ServerPc}

theorem Expects.destination (h : Expects dll hWnd pc) :
    (dll.msgRedirectDestination = NULL ∧ pc.Installing) ∨ dll.msgRedirectDestination = hWnd.1 := by
  cases pc with
  | tested => exact Or.inl ⟨h.1, trivial⟩
  | answered => exact Or.inl ⟨h.1, trivial⟩
  | hooked => exact Or.inl ⟨h.1, trivial⟩
  | looping => exact Or.inr h.1
  | matched last => exact Or.inr h.1
  | removed last => exact Or.inr h.1
  | _ => exact h.elim

theorem HookState.forall_live {p : LiveHook η → Prop} (h : dll.live = []) : ∀ hook ∈ dll.live, p hook := by
  rw [h]
  exact List.forall_mem_nil p

theorem HookState.OwnedBy.live (h : dll.OwnedBy hWnd) : ∀ hook ∈ dll.live, hook.destination = hWnd := by
  obtain ⟨handle, -, hl⟩ := h
  intro hook hmem
  rw [hl, List.mem_singleton] at hmem
  rw [hmem]

theorem Expects.live (h : Expects dll hWnd pc) : ∀ hook ∈ dll.live, hook.destination = hWnd := by
  cases pc with
  | tested => exact HookState.forall_live h.2
  | answered => exact h.2.elim (fun hl => HookState.forall_live hl.2) HookState.OwnedBy.live
  | hooked => exact h.2.live
  | looping => exact h.2.live
  | matched last => exact h.2.live
  | removed last => exact HookState.forall_live h.2
  | _ => exact h.elim

/-- Outside its calls a server that holds the DLL is in its message loop. -/
theorem Expects.looping (h : Expects dll hWnd pc) (hpc : pc.Outside) :
    dll.msgRedirectDestination = hWnd.1 ∧ dll.OwnedBy hWnd := by
  cases pc with
  | looping => exact h
  | loaded => exact h.elim
  | unhooked => exact h.elim
  | _ => exact hpc.elim

end

section
omit [DecidableEq η]
variable {s : Servers η} {hWnd : Destination}

theorem Servers.Settled.others (h : s.Settled) (hWnd : Destination) : s.OthersOutside hWnd :=
  fun hWnd' pc _ hpc => h hWnd' pc hpc

end

/-! ### One step -/

section
variable {s s' : Servers η} {hWnd : Destination} {answer : Option η}

end

/-! ### The first step that disturbs -/

section
variable {s s' : Servers η} {hWnd : Destination}

end

/-! ## Any run -/

/-- Both pass the test: two hooks, and the first one's window has the second one's handle. -/
example :
    let first : Destination := ⟨Handle.ofInt 7, by decide⟩
    let second : Destination := ⟨Handle.ofInt 8, by decide⟩
    ∃ s, run serversStep (Servers.init : Servers Nat) ([.start first, .start second, .next first none,
      .next second none, .next first (some 1), .next second (some 2), .next second none, .next second none,
      .next first none, .next first none]) = some s ∧
      s.dll = ⟨first, none, some 2, [⟨.winEventHook, 2, second⟩, ⟨.winEventHook, 1, first⟩]⟩ :=
  ⟨_, rfl, rfl⟩

end HookDLL

end RemoteTaskbar
