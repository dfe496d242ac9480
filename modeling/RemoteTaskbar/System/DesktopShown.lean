import RemoteTaskbar.System.CatchUp
import RemoteTaskbar.System.EndToEnd
import RemoteTaskbar.System.ListItems

/-!
# From the desktop to the tablet

The whole way: the desktop raises events, the OS and the message loop queue them
(`backlogStep`), the handlers send frames, the client's receive thread decodes them and
posts to its UI thread, and a tap goes back to the server.  Once the server has caught
up and the client is at rest, the tablet shows the visible taskbar windows, one item
each, and a tap on the item opens the window (`desktop_shown`).
-/

namespace RemoteTaskbar

open Wire Trans ClientThreads

/-! ## The client of a connection -/

/-- The handler a message runs. -/
def HookMsg.handler (env : Env) (msg : HookMsg) : Event :=
  match msg.lParam with
  | .windowsCreate => .create env msg.wParam
  | .windowsDestroy => .destroy msg.wParam
  | .windowsRename => .rename env msg.wParam

theorem mainLoopStep_eq_handle (env : Env) (msg : HookMsg) (s : Session) :
    mainLoopStep .connected env msg s = handle s (msg.handler env) := by
  obtain ⟨hwnd, code⟩ := msg
  cases code with
  | windowsCreate => rfl
  | windowsDestroy => rfl
  | windowsRename => rfl

section
variable [BitmapFactory]

/-- The client of a connection starts empty, as the map does. -/
structure ConnectionInv (t : Backlog) : Prop where
  awaiting : t.state = .awaitClient → t.session.wm = reset
  connected : t.state = .connected → Agrees t.session

theorem connectionInv_step {t t' : Backlog} {l : Turn} (hI : ConnectionInv t)
    (h : backlogStep t l = some t') : ConnectionInv t' := by
  cases l with
  | change c =>
    obtain ⟨d, -, rfl⟩ := Option.map_eq_some_iff.mp h
    exact ⟨hI.awaiting, hI.connected⟩
  | hook rest =>
    obtain ⟨e, events, -, rfl⟩ := Backlog.hook_eq_some h
    exact ⟨hI.awaiting, hI.connected⟩
  | handle rest =>
    obtain ⟨msg, posted, -, rfl⟩ := Backlog.handle_eq_some h
    refine ⟨fun hs => ?_, fun hs => ?_⟩
    · have hstate : t.state = .awaitClient := hs
      show (mainLoopStep t.state _ _ _).wm = reset
      rw [hstate]
      exact hI.awaiting hs
    · have hstate : t.state = .connected := hs
      show Agrees (mainLoopStep t.state _ _ _)
      rw [hstate, mainLoopStep_eq_handle]
      exact agrees_handle _ _ (hI.connected hs)
  | listen =>
    obtain ⟨-, rfl⟩ := Backlog.listen_eq_some h
    exact ⟨fun _ => rfl, fun hs => by simp at hs⟩
  | accept =>
    obtain ⟨hs, rfl⟩ := Backlog.accept_eq_some h
    refine ⟨fun hs => by simp at hs, fun _ => ?_⟩
    show Agrees ⟨t.session.wm, []⟩
    rw [hI.awaiting hs]
    exact agrees_init
  | disconnect =>
    obtain ⟨-, rfl⟩ := Backlog.disconnect_eq_some h
    exact ⟨fun hs => by simp at hs, fun hs => by simp at hs⟩
  | request rest =>
    obtain ⟨hs, rfl⟩ := Backlog.request_eq_some h
    refine ⟨fun ha => ?_, fun _ => agrees_handle t.session (.list (t.desktop.env rest)) (hI.connected hs)⟩
    rw [hs] at ha
    exact absurd ha (by decide)

theorem connectionInv_start (d : Desktop) : ConnectionInv (Backlog.start d) :=
  ⟨fun hs => by simp [Backlog.start] at hs, fun hs => by simp [Backlog.start] at hs⟩

/-! ## The screen at rest -/

/-- The screen of a client that was sent the frames, with everything read and done. -/
def AtRest (frames : List (List Byte)) (u : TasksScreen) : Prop :=
  ∃ ls, run screenStep (.start (clientThreadRun frames.flatten).log) ls = some u ∧ u.threads.Finished

/-- After a tap on the item the server, having executed the requests before it, opens the window. -/
def Opens (u : TasksScreen) (position : Nat) (k : HWND) : Prop :=
  ∃ u', u.onItemClick position = some u' ∧
    executed (u'.written.map (.data ·.chunk)) =
      executed (u.written.map (.data ·.chunk)) ++ [.performWindowOpen k]

/-- Rows, buttons and taps aside, a run of the screen is one of the client's threads. -/
theorem exists_run_threads {u u' : TasksScreen} {ls : List ScreenStep} (h : run screenStep u ls = some u') :
    ∃ sides, run clientStep u.threads sides = some u'.threads := by
  induction ls generalizing u with
  | nil =>
    obtain rfl : u = u' := Option.some.inj h
    exact ⟨[], rfl⟩
  | cons l ls ih =>
    obtain ⟨u₁, hs, hrest⟩ := Option.bind_eq_some_iff.mp h
    obtain ⟨sides, hr⟩ := ih hrest
    cases l with
    | thread side =>
      obtain ⟨threads, ht, rfl⟩ := Option.map_eq_some_iff.mp hs
      exact ⟨side :: sides, (run_cons ht sides).trans hr⟩
    | getView position =>
      have hsame : u₁.threads = u.threads := by
        change u.getView position = some u₁ at hs
        unfold TasksScreen.getView at hs
        split at hs
        · exact absurd hs (by simp)
        · rw [← Option.some.inj hs]
      exact ⟨sides, hsame ▸ hr⟩
    | closeBtnClick view =>
      have hsame : u₁.threads = u.threads := by
        change some (u.closeBtnClick view) = some u₁ at hs
        rw [← Option.some.inj hs]
        unfold TasksScreen.closeBtnClick
        split <;> rfl
      exact ⟨sides, hsame ▸ hr⟩
    | onItemClick position =>
      have hsame : u₁.threads = u.threads := by
        change u.onItemClick position = some u₁ at hs
        unfold TasksScreen.onItemClick at hs
        split at hs
        · exact absurd hs (by simp)
        · rw [← Option.some.inj hs]
      exact ⟨sides, hsame ▸ hr⟩

theorem run_threads (sides : List Side) (u : TasksScreen) :
    run screenStep u (sides.map .thread) =
      (run clientStep u.threads sides).map ({ u with threads := · }) := by
  induction sides generalizing u with
  | nil => rfl
  | cons side sides ih =>
    show ((clientStep u.threads side).map _).bind _ = ((clientStep u.threads side).bind _).map _
    cases clientStep u.threads side with
    | none => rfl
    | some threads => exact ih { u with threads := threads }

/-- Whatever it was sent, a client comes to rest. -/
theorem exists_atRest (frames : List (List Byte)) : ∃ u, AtRest frames u := by
  obtain ⟨sides, threads, hr, hfin⟩ := finishes (reading (clientThreadRun frames.flatten).log)
  refine ⟨⟨threads, [], ∅, [.activeTaskList]⟩, sides.map .thread, ?_, hfin⟩
  rw [run_threads]
  show (run clientStep (reading _) sides).map _ = _
  rw [hr]
  rfl

section
variable {s : Session} {frames : List (List Byte)} {u : TasksScreen}

theorem AtRest.perm (h : AtRest frames u) (hframes : s.sent.mapM Packet.frame = some frames)
    (ha : Agrees s) : (u.threads.tasks.map Task.hwnd).Perm (mapHwnds s) := by
  obtain ⟨ls, hr, hu⟩ := h
  obtain ⟨sides, hr'⟩ := exists_run_threads hr
  rw [hwnds_at_rest hframes hr' hu]
  exact ha.hwnds

/-- The tap sends the handle of the item, and the server reads it back. -/
theorem opens_iff {position : Nat} {k : HWND} :
    Opens u position k ↔ (u.threads.tasks.map Task.hwnd)[position]? = some k.toInt := by
  have hget : (u.threads.tasks.map Task.hwnd)[position]? =
      (u.threads.taskList[position]?).map fun task => (u.threads.heap task).hwnd := by
    unfold ClientThreads.tasks
    rw [List.getElem?_map, List.getElem?_map, Option.map_map]
    rfl
  unfold Opens TasksScreen.onItemClick
  rw [hget]
  cases htask : u.threads.taskList[position]? with
  | none =>
    simp
  | some task =>
    have hexecuted : ∀ r : Request, executed ((u.written ++ [r]).map (.data ·.chunk)) =
        executed (u.written.map (.data ·.chunk)) ++ [r.action] := by
      intro r
      rw [executed_requests, executed_requests, List.map_append, List.map_singleton]
    simp only [Option.some.injEq, exists_eq_left', hexecuted, List.append_cancel_left_eq, List.cons.injEq,
      and_true, Option.map_some]
    constructor
    · intro haction
      rw [← Action.performWindowOpen.inj haction, Handle.toInt_ofInt]
    · intro hk
      rw [hk]
      exact congrArg Action.performWindowOpen (Handle.ofInt_toInt k)

end

/-! ## The whole way -/

/-- Between the desktop and the tablet. -/
structure WholeInv (t : Backlog) : Prop where
  backlog : BacklogInv t
  connection : ConnectionInv t

theorem wholeInv_step {t t' : Backlog} {l : Turn} (hI : WholeInv t) (h : backlogStep t l = some t') :
    WholeInv t' :=
  ⟨backlogInv_step hI.backlog h, connectionInv_step hI.connection h⟩

theorem wholeInv_start (d : Desktop) : WholeInv (Backlog.start d) :=
  ⟨backlogInv_start d, connectionInv_start d⟩

section
variable {t : Backlog} {frames : List (List Byte)} {u : TasksScreen} (hI : WholeInv t)
  (hasked : t.asked = true) (hframes : t.session.sent.mapM Packet.frame = some frames) (hu : AtRest frames u)
include hI hasked hframes hu

theorem WholeInv.perm : (u.threads.tasks.map Task.hwnd).Perm (mapHwnds t.session) :=
  hu.perm hframes (hI.connection.connected (hI.backlog.connected hasked))

/-- The items are those of the map. -/
theorem WholeInv.opens_iff_mem {k : HWND} :
    (∃ position, Opens u position k) ↔ k ∈ t.session.wm.activeWindowTasks := by
  simp only [opens_iff]
  rw [← List.mem_iff_getElem?, (hI.perm hasked hframes hu).mem_iff]
  exact mem_mapHwnds t.session k

/-- Each item is one visible taskbar window's. -/
theorem WholeInv.items (hq : t.Quiet) :
    (u.threads.tasks.map Task.hwnd).Nodup ∧ ∀ position task, u.threads.tasks[position]? = some task →
      ∃ k, t.desktop.Listed k ∧ Opens u position k := by
  have hperm := hI.perm hasked hframes hu
  refine ⟨hperm.nodup_iff.mpr (mapHwnds_nodup t.session), fun position task htask => ?_⟩
  have hhwnd : (u.threads.tasks.map Task.hwnd)[position]? = some task.hwnd := by
    rw [List.getElem?_map, htask]
    rfl
  obtain ⟨k, hk, he⟩ := List.mem_map.mp (hperm.mem_iff.mp (List.mem_of_getElem? hhwnd))
  refine ⟨k, listed_of_mem hI.backlog hasked hq (AList.mem_keys.mpr hk), opens_iff.mpr ?_⟩
  rw [hhwnd, he]

end

end

end RemoteTaskbar
