import RemoteTaskbar.Lib.SetUpdate
import RemoteTaskbar.System.Taskbar

/-!
# Events handled late

The hook is installed out of context: the OS queues the events, the main thread
runs `hookEventProc` on the oldest one when it waits for a message, and handles
the message it posted in a later turn of its loop.  Each looks at the desktop as
it is by then.  `Backlog` is the desktop with the two queues and the server;
`backlogStep` lets the desktop change, the main thread take a turn, and a client
come, ask for the list and go, in any order; a handler runs in one step.

`outlook` is what the map will be once the queues are empty, if every taskbar
window whose show event is queued is added.  A change of the desktop does to it,
by the event it raises, what it does to the visible taskbar windows
(`outcome_change`, `listed_change`).
-/

namespace RemoteTaskbar

open Wire Trans SetUpdate

structure Backlog where
  desktop : Desktop
  /-- raised, and not yet seen by the hook -/
  events : List WinEvent
  /-- posted by the hook, and not yet handled -/
  posted : List HookMsg
  state : NetState
  /-- its frames are those of this connection -/
  session : Session
  /-- the client of this connection has asked for the list -/
  asked : Bool

inductive Turn where
  | change (c : Change)
  /-- `hookEventProc` for the oldest event -/
  | hook (rest : Env)
  /-- a turn of the message loop -/
  | handle (rest : Env)
  /-- the connect button while disconnected -/
  | listen
  | accept
  /-- the connect button while connected -/
  | disconnect
  /-- the client asks for the list -/
  | request (rest : Env)

def backlogStep (t : Backlog) : Turn → Option Backlog
  | .change c =>
    (t.desktop.apply c).map fun d => { t with desktop := d, events := t.events ++ c.event.toList }
  | .hook rest =>
    match t.events with
    | [] => none
    | e :: events =>
      some { t with
        events := events
        posted := t.posted ++ (HookDLL.hookEventProc (t.desktop.env rest) e).toList }
  | .handle rest =>
    match t.posted with
    | [] => none
    | msg :: posted =>
      some { t with
        posted := posted
        session := mainLoopStep t.state (t.desktop.env rest) msg t.session }
  | .listen =>
    if t.state = .disconnected then
      some { t with state := .awaitClient, session := { t.session with wm := reset } }
    else none
  | .accept =>
    if t.state = .awaitClient then
      some { t with state := .connected, session := { t.session with sent := [] } }
    else none
  | .disconnect =>
    if t.state = .connected then some { t with state := .disconnected, asked := false } else none
  | .request rest =>
    if t.state = .connected then
      some { t with session := handle t.session (.list (t.desktop.env rest)), asked := true }
    else none

/-- The server as it starts. -/
def Backlog.start (d : Desktop) : Backlog := ⟨d, [], [], .disconnected, Session.init, false⟩

namespace Backlog

section
variable {t t' : Backlog} {rest : Env}

theorem hook_eq_some (h : backlogStep t (.hook rest) = some t') :
    ∃ e events, t.events = e :: events ∧ t' = { t with
      events := events
      posted := t.posted ++ (HookDLL.hookEventProc (t.desktop.env rest) e).toList } := by
  simp only [backlogStep] at h
  split at h
  · exact absurd h (by simp)
  · next e events he => exact ⟨e, events, he, (Option.some.inj h).symm⟩

theorem handle_eq_some (h : backlogStep t (.handle rest) = some t') :
    ∃ msg posted, t.posted = msg :: posted ∧ t' = { t with
      posted := posted
      session := mainLoopStep t.state (t.desktop.env rest) msg t.session } := by
  simp only [backlogStep] at h
  split at h
  · exact absurd h (by simp)
  · next msg posted hp => exact ⟨msg, posted, hp, (Option.some.inj h).symm⟩

theorem listen_eq_some (h : backlogStep t .listen = some t') :
    t.state = .disconnected ∧
      t' = { t with state := .awaitClient, session := { t.session with wm := reset } } := by
  simp only [backlogStep] at h
  split at h
  · next hs => exact ⟨hs, (Option.some.inj h).symm⟩
  · exact absurd h (by simp)

theorem accept_eq_some (h : backlogStep t .accept = some t') :
    t.state = .awaitClient ∧
      t' = { t with state := .connected, session := { t.session with sent := [] } } := by
  simp only [backlogStep] at h
  split at h
  · next hs => exact ⟨hs, (Option.some.inj h).symm⟩
  · exact absurd h (by simp)

theorem disconnect_eq_some (h : backlogStep t .disconnect = some t') :
    t.state = .connected ∧ t' = { t with state := .disconnected, asked := false } := by
  simp only [backlogStep] at h
  split at h
  · next hs => exact ⟨hs, (Option.some.inj h).symm⟩
  · exact absurd h (by simp)

theorem request_eq_some (h : backlogStep t (.request rest) = some t') :
    t.state = .connected ∧
      t' = { t with session := handle t.session (.list (t.desktop.env rest)), asked := true } := by
  simp only [backlogStep] at h
  split at h
  · next hs => exact ⟨hs, (Option.some.inj h).symm⟩
  · exact absurd h (by simp)

end

end Backlog

/-! ## What the queues promise -/

/-- A taskbar window, visible or not. -/
def Desktop.Eligible (d : Desktop) (k : HWND) : Prop :=
  ∃ w, d.windows.lookup k = some w ∧ w.OnTaskbar

open Classical in
/-- What an event does to the map if no title is asked for. -/
noncomputable def WinEvent.update (d : Desktop) (e : WinEvent) : SetUpdate HWND :=
  if e.event = EVENT_OBJECT_DESTROY ∨ e.event = EVENT_OBJECT_HIDE then .remove e.hwnd
  else if e.event = EVENT_OBJECT_SHOW ∧ d.Eligible e.hwnd then .add e.hwnd
  else .keep

/-- What a change does by its event. -/
noncomputable def Change.update (d : Desktop) (c : Change) : SetUpdate HWND :=
  c.event.elim .keep (WinEvent.update d)

def HookMsg.update (msg : HookMsg) : SetUpdate HWND :=
  match msg.lParam with
  | .windowsCreate => .add msg.wParam
  | .windowsDestroy => .remove msg.wParam
  | .windowsRename => .keep

namespace Backlog

/-- The visible taskbar windows. -/
def listed (t : Backlog) : Set HWND := { k | t.desktop.Listed k }

/-- The map, or the list it will be filled with. -/
def base (t : Backlog) : Set HWND :=
  if t.asked then { k | k ∈ t.session.wm.activeWindowTasks } else t.listed

noncomputable def updates (t : Backlog) : List (SetUpdate HWND) :=
  t.posted.map HookMsg.update ++ t.events.map (WinEvent.update t.desktop)

noncomputable def outlook (t : Backlog) : Set HWND := outcome t.updates t.base

/-- The server has caught up. -/
def Quiet (t : Backlog) : Prop := t.events = [] ∧ t.posted = []

/-- The map lists what a refresh would. -/
def UpToDate (t : Backlog) : Prop := InSync ⟨t.desktop, t.session⟩

end Backlog

/-! ## Events and their updates -/

theorem update_eq_remove_iff {d : Desktop} {e : WinEvent} {k : HWND} :
    e.update d = .remove k ↔
      (e.event = EVENT_OBJECT_DESTROY ∨ e.event = EVENT_OBJECT_HIDE) ∧ e.hwnd = k := by
  unfold WinEvent.update
  by_cases hremove : e.event = EVENT_OBJECT_DESTROY ∨ e.event = EVENT_OBJECT_HIDE
  · simp [hremove]
  · rw [if_neg hremove]
    split <;> simp [hremove]

/-- Removals are the same on every desktop. -/
theorem remove_mem_map_update (d d' : Desktop) {k : HWND} {es : List WinEvent} :
    SetUpdate.remove k ∈ es.map (WinEvent.update d) ↔ SetUpdate.remove k ∈ es.map (WinEvent.update d') := by
  simp only [List.mem_map, update_eq_remove_iff]

theorem update_of_eligible_iff {d d' : Desktop} {e : WinEvent}
    (h : e.event = EVENT_OBJECT_SHOW → (d'.Eligible e.hwnd ↔ d.Eligible e.hwnd)) :
    e.update d' = e.update d := by
  unfold WinEvent.update
  by_cases hshow : e.event = EVENT_OBJECT_SHOW
  · rw [h hshow]
  · simp [hshow]

/-- An event is about its own window only. -/
theorem mem_act_update_of_ne {d : Desktop} {e : WinEvent} {k : HWND} (h : e.hwnd ≠ k) (S : Set HWND) :
    k ∈ (e.update d).act S ↔ k ∈ S := by
  apply mem_act_of_ne
  · unfold WinEvent.update
    split
    · simp
    · split <;> simp [h]
  · exact fun he => h (update_eq_remove_iff.mp he).2

/-- A show event the hook does not pass on although the window is a taskbar window. -/
def Skips (d : Desktop) (e : WinEvent) : Prop :=
  e.event = EVENT_OBJECT_SHOW ∧
    ∃ w, d.windows.lookup e.hwnd = some w ∧ w.OnTaskbar ∧ w.text.bytes = []

theorem Skips.update {d : Desktop} {e : WinEvent} (h : Skips d e) : e.update d = .add e.hwnd := by
  obtain ⟨hshow, w, hw, hon, -⟩ := h
  have hne : ¬(EVENT_OBJECT_SHOW = EVENT_OBJECT_DESTROY ∨ EVENT_OBJECT_SHOW = EVENT_OBJECT_HIDE) := by
    decide
  unfold WinEvent.update
  rw [hshow, if_neg hne, if_pos ⟨rfl, w, hw, hon⟩]

section
variable (d : Desktop) (rest : Env) (e : WinEvent)

/-- Without a window of that handle the hook finds no title. -/
theorem hook_isAltTabWindow_none {k : HWND} (h : d.windows.lookup k = none) :
    HookDLL.isAltTabWindow (d.env rest) k false = false := by
  rw [← Bool.not_eq_true, HookDLL.isAltTabWindow_iff]
  rintro ⟨-, -, htext, -⟩
  simp only [Desktop.env, h, Option.elim_none] at htext
  exact htext rfl

theorem hookEventProc_skips {d : Desktop} {e : WinEvent} (h : Skips d e) :
    HookDLL.hookEventProc (d.env rest) e = none := by
  obtain ⟨hshow, w, hw, -, htext⟩ := h
  have hhook : ¬ HookDLL.isAltTabWindow (d.env rest) e.hwnd false = true :=
    fun hh => ((hook_isAltTabWindow_iff d rest _ hw).mp hh).2 htext
  have hne : ¬(EVENT_OBJECT_SHOW = EVENT_OBJECT_DESTROY ∨ EVENT_OBJECT_SHOW = EVENT_OBJECT_HIDE) := by
    decide
  unfold HookDLL.hookEventProc
  rw [hshow, if_neg hne, if_pos rfl, if_neg hhook]

/-- Otherwise the message does what the event promised. -/
theorem hookEventProc_update (h : ¬ Skips d e) (S : Set HWND) :
    outcome ((HookDLL.hookEventProc (d.env rest) e).toList.map HookMsg.update) S = (e.update d).act S := by
  unfold HookDLL.hookEventProc WinEvent.update
  by_cases hremove : e.event = EVENT_OBJECT_DESTROY ∨ e.event = EVENT_OBJECT_HIDE
  · rw [if_pos hremove, if_pos hremove]
    rfl
  · rw [if_neg hremove, if_neg hremove]
    by_cases hshow : e.event = EVENT_OBJECT_SHOW
    · rw [if_pos hshow]
      by_cases hhook : HookDLL.isAltTabWindow (d.env rest) e.hwnd false = true
      · -- passed on: the window is there and on the taskbar
        have helig : d.Eligible e.hwnd := by
          cases hw : d.windows.lookup e.hwnd with
          | none =>
            rw [hook_isAltTabWindow_none d rest hw] at hhook
            exact absurd hhook (by decide)
          | some w => exact ⟨w, hw, ((hook_isAltTabWindow_iff d rest _ hw).mp hhook).1⟩
        rw [if_pos hhook, if_pos ⟨hshow, helig⟩]
        rfl
      · have helig : ¬ d.Eligible e.hwnd := by
          rintro ⟨w, hw, hon⟩
          refine h ⟨hshow, w, hw, hon, ?_⟩
          by_contra htext
          exact hhook ((hook_isAltTabWindow_iff d rest _ hw).mpr ⟨hon, htext⟩)
        rw [if_neg hhook, if_neg fun hc => helig hc.2]
        rfl
    · have hkeep : ¬(e.event = EVENT_OBJECT_SHOW ∧ d.Eligible e.hwnd) := fun hc => hshow hc.1
      rw [if_neg hshow, if_neg hkeep]
      split
      · split <;> rfl
      · rfl

/-- A handled message does what it promised. -/
theorem mainLoopStep_update (env : Env) (msg : HookMsg) (s : Session) :
    { k | k ∈ (mainLoopStep .connected env msg s).wm.activeWindowTasks } =
      msg.update.act { k | k ∈ s.wm.activeWindowTasks } := by
  obtain ⟨hwnd, code⟩ := msg
  ext k
  cases code with
  | windowsCreate => exact mem_addWindowTask env s hwnd k
  | windowsDestroy =>
    show k ∈ (removeWindowTask hwnd s).wm.activeWindowTasks ↔ _ ∧ _
    rw [mem_removeWindowTask, and_comm]
    rfl
  | windowsRename =>
    show k ∈ (updateWindowTaskTitle env hwnd s).wm.activeWindowTasks ↔ _
    rw [updateWindowTaskTitle_tasks]
    rfl

end

/-! ## A change of the desktop -/

/-- A window whose show event is queued still exists, or its removal is queued after. -/
def Covered (d : Desktop) (es : List WinEvent) : Prop :=
  ∀ e rest, e :: rest <:+ es → e.event = EVENT_OBJECT_SHOW →
    e.hwnd ∈ d.windows ∨ SetUpdate.remove e.hwnd ∈ rest.map (WinEvent.update d)

theorem Covered.tail {d : Desktop} {e : WinEvent} {es : List WinEvent} (h : Covered d (e :: es)) :
    Covered d es :=
  fun e' rest hs => h e' rest (hs.trans (List.suffix_cons e es))

theorem covered_append {d d' : Desktop} {es new : List WinEvent} (h : Covered d es)
    (hnew : ∀ e ∈ new, e.event = EVENT_OBJECT_SHOW → e.hwnd ∈ d'.windows)
    (hgone : ∀ k ∈ d.windows, k ∈ d'.windows ∨ SetUpdate.remove k ∈ new.map (WinEvent.update d')) :
    Covered d' (es ++ new) := by
  intro e rest hs hshow
  rcases List.suffix_or_suffix_of_suffix hs (List.suffix_append es new) with hin | ⟨init, hinit⟩
  · exact Or.inl (hnew e (hin.subset List.mem_cons_self) hshow)
  · cases init with
    | nil =>
      have he : e ∈ new := by
        rw [show new = e :: rest from hinit]
        exact List.mem_cons_self
      exact Or.inl (hnew e he hshow)
    | cons e' init =>
      rw [List.cons_append] at hinit
      obtain ⟨rfl, rfl⟩ := List.cons.inj hinit
      have hs' : e' :: init <:+ es := by
        rw [← List.cons_append, List.suffix_append_self_iff] at hs
        exact hs
      rw [List.map_append, List.mem_append]
      rcases h e' init hs' hshow with hmem | hremove
      · exact (hgone _ hmem).imp_right Or.inr
      · exact Or.inr (Or.inl ((remove_mem_map_update d d').mp hremove))

section
variable {d d' : Desktop} {es : List WinEvent}

/-- A queue reads the same for a window that is on the taskbar as much as before, or
whose queued show events are all followed by its removal. -/
theorem mem_updates_congr {k : HWND}
    (h : (d'.Eligible k ↔ d.Eligible k) ∨ (Covered d es ∧ k ∉ d.windows)) (S : Set HWND) :
    k ∈ outcome (es.map (WinEvent.update d')) S ↔ k ∈ outcome (es.map (WinEvent.update d)) S := by
  refine mem_outcome_map_congr (fun e rest hs => ?_) S
  by_cases hk : e.hwnd = k
  · subst hk
    rcases h with helig | ⟨hcov, hnone⟩
    · rw [update_of_eligible_iff fun _ => helig]
      exact Or.inl fun _ => Iff.rfl
    · by_cases hshow : e.event = EVENT_OBJECT_SHOW
      · exact Or.inr ((hcov e rest hs hshow).resolve_left hnone)
      · rw [update_of_eligible_iff fun h => absurd h hshow]
        exact Or.inl fun _ => Iff.rfl
  · exact Or.inl fun S => by rw [mem_act_update_of_ne hk, mem_act_update_of_ne hk]

theorem eligible_insert_of_ne {hwnd k : HWND} {w : Window} {hn : hwnd ≠ NULL} (h : k ≠ hwnd) :
    (d.insert hwnd w hn).Eligible k ↔ d.Eligible k := by
  unfold Desktop.Eligible Desktop.insert
  rw [AList.lookup_insert_ne h]

theorem eligible_erase_of_ne {hwnd k : HWND} (h : k ≠ hwnd) :
    (d.erase hwnd).Eligible k ↔ d.Eligible k := by
  unfold Desktop.Eligible Desktop.erase
  rw [AList.lookup_erase_ne h]

theorem eligible_insert_same {hwnd k : HWND} {w v : Window} {hn : hwnd ≠ NULL}
    (hw : d.windows.lookup hwnd = some w) (hon : v.OnTaskbar ↔ w.OnTaskbar) :
    (d.insert hwnd v hn).Eligible k ↔ d.Eligible k := by
  by_cases hk : k = hwnd
  · subst hk
    unfold Desktop.Eligible Desktop.insert
    rw [hw, AList.lookup_insert]
    simp [hon]
  · exact eligible_insert_of_ne hk

theorem mem_windows_insert {hwnd k : HWND} {w : Window} {hn : hwnd ≠ NULL} :
    k ∈ (d.insert hwnd w hn).windows ↔ k = hwnd ∨ k ∈ d.windows :=
  AList.mem_insert d.windows

theorem covered_insert {hwnd : HWND} {w : Window} {hn : hwnd ≠ NULL} {new : List WinEvent}
    (h : Covered d es) (hnew : ∀ e ∈ new, e.hwnd = hwnd) : Covered (d.insert hwnd w hn) (es ++ new) := by
  refine covered_append h (fun e he _ => ?_) fun k hk => Or.inl (mem_windows_insert.mpr (Or.inr hk))
  exact mem_windows_insert.mpr (Or.inl (hnew e he))

theorem update_remove {d : Desktop} {e : WinEvent}
    (h : e.event = EVENT_OBJECT_DESTROY ∨ e.event = EVENT_OBJECT_HIDE) : e.update d = .remove e.hwnd :=
  update_eq_remove_iff.mpr ⟨h, rfl⟩

theorem covered_erase {e : WinEvent} (h : Covered d es) (he : e.event = EVENT_OBJECT_DESTROY) :
    Covered (d.erase e.hwnd) (es ++ [e]) := by
  refine covered_append h (fun e' he' hshow => ?_) fun k hk => ?_
  · obtain rfl := List.mem_singleton.mp he'
    rw [he] at hshow
    exact absurd hshow (by decide)
  · by_cases hke : k = e.hwnd
    · subst hke
      exact Or.inr (List.mem_singleton.mpr (update_remove (Or.inl he)).symm)
    · exact Or.inl (AList.mem_erase.mpr ⟨hke, hk⟩)

theorem covered_change {c : Change} (hd : d.apply c = some d') (h : Covered d es) :
    Covered d' (es ++ c.event.toList) := by
  cases c with
  | created hwnd parent owner exStyle text =>
    obtain ⟨-, hn, rfl⟩ := created_eq_some hd
    exact covered_insert h fun e he => absurd he List.not_mem_nil
  | shown hwnd =>
    obtain ⟨w, hn, -, rfl⟩ := update_eq_some hd
    exact covered_insert h fun e he => by rw [List.mem_singleton.mp he]
  | hidden hwnd =>
    obtain ⟨w, hn, -, rfl⟩ := update_eq_some hd
    exact covered_insert h fun e he => by rw [List.mem_singleton.mp he]
  | retitled hwnd text =>
    obtain ⟨w, hn, -, rfl⟩ := update_eq_some hd
    exact covered_insert h fun e he => by rw [List.mem_singleton.mp he]
  | destroyed hwnd =>
    obtain rfl := destroyed_eq_some hd
    exact covered_erase (e := ⟨EVENT_OBJECT_DESTROY, hwnd, OBJID_WINDOW, CHILDID_SELF⟩) h rfl

theorem update_of_event {c : Change} {e : WinEvent} (h : c.event = some e) : c.update d = e.update d := by
  unfold Change.update
  rw [h]
  rfl

theorem update_shown (d : Desktop) (hwnd : HWND) :
    (Change.shown hwnd).update d = .add hwnd ∧ d.Eligible hwnd ∨
      (Change.shown hwnd).update d = .keep ∧ ¬ d.Eligible hwnd := by
  have hne : ¬(EVENT_OBJECT_SHOW = EVENT_OBJECT_DESTROY ∨ EVENT_OBJECT_SHOW = EVENT_OBJECT_HIDE) := by
    decide
  rw [update_of_event rfl]
  unfold WinEvent.update
  rw [if_neg hne]
  by_cases helig : d.Eligible hwnd
  · exact Or.inl ⟨if_pos ⟨rfl, helig⟩, helig⟩
  · exact Or.inr ⟨if_neg fun hc => helig hc.2, helig⟩

theorem update_hidden (d : Desktop) (hwnd : HWND) : (Change.hidden hwnd).update d = .remove hwnd := by
  rw [update_of_event rfl]
  exact update_remove (Or.inr rfl)

theorem update_retitled (d : Desktop) (hwnd : HWND) (text : CString) :
    (Change.retitled hwnd text).update d = .keep := by
  have hne : ¬(EVENT_OBJECT_NAMECHANGE = EVENT_OBJECT_DESTROY ∨
      EVENT_OBJECT_NAMECHANGE = EVENT_OBJECT_HIDE) := by decide
  have hne' : EVENT_OBJECT_NAMECHANGE ≠ EVENT_OBJECT_SHOW := by decide
  rw [update_of_event rfl]
  unfold WinEvent.update
  rw [if_neg hne, if_neg fun hc => hne' hc.1]

theorem update_destroyed (d : Desktop) (hwnd : HWND) :
    (Change.destroyed hwnd).update d = .remove hwnd := by
  rw [update_of_event rfl]
  exact update_remove (Or.inl rfl)

theorem outcome_append_toList (d : Desktop) (es : List WinEvent) (c : Change) (S : Set HWND) :
    outcome ((es ++ c.event.toList).map (WinEvent.update d)) S =
      (c.update d).act (outcome (es.map (WinEvent.update d)) S) := by
  unfold Change.update
  rw [List.map_append, outcome_append]
  cases c.event with
  | none => rfl
  | some e => rfl

theorem outcome_insert_same {hwnd : HWND} {w v : Window} {hn : hwnd ≠ NULL}
    (hw : d.windows.lookup hwnd = some w) (hon : v.OnTaskbar ↔ w.OnTaskbar) (S : Set HWND) :
    outcome (es.map (WinEvent.update (d.insert hwnd v hn))) S =
      outcome (es.map (WinEvent.update d)) S := by
  ext k
  exact mem_updates_congr (Or.inl (eligible_insert_same hw hon)) S

/-- **A change of the desktop.**  The queue, read on the new desktop and with the event the
change raises, does what it did and then what the event does. -/
theorem outcome_change {c : Change} (hd : d.apply c = some d') (hcov : Covered d es) (S : Set HWND) :
    outcome ((es ++ c.event.toList).map (WinEvent.update d')) S =
      (c.update d').act (outcome (es.map (WinEvent.update d)) S) := by
  rw [outcome_append_toList]
  cases c with
  | created hwnd parent owner exStyle text =>
    obtain ⟨hnew, hn, rfl⟩ := created_eq_some hd
    congr 1
    ext k
    refine mem_updates_congr ?_ S
    by_cases hk : k = hwnd
    · subst hk
      exact Or.inr ⟨hcov, hnew⟩
    · exact Or.inl (eligible_insert_of_ne hk)
  | shown hwnd =>
    obtain ⟨w, hn, hw, rfl⟩ := update_eq_some hd
    rw [outcome_insert_same (v := { w with visible := true }) hw Iff.rfl]
  | hidden hwnd =>
    obtain ⟨w, hn, hw, rfl⟩ := update_eq_some hd
    rw [outcome_insert_same (v := { w with visible := false }) hw Iff.rfl]
  | retitled hwnd text =>
    obtain ⟨w, hn, hw, rfl⟩ := update_eq_some hd
    rw [outcome_insert_same (v := { w with text := text }) hw Iff.rfl]
  | destroyed hwnd =>
    -- the queue may read differently for the window that goes, but that is removed
    obtain rfl := destroyed_eq_some hd
    rw [update_destroyed]
    ext k
    refine and_congr_left fun hk => ?_
    exact mem_updates_congr (Or.inl (eligible_erase_of_ne hk)) S

/-- The visible taskbar windows change as the event says. -/
theorem listed_change {c : Change} (hd : d.apply c = some d') :
    { k | d'.Listed k } = (c.update d').act { k | d.Listed k } := by
  ext k
  cases c with
  | created hwnd parent owner exStyle text =>
    obtain ⟨hnew, hn, rfl⟩ := created_eq_some hd
    refine listed_insert_same hn ⟨?_, fun hv => absurd hv.1 Bool.false_ne_true⟩ k
    rintro ⟨w, hw, -⟩
    exact absurd (AList.lookup_isSome.mp (by rw [hw]; rfl)) hnew
  | shown hwnd =>
    obtain ⟨w, hn, hw, rfl⟩ := update_eq_some hd
    have hw' : (d.insert hwnd { w with visible := true } hn).windows.lookup hwnd =
        some { w with visible := true } := AList.lookup_insert _
    rcases update_shown (d.insert hwnd { w with visible := true } hn) hwnd with
      ⟨hadd, w₁, hw₁, hon⟩ | ⟨hkeep, helig⟩
    · obtain rfl := Option.some.inj (hw'.symm.trans hw₁)
      rw [hadd]
      show Desktop.Listed _ k ↔ k = hwnd ∨ d.Listed k
      rw [Desktop.listed_insert]
      by_cases hk : k = hwnd
      · subst hk
        exact iff_of_true (Or.inl ⟨rfl, rfl, hon⟩) (Or.inl rfl)
      · simp [hk]
    · rw [hkeep]
      have hon : ¬ w.OnTaskbar := fun hon => helig ⟨_, hw', hon⟩
      refine listed_insert_same hn ?_ k
      exact iff_of_false (fun hl => hon ((listed_of_lookup hw).mp hl).2) fun hl => hon hl.2
  | hidden hwnd =>
    obtain ⟨w, hn, hw, rfl⟩ := update_eq_some hd
    rw [update_hidden]
    show Desktop.Listed _ k ↔ d.Listed k ∧ k ≠ hwnd
    rw [Desktop.listed_insert]
    simp [and_comm]
  | retitled hwnd text =>
    obtain ⟨w, hn, hw, rfl⟩ := update_eq_some hd
    have hl : d.Listed hwnd ↔ w.visible = true ∧ w.OnTaskbar := listed_of_lookup hw
    rw [update_retitled]
    exact listed_insert_same (w := { w with text := text }) hn hl k
  | destroyed hwnd =>
    obtain rfl := destroyed_eq_some hd
    rw [update_destroyed]
    show Desktop.Listed _ k ↔ d.Listed k ∧ k ≠ hwnd
    rw [Desktop.listed_erase, and_comm]

end

end RemoteTaskbar
