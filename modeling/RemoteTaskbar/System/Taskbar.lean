import RemoteTaskbar.Lib.Trans
import RemoteTaskbar.Server.MainLoop

/-!
# Incremental maintenance and full enumeration

`Desktop` is the windows that exist.  Each change of it raises its event, which
the hook filters and the connected server handles before the next change
(`taskbarStep`).  `InSync` says that the map's windows are those a refresh would
find at that moment, which are the visible taskbar windows (`inSync_iff`).

Hook and refresh disagree on one point: the hook passes on the show event of a
window only if the window has a title.  A change that shows a hidden taskbar
window without title is the one change that breaks the agreement
(`inSync_step_iff`).
-/

namespace RemoteTaskbar

open Wire Trans

/-! ## The desktop -/

structure Window where
  visible : Bool
  parent : HWND
  owner : HWND
  exStyle : Word
  text : CString
deriving Inhabited

/-- A taskbar window has neither parent nor owner and is no tool window. -/
def Window.OnTaskbar (w : Window) : Prop :=
  (w.parent = NULL ∧ w.owner = NULL) ∧ w.exStyle &&& WS_EX_TOOLWINDOW = 0

structure Desktop where
  windows : AList fun _ : HWND => Window
  noNull : NULL ∉ windows

namespace Desktop

/-- What the OS answers about windows; icons and the rest are as in `rest`. -/
def env (d : Desktop) (rest : Env) : Env :=
  let getParent := fun hwnd => (d.windows.lookup hwnd).elim NULL Window.parent
  { rest with
    -- the top-level windows
    enumWindows := d.windows.keys.filter (getParent · = NULL)
    isWindowVisible := fun hwnd => (d.windows.lookup hwnd).elim false Window.visible
    getParent := getParent
    getOwner := fun hwnd => (d.windows.lookup hwnd).elim NULL Window.owner
    exStyle := fun hwnd => (d.windows.lookup hwnd).elim 0 Window.exStyle
    windowText := fun hwnd => (d.windows.lookup hwnd).elim default Window.text }

def insert (d : Desktop) (hwnd : HWND) (w : Window) (h : hwnd ≠ NULL) : Desktop where
  windows := d.windows.insert hwnd w
  noNull := by
    rw [AList.mem_insert]
    rintro (rfl | hn)
    · exact h rfl
    · exact d.noNull hn

def erase (d : Desktop) (hwnd : HWND) : Desktop where
  windows := d.windows.erase hwnd
  noNull := by
    rw [AList.mem_erase]
    exact fun h => d.noNull h.2

/-- The windows a refresh finds. -/
def Listed (d : Desktop) (k : HWND) : Prop :=
  ∃ w, d.windows.lookup k = some w ∧ w.visible = true ∧ w.OnTaskbar

theorem listed_insert (d : Desktop) (hwnd : HWND) (w : Window) (h : hwnd ≠ NULL) (k : HWND) :
    (d.insert hwnd w h).Listed k ↔
      (k = hwnd ∧ w.visible = true ∧ w.OnTaskbar) ∨ (k ≠ hwnd ∧ d.Listed k) := by
  unfold Listed insert
  by_cases hk : k = hwnd
  · subst hk
    simp
  · simp [hk, AList.lookup_insert_ne hk]

theorem listed_erase (d : Desktop) (hwnd k : HWND) :
    (d.erase hwnd).Listed k ↔ k ≠ hwnd ∧ d.Listed k := by
  unfold Listed erase
  by_cases hk : k = hwnd
  · subst hk
    simp
  · simp [hk, AList.lookup_erase_ne hk]

end Desktop

/-! ## Changes -/

/-- What happens to a window; its parent, owner and extended style stay those it came with. -/
inductive Change where
  /-- a new window, hidden until it is shown -/
  | created (hwnd parent owner : HWND) (exStyle : Word) (text : CString)
  | shown (hwnd : HWND)
  | hidden (hwnd : HWND)
  | retitled (hwnd : HWND) (text : CString)
  | destroyed (hwnd : HWND)

/-- A window that exists with some of its attributes changed. -/
def Desktop.update (d : Desktop) (hwnd : HWND) (f : Window → Window) : Option Desktop :=
  match d.windows.lookup hwnd with
  | none => none
  | some w => if h : hwnd ≠ NULL then some (d.insert hwnd (f w) h) else none

/-- The desktop after a change, or `none` if the change cannot happen. -/
def Desktop.apply (d : Desktop) : Change → Option Desktop
  | .created hwnd parent owner exStyle text =>
    if h : hwnd ≠ NULL then
      if hwnd ∈ d.windows then none else some (d.insert hwnd ⟨false, parent, owner, exStyle, text⟩ h)
    else none
  | .shown hwnd => d.update hwnd fun w => { w with visible := true }
  | .hidden hwnd => d.update hwnd fun w => { w with visible := false }
  | .retitled hwnd text => d.update hwnd fun w => { w with text := text }
  | .destroyed hwnd => if hwnd ∈ d.windows then some (d.erase hwnd) else none

/-- The event a change raises about the whole window; the creation event is
outside the range the hook is installed for. -/
def Change.event : Change → Option WinEvent
  | .created _ _ _ _ _ => none
  | .shown hwnd => some ⟨EVENT_OBJECT_SHOW, hwnd, OBJID_WINDOW, CHILDID_SELF⟩
  | .hidden hwnd => some ⟨EVENT_OBJECT_HIDE, hwnd, OBJID_WINDOW, CHILDID_SELF⟩
  | .retitled hwnd _ => some ⟨EVENT_OBJECT_NAMECHANGE, hwnd, OBJID_WINDOW, CHILDID_SELF⟩
  | .destroyed hwnd => some ⟨EVENT_OBJECT_DESTROY, hwnd, OBJID_WINDOW, CHILDID_SELF⟩

structure Taskbar where
  desktop : Desktop
  session : Session

/-- A change, its event, and the event handled by the connected server. -/
def taskbarStep (t : Taskbar) (l : Change × Env) : Option Taskbar :=
  (t.desktop.apply l.1).map fun d =>
    ⟨d, match l.1.event with
      | none => t.session
      | some e => deliver .connected t.session ⟨e, d.env l.2, d.env l.2⟩⟩

/-- The map's windows are those a refresh would find now. -/
def InSync (t : Taskbar) : Prop :=
  ∀ rest k, k ∈ t.session.wm.activeWindowTasks ↔
    k ∈ (refreshWindowTasksList (t.desktop.env rest) t.session).wm.activeWindowTasks

/-- A change that shows a hidden taskbar window without title. -/
def ShowsUntitled (d : Desktop) : Change → Prop
  | .shown hwnd =>
    ∃ w, d.windows.lookup hwnd = some w ∧ w.visible = false ∧ w.OnTaskbar ∧ w.text.bytes = []
  | _ => False

/-! ## What hook and refresh see -/

section
variable (d : Desktop) (rest : Env) (k : HWND)

theorem mem_refresh_iff_listed (s : Session) :
    k ∈ (refreshWindowTasksList (d.env rest) s).wm.activeWindowTasks ↔ d.Listed k := by
  rw [mem_refreshWindowTasksList, isAltTabWindow_iff]
  show k ∈ d.windows.keys.filter _ ∧ _ ↔ _
  rw [List.mem_filter, ← AList.mem_keys, ← AList.lookup_isSome]
  unfold Desktop.Listed Window.OnTaskbar Desktop.env
  cases h : d.windows.lookup k with
  | none => simp
  | some w =>
    simp only [h, Option.isSome_some, true_and, Option.elim_some, decide_eq_true_eq, Option.some.injEq,
      exists_eq_left']
    tauto

theorem inSync_iff (t : Taskbar) :
    InSync t ↔ ∀ k, k ∈ t.session.wm.activeWindowTasks ↔ t.desktop.Listed k := by
  constructor
  · intro h k
    rw [h default k, mem_refresh_iff_listed]
  · intro h rest k
    rw [h k, mem_refresh_iff_listed]

/-- The hook passes on the windows a refresh may find that have a title. -/
theorem hook_isAltTabWindow_iff {w : Window} (h : d.windows.lookup k = some w) :
    HookDLL.isAltTabWindow (d.env rest) k false = true ↔ w.OnTaskbar ∧ w.text.bytes ≠ [] := by
  have hnull : k ≠ NULL := by
    rintro rfl
    exact d.noNull (AList.lookup_isSome.mp (by rw [h]; rfl))
  rw [HookDLL.isAltTabWindow_iff]
  unfold Window.OnTaskbar Desktop.env
  simp [h, hnull]
  tauto

end

/-! ## One change -/

/-- A change that raises no event leaves the session; any other has its event
delivered on the new desktop. -/
theorem taskbarStep_eq_some {t t' : Taskbar} {c : Change} {rest : Env}
    (h : taskbarStep t (c, rest) = some t') :
    ∃ d, t.desktop.apply c = some d ∧ t' = ⟨d, match c.event with
      | none => t.session
      | some e => deliver .connected t.session ⟨e, d.env rest, d.env rest⟩⟩ := by
  obtain ⟨d, hd, rfl⟩ := Option.map_eq_some_iff.mp h
  exact ⟨d, hd, rfl⟩

theorem update_eq_some {d d' : Desktop} {hwnd : HWND} {f : Window → Window}
    (h : d.update hwnd f = some d') :
    ∃ w hn, d.windows.lookup hwnd = some w ∧ d' = d.insert hwnd (f w) hn := by
  unfold Desktop.update at h
  cases hw : d.windows.lookup hwnd with
  | none => rw [hw] at h; exact absurd h (by simp)
  | some w =>
    rw [hw] at h
    simp only [] at h
    split at h
    · next hn => exact ⟨w, hn, rfl, (Option.some.inj h).symm⟩
    · exact absurd h (by simp)

theorem created_eq_some {d d' : Desktop} {hwnd parent owner : HWND} {exStyle : Word} {text : CString}
    (h : d.apply (.created hwnd parent owner exStyle text) = some d') :
    hwnd ∉ d.windows ∧ ∃ hn, d' = d.insert hwnd ⟨false, parent, owner, exStyle, text⟩ hn := by
  simp only [Desktop.apply] at h
  by_cases hn : hwnd = NULL
  · simp [hn] at h
  · by_cases hmem : hwnd ∈ d.windows
    · simp [hmem] at h
    · simp only [ne_eq, hn, not_false_eq_true, dite_true, hmem, if_false] at h
      exact ⟨hmem, hn, (Option.some.inj h).symm⟩

theorem destroyed_eq_some {d d' : Desktop} {hwnd : HWND} (h : d.apply (.destroyed hwnd) = some d') :
    d' = d.erase hwnd := by
  simp only [Desktop.apply] at h
  split at h
  · exact (Option.some.inj h).symm
  · exact absurd h (by simp)

/-- The map lists the windows a refresh finds on `d`. -/
def Lists (s : Session) (d : Desktop) : Prop := ∀ k, k ∈ s.wm.activeWindowTasks ↔ d.Listed k

theorem listed_of_lookup {d : Desktop} {k : HWND} {w : Window} (h : d.windows.lookup k = some w) :
    d.Listed k ↔ w.visible = true ∧ w.OnTaskbar := by
  constructor
  · rintro ⟨w', hw', hl⟩
    obtain rfl : w' = w := Option.some.inj (hw'.symm.trans h)
    exact hl
  · exact fun hl => ⟨w, h, hl⟩

/-- A changed window that is a visible taskbar window as much as before. -/
theorem listed_insert_same {d : Desktop} {hwnd : HWND} {w : Window} (hn : hwnd ≠ NULL)
    (h : d.Listed hwnd ↔ w.visible = true ∧ w.OnTaskbar) (k : HWND) :
    (d.insert hwnd w hn).Listed k ↔ d.Listed k := by
  rw [Desktop.listed_insert]
  by_cases hk : k = hwnd
  · subst hk
    simp [h]
  · simp [hk]

section
variable {d : Desktop} {s : Session} (ht : Lists s d) (rest : Env)
include ht

theorem lists_shown {hwnd : HWND} {w : Window} (hw : d.windows.lookup hwnd = some w) (hn : hwnd ≠ NULL) :
    let d' := d.insert hwnd { w with visible := true } hn
    Lists (deliver .connected s
        ⟨⟨EVENT_OBJECT_SHOW, hwnd, OBJID_WINDOW, CHILDID_SELF⟩, d'.env rest, d'.env rest⟩) d' ↔
      ¬ (w.visible = false ∧ w.OnTaskbar ∧ w.text.bytes = []) := by
  intro d'
  have hw' : d'.windows.lookup hwnd = some { w with visible := true } := AList.lookup_insert _
  have hl' : d'.Listed hwnd ↔ w.OnTaskbar := by
    rw [listed_of_lookup hw']
    exact ⟨And.right, fun h => ⟨rfl, h⟩⟩
  have hl : d.Listed hwnd ↔ w.visible = true ∧ w.OnTaskbar := listed_of_lookup hw
  have hother : ∀ k, k ≠ hwnd → (d'.Listed k ↔ d.Listed k) := by
    intro k hk
    rw [Desktop.listed_insert]
    simp [hk]
  rw [deliver_show s _ rfl]
  by_cases hhook : HookDLL.isAltTabWindow (d'.env rest) hwnd false = true
  · -- the window is added, if it was not there
    obtain ⟨hon, htext⟩ := (hook_isAltTabWindow_iff d' rest hwnd hw').mp hhook
    rw [if_pos hhook]
    refine ⟨fun _ h => htext h.2.2, fun _ k => ?_⟩
    rw [mem_addWindowTask]
    by_cases hk : k = hwnd
    · subst hk
      exact ⟨fun _ => hl'.mpr hon, fun _ => Or.inl rfl⟩
    · rw [hother k hk, ← ht k]
      exact ⟨fun h => h.resolve_left hk, Or.inr⟩
  · -- nothing is posted
    rw [if_neg hhook]
    have hskip : w.OnTaskbar → w.text.bytes = [] := by
      intro hon
      by_contra htext
      exact hhook ((hook_isAltTabWindow_iff d' rest hwnd hw').mpr ⟨hon, htext⟩)
    constructor
    · rintro h ⟨hvis, hon, -⟩
      have hmem := (h hwnd).mpr (hl'.mpr hon)
      rw [ht hwnd, hl, hvis] at hmem
      exact absurd hmem.1 (by decide)
    · intro h k
      rw [ht k]
      by_cases hk : k = hwnd
      · subst hk
        rw [hl, hl']
        refine ⟨And.right, fun hon => ⟨?_, hon⟩⟩
        by_contra hvis
        exact h ⟨Bool.not_eq_true _ ▸ hvis, hon, hskip hon⟩
      · exact (hother k hk).symm

theorem lists_hidden (hwnd : HWND) (d' : Desktop) (h : ∀ k, d'.Listed k ↔ k ≠ hwnd ∧ d.Listed k) :
    Lists (removeWindowTask hwnd s) d' := by
  intro k
  rw [mem_removeWindowTask, h k, ht k]

theorem lists_same {s' : Session} {d' : Desktop} (hs : s'.wm.activeWindowTasks = s.wm.activeWindowTasks)
    (hd : ∀ k, d'.Listed k ↔ d.Listed k) : Lists s' d' := by
  intro k
  rw [hs, hd k, ht k]

end

/-- **One change.**  From an agreement, a change keeps it or breaks it according to
whether it shows a hidden taskbar window without title. -/
theorem inSync_step_iff {t t' : Taskbar} {c : Change} {rest : Env} (ht : InSync t)
    (h : taskbarStep t (c, rest) = some t') : InSync t' ↔ ¬ ShowsUntitled t.desktop c := by
  obtain ⟨d, s⟩ := t
  obtain ⟨d', hd, rfl⟩ := taskbarStep_eq_some h
  rw [inSync_iff] at ht ⊢
  cases c with
  | created hwnd parent owner exStyle text =>
    obtain ⟨hnew, hn, rfl⟩ := created_eq_some hd
    refine ⟨fun _ hf => hf, fun _ => ?_⟩
    refine lists_same ht rfl (listed_insert_same hn ⟨?_, fun hv => absurd hv.1 (by simp)⟩)
    rintro ⟨w, hw, -⟩
    exact absurd (AList.lookup_isSome.mp (by rw [hw]; rfl)) hnew
  | shown hwnd =>
    obtain ⟨w, hn, hw, rfl⟩ := update_eq_some hd
    have hbad : ShowsUntitled d (.shown hwnd) ↔ w.visible = false ∧ w.OnTaskbar ∧ w.text.bytes = [] := by
      constructor
      · rintro ⟨w', hw', hu⟩
        obtain rfl : w' = w := Option.some.inj (hw'.symm.trans hw)
        exact hu
      · exact fun hu => ⟨w, hw, hu⟩
    rw [hbad]
    exact lists_shown ht rest hw hn
  | hidden hwnd =>
    obtain ⟨w, hn, hw, rfl⟩ := update_eq_some hd
    refine ⟨fun _ hf => hf, fun _ => ?_⟩
    show Lists (deliver .connected s _) _
    rw [deliver_hide s _ (Or.inr rfl)]
    refine lists_hidden ht hwnd _ fun k => ?_
    rw [Desktop.listed_insert]
    simp
  | retitled hwnd text =>
    obtain ⟨w, hn, hw, rfl⟩ := update_eq_some hd
    refine ⟨fun _ hf => hf, fun _ => ?_⟩
    have hl : d.Listed hwnd ↔ w.visible = true ∧ w.OnTaskbar := listed_of_lookup hw
    refine lists_same ht ?_ (listed_insert_same hn hl)
    show (deliver .connected s _).wm.activeWindowTasks = _
    rw [deliver_nameChange s _ rfl]
    split
    · exact updateWindowTaskTitle_tasks _ _ _
    · rfl
  | destroyed hwnd =>
    obtain rfl := destroyed_eq_some hd
    refine ⟨fun _ hf => hf, fun _ => ?_⟩
    show Lists (deliver .connected s _) _
    rw [deliver_hide s _ (Or.inl rfl)]
    exact lists_hidden ht hwnd _ (Desktop.listed_erase d hwnd)

/-! ## Histories -/

/-- **Incremental maintenance.**  Along a history the map lists at every moment what
a refresh would, exactly if no change shows a hidden taskbar window without
title. -/
theorem always_inSync_iff (t : Taskbar) (ht : InSync t) (cs : List (Change × Env)) :
    Always taskbarStep InSync t cs ↔
      Guarded taskbarStep (fun t l => ¬ ShowsUntitled t.desktop l.1) t cs :=
  always_iff_guarded (fun _ _ _ ht hg h => (inSync_step_iff ht h).mpr hg) (fun _ h => h)
    (fun _ _ _ ht hg h hs => hg ((inSync_step_iff ht h).mp hs)) cs ht

/-- The desktop without windows. -/
def Desktop.empty : Desktop := ⟨∅, AList.notMem_empty NULL⟩

theorem inSync_empty : InSync ⟨Desktop.empty, Session.init⟩ := by
  rw [inSync_iff]
  intro k
  constructor
  · exact fun h => absurd h (AList.notMem_empty k)
  · rintro ⟨w, hw, -⟩
    exact absurd hw (by simp [Desktop.empty])

/-- A window with a title comes, is shown, loses its title and goes. -/
theorem always_inSync_titled :
    let hwnd : HWND := Handle.ofInt 7
    Always taskbarStep InSync ⟨Desktop.empty, Session.init⟩
      [(.created hwnd NULL NULL 0 ⟨[0x41], by decide⟩, default), (.shown hwnd, default),
        (.retitled hwnd default, default), (.destroyed hwnd, default)] := by
  intro hwnd
  refine (always_inSync_iff _ inSync_empty _).mpr ?_
  refine guarded_cons rfl not_false (guarded_cons rfl ?_ (guarded_cons rfl not_false
    (guarded_cons rfl not_false trivial)))
  rintro ⟨w, hw, -, -, htext⟩
  obtain rfl := Option.some.inj hw
  exact absurd htext (by decide)

/-- A window without title comes and is shown: a refresh would list it, but the map
does not. -/
theorem inSync_fails_untitled :
    let hwnd : HWND := Handle.ofInt 7
    ∃ t, run taskbarStep ⟨Desktop.empty, Session.init⟩
        [(.created hwnd NULL NULL 0 default, default), (.shown hwnd, default)] = some t ∧
      t.session.keys = [] ∧
      (refreshWindowTasksList (t.desktop.env default) t.session).keys = [hwnd] ∧ ¬ InSync t := by
  intro hwnd
  refine ⟨_, rfl, by decide, by decide, fun h => ?_⟩
  have hk := (h default hwnd).mpr (by decide)
  exact absurd hk (by decide)

end RemoteTaskbar
