import RemoteTaskbar.Server.MainLoop

/-!
# Events about a part of a window

A caret, a menu or a list item has events of its own, which carry the window the
part is in and tell by `idObject` and `idChild` that they are not about the
window.  `hookEventProc` looks at neither, so such an event is taken for one
about the window: it does no harm exactly when the map already is what the event
would make it (`Harmless`).
-/

namespace RemoteTaskbar

open Wire

inductive PartEventKind where
  | shown
  | hidden
  | destroyed
deriving DecidableEq

def PartEventKind.event : PartEventKind → Word
  | shown => EVENT_OBJECT_SHOW
  | hidden => EVENT_OBJECT_HIDE
  | destroyed => EVENT_OBJECT_DESTROY

/-- An event about something other than a whole window, and what the OS answers
to the hook and to the handler. -/
structure PartEvent where
  kind : PartEventKind
  hwnd : HWND
  idObject : Word
  idChild : Word
  part : idObject ≠ OBJID_WINDOW ∨ idChild ≠ CHILDID_SELF
  hookEnv : Env
  env : Env

def PartEvent.delivery (e : PartEvent) : Delivery :=
  ⟨⟨e.kind.event, e.hwnd, e.idObject, e.idChild⟩, e.hookEnv, e.env⟩

def deliverParts (s : Session) (es : List PartEvent) : Session :=
  es.foldl (fun s e => deliver .connected s e.delivery) s

def Packet.addsOrRemoves : Packet → Bool
  | .addTask _ _ _ => true
  | .removeTask _ => true
  | _ => false

/-- From `s` to `s'` the map is unchanged and no task was added or removed. -/
def Untouched (s s' : Session) : Prop :=
  s'.wm.activeWindowTasks = s.wm.activeWindowTasks ∧
    ∃ new, s'.sent = s.sent ++ new ∧ ∀ p ∈ new, p.addsOrRemoves = false

/-- The window is listed if the event would list it, and not if it would drop it. -/
def Harmless (s : Session) (e : PartEvent) : Prop :=
  match e.kind with
  | .shown => HookDLL.isAltTabWindow e.hookEnv e.hwnd false = true → e.hwnd ∈ s.wm.activeWindowTasks
  | .hidden => e.hwnd ∉ s.wm.activeWindowTasks
  | .destroyed => e.hwnd ∉ s.wm.activeWindowTasks

/-! ## One event -/

section
variable (env : Env) (hwnd : HWND) (s : Session)

theorem sendMissingIcon_sent (hIcon : HICON) :
    ∃ icons, (sendMissingIcon env hIcon s).sent = s.sent ++ icons := by
  rcases sendMissingIcon_cases env s hIcon with ⟨-, h⟩ | ⟨-, h⟩
  · exact ⟨[], by rw [h, List.append_nil]⟩
  · exact ⟨[.sendIcon hIcon (env.png hIcon)], by rw [h]⟩

/-- An add handler does nothing for a window that is listed, and otherwise ends
with an add frame. -/
theorem addWindowTask_cases :
    (hwnd ∈ s.wm.activeWindowTasks ∧ addWindowTask env hwnd s = s) ∨
    (hwnd ∉ s.wm.activeWindowTasks ∧
      ∃ icons title, (addWindowTask env hwnd s).sent =
        s.sent ++ (icons ++ [.addTask hwnd (getHICON env hwnd) title])) := by
  by_cases h : hwnd ∈ s.wm.activeWindowTasks
  · exact Or.inl ⟨h, if_pos h⟩
  · refine Or.inr ⟨h, ?_⟩
    obtain ⟨icons, hi⟩ :=
      sendMissingIcon_sent env (insertTask hwnd (getHICON env hwnd) s) (getHICON env hwnd)
    refine ⟨icons, getWindowTitle (env.windowText hwnd), ?_⟩
    unfold addWindowTask sendAddTask
    rw [if_neg h, Session.sendMessage_sent, hi, ← List.append_assoc]
    rfl

theorem removeWindowTask_cases :
    (hwnd ∉ s.wm.activeWindowTasks ∧ removeWindowTask hwnd s = s) ∨
    (hwnd ∈ s.wm.activeWindowTasks ∧ (removeWindowTask hwnd s).sent = s.sent ++ [.removeTask hwnd]) := by
  unfold removeWindowTask
  by_cases h : hwnd ∈ s.wm.activeWindowTasks
  · exact Or.inr ⟨h, by rw [if_pos h]; rfl⟩
  · exact Or.inl ⟨h, if_neg h⟩

end

/-- A harmless event does nothing at all, any other sends an add or a remove. -/
theorem deliver_part (s : Session) (e : PartEvent) :
    (Harmless s e ∧ deliver .connected s e.delivery = s) ∨
    (¬ Harmless s e ∧ ∃ pre p, (deliver .connected s e.delivery).sent = s.sent ++ (pre ++ [p]) ∧
      p.addsOrRemoves = true) := by
  have hdrop : (e.hwnd ∉ s.wm.activeWindowTasks ∧ removeWindowTask e.hwnd s = s) ∨
      (¬ e.hwnd ∉ s.wm.activeWindowTasks ∧ ∃ pre p,
        (removeWindowTask e.hwnd s).sent = s.sent ++ (pre ++ [p]) ∧ p.addsOrRemoves = true) := by
    rcases removeWindowTask_cases e.hwnd s with h | ⟨h, hsent⟩
    · exact Or.inl h
    · exact Or.inr ⟨not_not_intro h, [], .removeTask e.hwnd, hsent, rfl⟩
  obtain ⟨kind, hwnd, idObject, idChild, part, hookEnv, env⟩ := e
  cases kind with
  | hidden =>
    rw [deliver_hide s _ (Or.inr rfl)]
    exact hdrop
  | destroyed =>
    rw [deliver_hide s _ (Or.inl rfl)]
    exact hdrop
  | shown =>
    rw [deliver_show s _ rfl]
    by_cases ha : HookDLL.isAltTabWindow hookEnv hwnd false = true
    · rw [PartEvent.delivery, if_pos ha]
      rcases addWindowTask_cases env hwnd s with ⟨h, he⟩ | ⟨h, icons, title, hsent⟩
      · exact Or.inl ⟨fun _ => h, he⟩
      · exact Or.inr ⟨fun hh => h (hh ha), icons, _, hsent, rfl⟩
    · rw [PartEvent.delivery, if_neg ha]
      exact Or.inl ⟨fun hh => absurd hh ha, rfl⟩

/-! ## Any number of events -/

theorem deliverParts_sent (s : Session) (es : List PartEvent) :
    ∃ new, (deliverParts s es).sent = s.sent ++ new := by
  induction es generalizing s with
  | nil => exact ⟨[], (List.append_nil _).symm⟩
  | cons e es ih =>
    obtain ⟨new, hnew⟩ := ih (deliver .connected s e.delivery)
    rcases deliver_part s e with ⟨-, h⟩ | ⟨-, pre, p, h, -⟩
    · exact ⟨new, hnew.trans (by rw [h])⟩
    · exact ⟨pre ++ [p] ++ new, by rw [← List.append_assoc, ← h]; exact hnew⟩

/-- **Events about parts.**  They leave the task list alone exactly if each is
harmless, whatever else they say about the part they are about. -/
theorem untouched_iff_harmless (s : Session) (es : List PartEvent) :
    Untouched s (deliverParts s es) ↔ ∀ e ∈ es, Harmless s e := by
  induction es with
  | nil =>
    constructor
    · exact fun _ e he => absurd he List.not_mem_nil
    · exact fun _ => ⟨rfl, [], (List.append_nil _).symm, fun p hp => absurd hp List.not_mem_nil⟩
  | cons e es ih =>
    rw [List.forall_mem_cons]
    rcases deliver_part s e with ⟨hh, he⟩ | ⟨hh, pre, p, he, hp⟩
    · have hstep : deliverParts s (e :: es) = deliverParts s es := by
        show deliverParts (deliver .connected s e.delivery) es = _
        rw [he]
      rw [hstep, ih]
      exact ⟨fun h => ⟨hh, h⟩, fun h => h.2⟩
    · -- the frame sent for `e` stays in what was sent
      constructor
      · rintro ⟨-, new, hnew, hquiet⟩
        obtain ⟨more, hmore⟩ := deliverParts_sent (deliver .connected s e.delivery) es
        have hall : s.sent ++ (pre ++ [p] ++ more) = s.sent ++ new := by
          rw [← List.append_assoc, ← he, ← hmore]
          exact hnew
        have hmem : p ∈ new := by
          rw [← List.append_cancel_left hall]
          simp
        rw [hquiet p hmem] at hp
        exact absurd hp (by decide)
      · exact fun h => absurd h.1 hh

/-- A window that was listed is dropped when the caret in it is hidden. -/
theorem caret_hidden_drops_window :
    let hwnd : HWND := Handle.ofInt 7
    let s := handle Session.init (.create default hwnd)
    -- OBJID_CARET
    let e : PartEvent := ⟨.hidden, hwnd, 0xFFFFFFF8, CHILDID_SELF, by decide, default, default⟩
    s.keys = [hwnd] ∧ (deliverParts s [e]).keys = [] ∧ ¬ Untouched s (deliverParts s [e]) := by
  refine ⟨by decide, by decide, ?_⟩
  rintro ⟨hmap, -⟩
  have hkeys := congrArg AList.keys hmap
  exact absurd hkeys (by decide)

end RemoteTaskbar
