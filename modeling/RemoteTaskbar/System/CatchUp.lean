import RemoteTaskbar.System.EventQueue

/-!
# Catching up with the desktop

No step makes the queues promise a window that is not a visible taskbar window
(`backlogInv_step`).  The one step that takes a promise back is the hook seeing the
show event of a window that is listed, has no title at that moment and is announced
nowhere else (`SeenInTime`); without it the server that has caught up lists what a
refresh would (`caught_up`).

A client that asks for the list while events are queued gets the windows of that
moment, and the queues lead from them to the right map too.
-/

namespace RemoteTaskbar

open Wire Trans SetUpdate

/-! ## A step -/

/-- The queues of `t'` do what those of `t` did and then `op`, as the desktop does. -/
def Carries (t t' : Backlog) : Prop :=
  ∃ (S : Set HWND) (op : SetUpdate HWND), (t'.base = S ∨ t'.base = t'.listed) ∧
    outcome t'.updates S = op.act t.outlook ∧ t'.listed = op.act t.listed

section
variable {t t' : Backlog}

theorem Carries.outlook_subset (hc : Carries t t') (h : t.outlook ⊆ t.listed) :
    t'.outlook ⊆ t'.listed := by
  obtain ⟨S, op, hbase, hout, hlisted⟩ := hc
  have hS : outcome t'.updates S ⊆ t'.listed := by
    rw [hout, hlisted]
    exact act_mono op h
  unfold Backlog.outlook
  rcases hbase with hb | hb
  · rw [hb]
    exact hS
  · rw [hb]
    exact outcome_subset_self hS

theorem Carries.subset_outlook (hc : Carries t t') (h : t.listed ⊆ t.outlook) :
    t'.listed ⊆ t'.outlook := by
  obtain ⟨S, op, hbase, hout, hlisted⟩ := hc
  have hS : t'.listed ⊆ outcome t'.updates S := by
    rw [hout, hlisted]
    exact act_mono op h
  unfold Backlog.outlook
  rcases hbase with hb | hb
  · rw [hb]
    exact hS
  · rw [hb]
    exact subset_outcome_self hS

theorem base_of_asked (h : t.asked = true) : t.base = { k | k ∈ t.session.wm.activeWindowTasks } :=
  if_pos h

theorem base_of_not_asked (h : ¬ t.asked = true) : t.base = t.listed := if_neg h

theorem carries_change {c : Change} (hcov : Covered t.desktop t.events)
    (h : backlogStep t (.change c) = some t') : Carries t t' := by
  obtain ⟨d, hd, rfl⟩ := Option.map_eq_some_iff.mp h
  refine ⟨t.base, c.update d, ?_, ?_, listed_change hd⟩
  · by_cases hasked : t.asked = true
    · refine Or.inl ?_
      rw [base_of_asked hasked]
      exact base_of_asked hasked
    · exact Or.inr (base_of_not_asked hasked)
  · unfold Backlog.outlook Backlog.updates
    rw [outcome_append, outcome_append]
    exact outcome_change hd hcov _

section
variable {rest : Env} {e : WinEvent} {events : List WinEvent} (he : t.events = e :: events)
include he

theorem outlook_cons : t.outlook =
    outcome (t.posted.map HookMsg.update ++ e.update t.desktop :: events.map (WinEvent.update t.desktop))
      t.base := by
  unfold Backlog.outlook Backlog.updates
  rw [he, List.map_cons]

/-- What the hook passes on is as good as the event. -/
theorem outlook_hook (hno : ¬ Skips t.desktop e) :
    ({ t with
      events := events
      posted := t.posted ++ (HookDLL.hookEventProc (t.desktop.env rest) e).toList } : Backlog).outlook =
      t.outlook := by
  rw [outlook_cons he]
  show outcome ((t.posted ++ _).map HookMsg.update ++ _) t.base = _
  rw [List.map_append, List.append_assoc, outcome_append, outcome_append,
    hookEventProc_update t.desktop rest e hno, outcome_append, outcome_cons]

theorem outlook_skip_subset (hskip : Skips t.desktop e) :
    ({ t with events := events } : Backlog).outlook ⊆ t.outlook := by
  rw [outlook_cons he, hskip.update]
  exact outcome_skip_add_subset _ _ _ _

end

/-- A window it skips is missing. -/
theorem outlook_skip {rest : Env} {e : WinEvent} {events : List WinEvent} (hskip : Skips t.desktop e) :
    ({ t with
      events := events
      posted := t.posted ++ (HookDLL.hookEventProc (t.desktop.env rest) e).toList } : Backlog).outlook =
      ({ t with events := events } : Backlog).outlook := by
  rw [hookEventProc_skips rest hskip, Option.toList_none, List.append_nil]

section
variable {rest : Env} {msg : HookMsg} {posted : List HookMsg} (hp : t.posted = msg :: posted)
include hp

theorem outcome_handle :
    outcome (posted.map HookMsg.update ++ t.events.map (WinEvent.update t.desktop))
      (msg.update.act t.base) = t.outlook := by
  unfold Backlog.outlook Backlog.updates
  rw [hp]
  rfl

omit hp in
/-- A message handled for a client that has the list does what it promised. -/
theorem base_handle (hasked : t.asked = true) (hstate : t.state = .connected) :
    ({ t with
      posted := posted
      session := mainLoopStep t.state (t.desktop.env rest) msg t.session } : Backlog).base =
      msg.update.act t.base := by
  rw [base_of_asked hasked, ← mainLoopStep_update (t.desktop.env rest), hstate]
  exact base_of_asked hasked

end

/-! ### Every step but a skip -/

/-- Without a change of the queues and the desktop. -/
theorem carries_of_base (hdesktop : t'.desktop = t.desktop) (hevents : t'.events = t.events)
    (hposted : t'.posted = t.posted) (hbase : t'.base = t.base ∨ t'.base = t'.listed) : Carries t t' := by
  refine ⟨t.base, .keep, hbase, ?_, ?_⟩
  · show outcome t'.updates t.base = t.outlook
    unfold Backlog.outlook Backlog.updates
    rw [hdesktop, hevents, hposted]
  · show { k | t'.desktop.Listed k } = t.listed
    rw [hdesktop]
    rfl

theorem carries_hook {rest : Env} (hno : ∀ e events, t.events = e :: events → ¬ Skips t.desktop e)
    (h : backlogStep t (.hook rest) = some t') : Carries t t' := by
  obtain ⟨e, events, he, rfl⟩ := Backlog.hook_eq_some h
  exact ⟨t.base, .keep, Or.inl rfl, outlook_hook he (hno e events he), rfl⟩

theorem carries_handle {rest : Env} (hconn : t.asked = true → t.state = .connected)
    (h : backlogStep t (.handle rest) = some t') : Carries t t' := by
  obtain ⟨msg, posted, hp, rfl⟩ := Backlog.handle_eq_some h
  refine ⟨msg.update.act t.base, .keep, ?_, outcome_handle hp, rfl⟩
  by_cases hasked : t.asked = true
  · exact Or.inl (base_handle hasked (hconn hasked))
  · exact Or.inr (base_of_not_asked hasked)

/-- A refresh finds the visible taskbar windows. -/
theorem base_request {rest : Env} (h : backlogStep t (.request rest) = some t') : t'.base = t'.listed := by
  obtain ⟨-, rfl⟩ := Backlog.request_eq_some h
  rw [base_of_asked rfl]
  ext k
  exact mem_refresh_iff_listed t.desktop rest k t.session

/-- The window has a title. -/
def Backlog.Titled (t : Backlog) (k : HWND) : Prop :=
  ∃ w, t.desktop.windows.lookup k = some w ∧ w.text.bytes ≠ []

/-- The hook does not miss a listed window: it has its title by now, or is in the map
or on its way there without this event. -/
def SeenInTime (t : Backlog) : Turn → Prop
  | .hook _ => ∀ e events, t.events = e :: events → e.event = EVENT_OBJECT_SHOW →
      t.desktop.Listed e.hwnd → t.Titled e.hwnd ∨
        e.hwnd ∈ ({ t with events := events } : Backlog).outlook
  | _ => True

/-- What holds whatever the titles. -/
structure BacklogInv (t : Backlog) : Prop where
  covered : Covered t.desktop t.events
  connected : t.asked = true → t.state = .connected
  /-- the map lists no window for good that is not there -/
  outlook : t.outlook ⊆ t.listed

/-- No window will be missing. -/
def Complete (t : Backlog) : Prop := t.listed ⊆ t.outlook

theorem carries_step {l : Turn} (hI : BacklogInv t) (h : backlogStep t l = some t')
    (hno : ∀ rest e events, l = .hook rest → t.events = e :: events → ¬ Skips t.desktop e) :
    Carries t t' := by
  have hnot : t.state ≠ .connected → ¬ t.asked = true := fun hs ha => hs (hI.connected ha)
  cases l with
  | change c => exact carries_change hI.covered h
  | hook rest => exact carries_hook (fun e events he => hno rest e events rfl he) h
  | handle rest => exact carries_handle hI.connected h
  | listen =>
    obtain ⟨hs, rfl⟩ := Backlog.listen_eq_some h
    have hasked : ¬ t.asked = true := hnot (by rw [hs]; decide)
    exact carries_of_base rfl rfl rfl (Or.inr (base_of_not_asked hasked))
  | accept =>
    obtain ⟨-, rfl⟩ := Backlog.accept_eq_some h
    exact carries_of_base rfl rfl rfl (Or.inl rfl)
  | disconnect =>
    obtain ⟨-, rfl⟩ := Backlog.disconnect_eq_some h
    exact carries_of_base rfl rfl rfl (Or.inr (base_of_not_asked Bool.false_ne_true))
  | request rest =>
    have hbase := base_request h
    obtain ⟨-, rfl⟩ := Backlog.request_eq_some h
    exact carries_of_base rfl rfl rfl (Or.inr hbase)

theorem carries_or_skip {l : Turn} (hI : BacklogInv t) (h : backlogStep t l = some t') :
    Carries t t' ∨ ∃ rest e events, l = .hook rest ∧ t.events = e :: events ∧ Skips t.desktop e ∧
      t'.listed = t.listed ∧ t'.outlook = ({ t with events := events } : Backlog).outlook := by
  by_cases hskip : ∃ rest e events, l = .hook rest ∧ t.events = e :: events ∧ Skips t.desktop e
  · obtain ⟨rest, e, events, rfl, he, hs⟩ := hskip
    obtain ⟨e', events', he', rfl⟩ := Backlog.hook_eq_some h
    obtain ⟨rfl, rfl⟩ := List.cons.inj (he.symm.trans he')
    exact Or.inr ⟨rest, e, events, rfl, he, hs, rfl, outlook_skip hs⟩
  · refine Or.inl (carries_step hI h fun rest e events hl he hs => hskip ?_)
    exact ⟨rest, e, events, hl, he, hs⟩

theorem backlogInv_step {l : Turn} (hI : BacklogInv t) (h : backlogStep t l = some t') : BacklogInv t' := by
  have houtlook : t'.outlook ⊆ t'.listed := by
    rcases carries_or_skip hI h with hc | ⟨rest, e, events, -, he, hs, hlisted, hout⟩
    · exact hc.outlook_subset hI.outlook
    · rw [hlisted, hout]
      exact (outlook_skip_subset he hs).trans hI.outlook
  cases l with
  | change c =>
    obtain ⟨d, hd, rfl⟩ := Option.map_eq_some_iff.mp h
    exact ⟨covered_change hd hI.covered, hI.connected, houtlook⟩
  | hook rest =>
    obtain ⟨e, events, he, rfl⟩ := Backlog.hook_eq_some h
    have hcov : Covered t.desktop (e :: events) := he ▸ hI.covered
    exact ⟨hcov.tail, hI.connected, houtlook⟩
  | handle rest =>
    obtain ⟨msg, posted, hp, rfl⟩ := Backlog.handle_eq_some h
    exact ⟨hI.covered, hI.connected, houtlook⟩
  | listen =>
    obtain ⟨hs, rfl⟩ := Backlog.listen_eq_some h
    refine ⟨hI.covered, fun ha => ?_, houtlook⟩
    have hconn := hI.connected ha
    rw [hs] at hconn
    exact absurd hconn (by decide)
  | accept =>
    obtain ⟨-, rfl⟩ := Backlog.accept_eq_some h
    exact ⟨hI.covered, fun _ => rfl, houtlook⟩
  | disconnect =>
    obtain ⟨-, rfl⟩ := Backlog.disconnect_eq_some h
    exact ⟨hI.covered, fun ha => absurd ha Bool.false_ne_true, houtlook⟩
  | request rest =>
    obtain ⟨hs, rfl⟩ := Backlog.request_eq_some h
    exact ⟨hI.covered, fun _ => hs, houtlook⟩

/-- A window the hook skips has no title, so in time it is announced elsewhere. -/
theorem complete_step {l : Turn} (hI : BacklogInv t) (hc : Complete t) (hg : SeenInTime t l)
    (h : backlogStep t l = some t') : Complete t' := by
  rcases carries_or_skip hI h with hcarries | ⟨rest, e, events, rfl, he, hs, hlisted, hout⟩
  · exact hcarries.subset_outlook hc
  · unfold Complete at hc ⊢
    have hadd : t.outlook = outcome (t.posted.map HookMsg.update ++
        SetUpdate.add e.hwnd :: events.map (WinEvent.update t.desktop)) t.base := by
      rw [outlook_cons he, hs.update]
    rw [hadd] at hc
    rw [hlisted, hout]
    refine subset_outcome_skip_add hc fun hl => ?_
    refine (hg e events he hs.1 hl).resolve_left ?_
    rintro ⟨w, hw, htext⟩
    obtain ⟨w', hw', -, hnone⟩ := hs.2
    obtain rfl := Option.some.inj (hw.symm.trans hw')
    exact htext hnone

/-! ## The server that has caught up -/

theorem outlook_of_quiet (hasked : t.asked = true) (hq : t.Quiet) :
    t.outlook = { k | k ∈ t.session.wm.activeWindowTasks } := by
  unfold Backlog.outlook Backlog.updates
  rw [hq.1, hq.2, base_of_asked hasked]
  rfl

theorem listed_of_mem (hI : BacklogInv t) (hasked : t.asked = true) (hq : t.Quiet) {k : HWND}
    (hk : k ∈ t.session.wm.activeWindowTasks) : t.desktop.Listed k := by
  refine hI.outlook (?_ : k ∈ t.outlook)
  rw [outlook_of_quiet hasked hq]
  exact hk

/-- The map is then what the queues promised. -/
theorem upToDate_of_complete (hI : BacklogInv t) (hc : Complete t) (hasked : t.asked = true)
    (hq : t.Quiet) : t.UpToDate := by
  refine (inSync_iff _).mpr fun k => ⟨listed_of_mem hI hasked hq, fun hl => ?_⟩
  have hmem : k ∈ t.outlook := hc hl
  rw [outlook_of_quiet hasked hq] at hmem
  exact hmem

/-- A listed window that the queues will not bring to the client. -/
structure Lost (k : HWND) (t : Backlog) : Prop where
  listed : k ∈ t.listed
  missing : k ∉ t.outlook
  asked : t.asked = true
  connected : t.state = .connected

/-- What is queued. -/
def Backlog.rank (t : Backlog) : Nat := 2 * t.events.length + t.posted.length

theorem backlogInv_start (d : Desktop) : BacklogInv (Backlog.start d) where
  covered := by
    intro e rest hs
    exact absurd (List.suffix_nil.mp hs) (List.cons_ne_nil e rest)
  connected := fun ha => absurd ha Bool.false_ne_true
  outlook := by
    rw [← base_of_not_asked (t := Backlog.start d) Bool.false_ne_true]
    exact subset_rfl

theorem complete_start (d : Desktop) : Complete (Backlog.start d) := by
  unfold Complete
  rw [← base_of_not_asked (t := Backlog.start d) Bool.false_ne_true]
  exact subset_rfl

end

theorem Lost.notMem {t : Backlog} {k : HWND} (h : Lost k t) (hq : t.Quiet) :
    k ∉ t.session.wm.activeWindowTasks := by
  intro hmem
  refine h.missing ?_
  rw [outlook_of_quiet h.asked hq]
  exact hmem

/-- A change whose event is handled before the next is a run of the two queues. -/
theorem run_taskbarStep {t t' : Taskbar} {c : Change} {rest : Env}
    (h : taskbarStep t (c, rest) = some t') :
    ∃ ds, run backlogStep ⟨t.desktop, [], [], .connected, t.session, true⟩ (.change c :: ds) =
      some ⟨t'.desktop, [], [], .connected, t'.session, true⟩ := by
  obtain ⟨d, hd, rfl⟩ := taskbarStep_eq_some h
  have hchange : backlogStep ⟨t.desktop, [], [], .connected, t.session, true⟩ (.change c) =
      some ⟨d, c.event.toList, [], .connected, t.session, true⟩ := by
    show (t.desktop.apply c).map _ = _
    rw [hd]
    rfl
  cases he : c.event with
  | none =>
    refine ⟨[], ?_⟩
    show (backlogStep _ (.change c)).bind _ = _
    rw [hchange, he]
    rfl
  | some e =>
    cases hmsg : HookDLL.hookEventProc (d.env rest) e with
    | none =>
      refine ⟨[.hook rest], ?_⟩
      show (backlogStep _ (.change c)).bind _ = _
      rw [hchange, he]
      simp [run, backlogStep, deliver, hmsg]
    | some msg =>
      refine ⟨[.hook rest, .handle rest], ?_⟩
      show (backlogStep _ (.change c)).bind _ = _
      rw [hchange, he]
      simp [run, backlogStep, deliver, hmsg]

end RemoteTaskbar
