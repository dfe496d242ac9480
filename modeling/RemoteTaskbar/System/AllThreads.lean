import RemoteTaskbar.System.Accept
import RemoteTaskbar.System.CarryOver
import RemoteTaskbar.System.DesktopShown

/-!
# All threads

`World` is the desktop with its two queues beside the server process thread by thread.
The main thread looks at its queues only between clicks, while the accept thread and the
receive threads go on.  `Backlog` has each click in one step and nothing in between.

A run of `World` is matched by one of `Backlog` as long as no list request is served in
AWAIT_CLIENT or inside the click that starts a server (`Orderly`, `matched`).  A click
that starts a server counts as done with its last step, the reset: until then it has no
effect on what a client is sent (`NetStep`).
-/

namespace RemoteTaskbar

open Wire Trans

/-! ## The server process -/

/-- The state, but for a click that starts a server, which counts from its last step. -/
def Sys.netState (s : Sys) : NetState := if GuiStep.reset ∈ s.gui then .disconnected else s.state

theorem netState_of_mem {s : Sys} (h : GuiStep.reset ∈ s.gui) : s.netState = .disconnected := if_pos h

theorem netState_of_notMem {s : Sys} (h : GuiStep.reset ∉ s.gui) : s.netState = s.state := if_neg h

theorem netState_congr {s s' : Sys} (hstate : s'.state = s.state) (hgui : s'.gui = s.gui) :
    s'.netState = s.netState := by
  unfold Sys.netState
  rw [hstate, hgui]

/-- A list request is served neither in AWAIT_CLIENT nor inside a click that starts a server. -/
def ServedInOrder (s : Sys) (l : SysStep) : Prop :=
  (s.listServed l).isSome = true → GuiStep.reset ∉ s.gui ∧ s.state ≠ .awaitClient

instance (s : Sys) (l : SysStep) : Decidable (ServedInOrder s l) := inferInstanceAs (Decidable (_ → _))

/-- Between the creation of a server and its client nothing is sent. -/
structure OrderInv (s : Sys) : Prop where
  accept : AcceptInv s
  closing : s.gui = [.setDisconnected] → s.state = .connected
  starting : GuiStep.reset ∈ s.gui → s.current ≠ none → s.session.sent = []
  awaiting : s.netState = .awaitClient → s.session.sent = []

/-- What a step does to the state that counts and the session; while it is DISCONNECTED the
session does not matter. -/
inductive NetStep (s s' : Sys) (l : SysStep) : Prop where
  | disconnected (h : s.netState = .disconnected) (h' : s'.netState = .disconnected)
  | same (h : s'.netState = s.netState) (h' : s'.session = s.session)
  /-- the reset; a client may have been accepted before it -/
  | listen (h : s.netState = .disconnected) (h' : s'.netState ≠ .disconnected)
      (hsession : s'.session = ⟨reset, []⟩)
  | accept (h : s.netState = .awaitClient) (h' : s'.netState = .connected)
      (hsession : s'.session = s.session)
  | disconnect (h : s.netState = .connected) (h' : s'.netState = .disconnected)
  | request (env : Env) (h : s.netState = .connected) (h' : s'.netState = .connected)
      (hserved : s.listServed l = some env) (hsession : s'.session = handle s.session (.list env))

section
variable {s s' : Sys}

/-! ### The GUI thread -/

theorem netState_click (hs : sysStep s .click = some s') : s'.netState = s.netState := by
  obtain ⟨hgui, rfl⟩ := click_eq_some hs
  rw [netState_of_notMem (hgui ▸ List.not_mem_nil : GuiStep.reset ∉ s.gui)]
  by_cases hreset : GuiStep.reset ∈ s.connectButton
  · rw [disconnected_of_mem_connectButton hreset (by decide)]
    exact if_pos hreset
  · exact if_neg hreset

theorem netStep_gui (hI : OrderInv s) (hs : sysStep s .gui = some s') : NetStep s s' .gui := by
  obtain ⟨state, current, objects, created, onConnected, onRecv, gui, session⟩ := s
  have hgui := hI.accept.gui
  simp only at hgui
  cases hgui with
  | idle hc => exact absurd hs (by simp [sysStep])
  | close n =>
    obtain rfl := Option.some.inj hs
    exact .same rfl rfl
  | destroy n =>
    obtain rfl := Option.some.inj hs
    exact .same rfl rfl
  | clear n =>
    obtain rfl := Option.some.inj hs
    exact .same rfl rfl
  | setDisconnected =>
    obtain rfl := Option.some.inj hs
    exact .disconnect (hI.closing rfl) rfl
  | create =>
    obtain rfl := Option.some.inj hs
    exact .disconnected rfl rfl
  | start n =>
    obtain rfl := Option.some.inj hs
    exact .disconnected rfl rfl
  | setAwaitClient n =>
    obtain rfl := Option.some.inj hs
    exact .disconnected rfl rfl
  | registerOnConnected n hst =>
    obtain rfl := Option.some.inj hs
    exact .disconnected rfl rfl
  | registerOnRecv n hst =>
    obtain rfl := Option.some.inj hs
    exact .disconnected rfl rfl
  | reset n hst =>
    obtain rfl := Option.some.inj hs
    have hsent : session.sent = [] := hI.starting List.mem_cons_self (Option.some_ne_none n)
    exact .listen rfl hst (congrArg (Session.mk reset) hsent)

/-! ### The threads of a server -/

/-- A step that touches neither the GUI thread nor the session. -/
theorem netStep_of_sameAccept {l : SysStep} (e : SameAccept s s') (hsession : s'.session = s.session) :
    NetStep s s' l :=
  .same (netState_congr e.state e.gui) hsession

theorem netStep_acceptReturns {n : Nat} {success : Bool}
    (hs : sysStep s (.acceptReturns n success) = some s') : NetStep s s' (.acceptReturns n success) := by
  obtain ⟨-, rfl⟩ := acceptReturns_eq_some hs
  exact .same rfl rfl

/-- While the accept thread of a server is under way the state is not CONNECTED, nor is it
DISCONNECTED once the click that started the server is done. -/
theorem state_of_connectedSet {n : Nat} (h : AcceptInv s) (ha : (s.objects n).accept = .connectedSet)
    (hreset : GuiStep.reset ∉ s.gui) : s.state = .awaitClient := by
  have hbusy : ¬ (s.objects n).accept.Idle := by simp [AcceptThread.Idle, ha]
  have hn := h.current_of_busy hbusy
  have hnot : s.state ≠ .connected := fun hc => hbusy (Or.inr (h.own n hn hc))
  obtain ⟨state, current, objects, created, onConnected, onRecv, gui, session⟩ := s
  have hgui := h.gui
  simp only at hgui hn hnot hreset
  subst hn
  cases hgui with
  | idle hc =>
    cases state with
    | disconnected => exact absurd (hc rfl) (Option.some_ne_none n)
    | awaitClient => rfl
    | connected => exact absurd rfl hnot
  | close => exact absurd rfl hnot
  | destroy => exact absurd rfl hnot
  | clear => exact absurd rfl hnot
  | _ => simp at hreset

theorem netStep_accept {n : Nat} (hI : AcceptInv s) (hs : sysStep s (.accept n) = some s') :
    NetStep s s' (.accept n) := by
  rcases accept_eq_some hs with ⟨-, rfl⟩ | ⟨ha, rfl⟩
  · exact .same rfl rfl
  · by_cases hreset : GuiStep.reset ∈ s.gui
    · exact .disconnected (netState_of_mem hreset) (if_pos hreset)
    · cases hon : s.onConnected with
      | false => exact .same rfl rfl
      | true =>
        refine .accept ?_ (if_neg hreset) rfl
        rw [netState_of_notMem hreset]
        exact state_of_connectedSet hI ha hreset

theorem netStep_receive {n : Nat} {env : Env} (hg : ServedInOrder s (.receive n env))
    (hs : sysStep s (.receive n env) = some s') : NetStep s s' (.receive n env) := by
  have e := sameAccept_receive env hs
  have hsession : s'.session = (s.listServed (.receive n env)).elim s.session
      fun env => handle s.session (.list env) := session_eq_sessionStep hs
  cases hserved : s.listServed (.receive n env) with
  | none =>
    rw [hserved] at hsession
    exact netStep_of_sameAccept e hsession
  | some env' =>
    rw [hserved] at hsession
    have hstate : s'.netState = s.netState := netState_congr e.state e.gui
    obtain ⟨hreset, hnot⟩ := hg (by rw [hserved]; rfl)
    have hnet := netState_of_notMem hreset
    cases hst : s.state with
    | disconnected =>
      rw [hst] at hnet
      exact .disconnected hnet (hstate.trans hnet)
    | awaitClient => exact absurd hst hnot
    | connected =>
      rw [hst] at hnet
      exact .request env' hnet (hstate.trans hnet) hserved hsession

theorem netStep {l : SysStep} (hI : OrderInv s) (hg : ServedInOrder s l) (hl : ∀ d, l ≠ .hook d)
    (hs : sysStep s l = some s') : NetStep s s' l := by
  cases l with
  | click => exact .same (netState_click hs) (session_eq_sessionStep hs)
  | gui => exact netStep_gui hI hs
  | hook d => exact absurd rfl (hl d)
  | acceptReturns n success => exact netStep_acceptReturns hs
  | accept n => exact netStep_accept hI.accept hs
  | recvReturns n r => exact netStep_of_sameAccept (sameAccept_recvReturns r hs) (session_eq_sessionStep hs)
  | receive n env => exact netStep_receive hg hs

/-! ### The invariant is kept -/

theorem orderInv_awaiting {l : SysStep} (hI : OrderInv s) (h : NetStep s s' l)
    (ha : s'.netState = .awaitClient) : s'.session.sent = [] := by
  cases h with
  | disconnected _ h' =>
    rw [h'] at ha
    exact absurd ha (by decide)
  | same hstate hsession =>
    rw [hsession]
    exact hI.awaiting (hstate ▸ ha)
  | listen _ _ hsession => rw [hsession]
  | accept _ h' =>
    rw [h'] at ha
    exact absurd ha (by decide)
  | disconnect _ h' =>
    rw [h'] at ha
    exact absurd ha (by decide)
  | request env _ h' =>
    rw [h'] at ha
    exact absurd ha (by decide)

/-- Steps of a server's threads and of the message loop. -/
theorem orderInv_thread {l : SysStep} (hI : OrderInv s) (hacc : AcceptInv s') (h : NetStep s s' l)
    (hgui : s'.gui = s.gui) (hcurrent : s'.current = s.current)
    (hstate : s'.state = s.state ∨ s'.state = .connected)
    (hsession : GuiStep.reset ∈ s.gui → s'.session = s.session) : OrderInv s' := by
  refine ⟨hacc, fun hc => ?_, fun hreset hn => ?_, orderInv_awaiting hI h⟩
  · rcases hstate with hst | hst
    · rw [hst]
      exact hI.closing (hgui ▸ hc)
    · exact hst
  · rw [hgui] at hreset
    rw [hcurrent] at hn
    rw [hsession hreset]
    exact hI.starting hreset hn

theorem connectButton_ne (s : Sys) : s.connectButton ≠ [.setDisconnected] := by
  unfold Sys.connectButton Sys.startUp Sys.disconnect
  cases s.state with
  | disconnected => cases s.current <;> simp
  | awaitClient => simp
  | connected => cases s.current <;> simp

theorem orderInv_click (hI : OrderInv s) (hs : sysStep s .click = some s') : OrderInv s' := by
  have hacc := acceptInv_click hI.accept hs
  have hnet : NetStep s s' .click := .same (netState_click hs) (session_eq_sessionStep hs)
  have hawait := orderInv_awaiting hI hnet
  obtain ⟨hgui, rfl⟩ := click_eq_some hs
  refine ⟨hacc, fun hc => ?_, fun hreset hn => ?_, hawait⟩
  · exact absurd hc (connectButton_ne s)
  · have hidle : GuiInv s.state s.current [] := hgui ▸ hI.accept.gui
    rw [disconnected_of_mem_connectButton hreset (by decide)] at hidle
    exact absurd hidle.current_eq_none hn

theorem orderInv_gui (hI : OrderInv s) (hs : sysStep s .gui = some s') : OrderInv s' := by
  have hacc := acceptInv_gui hI.accept hs
  have hawait := orderInv_awaiting hI (netStep_gui hI hs)
  have hstarting := hI.starting
  obtain ⟨state, current, objects, created, onConnected, onRecv, gui, session⟩ := s
  have hgui := hI.accept.gui
  simp only at hgui hstarting
  cases hgui with
  | idle hc => exact absurd hs (by simp [sysStep])
  | clear n =>
    obtain rfl := Option.some.inj hs
    exact ⟨hacc, fun _ => rfl, by simp, hawait⟩
  | create =>
    obtain rfl := Option.some.inj hs
    exact ⟨hacc, by simp, fun _ _ => rfl, hawait⟩
  | start n =>
    obtain rfl := Option.some.inj hs
    exact ⟨hacc, by simp, fun _ hn => hstarting (by simp) hn, hawait⟩
  | setAwaitClient n =>
    obtain rfl := Option.some.inj hs
    exact ⟨hacc, by simp, fun _ hn => hstarting (by simp) hn, hawait⟩
  | registerOnConnected n hst =>
    obtain rfl := Option.some.inj hs
    exact ⟨hacc, by simp, fun _ hn => hstarting (by simp) hn, hawait⟩
  | registerOnRecv n hst =>
    obtain rfl := Option.some.inj hs
    exact ⟨hacc, by simp, fun _ hn => hstarting (by simp) hn, hawait⟩
  | _ =>
    obtain rfl := Option.some.inj hs
    exact ⟨hacc, by simp, by simp, hawait⟩

theorem orderInv_step {l : SysStep} (hI : OrderInv s) (hg : ServedInOrder s l) (hl : ∀ d, l ≠ .hook d)
    (hs : sysStep s l = some s') : OrderInv s' := by
  have hacc := acceptInv_step hI.accept l hs
  have hnet := netStep hI hg hl hs
  cases l with
  | click => exact orderInv_click hI hs
  | gui => exact orderInv_gui hI hs
  | hook d => exact absurd rfl (hl d)
  | acceptReturns n success =>
    obtain ⟨-, rfl⟩ := acceptReturns_eq_some hs
    exact orderInv_thread hI hacc hnet rfl rfl (Or.inl rfl) fun _ => rfl
  | accept n =>
    rcases accept_eq_some hs with ⟨-, rfl⟩ | ⟨-, rfl⟩
    · exact orderInv_thread hI hacc hnet rfl rfl (Or.inl rfl) fun _ => rfl
    · refine orderInv_thread hI hacc hnet rfl rfl ?_ fun _ => rfl
      cases s.onConnected with
      | false => exact Or.inl rfl
      | true => exact Or.inr rfl
  | recvReturns n r =>
    have e := sameAccept_recvReturns r hs
    exact orderInv_thread hI hacc hnet e.gui e.current (Or.inl e.state) fun _ => session_eq_sessionStep hs
  | receive n env =>
    have e := sameAccept_receive env hs
    refine orderInv_thread hI hacc hnet e.gui e.current (Or.inl e.state) fun hreset => ?_
    have hserved : s.listServed (.receive n env) = none := by
      by_contra hno
      exact (hg (Option.isSome_iff_ne_none.mpr hno)).1 hreset
    rw [session_eq_sessionStep hs]
    show (s.listServed (.receive n env)).elim s.session _ = _
    rw [hserved]
    rfl

theorem orderInv_init : OrderInv Sys.init :=
  ⟨acceptInv_init, fun hc => by simp [Sys.init] at hc, fun hc => by simp [Sys.init] at hc, fun _ => rfl⟩

end

/-! ## The server and the desktop -/

structure World where
  desktop : Desktop
  /-- raised, and not yet seen by the hook -/
  events : List WinEvent
  /-- posted by the hook, and not yet handled -/
  posted : List HookMsg
  sys : Sys

inductive WorldStep where
  | change (c : Change)
  /-- `hookEventProc` for the oldest event, while the main thread is in its message loop -/
  | hook (rest : Env)
  /-- a turn of the message loop -/
  | handle (rest : Env)
  /-- any other step of the server -/
  | server (l : SysStep)

/-- The step as the desktop answers it; the hook's events are in the queue. -/
def SysStep.on (d : Desktop) : SysStep → Option SysStep
  | .hook _ => none
  | .receive n env => some (.receive n (d.env env))
  | l => some l

def worldStep (w : World) : WorldStep → Option World
  | .change c =>
    (w.desktop.apply c).map fun d => { w with desktop := d, events := w.events ++ c.event.toList }
  | .hook rest =>
    match w.sys.gui, w.events with
    | [], e :: events =>
      some { w with
        events := events
        posted := w.posted ++ (HookDLL.hookEventProc (w.desktop.env rest) e).toList }
    | _, _ => none
  | .handle rest =>
    match w.sys.gui, w.posted with
    | [], msg :: posted =>
      some { w with
        posted := posted
        sys := w.sys.withSession (mainLoopStep w.sys.state (w.desktop.env rest) msg w.sys.session) }
    | _, _ => none
  | .server l =>
    (l.on w.desktop).bind fun l => (sysStep w.sys l).map fun s => { w with sys := s }

def World.start (d : Desktop) : World := ⟨d, [], [], Sys.init⟩

def Orderly (w : World) : WorldStep → Prop
  | .server l => ServedInOrder w.sys l
  | _ => True

instance (w : World) (l : WorldStep) : Decidable (Orderly w l) :=
  match l with
  | .server l => inferInstanceAs (Decidable (ServedInOrder w.sys l))
  | .change _ => isTrue trivial
  | .hook _ => isTrue trivial
  | .handle _ => isTrue trivial

/-- The hook finds a title on every visible taskbar window whose show event it sees. -/
def TitledWhenSeen (w : World) : WorldStep → Prop
  | .hook _ => ∀ e events, w.events = e :: events → e.event = EVENT_OBJECT_SHOW →
      w.desktop.Listed e.hwnd → ∃ v, w.desktop.windows.lookup e.hwnd = some v ∧ v.text.bytes ≠ []
  | _ => True

/-! ### What the steps do -/

section
variable {w w' : World} {rest : Env}

theorem world_change_eq_some {c : Change} (h : worldStep w (.change c) = some w') :
    ∃ d, w.desktop.apply c = some d ∧
      w' = { w with desktop := d, events := w.events ++ c.event.toList } := by
  obtain ⟨d, hd, rfl⟩ := Option.map_eq_some_iff.mp h
  exact ⟨d, hd, rfl⟩

theorem world_hook_eq_some (h : worldStep w (.hook rest) = some w') :
    ∃ e events, w.events = e :: events ∧ w' = { w with
      events := events
      posted := w.posted ++ (HookDLL.hookEventProc (w.desktop.env rest) e).toList } := by
  simp only [worldStep] at h
  split at h
  · next e events _ he => exact ⟨e, events, he, (Option.some.inj h).symm⟩
  · exact absurd h (by simp)

theorem world_handle_eq_some (h : worldStep w (.handle rest) = some w') :
    w.sys.gui = [] ∧ ∃ msg posted, w.posted = msg :: posted ∧ w' = { w with
      posted := posted
      sys := w.sys.withSession (mainLoopStep w.sys.state (w.desktop.env rest) msg w.sys.session) } := by
  simp only [worldStep] at h
  split at h
  · next msg posted hgui hp => exact ⟨hgui, msg, posted, hp, (Option.some.inj h).symm⟩
  · exact absurd h (by simp)

theorem world_server_eq_some {l : SysStep} (h : worldStep w (.server l) = some w') :
    ∃ l' s, l.on w.desktop = some l' ∧ sysStep w.sys l' = some s ∧ w' = { w with sys := s } := by
  obtain ⟨l', hl, hs⟩ := Option.bind_eq_some_iff.mp h
  obtain ⟨s, hstep, rfl⟩ := Option.map_eq_some_iff.mp hs
  exact ⟨l', s, hl, hstep, rfl⟩

theorem on_eq_some {d : Desktop} {l l' : SysStep} (h : l.on d = some l') :
    (∀ e, l' ≠ .hook e) ∧ (∀ s, ServedInOrder s l → ServedInOrder s l') ∧
      ∀ (s : Sys) env, s.listServed l' = some env → ∃ rest, env = d.env rest := by
  cases l with
  | hook e => exact absurd h (by simp [SysStep.on])
  | receive n env =>
    obtain rfl := Option.some.inj h
    refine ⟨fun e => by simp, fun s hg hserved => hg ?_, fun s env' hserved => ⟨env, ?_⟩⟩
    · revert hserved
      simp only [Sys.listServed]
      split
      · split <;> simp
      · simp
    · simp only [Sys.listServed] at hserved
      split at hserved
      · split at hserved
        · exact (Option.some.inj hserved).symm
        · exact absurd hserved (by simp)
      · exact absurd hserved (by simp)
  | _ =>
    obtain rfl := Option.some.inj h
    exact ⟨fun e => by simp, fun s hg => hg, fun s env hserved => by simp [Sys.listServed] at hserved⟩

end

/-! ## Clicks in one step -/

/-- The same queues, and while a client is awaited or connected the same server. -/
structure Matches (w : World) (t : Backlog) : Prop where
  order : OrderInv w.sys
  desktop : t.desktop = w.desktop
  events : t.events = w.events
  posted : t.posted = w.posted
  state : t.state = w.sys.netState
  awaiting : t.state = .awaitClient → t.session.wm = w.sys.session.wm
  connected : t.state = .connected → t.session = w.sys.session

theorem matches_start (d : Desktop) : Matches (World.start d) (Backlog.start d) :=
  ⟨orderInv_init, rfl, rfl, rfl, rfl, fun _ => rfl, fun _ => rfl⟩

section
variable {w w' : World} {t : Backlog}

/-- A run of `Backlog` does what the step does; it sees a show event in time if the step finds
the title. -/
def Matched (w : World) (l : WorldStep) (w' : World) (t : Backlog) : Prop :=
  ∃ ls t', run backlogStep t ls = some t' ∧
    (TitledWhenSeen w l → Guarded backlogStep SeenInTime t ls) ∧ Matches w' t'

theorem matched_one {step : WorldStep} {l : Turn} {t' : Backlog} (h : backlogStep t l = some t')
    (hg : TitledWhenSeen w step → SeenInTime t l) (hm : Matches w' t') : Matched w step w' t :=
  ⟨[l], t', run_one h, fun htitled => guarded_cons h (hg htitled) trivial, hm⟩

theorem matched_nil {step : WorldStep} (hm : Matches w' t) : Matched w step w' t :=
  ⟨[], t, rfl, fun _ => trivial, hm⟩

/-- Before the reset the client of the new server may have been accepted. -/
theorem matched_listen {s : Sys} {step : WorldStep} (hm : Matches w t) (hI : OrderInv s)
    (hstate : w.sys.netState = .disconnected) (hnot : s.netState ≠ .disconnected)
    (hsession : s.session = ⟨reset, []⟩) : Matched w step { w with sys := s } t := by
  have hlisten : backlogStep t .listen =
      some { t with state := .awaitClient, session := { t.session with wm := reset } } :=
    if_pos (hm.state.trans hstate)
  cases hs : s.netState with
  | disconnected => exact absurd hs hnot
  | awaitClient =>
    refine matched_one hlisten (fun _ => trivial) ⟨hI, hm.desktop, hm.events, hm.posted, hs.symm, fun _ => ?_, ?_⟩
    · rw [hsession]
    · exact fun hc => by simp at hc
  | connected =>
    refine ⟨[.listen, .accept], { t with state := .connected, session := ⟨reset, []⟩ }, ?_, ?_, ?_⟩
    · exact run_cons hlisten [.accept]
    · exact fun _ => guarded_cons hlisten trivial (guarded_cons rfl trivial trivial)
    · refine ⟨hI, hm.desktop, hm.events, hm.posted, hs.symm, fun hc => by simp at hc, fun _ => ?_⟩
      exact hsession.symm

theorem matched_server {s : Sys} {l : SysStep} {step : WorldStep} (hm : Matches w t) (hI : OrderInv s)
    (h : NetStep w.sys s l)
    (henv : ∀ env, w.sys.listServed l = some env → ∃ rest, env = w.desktop.env rest) :
    Matched w step { w with sys := s } t := by
  cases h with
  | disconnected hstate hstate' =>
    have ht := hm.state.trans hstate
    refine matched_nil ⟨hI, hm.desktop, hm.events, hm.posted, ht.trans hstate'.symm, ?_, ?_⟩
    · exact fun hc => by simp [ht] at hc
    · exact fun hc => by simp [ht] at hc
  | same hstate hsession =>
    refine matched_nil ⟨hI, hm.desktop, hm.events, hm.posted, hm.state.trans hstate.symm, ?_, ?_⟩
    · intro ha
      rw [hsession]
      exact hm.awaiting ha
    · intro hc
      rw [hsession]
      exact hm.connected hc
  | listen hstate hnot hsession => exact matched_listen hm hI hstate hnot hsession
  | accept hstate hstate' hsession =>
    have ht := hm.state.trans hstate
    refine matched_one (l := .accept) (if_pos ht) (fun _ => trivial)
      ⟨hI, hm.desktop, hm.events, hm.posted, hstate'.symm, fun hc => by simp at hc, fun _ => ?_⟩
    rw [hsession]
    show Session.mk t.session.wm [] = w.sys.session
    rw [hm.awaiting ht, ← hm.order.awaiting hstate]
  | disconnect hstate hstate' =>
    refine matched_one (l := .disconnect) (if_pos (hm.state.trans hstate)) (fun _ => trivial)
      ⟨hI, hm.desktop, hm.events, hm.posted, hstate'.symm, ?_, ?_⟩
    · exact fun hc => by simp at hc
    · exact fun hc => by simp at hc
  | request env hstate hstate' hserved hsession =>
    obtain ⟨rest, rfl⟩ := henv env hserved
    have ht := hm.state.trans hstate
    refine matched_one (l := .request rest) (if_pos ht) (fun _ => trivial)
      ⟨hI, hm.desktop, hm.events, hm.posted, ht.trans hstate'.symm, ?_, fun _ => ?_⟩
    · exact fun hc => by simp [ht] at hc
    · rw [hsession, ← hm.connected ht, ← hm.desktop]

theorem matched_change {c : Change} (hm : Matches w t) (h : worldStep w (.change c) = some w') :
    Matched w (.change c) w' t := by
  obtain ⟨d, hd, rfl⟩ := world_change_eq_some h
  have hchange : backlogStep t (.change c) =
      some { t with desktop := d, events := t.events ++ c.event.toList } := by
    show (t.desktop.apply c).map _ = _
    rw [hm.desktop, hd]
    rfl
  refine matched_one hchange (fun _ => trivial)
    ⟨hm.order, rfl, ?_, hm.posted, hm.state, hm.awaiting, hm.connected⟩
  exact congrArg (· ++ c.event.toList) hm.events

theorem matched_hook {rest : Env} (hm : Matches w t) (h : worldStep w (.hook rest) = some w') :
    Matched w (.hook rest) w' t := by
  obtain ⟨e, events, he, rfl⟩ := world_hook_eq_some h
  have hte : t.events = e :: events := hm.events.trans he
  have hhook : backlogStep t (.hook rest) = some { t with
      events := events
      posted := t.posted ++ (HookDLL.hookEventProc (t.desktop.env rest) e).toList } := by
    simp only [backlogStep, hte]
  refine matched_one hhook (fun hg e' events' he' hshow hl => Or.inl ?_)
    ⟨hm.order, hm.desktop, rfl, ?_, hm.state, hm.awaiting, hm.connected⟩
  · rw [hm.desktop] at hl
    unfold Backlog.Titled
    rw [hm.desktop]
    exact hg e' events' (hm.events.symm.trans he') hshow hl
  · show t.posted ++ _ = w.posted ++ _
    rw [hm.posted, hm.desktop]

theorem mainLoopStep_of_not_connected {state : NetState} (h : state ≠ .connected) (env : Env)
    (msg : HookMsg) (s : Session) : mainLoopStep state env msg s = s := if_neg h

theorem orderInv_handle {s : Sys} {env : Env} {msg : HookMsg} (hI : OrderInv s) (hgui : s.gui = []) :
    OrderInv (s.withSession (mainLoopStep s.state env msg s.session)) := by
  have hreset : GuiStep.reset ∉ s.gui := hgui ▸ List.not_mem_nil
  refine ⟨hI.accept.congr ⟨rfl, rfl, rfl, fun _ => rfl, fun _ => rfl⟩, hI.closing,
    fun hmem => absurd hmem hreset, fun ha => ?_⟩
  have hstate : s.state = .awaitClient := (netState_of_notMem hreset).symm.trans ha
  show (mainLoopStep s.state env msg s.session).sent = []
  rw [mainLoopStep_of_not_connected (by rw [hstate]; decide)]
  exact hI.awaiting ha

/-- In its message loop the main thread finds the state that counts. -/
theorem matched_handle {rest : Env} (hm : Matches w t) (h : worldStep w (.handle rest) = some w') :
    Matched w (.handle rest) w' t := by
  obtain ⟨hgui, msg, posted, hp, rfl⟩ := world_handle_eq_some h
  have htp : t.posted = msg :: posted := hm.posted.trans hp
  have hhandle : backlogStep t (.handle rest) = some { t with
      posted := posted
      session := mainLoopStep t.state (t.desktop.env rest) msg t.session } := by
    simp only [backlogStep, htp]
  have hstate : t.state = w.sys.state :=
    hm.state.trans (netState_of_notMem (hgui ▸ List.not_mem_nil : GuiStep.reset ∉ w.sys.gui))
  refine matched_one hhandle (fun _ => trivial)
    ⟨orderInv_handle hm.order hgui, hm.desktop, hm.events, rfl, hm.state, fun ha => ?_, fun hc => ?_⟩
  · have hnot : t.state ≠ .connected := by
      rw [show t.state = .awaitClient from ha]
      decide
    show (mainLoopStep t.state _ msg t.session).wm = (mainLoopStep w.sys.state _ msg w.sys.session).wm
    rw [mainLoopStep_of_not_connected hnot, mainLoopStep_of_not_connected (hstate ▸ hnot)]
    exact hm.awaiting ha
  · show mainLoopStep t.state _ msg t.session = mainLoopStep w.sys.state _ msg w.sys.session
    rw [hstate, hm.desktop, hm.connected hc]

theorem matched {l : WorldStep} (hm : Matches w t) (hg : Orderly w l) (h : worldStep w l = some w') :
    Matched w l w' t := by
  cases l with
  | change c => exact matched_change hm h
  | hook rest => exact matched_hook hm h
  | handle rest => exact matched_handle hm h
  | server l =>
    obtain ⟨l', s, hl, hs, rfl⟩ := world_server_eq_some h
    obtain ⟨hhook, horder, henv⟩ := on_eq_some hl
    have hg' := horder w.sys hg
    exact matched_server hm (orderInv_step hm.order hg' hhook hs) (netStep hm.order hg' hhook hs)
      (henv w.sys)

end

/-! ## Who has asked -/

/-- The client of this connection was sent the list. -/
def ListSent (s : Session) : Prop := ∃ tasks, Packet.activeTaskList tasks ∈ s.sent

theorem ListSent.of_append {s s' : Session} {ps : List Packet} (h : ListSent s') (hs : s'.sent = s.sent ++ ps)
    (hps : ∀ tasks, Packet.activeTaskList tasks ∉ ps) : ListSent s := by
  obtain ⟨tasks, hmem⟩ := h
  rw [hs] at hmem
  exact ⟨tasks, (List.mem_append.mp hmem).resolve_right (hps tasks)⟩

theorem ListSent.of_addWindowTask {env : Env} {hwnd : HWND} {s : Session}
    (h : ListSent (addWindowTask env hwnd s)) : ListSent s := by
  unfold addWindowTask at h
  split at h
  · exact h
  · have hadd : ListSent (sendMissingIcon env (getHICON env hwnd)
        (insertTask hwnd (getHICON env hwnd) s)) := h.of_append rfl fun tasks => by simp
    rcases sendMissingIcon_cases env (insertTask hwnd (getHICON env hwnd) s) (getHICON env hwnd) with
      ⟨-, he⟩ | ⟨-, he⟩
    · rw [he] at hadd
      exact hadd
    · rw [he] at hadd
      exact hadd.of_append rfl fun tasks => by simp

/-- The handlers of the message loop send no list. -/
theorem ListSent.of_mainLoopStep {state : NetState} {env : Env} {msg : HookMsg} {s : Session}
    (h : ListSent (mainLoopStep state env msg s)) : ListSent s := by
  obtain ⟨hwnd, code⟩ := msg
  unfold mainLoopStep at h
  split at h
  · cases code with
    | windowsCreate => exact ListSent.of_addWindowTask h
    | windowsDestroy =>
      change ListSent (removeWindowTask hwnd s) at h
      unfold removeWindowTask at h
      split at h
      · exact h.of_append rfl fun tasks => by simp
      · exact h
    | windowsRename =>
      change ListSent (updateWindowTaskTitle env hwnd s) at h
      unfold updateWindowTaskTitle at h
      split at h
      · exact h.of_append rfl fun tasks => by simp
      · exact h
  · exact h

/-- The list is sent to those only who ask for it. -/
def AskedInv (t : Backlog) : Prop := t.state = .connected → ListSent t.session → t.asked = true

theorem askedInv_start (d : Desktop) : AskedInv (Backlog.start d) := fun hs => by
  simp [Backlog.start] at hs

theorem askedInv_step {t t' : Backlog} {l : Turn} (hI : AskedInv t) (h : backlogStep t l = some t') :
    AskedInv t' := by
  cases l with
  | change c =>
    obtain ⟨d, -, rfl⟩ := Option.map_eq_some_iff.mp h
    exact hI
  | hook rest =>
    obtain ⟨e, events, -, rfl⟩ := Backlog.hook_eq_some h
    exact hI
  | handle rest =>
    obtain ⟨msg, posted, -, rfl⟩ := Backlog.handle_eq_some h
    exact fun hs hl => hI hs hl.of_mainLoopStep
  | listen =>
    obtain ⟨-, rfl⟩ := Backlog.listen_eq_some h
    exact fun hs => by simp at hs
  | accept =>
    obtain ⟨-, rfl⟩ := Backlog.accept_eq_some h
    exact fun _ hl => by simp [ListSent] at hl
  | disconnect =>
    obtain ⟨-, rfl⟩ := Backlog.disconnect_eq_some h
    exact fun hs => by simp at hs
  | request rest =>
    obtain ⟨-, rfl⟩ := Backlog.request_eq_some h
    exact fun _ _ => rfl

/-! ## The whole process -/

/-- A client is connected and has the list, and the server has caught up. -/
structure World.Current (w : World) : Prop where
  connected : w.sys.netState = .connected
  list : ListSent w.sys.session
  events : w.events = []
  posted : w.posted = []

section
variable {d : Desktop} {ls : List WorldStep} {w : World}
  (hr : run worldStep (World.start d) ls = some w) (hg : Guarded worldStep Orderly (World.start d) ls)
include hr hg

/-- **Clicks in one step.**  A run of `Backlog` does what the threads do. -/
theorem exists_backlog_run : ∃ ts t, run backlogStep (Backlog.start d) ts = some t ∧ Matches w t := by
  have hstep : ∀ w l w' t, Matches w t → Orderly w l → worldStep w l = some w' →
      ∃ ts t', run backlogStep t ts = some t' ∧ Guarded backlogStep (fun _ _ => True) t ts ∧
        Matches w' t' := by
    intro w l w' t hm hl h
    obtain ⟨ts, t', hr', -, hm'⟩ := matched hm hl h
    exact ⟨ts, t', hr', guarded_true ts t, hm'⟩
  obtain ⟨ts, t, hr', -, hm⟩ := exists_run_matching hstep (matches_start d) hg hr
  exact ⟨ts, t, hr', hm⟩

/-- One that sees every show event in time if each finds a title. -/
theorem exists_backlog_run_seen (htitled : Guarded worldStep TitledWhenSeen (World.start d) ls) :
    ∃ ts t, run backlogStep (Backlog.start d) ts = some t ∧
      Guarded backlogStep SeenInTime (Backlog.start d) ts ∧ Matches w t := by
  have hstep : ∀ w l w' t, Matches w t → Orderly w l ∧ TitledWhenSeen w l → worldStep w l = some w' →
      ∃ ts t', run backlogStep t ts = some t' ∧ Guarded backlogStep SeenInTime t ts ∧ Matches w' t' := by
    intro w l w' t hm hl h
    obtain ⟨ts, t', hr', hseen, hm'⟩ := matched hm hl.1 h
    exact ⟨ts, t', hr', hseen hl.2, hm'⟩
  exact exists_run_matching hstep (matches_start d) (hg.and htitled) hr

end

section
variable {w : World} {t : Backlog} (hm : Matches w t) (hc : w.Current)
include hm hc

theorem Matches.session_eq : t.session = w.sys.session := hm.connected (hm.state.trans hc.connected)

theorem Matches.asked (hI : AskedInv t) : t.asked = true :=
  hI (hm.state.trans hc.connected) (hm.session_eq hc ▸ hc.list)

theorem Matches.quiet : t.Quiet := ⟨hm.events.trans hc.events, hm.posted.trans hc.posted⟩

end

/-- **The threads and the tablet.**  A list request and a window event are each handled in one step.
However these steps and those of the clicks and of the servers' threads interleave with the desktop's
changes and the queues, as long as no list request is served in AWAIT_CLIENT or inside the click that
starts a server: once a connected client has the list and the queues are empty, if the frames were
built, every item of the client at rest is a different visible taskbar window's, which a tap opens;
and if the hook found a title at each show event of such a window, each has its item. -/
theorem world_shown [BitmapFactory] (d : Desktop) {ls : List WorldStep} {w : World}
    {frames : List (List Byte)} (hr : run worldStep (World.start d) ls = some w)
    (hg : Guarded worldStep Orderly (World.start d) ls) (hc : w.Current)
    (hframes : w.sys.session.sent.mapM Packet.frame = some frames) :
    (∃ u, AtRest frames u) ∧ ∀ u, AtRest frames u →
      ((u.threads.tasks.map Task.hwnd).Nodup ∧ ∀ position task, u.threads.tasks[position]? = some task →
        ∃ k, w.desktop.Listed k ∧ Opens u position k) ∧
      (Guarded worldStep TitledWhenSeen (World.start d) ls →
        ∀ k, w.desktop.Listed k → ∃ position, Opens u position k) := by
  refine ⟨exists_atRest frames, fun u hu => ⟨?_, fun htitled k hk => ?_⟩⟩
  · obtain ⟨ts, t, hr', hm⟩ := exists_backlog_run hr hg
    have hI : WholeInv t := run_of_invariant (fun _ _ _ => wholeInv_step) (wholeInv_start d) hr'
    have hasked : AskedInv t := run_of_invariant (fun _ _ _ => askedInv_step) (askedInv_start d) hr'
    have hitems := hI.items (hm.asked hc hasked) (hm.session_eq hc ▸ hframes) hu (hm.quiet hc)
    rw [hm.desktop] at hitems
    exact hitems
  · obtain ⟨ts, t, hr', hseen, hm⟩ := exists_backlog_run_seen hr hg htitled
    have hasked : AskedInv t := run_of_invariant (fun _ _ _ => askedInv_step) (askedInv_start d) hr'
    have hI : WholeInv t ∧ Complete t := by
      refine (Guarded.always (I := fun t => WholeInv t ∧ Complete t) (fun t l t' hI hg h => ?_)
        (fun _ hI => hI) ts ⟨wholeInv_start d, complete_start d⟩ hseen).run hr'
      exact ⟨wholeInv_step hI.1 h, complete_step hI.1.backlog hI.2 hg h⟩
    have hask := hm.asked hc hasked
    have hsync := upToDate_of_complete hI.1.backlog hI.2 hask (hm.quiet hc)
    refine (hI.1.opens_iff_mem hask (hm.session_eq hc ▸ hframes) hu).mpr ?_
    exact ((inSync_iff _).mp hsync k).mpr (hm.desktop ▸ hk)

/-- `startUp`, and a client that is accepted. -/
def acceptedClient : List WorldStep :=
  [.server .click, .server .gui, .server .gui, .server .gui, .server .gui, .server .gui, .server .gui,
    .server (.acceptReturns 0 true), .server (.accept 0)]

/-- The receive thread of its server serves a list request. -/
def servedRequest : List WorldStep :=
  [.server (.receive 0 default), .server (.receive 0 default),
    .server (.recvReturns 0 (.data Request.activeTaskList.chunk)), .server (.receive 0 default)]

/-- A window comes and is shown. -/
def shownWindow (hwnd : HWND) (text : CString) : List WorldStep :=
  [.change (.created hwnd NULL NULL 0 text), .change (.shown hwnd), .hook default, .handle default]

/-- The callback sets CONNECTED before the request is served. -/
def orderlyClient : List WorldStep :=
  acceptedClient ++ .server (.accept 0) :: servedRequest ++ shownWindow (Handle.ofInt 7) ⟨[0x41], by decide⟩

/-- It does so only after the window was shown. -/
def hastyClient : List WorldStep :=
  acceptedClient ++ servedRequest ++ shownWindow (Handle.ofInt 7) ⟨[0x41], by decide⟩ ++
    [.server (.accept 0)]

theorem titledWhenSeen_shownWindow {w : World} {hwnd : HWND} {text : CString} (htext : text.bytes ≠ [])
    (hevents : w.events = []) : Guarded worldStep TitledWhenSeen w (shownWindow hwnd text) := by
  intro w₁ h₁
  obtain ⟨d₁, hd₁, rfl⟩ := world_change_eq_some h₁
  obtain ⟨-, hn₁, rfl⟩ := created_eq_some hd₁
  refine ⟨trivial, fun w₂ h₂ => ⟨trivial, ?_⟩⟩
  obtain ⟨d₂, hd₂, rfl⟩ := world_change_eq_some h₂
  obtain ⟨v, hn₂, hv, rfl⟩ := update_eq_some hd₂
  refine fun w₃ _ => ⟨fun e events he _ _ => ?_, fun w₄ _ => ⟨trivial, trivial⟩⟩
  -- the only event is the show event, and the text is the one the window came with
  change w.events ++ [] ++ [_] = e :: events at he
  rw [hevents] at he
  obtain ⟨rfl, rfl⟩ := List.cons.inj he
  refine ⟨{ v with visible := true }, AList.lookup_insert _, ?_⟩
  obtain rfl := Option.some.inj ((AList.lookup_insert _).symm.trans hv)
  exact htext

/-- The client has its item. -/
theorem world_shown_orderlyClient :
    letI := BitmapFactory.pngOnly
    ∃ w frames u, run worldStep (World.start Desktop.empty) orderlyClient = some w ∧ w.Current ∧
      w.sys.session.sent.mapM Packet.frame = some frames ∧ AtRest frames u ∧
      ∃ position, Opens u position (Handle.ofInt 7) := by
  let := BitmapFactory.pngOnly
  have hrun : ∃ w, run worldStep (World.start Desktop.empty) orderlyClient = some w ∧ w.Current ∧
      w.desktop.Listed (Handle.ofInt 7) ∧ w.sys.session.sent =
        [.activeTaskList [], .sendIcon NULL default,
          .addTask (Handle.ofInt 7) NULL (getWindowTitle ⟨[0x41], by decide⟩)] := by
    refine ⟨_, rfl, ⟨rfl, ⟨[], List.mem_cons_self⟩, rfl, rfl⟩, ?_, rfl⟩
    exact ⟨⟨true, NULL, NULL, 0, ⟨[0x41], by decide⟩⟩, rfl, rfl, ⟨rfl, rfl⟩, rfl⟩
  obtain ⟨w, hr, hc, hl, hsent⟩ := hrun
  obtain ⟨frames, hframes⟩ : ∃ frames, w.sys.session.sent.mapM Packet.frame = some frames := by
    rw [hsent]
    exact exists_frames_cons (encodeActiveTaskList_eq [] (by decide))
      (exists_frames_cons (frame_unconverted _) (exists_frames_cons (encodeAddTask_eq _ _ _) ⟨[], rfl⟩))
  have hg : Guarded worldStep Orderly (World.start Desktop.empty) orderlyClient := by decide
  have htitled : Guarded worldStep TitledWhenSeen (World.start Desktop.empty) orderlyClient := by
    refine (guarded_of_forall ?_ _).append rfl (titledWhenSeen_shownWindow (by decide) rfl)
    simp [acceptedClient, servedRequest, TitledWhenSeen]
  obtain ⟨⟨u, hu⟩, hitem⟩ := world_shown Desktop.empty hr hg hc hframes
  exact ⟨w, frames, u, hr, hc, hframes, hu, (hitem u hu).2 htitled _ hl⟩

/-- The order matters: nothing tells the client about the window. -/
theorem hastyClient_missing [BitmapFactory] :
    ∃ w frames, run worldStep (World.start Desktop.empty) hastyClient = some w ∧ w.Current ∧
      Guarded worldStep TitledWhenSeen (World.start Desktop.empty) hastyClient ∧
      w.desktop.Listed (Handle.ofInt 7) ∧ w.sys.session.sent.mapM Packet.frame = some frames ∧
      ∀ u, AtRest frames u → ∀ position, ¬ Opens u position (Handle.ofInt 7) := by
  have hrun : ∃ w, run worldStep (World.start Desktop.empty) hastyClient = some w ∧ w.Current ∧
      w.desktop.Listed (Handle.ofInt 7) ∧
      w.sys.session = handle ⟨reset, []⟩ (.list (Desktop.empty.env default)) := by
    refine ⟨_, rfl, ⟨rfl, ⟨[], List.mem_cons_self⟩, rfl, rfl⟩, ?_, rfl⟩
    exact ⟨⟨true, NULL, NULL, 0, ⟨[0x41], by decide⟩⟩, rfl, rfl, ⟨rfl, rfl⟩, rfl⟩
  obtain ⟨w, hr, hc, hl, hsession⟩ := hrun
  obtain ⟨frames, hframes⟩ : ∃ frames, w.sys.session.sent.mapM Packet.frame = some frames := by
    rw [hsession]
    exact exists_frames_cons (encodeActiveTaskList_eq [] (by decide)) ⟨[], rfl⟩
  refine ⟨w, frames, hr, hc, ?_, hl, hframes, fun u hu position hopens => ?_⟩
  · refine Guarded.append (Guarded.append (guarded_of_forall ?_ _) rfl (titledWhenSeen_shownWindow (by decide) rfl)) rfl
      (guarded_of_forall ?_ _)
    · simp [acceptedClient, servedRequest, TitledWhenSeen]
    · simp [TitledWhenSeen]
  · have hagree : Agrees w.sys.session := by
      rw [hsession]
      exact agrees_handle _ (.list (Desktop.empty.env default)) agrees_init
    have hmem := (hu.perm hframes hagree).mem_iff.mp (List.mem_of_getElem? (opens_iff.mp hopens))
    rw [hsession] at hmem
    exact absurd hmem List.not_mem_nil

end RemoteTaskbar
