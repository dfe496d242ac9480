import RemoteTaskbar.System.Connection

/-!
# The accepted client and the state of the server

`startUp` starts the accept thread before it assigns AWAIT_CLIENT and before it
registers the callbacks.  Only the callback of the current server's accept thread
ever sets CONNECTED (`AcceptInv`), and it runs once: if it runs before that
assignment, or is not registered yet, the connection is `Forgotten`, and a
forgotten connection stays so, since in AWAIT_CLIENT no click does anything.
-/

namespace RemoteTaskbar

open Wire Trans

/-! ## The property -/

def StartUpReturned (s : Sys) : Prop := GuiStep.registerOnRecv ∉ s.gui

/-- The accept thread is done and has a client socket: it then set `connected`, which
only `Server_Close` clears. -/
def AcceptedClient (o : ServerObject) : Prop := o.accept = .finished ∧ o.server.connected = true

def AcceptedConnected (s : Sys) : Prop :=
  ∀ n, s.current = some n → StartUpReturned s → AcceptedClient (s.objects n) → s.state = .connected

/-- When the accept thread of the current server comes to its callback, the callback is
registered and AWAIT_CLIENT has been assigned. -/
def InTime (s : Sys) : SysStep → Prop
  | .accept n => s.current = some n → (s.objects n).accept = .connectedSet →
      s.onConnected = true ∧ GuiStep.setAwaitClient ∉ s.gui
  | _ => True

/-! ## The invariant -/

/-- Not between its start and its end. -/
def AcceptThread.Idle (a : AcceptThread) : Prop := a = .notStarted ∨ a = .finished

/-- Only the current server's accept thread can be under way; while it is, the state
is not CONNECTED. -/
structure AcceptInv (s : Sys) : Prop where
  gui : GuiInv s.state s.current s.gui
  others : ∀ m, s.current ≠ some m → (s.objects m).accept.Idle
  own : ∀ n, s.current = some n → s.state = .connected → (s.objects n).accept = .finished
  given_up : s.current = none → s.state = .connected → s.gui = [.setDisconnected]
  starting : GuiStep.start ∈ s.gui → ∀ n, s.current = some n → (s.objects n).accept = .notStarted
  unset : ∀ n, s.current = some n → (s.objects n).accept = .notStarted ∨ (s.objects n).accept = .waiting →
    (s.objects n).server.connected = false
  set : ∀ n, s.current = some n → (s.objects n).accept = .connectedSet →
    (s.objects n).server.connected = true

/-- A client was accepted, and the state does not say so or is about to be overwritten. -/
def Forgotten (s : Sys) : Prop :=
  ∃ n, s.current = some n ∧ AcceptedClient (s.objects n) ∧
    (s.state ≠ .connected ∨ GuiStep.setAwaitClient ∈ s.gui)

/-- No client was forgotten, and none is about to be. -/
def Remembered (s : Sys) : Prop :=
  ∀ n, s.current = some n → AcceptedClient (s.objects n) →
    s.state = .connected ∧ GuiStep.setAwaitClient ∉ s.gui

theorem remembered_iff (s : Sys) : Remembered s ↔ ¬ Forgotten s := by
  unfold Remembered Forgotten
  constructor
  · rintro h ⟨n, hn, ha, hst | hg⟩
    · exact hst (h n hn ha).1
    · exact (h n hn ha).2 hg
  · intro h n hn ha
    by_contra hno
    refine h ⟨n, hn, ha, ?_⟩
    by_cases hst : s.state = .connected
    · exact Or.inr (by_contra fun hg => hno ⟨hst, hg⟩)
    · exact Or.inl hst

/-! ## What the steps do -/

/-- A step that leaves the accept threads, the `connected` flags and the GUI thread alone. -/
structure SameAccept (s s' : Sys) : Prop where
  current : s'.current = s.current
  gui : s'.gui = s.gui
  state : s'.state = s.state
  accept : ∀ m, (s'.objects m).accept = (s.objects m).accept
  connected : ∀ m, (s'.objects m).server.connected = (s.objects m).server.connected

section
variable {s s' : Sys} {n : Nat}

theorem sameAccept_setObject (o : ServerObject) (session : Session)
    (ha : o.accept = (s.objects n).accept)
    (hc : o.server.connected = (s.objects n).server.connected) :
    SameAccept s { s.setObject n o with session := session } := by
  refine ⟨rfl, rfl, rfl, fun m => ?_, fun m => ?_⟩
  · by_cases hm : m = n
    · subst hm
      simpa using ha
    · rw [← Sys.setObject_objects_ne s o hm]
  · by_cases hm : m = n
    · subst hm
      simpa using hc
    · rw [← Sys.setObject_objects_ne s o hm]

theorem sameAccept_hook (d : Delivery) (hs : sysStep s (.hook d) = some s') : SameAccept s s' := by
  simp only [sysStep] at hs
  split at hs
  · obtain rfl := Option.some.inj hs
    exact ⟨rfl, rfl, rfl, fun _ => rfl, fun _ => rfl⟩
  · exact absurd hs (by simp)

theorem sameAccept_recvReturns (r : RecvResult) (hs : sysStep s (.recvReturns n r) = some s') :
    SameAccept s s' := by
  simp only [sysStep] at hs
  split at hs
  · obtain rfl := Option.some.inj hs
    exact sameAccept_setObject _ s.session rfl rfl
  · exact absurd hs (by simp)

theorem sameAccept_receive (env : Env) (hs : sysStep s (.receive n env) = some s') :
    SameAccept s s' := by
  simp only [sysStep, Sys.receiveStep] at hs
  split at hs
  · obtain rfl := Option.some.inj hs
    split
    · exact sameAccept_setObject _ s.session rfl rfl
    · exact ⟨rfl, rfl, rfl, fun _ => rfl, fun _ => rfl⟩
  · obtain rfl := Option.some.inj hs
    exact sameAccept_setObject _ s.session rfl rfl
  · obtain rfl := Option.some.inj hs
    exact sameAccept_setObject _ _ rfl rfl
  · exact absurd hs (by simp)

theorem acceptReturns_eq_some {success : Bool} (hs : sysStep s (.acceptReturns n success) = some s') :
    (s.objects n).accept = .waiting ∧
      s' = s.setObject n { s.objects n with accept := if success then .accepted else .finished } := by
  simp only [sysStep] at hs
  split at hs
  · next hw => exact ⟨hw, (Option.some.inj hs).symm⟩
  · exact absurd hs (by simp)

/-- After `accept` the thread sets `connected`, and then runs the callback if there is one. -/
theorem accept_eq_some (hs : sysStep s (.accept n) = some s') :
    ((s.objects n).accept = .accepted ∧ s' = s.setObject n { s.objects n with
      server := { (s.objects n).server with connected := true }
      accept := .connectedSet }) ∨
    ((s.objects n).accept = .connectedSet ∧
      s' = { s.setObject n { s.objects n with accept := .finished } with
        state := if s.onConnected then .connected else s.state }) := by
  simp only [sysStep, Sys.acceptStep] at hs
  split at hs
  · next ha =>
    refine Or.inl ⟨ha, ?_⟩
    rw [← Option.some.inj hs]
    simp [Sys.setConnected, Sys.setObject]
  · next ha =>
    refine Or.inr ⟨ha, ?_⟩
    rw [← Option.some.inj hs]
    cases hc : s.onConnected with
    | false => simp [Sys.setObject, hc]
    | true => simp [Sys.setObject, hc]
  · exact absurd hs (by simp)

/-- A click that is more than `disconnect` found the state DISCONNECTED. -/
theorem disconnected_of_mem_connectButton {g : GuiStep} (h : g ∈ s.connectButton)
    (hg : g ∉ [GuiStep.close, .destroy, .clear, .setDisconnected]) : s.state = .disconnected := by
  unfold Sys.connectButton Sys.disconnect at h
  cases hst : s.state with
  | disconnected => rfl
  | awaitClient =>
    rw [hst] at h
    exact absurd h List.not_mem_nil
  | connected =>
    rw [hst] at h
    simp only at h
    split at h
    · exact absurd h hg
    · exact absurd h List.not_mem_nil

theorem connectButton_head (s : Sys) : s.connectButton.head? ≠ some .clear := by
  unfold Sys.connectButton Sys.startUp Sys.disconnect
  cases s.state with
  | disconnected => cases s.current <;> simp
  | awaitClient => simp
  | connected => cases s.current <;> simp

end

/-! ## The invariant is kept -/

theorem AcceptInv.congr {s s' : Sys} (h : AcceptInv s) (e : SameAccept s s') : AcceptInv s' where
  gui := by
    rw [e.current, e.gui, e.state]
    exact h.gui
  others m hm := by
    rw [e.accept]
    exact h.others m (e.current ▸ hm)
  own n hn hst := by
    rw [e.accept]
    exact h.own n (e.current ▸ hn) (e.state ▸ hst)
  given_up hn hst := by
    rw [e.gui]
    exact h.given_up (e.current ▸ hn) (e.state ▸ hst)
  starting hg n hn := by
    rw [e.accept]
    exact h.starting (e.gui ▸ hg) n (e.current ▸ hn)
  unset n hn ha := by
    rw [e.accept] at ha
    rw [e.connected]
    exact h.unset n (e.current ▸ hn) ha
  set n hn ha := by
    rw [e.accept] at ha
    rw [e.connected]
    exact h.set n (e.current ▸ hn) ha

section
variable {s s' : Sys} {n : Nat} (h : AcceptInv s)
include h

/-- An accept thread under way is the current server's. -/
theorem AcceptInv.current_of_busy (hb : ¬ (s.objects n).accept.Idle) : s.current = some n := by
  by_contra hn
  exact hb (h.others n hn)

/-- Steps of an accept thread under way. -/
theorem acceptInv_own (hb : ¬ (s.objects n).accept.Idle) (o : ServerObject) (state : NetState)
    (hst : state = s.state ∨ (state = .connected ∧ o.accept = .finished))
    (hw : o.accept ≠ .notStarted ∧ o.accept ≠ .waiting)
    (hset : o.accept = .connectedSet → o.server.connected = true) :
    AcceptInv { s.setObject n o with state := state } := by
  have hn := h.current_of_busy hb
  have hnot : s.state ≠ .connected := fun hc => hb (Or.inr (h.own n hn hc))
  have hstart : GuiStep.start ∉ s.gui := fun hg => hb (Or.inl (h.starting hg n hn))
  have hcur : ∀ m, s.current = some m → m = n := fun m hm => Option.some.inj (hm.symm.trans hn)
  constructor
  · rcases hst with rfl | ⟨rfl, -⟩
    · exact h.gui
    · exact h.gui.connected
  · intro m hm
    have hmn : m ≠ n := by
      rintro rfl
      exact hm hn
    show ((s.setObject n o).objects m).accept.Idle
    rw [Sys.setObject_objects_ne s o hmn]
    exact h.others m hm
  · intro m hm hc
    obtain rfl := hcur m hm
    show ((s.setObject m o).objects m).accept = _
    rw [Sys.setObject_objects_self]
    rcases hst with rfl | ⟨-, hf⟩
    · exact absurd hc hnot
    · exact hf
  · intro hnone _
    exact absurd (hn.symm.trans hnone) (by simp)
  · intro hg m _
    exact absurd hg hstart
  · intro m hm ha
    obtain rfl := hcur m hm
    simp only [Sys.setObject_objects_self] at ha
    rcases ha with ha | ha
    · exact absurd ha hw.1
    · exact absurd ha hw.2
  · intro m hm ha
    obtain rfl := hcur m hm
    simp only [Sys.setObject_objects_self] at ha ⊢
    exact hset ha

theorem acceptInv_acceptReturns (success : Bool)
    (hs : sysStep s (.acceptReturns n success) = some s') : AcceptInv s' := by
  obtain ⟨hw, rfl⟩ := acceptReturns_eq_some hs
  have hb : ¬ (s.objects n).accept.Idle := by simp [AcceptThread.Idle, hw]
  cases success with
  | false => exact acceptInv_own h hb _ s.state (Or.inl rfl) (by simp) (by simp)
  | true => exact acceptInv_own h hb _ s.state (Or.inl rfl) (by simp) (by simp)

theorem acceptInv_accept (hs : sysStep s (.accept n) = some s') : AcceptInv s' := by
  rcases accept_eq_some hs with ⟨ha, rfl⟩ | ⟨ha, rfl⟩
  · have hb : ¬ (s.objects n).accept.Idle := by simp [AcceptThread.Idle, ha]
    exact acceptInv_own h hb _ s.state (Or.inl rfl) (by simp) (fun _ => rfl)
  · have hb : ¬ (s.objects n).accept.Idle := by simp [AcceptThread.Idle, ha]
    refine acceptInv_own h hb _ _ ?_ (by simp) (by simp)
    split
    · exact Or.inr ⟨rfl, rfl⟩
    · exact Or.inl rfl

theorem acceptInv_click (hs : sysStep s .click = some s') : AcceptInv s' := by
  obtain ⟨hg, rfl⟩ := click_eq_some hs
  have hidle : GuiInv s.state s.current [] := hg ▸ h.gui
  refine ⟨guiInv_connectButton hidle, h.others, h.own, fun hn hst => ?_, fun hstart n hn => ?_,
    h.unset, h.set⟩
  · rw [h.given_up hn hst] at hg
    exact absurd hg (by simp)
  · -- `startUp` begins without a server
    rw [disconnected_of_mem_connectButton hstart (by decide)] at hidle
    exact absurd (hn.symm.trans hidle.current_eq_none) (by simp)

theorem acceptInv_gui (hs : sysStep s .gui = some s') : AcceptInv s' := by
  have hgui := guiInv_gui h.gui hs
  have hobjects : ∀ m, s.current ≠ some m → s'.current ≠ some m → s'.objects m = s.objects m :=
    fun m => gui_objects hs
  obtain ⟨state, current, objects, created, onConnected, onRecv, gui, session⟩ := s
  obtain ⟨hguis, hothers, hown, hgiven, hstarting, hunset, hset⟩ := h
  simp only at hguis hothers hown hgiven hstarting hunset hset
  cases hguis with
  | idle hc => exact absurd hs (by simp [sysStep])
  | close n =>
    obtain rfl := Option.some.inj hs
    have hfin : (objects n).accept = .finished := hown n rfl rfl
    refine ⟨hgui, fun m hm => ?_, fun m hm _ => ?_, fun hn => absurd hn (Option.some_ne_none n),
      by simp, fun m hm ha => ?_, fun m hm ha => ?_⟩
    · rw [hobjects m hm hm]
      exact hothers m hm
    all_goals
      obtain rfl : n = m := Option.some.inj hm
    · simpa [Sys.guiStep, Sys.setConnected] using hfin
    · simp [Sys.guiStep, Sys.setConnected]
    · simp [Sys.guiStep, Sys.setConnected, hfin] at ha
  | destroy n =>
    obtain rfl := Option.some.inj hs
    exact ⟨hgui, hothers, hown, by simp [Sys.guiStep], by simp, hunset, hset⟩
  | clear n =>
    obtain rfl := Option.some.inj hs
    refine ⟨hgui, fun m _ => ?_, by simp [Sys.guiStep], fun _ _ => rfl, by simp,
      by simp [Sys.guiStep], by simp [Sys.guiStep]⟩
    by_cases hmn : m = n
    · subst hmn
      exact Or.inr (hown m rfl rfl)
    · exact hothers m fun hm => hmn (Option.some.inj hm).symm
  | setDisconnected =>
    obtain rfl := Option.some.inj hs
    exact ⟨hgui, hothers, by simp [Sys.guiStep], by simp [Sys.guiStep], by simp, hunset, hset⟩
  | create =>
    obtain rfl := Option.some.inj hs
    have hst : state ≠ .connected := fun hc => absurd (hgiven rfl hc) (by simp)
    refine ⟨hgui, fun m hm => ?_, fun _ _ hc => absurd hc hst, by simp [Sys.guiStep],
      fun _ m hm => ?_, fun m hm _ => ?_, fun m hm ha => ?_⟩
    · rw [hobjects m (by simp) hm]
      exact hothers m (by simp)
    all_goals
      obtain rfl : created = m := Option.some.inj hm
    · simp [Sys.guiStep, ServerObject.create]
    · simp [Sys.guiStep, ServerObject.create, Server.create]
    · simp [Sys.guiStep, ServerObject.create] at ha
  | start n =>
    obtain rfl := Option.some.inj hs
    have hnew : (objects n).accept = .notStarted := hstarting (by simp) n rfl
    have hst : state ≠ .connected := by
      intro hc
      rw [hown n rfl hc] at hnew
      exact absurd hnew (by decide)
    refine ⟨hgui, fun m hm => ?_, fun _ _ hc => absurd hc hst,
      fun hn => absurd hn (Option.some_ne_none n), by simp, fun m hm _ => ?_, fun m hm ha => ?_⟩
    · rw [hobjects m hm hm]
      exact hothers m hm
    all_goals
      obtain rfl : n = m := Option.some.inj hm
    · simpa [Sys.guiStep] using hunset n rfl (Or.inl hnew)
    · simp [Sys.guiStep] at ha
  | setAwaitClient n =>
    obtain rfl := Option.some.inj hs
    exact ⟨hgui, hothers, by simp [Sys.guiStep], by simp [Sys.guiStep], by simp, hunset, hset⟩
  | registerOnConnected n hst =>
    obtain rfl := Option.some.inj hs
    exact ⟨hgui, hothers, hown, by simp [Sys.guiStep], by simp, hunset, hset⟩
  | registerOnRecv n hst =>
    obtain rfl := Option.some.inj hs
    exact ⟨hgui, hothers, hown, by simp [Sys.guiStep], by simp, hunset, hset⟩
  | reset n hst =>
    obtain rfl := Option.some.inj hs
    exact ⟨hgui, hothers, hown, by simp [Sys.guiStep], by simp, hunset, hset⟩

theorem acceptInv_step (l : SysStep) (hs : sysStep s l = some s') : AcceptInv s' := by
  cases l with
  | click => exact acceptInv_click h hs
  | gui => exact acceptInv_gui h hs
  | hook d => exact h.congr (sameAccept_hook d hs)
  | acceptReturns n success => exact acceptInv_acceptReturns h success hs
  | accept n => exact acceptInv_accept h hs
  | recvReturns n r => exact h.congr (sameAccept_recvReturns r hs)
  | receive n env => exact h.congr (sameAccept_receive env hs)

end

theorem acceptInv_init : AcceptInv Sys.init where
  gui := .idle fun _ => rfl
  others _ _ := Or.inl rfl
  own n hn := absurd hn (by simp [Sys.init])
  given_up _ hst := absurd hst (by simp [Sys.init])
  starting hg := absurd hg (by simp [Sys.init])
  unset n hn := absurd hn (by simp [Sys.init])
  set n hn := absurd hn (by simp [Sys.init])

/-! ## Clients remembered and forgotten -/

section
variable {s s' : Sys} {n : Nat}

theorem AcceptedClient.congr (e : SameAccept s s') (h : AcceptedClient (s'.objects n)) :
    AcceptedClient (s.objects n) := by
  obtain ⟨hf, hc⟩ := h
  rw [e.accept] at hf
  rw [e.connected] at hc
  exact ⟨hf, hc⟩

theorem Remembered.congr (h : Remembered s) (e : SameAccept s s') : Remembered s' := by
  intro n hn ha
  rw [e.state, e.gui]
  exact h n (e.current ▸ hn) (ha.congr e)

theorem SameAccept.symm (e : SameAccept s s') : SameAccept s' s :=
  ⟨e.current.symm, e.gui.symm, e.state.symm, fun m => (e.accept m).symm, fun m => (e.connected m).symm⟩

theorem Forgotten.congr (h : Forgotten s) (e : SameAccept s s') : Forgotten s' := by
  by_contra hno
  exact (remembered_iff s).mp (((remembered_iff s').mpr hno).congr e.symm) h

theorem forgotten_click (hf : Forgotten s) (hs : sysStep s .click = some s') : Forgotten s' := by
  obtain ⟨hg, rfl⟩ := click_eq_some hs
  obtain ⟨n, hn, ha, hst⟩ := hf
  have hnot : s.state ≠ .connected := hst.resolve_right (by simp [hg])
  exact ⟨n, hn, ha, Or.inl hnot⟩

theorem not_acceptedClient {o : ServerObject} (h : o.accept ≠ .finished) : ¬ AcceptedClient o :=
  fun ha => h ha.1

end

section
variable {s s' : Sys} {n : Nat} (h : AcceptInv s)
include h

theorem remembered_click (hr : Remembered s) (hs : sysStep s .click = some s') : Remembered s' := by
  obtain ⟨hg, rfl⟩ := click_eq_some hs
  intro n hn ha
  refine ⟨(hr n hn ha).1, fun hset => ?_⟩
  have hidle : GuiInv s.state s.current [] := hg ▸ h.gui
  rw [disconnected_of_mem_connectButton hset (by decide)] at hidle
  exact absurd (hn.symm.trans hidle.current_eq_none) (by simp)

theorem remembered_gui (hr : Remembered s) (hs : sysStep s .gui = some s') : Remembered s' := by
  obtain ⟨state, current, objects, created, onConnected, onRecv, gui, session⟩ := s
  have hguis := h.gui
  simp only at hguis
  cases hguis with
  | idle hc => exact absurd hs (by simp [sysStep])
  | close n =>
    obtain rfl := Option.some.inj hs
    intro m hm ha
    obtain rfl : n = m := Option.some.inj hm
    exact absurd ha.2 (by simp [Sys.guiStep, Sys.setConnected])
  | destroy n =>
    obtain rfl := Option.some.inj hs
    exact fun m hm ha => ⟨rfl, by simp⟩
  | clear n =>
    obtain rfl := Option.some.inj hs
    exact fun m hm => absurd hm.symm (Option.some_ne_none m)
  | setDisconnected =>
    obtain rfl := Option.some.inj hs
    exact fun m hm => absurd hm.symm (Option.some_ne_none m)
  | create =>
    obtain rfl := Option.some.inj hs
    intro m hm
    obtain rfl : created = m := Option.some.inj hm
    refine fun ha => absurd ha (not_acceptedClient ?_)
    simp [Sys.guiStep, ServerObject.create]
  | start n =>
    obtain rfl := Option.some.inj hs
    intro m hm
    obtain rfl : n = m := Option.some.inj hm
    refine fun ha => absurd ha (not_acceptedClient ?_)
    simp [Sys.guiStep]
  | setAwaitClient n =>
    obtain rfl := Option.some.inj hs
    exact fun m hm ha => absurd (hr m hm ha).2 (by simp)
  | registerOnConnected n hst =>
    obtain rfl := Option.some.inj hs
    exact fun m hm ha => ⟨(hr m hm ha).1, by simp⟩
  | registerOnRecv n hst =>
    obtain rfl := Option.some.inj hs
    exact fun m hm ha => ⟨(hr m hm ha).1, by simp⟩
  | reset n hst =>
    obtain rfl := Option.some.inj hs
    exact fun m hm ha => ⟨(hr m hm ha).1, by simp⟩

/-- An accept thread that is not at its end has accepted no client yet. -/
theorem remembered_acceptReturns {success : Bool}
    (hs : sysStep s (.acceptReturns n success) = some s') : Remembered s' := by
  obtain ⟨hw, rfl⟩ := acceptReturns_eq_some hs
  have hn := h.current_of_busy (n := n) (by simp [AcceptThread.Idle, hw])
  intro m hm ha
  obtain rfl : n = m := Option.some.inj (hn.symm.trans hm)
  have hc := h.unset n hn (Or.inr hw)
  rw [Sys.setObject_objects_self] at ha
  exact absurd ha.2 (by simp [hc])

theorem remembered_accept (hg : InTime s (.accept n))
    (hs : sysStep s (.accept n) = some s') : Remembered s' := by
  rcases accept_eq_some hs with ⟨ha, rfl⟩ | ⟨ha, rfl⟩
  · have hn := h.current_of_busy (n := n) (by simp [AcceptThread.Idle, ha])
    intro m hm hacc
    obtain rfl : n = m := Option.some.inj (hn.symm.trans hm)
    rw [Sys.setObject_objects_self] at hacc
    exact absurd hacc (not_acceptedClient (by simp))
  · have hn := h.current_of_busy (n := n) (by simp [AcceptThread.Idle, ha])
    obtain ⟨hon, hset⟩ := hg hn ha
    exact fun _ _ _ => ⟨if_pos hon, hset⟩

theorem remembered_step (hr : Remembered s) {l : SysStep} (hg : InTime s l)
    (hs : sysStep s l = some s') : Remembered s' := by
  cases l with
  | click => exact remembered_click h hr hs
  | gui => exact remembered_gui h hr hs
  | hook d => exact hr.congr (sameAccept_hook d hs)
  | acceptReturns n success => exact remembered_acceptReturns h hs
  | accept n => exact remembered_accept h hg hs
  | recvReturns n r => exact hr.congr (sameAccept_recvReturns r hs)
  | receive n env => exact hr.congr (sameAccept_receive env hs)

/-- A callback out of time forgets the client: it sets nothing, or what it sets is
overwritten. -/
theorem forgotten_of_not_inTime {l : SysStep} (hg : ¬ InTime s l) (hs : sysStep s l = some s') :
    Forgotten s' := by
  cases l with
  | accept n =>
    simp only [InTime, not_forall] at hg
    obtain ⟨hn, ha, hno⟩ := hg
    have hnot : s.state ≠ .connected := by
      intro hst
      rw [h.own n hn hst] at ha
      exact absurd ha (by decide)
    rcases accept_eq_some hs with ⟨ha', -⟩ | ⟨-, rfl⟩
    · rw [ha] at ha'
      exact absurd ha' (by decide)
    · refine ⟨n, hn, ?_, ?_⟩
      · show AcceptedClient ((s.setObject n _).objects n)
        rw [Sys.setObject_objects_self]
        exact ⟨rfl, h.set n hn ha⟩
      · by_cases hon : s.onConnected = true
        · exact Or.inr (by_contra fun hset => hno ⟨hon, hset⟩)
        · refine Or.inl ?_
          simpa [hon] using hnot
  | click => exact absurd trivial hg
  | gui => exact absurd trivial hg
  | hook d => exact absurd trivial hg
  | acceptReturns n success => exact absurd trivial hg
  | recvReturns n r => exact absurd trivial hg
  | receive n env => exact absurd trivial hg

theorem forgotten_gui (hf : Forgotten s) (hs : sysStep s .gui = some s') : Forgotten s' := by
  obtain ⟨state, current, objects, created, onConnected, onRecv, gui, session⟩ := s
  obtain ⟨n, hn, ha, hst⟩ := hf
  have hguis := h.gui
  simp only at hguis hn ha hst
  cases hguis with
  | idle hc => exact absurd hs (by simp [sysStep])
  | close n => exact absurd hst (by simp)
  | destroy n => exact absurd hst (by simp)
  | clear n => exact absurd hst (by simp)
  | setDisconnected => exact absurd hn.symm (Option.some_ne_none n)
  | create => exact absurd hn.symm (Option.some_ne_none n)
  | start m =>
    -- the accept thread is not started yet
    have hnew := h.starting (by simp) n hn
    rw [ha.1] at hnew
    exact absurd hnew (by decide)
  | setAwaitClient m =>
    obtain rfl := Option.some.inj hs
    exact ⟨n, hn, ha, Or.inl (by simp [Sys.guiStep])⟩
  | registerOnConnected m hd =>
    obtain rfl := Option.some.inj hs
    exact ⟨n, hn, ha, Or.inl (hst.resolve_right (by simp))⟩
  | registerOnRecv m hd =>
    obtain rfl := Option.some.inj hs
    exact ⟨n, hn, ha, Or.inl (hst.resolve_right (by simp))⟩
  | reset m hd =>
    obtain rfl := Option.some.inj hs
    exact ⟨n, hn, ha, Or.inl (hst.resolve_right (by simp))⟩

/-- The accept threads are all at their end. -/
theorem idle_of_forgotten (hf : Forgotten s) (m : Nat) : (s.objects m).accept.Idle := by
  obtain ⟨n, hn, ha, -⟩ := hf
  by_cases hm : s.current = some m
  · obtain rfl : n = m := Option.some.inj (hn.symm.trans hm)
    exact Or.inr ha.1
  · exact h.others m hm

theorem forgotten_step (hf : Forgotten s) {l : SysStep} (hs : sysStep s l = some s') :
    Forgotten s' := by
  cases l with
  | click => exact forgotten_click hf hs
  | gui => exact forgotten_gui h hf hs
  | hook d => exact hf.congr (sameAccept_hook d hs)
  | acceptReturns n success =>
    have hidle := idle_of_forgotten h hf n
    rw [(acceptReturns_eq_some hs).1] at hidle
    exact absurd hidle (by simp [AcceptThread.Idle])
  | accept n =>
    have hidle := idle_of_forgotten h hf n
    rcases accept_eq_some hs with ⟨ha, -⟩ | ⟨ha, -⟩
    · rw [ha] at hidle
      exact absurd hidle (by simp [AcceptThread.Idle])
    · rw [ha] at hidle
      exact absurd hidle (by simp [AcceptThread.Idle])
  | recvReturns n r => exact hf.congr (sameAccept_recvReturns r hs)
  | receive n env => exact hf.congr (sameAccept_receive env hs)

/-- AWAIT_CLIENT is still to be assigned only inside `startUp`. -/
theorem not_acceptedConnected (hf : Forgotten s) (hret : StartUpReturned s) : ¬ AcceptedConnected s := by
  obtain ⟨state, current, objects, created, onConnected, onRecv, gui, session⟩ := s
  intro hp
  obtain ⟨n, hn, ha, hst⟩ := hf
  have hc := hp n hn hret ha
  have hset := hst.resolve_left (not_not.mpr hc)
  have hgui := h.gui
  simp only [StartUpReturned] at hgui hset hret
  cases hgui <;> simp at hset hret

end

/-! ## Any run -/

theorem remembered_init : Remembered Sys.init := fun n hn => absurd hn (by simp [Sys.init])

/-- **The accepted client.**  In every run in which the callback of each accept thread
comes in time, a client that was accepted is not forgotten.  A run that ends with
`startUp` returned and its client not forgotten is one of these. -/
theorem acceptedConnected_of_inTime (ls : List SysStep) :
    (Guarded sysStep InTime Sys.init ls → Always sysStep AcceptedConnected Sys.init ls) ∧
    ∀ s, run sysStep Sys.init ls = some s → StartUpReturned s → AcceptedConnected s →
      Guarded sysStep InTime Sys.init ls := by
  constructor
  · refine Guarded.always (I := fun s => AcceptInv s ∧ Remembered s) ?_ ?_ ls
      ⟨acceptInv_init, remembered_init⟩
    · exact fun s l s' h hg hs => ⟨acceptInv_step h.1 l hs, remembered_step h.1 h.2 hg hs⟩
    · exact fun s h n hn _ ha => (h.2 n hn ha).1
  · intro s hrun hret hp
    have hinv : AcceptInv s := run_of_invariant (fun s l s' h hs => acceptInv_step h l hs) acceptInv_init hrun
    refine guarded_of_not_stuck (I := AcceptInv) (B := Forgotten) ?_ ?_ ?_ ls acceptInv_init hrun ?_
    · exact fun s l s' h hs => acceptInv_step h l hs
    · exact fun s l s' h hg hs => forgotten_of_not_inTime h hg hs
    · exact fun s l s' h hs => forgotten_step h.1 h.2 hs
    · exact fun hf => not_acceptedConnected hinv hf hret hp

/-- A first connection whose client is there before `startUp` goes on. -/
def earlyClient : List SysStep :=
  [.click, .gui, .gui, .acceptReturns 0 true, .accept 0, .accept 0, .gui, .gui, .gui, .gui]

/-- A connection that is served and closed, and then such a client. -/
def earlySecondClient : List SysStep :=
  [.click, .gui, .gui, .gui, .gui, .gui, .gui, .acceptReturns 0 true, .accept 0, .accept 0,
    .click, .gui, .gui, .gui, .gui,
    .click, .gui, .gui, .acceptReturns 1 true, .accept 1, .accept 1, .gui, .gui, .gui, .gui]

/-- On the first connection the callback is not registered yet, on the second the state
it sets is overwritten. -/
theorem early_client_forgotten :
    (∃ s, run sysStep Sys.init earlyClient = some s ∧ s.current = some 0 ∧ s.gui = [] ∧
      AcceptedClient (s.objects 0) ∧ s.state = .awaitClient ∧ ¬ AcceptedConnected s) ∧
    ∃ s, run sysStep Sys.init earlySecondClient = some s ∧ s.current = some 1 ∧ s.gui = [] ∧
      AcceptedClient (s.objects 1) ∧ s.state = .awaitClient ∧ ¬ AcceptedConnected s := by
  refine ⟨⟨_, rfl, rfl, rfl, ⟨rfl, rfl⟩, rfl, fun h => ?_⟩, ⟨_, rfl, rfl, rfl, ⟨rfl, rfl⟩, rfl, fun h => ?_⟩⟩
  · have hc := h 0 rfl List.not_mem_nil ⟨rfl, rfl⟩
    exact absurd hc NetState.noConfusion
  · have hc := h 1 rfl List.not_mem_nil ⟨rfl, rfl⟩
    exact absurd hc NetState.noConfusion

end RemoteTaskbar
