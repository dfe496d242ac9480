import RemoteTaskbar.Lib.Trans
import RemoteTaskbar.Server.NetworkManager

/-!
# CONNECTED and the end of a connection

A receive thread that leaves its loop because the client closed or `recv` failed
tells nobody.  It had found `connected` set before that `recv`, and only the GUI
thread clears it, in `disconnect`, which ends by giving up the server
(`SysInv`).  So as long as the server is the current one, `connected` is set or
the state is CONNECTED, and the state claimed for a dead connection is never
reached.
-/

namespace RemoteTaskbar

open Wire Trans

/-! ## The property -/

/-- The receive thread left its loop because the client closed or `recv` failed. -/
def LeftByPeer (o : ServerObject) : Prop :=
  o.receive = .left .closed ∨ o.receive = .left .recvFailed

/-- Once the current connection is dead the server is no longer CONNECTED, and
hook events have no effect. -/
def DeadNotConnected (s : Sys) : Prop :=
  ∀ n, s.current = some n → LeftByPeer (s.objects n) →
    s.state ≠ .connected ∧ (s.objects n).server.connected = false ∧
      ∀ d, deliver s.state s.session d = s.session

/-- The step by which the current receive thread leaves its loop because the client
closed or `recv` failed. -/
def Leaves (s : Sys) : SysStep → Prop
  | .recvReturns n r =>
    s.current = some n ∧ (s.objects n).receive = .inRecv ∧ r.retVal = SOCKET_ERROR
  | .receive n _ => s.current = some n ∧ (s.objects n).receive = .calling true
  | _ => False

/-! ## The invariant -/

/-- The test of the loop was passed before the last `recv`. -/
def PastTest : ReceiveThread → Prop
  | .inRecv => True
  | .calling _ => True
  | .left .closed => True
  | .left .recvFailed => True
  | _ => False

theorem LeftByPeer.pastTest {o : ServerObject} (h : LeftByPeer o) : PastTest o.receive := by
  rcases h with h | h
  · rw [h]
    trivial
  · rw [h]
    trivial

/-- Where the GUI thread can be in a click. -/
inductive GuiInv : NetState → Option Nat → List GuiStep → Prop where
  | idle {state : NetState} {current : Option Nat} (h : state = .disconnected → current = none) :
      GuiInv state current []
  | close (n : Nat) : GuiInv .connected (some n) [.close, .destroy, .clear, .setDisconnected]
  | destroy (n : Nat) : GuiInv .connected (some n) [.destroy, .clear, .setDisconnected]
  | clear (n : Nat) : GuiInv .connected (some n) [.clear, .setDisconnected]
  | setDisconnected {state : NetState} : GuiInv state none [.setDisconnected]
  | create {state : NetState} :
      GuiInv state none [.create, .start, .setAwaitClient, .registerOnConnected, .registerOnRecv, .reset]
  | start {state : NetState} (n : Nat) :
      GuiInv state (some n) [.start, .setAwaitClient, .registerOnConnected, .registerOnRecv, .reset]
  | setAwaitClient {state : NetState} (n : Nat) :
      GuiInv state (some n) [.setAwaitClient, .registerOnConnected, .registerOnRecv, .reset]
  | registerOnConnected {state : NetState} (n : Nat) (h : state ≠ .disconnected) :
      GuiInv state (some n) [.registerOnConnected, .registerOnRecv, .reset]
  | registerOnRecv {state : NetState} (n : Nat) (h : state ≠ .disconnected) :
      GuiInv state (some n) [.registerOnRecv, .reset]
  | reset {state : NetState} (n : Nat) (h : state ≠ .disconnected) : GuiInv state (some n) [.reset]

/-- The accept thread may set CONNECTED at any time. -/
theorem GuiInv.connected {state : NetState} {current : Option Nat} {gui : List GuiStep}
    (h : GuiInv state current gui) : GuiInv .connected current gui := by
  cases h with
  | idle h => exact .idle fun hc => absurd hc (by decide)
  | close n => exact .close n
  | destroy n => exact .destroy n
  | clear n => exact .clear n
  | setDisconnected => exact .setDisconnected
  | create => exact .create
  | start n => exact .start n
  | setAwaitClient n => exact .setAwaitClient n
  | registerOnConnected n h => exact .registerOnConnected n (by decide)
  | registerOnRecv n h => exact .registerOnRecv n (by decide)
  | reset n h => exact .reset n (by decide)

/-- `disconnect` has closed the server and not yet given it up. -/
def Closing (gui : List GuiStep) : Prop :=
  gui = [.destroy, .clear, .setDisconnected] ∨ gui = [.clear, .setDisconnected]

structure SysInv (s : Sys) : Prop where
  gui : GuiInv s.state s.current s.gui
  live : ∀ n, s.current = some n → PastTest (s.objects n).receive →
    (s.objects n).server.connected = true ∨ Closing s.gui

theorem GuiInv.current_eq_none {current : Option Nat} (h : GuiInv .disconnected current []) :
    current = none := by
  cases h with
  | idle h => exact h rfl

theorem GuiInv.connected_of_closing {state : NetState} {n : Nat} {gui : List GuiStep}
    (h : GuiInv state (some n) gui) (hc : Closing gui) : state = .connected := by
  rcases hc with rfl | rfl
  · cases h
    rfl
  · cases h
    rfl

/-- A dead connection that is still the current one looks connected. -/
theorem SysInv.looks_connected {s : Sys} (h : SysInv s) {n : Nat} (hn : s.current = some n)
    (hleft : LeftByPeer (s.objects n)) : (s.objects n).server.connected = true ∨ s.state = .connected := by
  rcases h.live n hn hleft.pastTest with hc | hc
  · exact Or.inl hc
  · exact Or.inr ((hn ▸ h.gui).connected_of_closing hc)

/-! ## Steps of a server's threads -/

/-- What a step `l` of the threads of server `n` does: to the rest nothing but set
CONNECTED, and in its own object it passes the test of the loop only with
`connected` set, and leaves the loop only as `Leaves` says. -/
structure OwnStep (s : Sys) (l : SysStep) (s' : Sys) (n : Nat) : Prop where
  current : s'.current = s.current
  gui : s'.gui = s.gui
  state : s'.state = s.state ∨ s'.state = .connected
  others : ∀ m, m ≠ n → s'.objects m = s.objects m
  past : PastTest (s'.objects n).receive → (s'.objects n).server.connected = true ∨
    (PastTest (s.objects n).receive ∧ (s'.objects n).server.connected = (s.objects n).server.connected)
  leaves : s.current = some n → ¬ Leaves s l → LeftByPeer (s'.objects n) → LeftByPeer (s.objects n)

section
variable {s s' : Sys} (n : Nat)

/-- A step that replaces the object only, given what the new object is like. -/
theorem ownStep_setObject {l : SysStep} (o : ServerObject) (session : Session)
    (hpast : PastTest o.receive → o.server.connected = true ∨
      (PastTest (s.objects n).receive ∧ o.server.connected = (s.objects n).server.connected))
    (hleaves : s.current = some n → ¬ Leaves s l → LeftByPeer o → LeftByPeer (s.objects n)) :
    OwnStep s l { s.setObject n o with session := session } n := by
  refine ⟨rfl, rfl, Or.inl rfl, fun _ hm => Sys.setObject_objects_ne s o hm, ?_, ?_⟩
  · simp only [Sys.setObject_objects_self]
    exact hpast
  · simp only [Sys.setObject_objects_self]
    exact hleaves

theorem ownStep_acceptReturns (success : Bool) (hs : sysStep s (.acceptReturns n success) = some s') :
    OwnStep s (.acceptReturns n success) s' n := by
  simp only [sysStep] at hs
  split at hs
  · obtain rfl := Option.some.inj hs
    exact ownStep_setObject n _ s.session (fun hp => Or.inr ⟨hp, rfl⟩) (fun _ _ hl => hl)
  · exact absurd hs (by simp)

theorem ownStep_accept (hs : sysStep s (.accept n) = some s') : OwnStep s (.accept n) s' n := by
  simp only [sysStep, Sys.acceptStep] at hs
  split at hs
  · obtain rfl := Option.some.inj hs
    refine ⟨rfl, rfl, Or.inl rfl, fun m hm => ?_, fun _ => Or.inl ?_, fun _ _ hl => ?_⟩
    · rw [Sys.setObject_objects_ne _ _ hm]
      exact Sys.setObject_objects_ne _ _ hm
    · simp [Sys.setConnected]
    · simpa [Sys.setConnected, LeftByPeer] using hl
  · obtain rfl := Option.some.inj hs
    split
    · refine ⟨rfl, rfl, Or.inr rfl, fun m hm => Sys.setObject_objects_ne _ _ hm,
        fun hp => Or.inr ?_, fun _ _ hl => ?_⟩
      · simp only [Sys.setObject_objects_self] at hp ⊢
        exact ⟨hp, trivial⟩
      · simpa [LeftByPeer] using hl
    · exact ownStep_setObject n _ s.session (fun hp => Or.inr ⟨hp, rfl⟩) (fun _ _ hl => hl)
  · exact absurd hs (by simp)

theorem ownStep_recvReturns (r : RecvResult) (hs : sysStep s (.recvReturns n r) = some s') :
    OwnStep s (.recvReturns n r) s' n := by
  simp only [sysStep] at hs
  split at hs
  · next hin =>
    obtain rfl := Option.some.inj hs
    refine ownStep_setObject n _ s.session (fun _ => Or.inr ⟨?_, rfl⟩) (fun hcur hno hl => ?_)
    · rw [hin]
      trivial
    · by_cases hr : r.retVal = SOCKET_ERROR
      · exact absurd ⟨hcur, hin, hr⟩ hno
      · rw [if_neg hr] at hl
        rcases hl with hl | hl
        · exact absurd hl (by simp)
        · exact absurd hl (by simp)
  · exact absurd hs (by simp)

theorem ownStep_receive (env : Env) (hs : sysStep s (.receive n env) = some s') :
    OwnStep s (.receive n env) s' n := by
  simp only [sysStep, Sys.receiveStep] at hs
  split at hs
  · obtain rfl := Option.some.inj hs
    split
    · refine ownStep_setObject n _ s.session (fun hp => absurd hp id) (fun _ _ hl => ?_)
      exact absurd hl (by simp [LeftByPeer])
    · exact ⟨rfl, rfl, Or.inl rfl, fun _ _ => rfl, fun hp => Or.inr ⟨hp, rfl⟩, fun _ _ hl => hl⟩
  · obtain rfl := Option.some.inj hs
    by_cases hc : (s.objects n).server.connected = true
    · rw [if_pos hc]
      exact ownStep_setObject n _ s.session (fun _ => Or.inl hc)
        (fun _ _ hl => absurd hl (by simp [LeftByPeer]))
    · rw [if_neg hc]
      exact ownStep_setObject n _ s.session (fun hp => absurd hp id)
        (fun _ _ hl => absurd hl (by simp [LeftByPeer]))
  · next last hcall =>
    obtain rfl := Option.some.inj hs
    refine ownStep_setObject n _ _ (fun _ => Or.inr ⟨?_, rfl⟩) (fun hcur hno hl => ?_)
    · rw [hcall]
      trivial
    · cases last with
      | false => exact absurd hl (by simp [LeftByPeer])
      | true => exact absurd ⟨hcur, hcall⟩ hno
  · exact absurd hs (by simp)

end

/-! ## One step -/

/-- The receive thread of the current server has not left its loop by itself. -/
def NotLeft (s : Sys) : Prop := ∀ n, s.current = some n → ¬ LeftByPeer (s.objects n)

section
variable {s s' : Sys} {l : SysStep} {n : Nat} (ho : OwnStep s l s' n)
include ho

theorem sysInv_ownStep (h : SysInv s) : SysInv s' := by
  constructor
  · rw [ho.current, ho.gui]
    rcases ho.state with hst | hst
    · rw [hst]
      exact h.gui
    · rw [hst]
      exact h.gui.connected
  · intro m hm hp
    rw [ho.current] at hm
    rw [ho.gui]
    by_cases hmn : m = n
    · subst hmn
      rcases ho.past hp with hc | ⟨hp', hc⟩
      · exact Or.inl hc
      · rw [hc]
        exact h.live m hm hp'
    · rw [ho.others m hmn] at hp ⊢
      exact h.live m hm hp

theorem notLeft_ownStep (h : NotLeft s) (hg : ¬ Leaves s l) : NotLeft s' := by
  intro m hm hl
  rw [ho.current] at hm
  by_cases hmn : m = n
  · subst hmn
    exact h m hm (ho.leaves hm hg hl)
  · rw [ho.others m hmn] at hl
    exact h m hm hl

end

section
variable {s s' : Sys}

/-- A click starts `startUp` or `disconnect` from where they expect to start. -/
theorem guiInv_connectButton (h : GuiInv s.state s.current []) :
    GuiInv s.state s.current s.connectButton := by
  unfold Sys.connectButton Sys.startUp Sys.disconnect
  cases hst : s.state with
  | disconnected =>
    rw [hst] at h
    rw [h.current_eq_none]
    exact .create
  | awaitClient => exact .idle fun hc => absurd hc (by decide)
  | connected =>
    cases s.current with
    | none => exact .idle fun hc => absurd hc (by decide)
    | some n => exact .close n

theorem guiInv_gui (h : GuiInv s.state s.current s.gui) (hs : sysStep s .gui = some s') :
    GuiInv s'.state s'.current s'.gui := by
  obtain ⟨state, current, objects, created, onConnected, onRecv, gui, session⟩ := s
  simp only at h
  cases h with
  | idle hc => exact absurd hs (by simp [sysStep])
  | close n =>
    obtain rfl := Option.some.inj hs
    exact .destroy n
  | destroy n =>
    obtain rfl := Option.some.inj hs
    exact .clear n
  | clear n =>
    obtain rfl := Option.some.inj hs
    exact .setDisconnected
  | setDisconnected =>
    obtain rfl := Option.some.inj hs
    exact .idle fun _ => rfl
  | create =>
    obtain rfl := Option.some.inj hs
    exact .start created
  | start n =>
    obtain rfl := Option.some.inj hs
    exact .setAwaitClient n
  | setAwaitClient n =>
    obtain rfl := Option.some.inj hs
    have hst : NetState.awaitClient ≠ .disconnected := by decide
    exact .registerOnConnected n hst
  | registerOnConnected n hst =>
    obtain rfl := Option.some.inj hs
    exact .registerOnRecv n hst
  | registerOnRecv n hst =>
    obtain rfl := Option.some.inj hs
    exact .reset n hst
  | reset n hst =>
    obtain rfl := Option.some.inj hs
    exact .idle fun hd => absurd hd hst

theorem click_eq_some (hs : sysStep s .click = some s') :
    s.gui = [] ∧ s' = { s with gui := s.connectButton } := by
  simp only [sysStep] at hs
  split at hs
  · next hg => exact ⟨hg, (Option.some.inj hs).symm⟩
  · exact absurd hs (by simp)

end

section
variable {s s' : Sys} (h : SysInv s)
include h

theorem sysInv_click (hs : sysStep s .click = some s') : SysInv s' := by
  obtain ⟨hg, rfl⟩ := click_eq_some hs
  refine ⟨guiInv_connectButton (hg ▸ h.gui), fun n hn hp => ?_⟩
  rcases h.live n hn hp with hc | hc
  · exact Or.inl hc
  · rw [hg] at hc
    exact absurd hc (by simp [Closing])

theorem sysInv_hook (d : Delivery) (hs : sysStep s (.hook d) = some s') : SysInv s' := by
  simp only [sysStep] at hs
  split at hs
  · next hgui =>
    obtain rfl := Option.some.inj hs
    exact ⟨h.gui, h.live⟩
  · exact absurd hs (by simp)

/-- Only `close` clears `connected`, and `disconnect` goes on to give the server up. -/
theorem sysInv_gui (hs : sysStep s .gui = some s') : SysInv s' := by
  refine ⟨guiInv_gui h.gui hs, ?_⟩
  obtain ⟨state, current, objects, created, onConnected, onRecv, gui, session⟩ := s
  obtain ⟨hgui, hlive⟩ := h
  simp only at hgui hlive
  -- a step that leaves the objects and the server in use, in a click that closes nothing
  have hkeep : ∀ {g : List GuiStep}, ¬ Closing gui → ∀ n, current = some n →
      PastTest (objects n).receive → (objects n).server.connected = true ∨ Closing g := by
    intro g hno n hn hp
    exact Or.inl ((hlive n hn hp).resolve_right hno)
  cases hgui with
  | idle hc => exact absurd hs (by simp [sysStep])
  | close n =>
    obtain rfl := Option.some.inj hs
    exact fun _ _ _ => Or.inr (Or.inl rfl)
  | destroy n =>
    obtain rfl := Option.some.inj hs
    exact fun _ _ _ => Or.inr (Or.inr rfl)
  | clear n =>
    obtain rfl := Option.some.inj hs
    exact fun m hm => absurd hm (by simp [Sys.guiStep])
  | setDisconnected =>
    obtain rfl := Option.some.inj hs
    exact fun m hm => absurd hm (by simp [Sys.guiStep])
  | create =>
    obtain rfl := Option.some.inj hs
    intro m hm hp
    obtain rfl : created = m := Option.some.inj hm
    simp only [Sys.guiStep, Sys.setObject_objects_self] at hp
    exact absurd hp id
  | start n =>
    obtain rfl := Option.some.inj hs
    intro m hm hp
    obtain rfl : n = m := Option.some.inj hm
    simp only [Sys.guiStep, Option.elim_some, Sys.setObject_objects_self] at hp
    exact absurd hp id
  | setAwaitClient n =>
    obtain rfl := Option.some.inj hs
    exact hkeep (by simp [Closing])
  | registerOnConnected n hst =>
    obtain rfl := Option.some.inj hs
    exact hkeep (by simp [Closing])
  | registerOnRecv n hst =>
    obtain rfl := Option.some.inj hs
    exact hkeep (by simp [Closing])
  | reset n hst =>
    obtain rfl := Option.some.inj hs
    exact hkeep (by simp [Closing])

theorem sysInv_step (l : SysStep) (hs : sysStep s l = some s') : SysInv s' := by
  cases l with
  | click => exact sysInv_click h hs
  | gui => exact sysInv_gui h hs
  | hook d => exact sysInv_hook h d hs
  | acceptReturns n success => exact sysInv_ownStep (ownStep_acceptReturns n success hs) h
  | accept n => exact sysInv_ownStep (ownStep_accept n hs) h
  | recvReturns n r => exact sysInv_ownStep (ownStep_recvReturns n r hs) h
  | receive n env => exact sysInv_ownStep (ownStep_receive n env hs) h

end

section
variable {s s' : Sys}

/-- The GUI thread starts every connection with a new object. -/
theorem notLeft_gui (h : NotLeft s) (hs : sysStep s .gui = some s') : NotLeft s' := by
  obtain ⟨state, current, objects, created, onConnected, onRecv, gui, session⟩ := s
  cases gui with
  | nil => exact absurd hs (by simp [sysStep])
  | cons step gui =>
    obtain rfl := Option.some.inj hs
    intro m hm hl
    cases step with
    | create =>
      obtain rfl : created = m := Option.some.inj hm
      simp only [Sys.guiStep, Sys.setObject_objects_self] at hl
      exact absurd hl (by simp [LeftByPeer, ServerObject.create])
    | close =>
      cases current with
      | none => exact absurd hm (by simp [Sys.guiStep])
      | some n =>
        obtain rfl : n = m := Option.some.inj hm
        refine h n rfl ?_
        simpa [Sys.guiStep, Sys.setConnected, LeftByPeer] using hl
    | start =>
      cases current with
      | none => exact absurd hm (by simp [Sys.guiStep])
      | some n =>
        obtain rfl : n = m := Option.some.inj hm
        simp only [Sys.guiStep, Option.elim_some, Sys.setObject_objects_self] at hl
        exact absurd hl (by simp [LeftByPeer])
    | clear => exact absurd hm (by simp [Sys.guiStep])
    | destroy => exact h m hm hl
    | setDisconnected => exact h m hm hl
    | setAwaitClient => exact h m hm hl
    | registerOnConnected => exact h m hm hl
    | registerOnRecv => exact h m hm hl
    | reset => exact h m hm hl

theorem notLeft_step {l : SysStep} (h : NotLeft s) (hg : ¬ Leaves s l) (hs : sysStep s l = some s') :
    NotLeft s' := by
  cases l with
  | click =>
    simp only [sysStep] at hs
    split at hs
    · exact Option.some.inj hs ▸ h
    · exact absurd hs (by simp)
  | hook d =>
    simp only [sysStep] at hs
    split at hs
    · exact Option.some.inj hs ▸ h
    · exact absurd hs (by simp)
  | gui => exact notLeft_gui h hs
  | acceptReturns n success => exact notLeft_ownStep (ownStep_acceptReturns n success hs) h hg
  | accept n => exact notLeft_ownStep (ownStep_accept n hs) h hg
  | recvReturns n r => exact notLeft_ownStep (ownStep_recvReturns n r hs) h hg
  | receive n env => exact notLeft_ownStep (ownStep_receive n env hs) h hg

/-- The step in question does leave the current receive thread outside its loop. -/
theorem left_of_leaves {l : SysStep} (hg : Leaves s l) (hs : sysStep s l = some s') :
    ∃ n, s'.current = some n ∧ LeftByPeer (s'.objects n) := by
  cases l with
  | recvReturns n r =>
    obtain ⟨hcur, hin, hr⟩ := hg
    simp only [sysStep, hin, if_pos hr] at hs
    obtain rfl := Option.some.inj hs
    refine ⟨n, hcur, Or.inr ?_⟩
    rw [Sys.setObject_objects_self]
  | receive n env =>
    obtain ⟨hcur, hcall⟩ := hg
    simp only [sysStep, Sys.receiveStep, hcall, if_true] at hs
    obtain rfl := Option.some.inj hs
    refine ⟨n, hcur, Or.inl ?_⟩
    simp only [Sys.setObject_objects_self]
  | click => exact absurd hg id
  | gui => exact absurd hg id
  | hook d => exact absurd hg id
  | acceptReturns n success => exact absurd hg id
  | accept n => exact absurd hg id

end

/-! ## Any run -/

theorem sysInv_init : SysInv Sys.init :=
  ⟨.idle fun _ => rfl, fun n hn => absurd hn (by simp [Sys.init])⟩

theorem not_deadNotConnected {s : Sys} (h : SysInv s) {n : Nat} (hn : s.current = some n)
    (hleft : LeftByPeer (s.objects n)) : ¬ DeadNotConnected s := by
  intro hd
  obtain ⟨hst, hc, -⟩ := hd n hn hleft
  rcases h.looks_connected hn hleft with hc' | hst'
  · rw [hc] at hc'
    exact absurd hc' (by decide)
  · exact hst hst'

/-- **Dead connections.**  A run never shows a dead connection as connected exactly if
no current receive thread leaves its loop because the client closed or `recv`
failed.  Once one has, `connected` is set or the state is CONNECTED for as long as
its server is the current one. -/
theorem deadNotConnected_iff (ls : List SysStep) :
    (Always sysStep DeadNotConnected Sys.init ls ↔ Guarded sysStep (fun s l => ¬ Leaves s l) Sys.init ls) ∧
    ∀ s n, run sysStep Sys.init ls = some s → s.current = some n → LeftByPeer (s.objects n) →
      (s.objects n).server.connected = true ∨ s.state = .connected := by
  constructor
  · refine always_iff_guarded (I := fun s => SysInv s ∧ NotLeft s) ?_ ?_ ?_ ls ?_
    · exact fun s l s' h hg hs => ⟨sysInv_step h.1 l hs, notLeft_step h.2 hg hs⟩
    · exact fun s h n hn hl => absurd hl (h.2 n hn)
    · intro s l s' h hg hs
      obtain ⟨n, hn, hleft⟩ := left_of_leaves (not_not.mp hg) hs
      exact not_deadNotConnected (sysInv_step h.1 l hs) hn hleft
    · exact ⟨sysInv_init, fun n hn => absurd hn (by simp [Sys.init])⟩
  · intro s n hrun hn hleft
    have hinv : Always sysStep SysInv Sys.init ls :=
      always_of_invariant (fun s l s' h hs => sysInv_step h l hs) ls sysInv_init
    exact (hinv.run hrun).looks_connected hn hleft

/-- The steps of a connection whose client asks for nothing and closes. -/
def closingClient : List SysStep :=
  [.click, .gui, .gui, .gui, .gui, .gui, .gui, .acceptReturns 0 true, .accept 0, .accept 0,
    .receive 0 default, .receive 0 default, .recvReturns 0 .closed, .receive 0 default]

/-- The client closed, the state is CONNECTED, and a hook event still lists a window
and sends to the dead socket. -/
theorem dead_connection_connected :
    let hwnd : HWND := Handle.ofInt 7
    let env : Env := { (default : Env) with windowText := fun _ => ⟨[0x41], by decide⟩ }
    let d : Delivery := ⟨⟨EVENT_OBJECT_SHOW, hwnd, OBJID_WINDOW, CHILDID_SELF⟩, env, env⟩
    ∃ s, run sysStep Sys.init closingClient = some s ∧ s.current = some 0 ∧ LeftByPeer (s.objects 0) ∧
      s.state = .connected ∧ (s.objects 0).server.connected = true ∧ s.session.keys = [] ∧
      s.session.sent = [] ∧ (deliver s.state s.session d).keys = [hwnd] ∧
      (deliver s.state s.session d).sent.length = 2 ∧ ¬ DeadNotConnected s := by
  intro hwnd env d
  refine ⟨_, rfl, rfl, Or.inl rfl, rfl, rfl, rfl, rfl, by decide, by decide, fun hd => ?_⟩
  exact (hd 0 rfl (Or.inl rfl)).1 rfl

end RemoteTaskbar
