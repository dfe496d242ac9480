import RemoteTaskbar.System.Accept
import RemoteTaskbar.System.Dispatch

/-!
# Servers torn down under their receive thread

`Proc` refines `Sys`: a `Server` object has a status, and the receive thread serves a
list request window by window, so that other threads come in between its sends.  A
run of `Sys` is a run of `Proc` in which each list request is served at one go
(`procRun_of_sysRun`).

`disconnect` closes and frees the server without waiting for the receive thread.  As
long as that thread happens to have left its loop before each `Server_Destroy`, no
server is used after it and nothing is sent without a server.  Otherwise the thread's
next step uses a freed server (`next_step_destroyed`).
-/

namespace RemoteTaskbar

open Wire Trans

/-! ## The process, send by send -/

inductive Status where
  | live
  /-- after `Server_Close` -/
  | closed
  /-- after `Server_Destroy`: freed -/
  | destroyed
deriving DecidableEq

structure Proc where
  sys : Sys
  status : Nat → Status
  /-- the list request the receive thread serves: the windows the loop of
  `refreshWindowTasksList` still visits -/
  serving : Nat → Option (Env × List HWND)

namespace Proc

def init : Proc := ⟨Sys.init, fun _ => .live, fun _ => none⟩

def setStatus (p : Proc) (n : Nat) (status : Status) : Nat → Status :=
  Function.update p.status n status

theorem destroyed_of_setStatus {p : Proc} {n m : Nat} {status : Status} (hs : status ≠ .destroyed)
    (h : p.setStatus n status m = .destroyed) : m ≠ n ∧ p.status m = .destroyed := by
  unfold setStatus at h
  by_cases hmn : m = n
  · rw [hmn, Function.update_self] at h
    exact absurd h hs
  · rw [Function.update_of_ne hmn] at h
    exact ⟨hmn, h⟩

/-- The statuses after a step of the GUI thread. -/
def statusAfter (p : Proc) : GuiStep → Nat → Status
  | .close => p.sys.current.elim p.status (p.setStatus · .closed)
  | .destroy => p.sys.current.elim p.status (p.setStatus · .destroyed)
  | .create => p.setStatus p.sys.created .live
  | _ => p.status

/-- The callback would serve a list request. -/
def listRequested (p : Proc) (n : Nat) : Bool :=
  p.sys.onRecv && serverRecv (p.sys.objects n).server == some .activeTaskList

/-- A step of the receive thread outside `recv`. -/
def receiveStep (p : Proc) (n : Nat) (env : Env) : Option Proc :=
  match (p.sys.objects n).receive, p.serving n with
  | .calling _, none =>
    if p.listRequested n then
      let session := enumTasks env (clearTasks p.sys.session)
      some { p with
        sys := { p.sys with session := session }
        serving := Function.update p.serving n (some (env, env.order.visit session.keys)) }
    else (p.sys.receiveStep n env).map ({ p with sys := · })
  | .calling _, some (env, hwnd :: hwnds) =>
    some { p with
      sys := { p.sys with session := refreshTask env p.sys.session hwnd }
      serving := Function.update p.serving n (some (env, hwnds)) }
  | .calling last, some (env, []) =>
    some { p with
      sys := { p.sys.setObject n { p.sys.objects n with
          receive := if last then .left .closed else .testing } with
        session := sendWindowTasksToClient env p.sys.session }
      serving := Function.update p.serving n none }
  | _, _ => (p.sys.receiveStep n env).map ({ p with sys := · })

end Proc

def procStep (p : Proc) : SysStep → Option Proc
  | .gui =>
    match p.sys.gui with
    | [] => none
    | step :: _ =>
      (sysStep p.sys .gui).map fun s => { p with sys := s, status := p.statusAfter step }
  | .receive n env => p.receiveStep n env
  | l => (sysStep p.sys l).map ({ p with sys := · })

/-! ## The property -/

/-- A step of the receive thread of a server that was freed. -/
def TouchesDestroyed (p : Proc) : SysStep → Prop
  | .recvReturns n _ => p.status n = .destroyed
  | .receive n _ => p.status n = .destroyed
  | _ => False

/-- A step that calls `sendMessage` while `_server` is 0. -/
def SendsToNull (p : Proc) (l : SysStep) : Prop :=
  p.sys.current = none ∧
    ∃ p', procStep p l = some p' ∧ p.sys.session.sent.length < p'.sys.session.sent.length

def Safe (p : Proc) (l : SysStep) : Prop := ¬ TouchesDestroyed p l ∧ ¬ SendsToNull p l

/-- The receive thread is not running. -/
def ReceiveThread.Gone (r : ReceiveThread) : Prop := r = .notStarted ∨ ∃ why, r = .left why

/-- When the GUI thread comes to `Server_Destroy`, the receive thread is gone. -/
def ThreadGone (p : Proc) : SysStep → Prop
  | .gui => p.sys.gui.head? = some .destroy →
      ∀ n, p.sys.current = some n → (p.sys.objects n).receive.Gone
  | _ => True

/-! ## What the steps do -/

/-- A step of the receive thread of server `n`, which is running. -/
structure ReceiveOnly (p p' : Proc) (n : Nat) : Prop where
  same : SameAccept p.sys p'.sys
  status : p'.status = p.status
  others : ∀ m, m ≠ n → (p'.sys.objects m).receive = (p.sys.objects m).receive
  running : ¬ (p.sys.objects n).receive.Gone

section
variable {p p' : Proc} {n : Nat}

theorem receiveOnly_setObject (o : ServerObject) (session : Session)
    (serving : Nat → Option (Env × List HWND)) (ha : o.accept = (p.sys.objects n).accept)
    (hc : o.server.connected = (p.sys.objects n).server.connected)
    (hr : ¬ (p.sys.objects n).receive.Gone) :
    ReceiveOnly p ⟨{ p.sys.setObject n o with session := session }, p.status, serving⟩ n := by
  refine ⟨sameAccept_setObject o session ha hc, rfl, fun m hm => ?_, hr⟩
  show ((p.sys.setObject n o).objects m).receive = _
  rw [Sys.setObject_objects_ne _ _ hm]

theorem receiveOnly_session (session : Session) (serving : Nat → Option (Env × List HWND))
    (hr : ¬ (p.sys.objects n).receive.Gone) :
    ReceiveOnly p ⟨{ p.sys with session := session }, p.status, serving⟩ n :=
  ⟨⟨rfl, rfl, rfl, fun _ => rfl, fun _ => rfl⟩, rfl, fun _ _ => rfl, hr⟩

/-- A step the coarser model takes too. -/
theorem receiveOnly_sys {env : Env}
    (hs : (p.sys.receiveStep n env).map ({ p with sys := · }) = some p') : ReceiveOnly p p' n := by
  obtain ⟨s, hstep, rfl⟩ := Option.map_eq_some_iff.mp hs
  simp only [Sys.receiveStep] at hstep
  split at hstep
  · next hr =>
    have hrun : ¬ (p.sys.objects n).receive.Gone := by simp [ReceiveThread.Gone, hr]
    obtain rfl := Option.some.inj hstep
    split
    · exact receiveOnly_setObject _ p.sys.session _ rfl rfl hrun
    · exact receiveOnly_session p.sys.session p.serving hrun
  · next hr =>
    have hrun : ¬ (p.sys.objects n).receive.Gone := by simp [ReceiveThread.Gone, hr]
    obtain rfl := Option.some.inj hstep
    exact receiveOnly_setObject _ p.sys.session _ rfl rfl hrun
  · next hr =>
    have hrun : ¬ (p.sys.objects n).receive.Gone := by simp [ReceiveThread.Gone, hr]
    obtain rfl := Option.some.inj hstep
    exact receiveOnly_setObject _ _ _ rfl rfl hrun
  · exact absurd hstep (by simp)

theorem receiveOnly_receive {env : Env} (hs : procStep p (.receive n env) = some p') :
    ReceiveOnly p p' n := by
  simp only [procStep, Proc.receiveStep] at hs
  split at hs
  · next hr _ =>
    have hrun : ¬ (p.sys.objects n).receive.Gone := by simp [ReceiveThread.Gone, hr]
    split at hs
    · obtain rfl := Option.some.inj hs
      exact receiveOnly_session _ _ hrun
    · exact receiveOnly_sys hs
  · next hr _ =>
    have hrun : ¬ (p.sys.objects n).receive.Gone := by simp [ReceiveThread.Gone, hr]
    obtain rfl := Option.some.inj hs
    exact receiveOnly_session _ _ hrun
  · next hr _ =>
    have hrun : ¬ (p.sys.objects n).receive.Gone := by simp [ReceiveThread.Gone, hr]
    obtain rfl := Option.some.inj hs
    exact receiveOnly_setObject _ _ _ rfl rfl hrun
  · exact receiveOnly_sys hs

theorem receiveOnly_recvReturns {r : RecvResult} (hs : procStep p (.recvReturns n r) = some p') :
    ReceiveOnly p p' n := by
  obtain ⟨s, hstep, rfl⟩ := Option.map_eq_some_iff.mp hs
  simp only [sysStep] at hstep
  split at hstep
  · next hr =>
    obtain rfl := Option.some.inj hstep
    exact receiveOnly_setObject _ p.sys.session _ rfl rfl (by simp [ReceiveThread.Gone, hr])
  · exact absurd hstep (by simp)

/-- A receive thread that is running has a next step. -/
theorem step_of_running (hr : ¬ (p.sys.objects n).receive.Gone) :
    ∃ l, (p.status n = .destroyed → TouchesDestroyed p l) ∧ ∃ p', procStep p l = some p' := by
  cases hrec : (p.sys.objects n).receive with
  | notStarted => exact absurd (Or.inl hrec) hr
  | left why => exact absurd (Or.inr ⟨why, hrec⟩) hr
  | inRecv =>
    refine ⟨.recvReturns n .socketError, fun h => h, ?_⟩
    simp only [procStep, sysStep, hrec]
    exact ⟨_, rfl⟩
  | sleeping =>
    refine ⟨.receive n default, fun h => h, ?_⟩
    simp only [procStep, Proc.receiveStep, Sys.receiveStep, hrec]
    exact ⟨_, rfl⟩
  | testing =>
    refine ⟨.receive n default, fun h => h, ?_⟩
    simp only [procStep, Proc.receiveStep, Sys.receiveStep, hrec]
    exact ⟨_, rfl⟩
  | calling last =>
    refine ⟨.receive n default, fun h => h, ?_⟩
    simp only [procStep, Proc.receiveStep, Sys.receiveStep, hrec]
    split
    · split
      · exact ⟨_, rfl⟩
      · exact ⟨_, rfl⟩
    · exact ⟨_, rfl⟩
    · exact ⟨_, rfl⟩
    · exact ⟨_, rfl⟩

/-- A step of the other threads that leaves the receive threads and the statuses alone. -/
structure SameReceive (p p' : Proc) : Prop where
  current : p'.sys.current = p.sys.current
  status : p'.status = p.status
  receive : ∀ m, (p'.sys.objects m).receive = (p.sys.objects m).receive

theorem sameReceive_hook {d : Delivery} (hs : procStep p (.hook d) = some p') :
    SameReceive p p' ∧ p'.sys.gui = p.sys.gui := by
  obtain ⟨s, hstep, rfl⟩ := Option.map_eq_some_iff.mp hs
  simp only [sysStep] at hstep
  split at hstep
  · obtain rfl := Option.some.inj hstep
    exact ⟨⟨rfl, rfl, fun _ => rfl⟩, rfl⟩
  · exact absurd hstep (by simp)

theorem sameReceive_setObject (o : ServerObject) (state : NetState)
    (hr : o.receive = (p.sys.objects n).receive) :
    SameReceive p { p with sys := { p.sys.setObject n o with state := state } } := by
  refine ⟨rfl, rfl, fun m => ?_⟩
  show ((p.sys.setObject n o).objects m).receive = _
  by_cases hm : m = n
  · subst hm
    rw [Sys.setObject_objects_self]
    exact hr
  · rw [Sys.setObject_objects_ne _ _ hm]

theorem sameReceive_acceptReturns {success : Bool}
    (hs : procStep p (.acceptReturns n success) = some p') :
    SameReceive p p' ∧ p'.sys.gui = p.sys.gui := by
  obtain ⟨s, hstep, rfl⟩ := Option.map_eq_some_iff.mp hs
  obtain ⟨-, rfl⟩ := acceptReturns_eq_some hstep
  exact ⟨sameReceive_setObject _ p.sys.state rfl, rfl⟩

theorem sameReceive_accept (hs : procStep p (.accept n) = some p') :
    SameReceive p p' ∧ p'.sys.gui = p.sys.gui := by
  obtain ⟨s, hstep, rfl⟩ := Option.map_eq_some_iff.mp hs
  rcases accept_eq_some hstep with ⟨-, rfl⟩ | ⟨-, rfl⟩
  · exact ⟨sameReceive_setObject _ p.sys.state rfl, rfl⟩
  · exact ⟨sameReceive_setObject _ _ rfl, rfl⟩

end

/-! ## The invariant -/

structure TeardownInv (p : Proc) : Prop where
  accept : AcceptInv p.sys
  gone : ∀ n, p.status n = .destroyed → (p.sys.objects n).receive.Gone
  others : ∀ n, p.sys.current ≠ some n → (p.sys.objects n).receive.Gone
  live : ∀ n, p.sys.current = some n → p.status n = .destroyed →
    p.sys.gui = [.clear, .setDisconnected]
  torn : p.sys.gui = [.clear, .setDisconnected] →
    ∀ n, p.sys.current = some n → (p.sys.objects n).receive.Gone

theorem teardownInv_init : TeardownInv Proc.init where
  accept := acceptInv_init
  gone _ _ := Or.inl rfl
  others _ _ := Or.inl rfl
  live n hn := absurd hn (by simp [Proc.init, Sys.init])
  torn hg := absurd hg (by simp [Proc.init, Sys.init])

section
variable {p p' : Proc} {n : Nat} (h : TeardownInv p)
include h

/-- Only the current server's receive thread can be running, and not past `Server_Destroy`. -/
theorem teardownInv_receiveOnly (e : ReceiveOnly p p' n) : TeardownInv p' := by
  have hn : p.sys.current = some n := by
    by_contra hno
    exact e.running (h.others n hno)
  have hst : p.status n ≠ .destroyed := fun hd => e.running (h.gone n hd)
  have hgui : p.sys.gui ≠ [.clear, .setDisconnected] := fun hg => e.running (h.torn hg n hn)
  refine ⟨h.accept.congr e.same, fun m hm => ?_, fun m hm => ?_, fun m hm hd => ?_, fun hg => ?_⟩
  · rw [e.status] at hm
    have hmn : m ≠ n := by
      rintro rfl
      exact hst hm
    rw [e.others m hmn]
    exact h.gone m hm
  · rw [e.same.current] at hm
    have hmn : m ≠ n := by
      rintro rfl
      exact hm hn
    rw [e.others m hmn]
    exact h.others m hm
  · rw [e.same.current] at hm
    rw [e.status] at hd
    rw [e.same.gui]
    exact h.live m hm hd
  · rw [e.same.gui] at hg
    exact absurd hg hgui

theorem teardownInv_sameReceive (e : SameReceive p p') (hg : p'.sys.gui = p.sys.gui)
    (ha : AcceptInv p'.sys) : TeardownInv p' := by
  refine ⟨ha, fun m hm => ?_, fun m hm => ?_, fun m hm hd => ?_, fun hgui m hm => ?_⟩
  · rw [e.status] at hm
    rw [e.receive]
    exact h.gone m hm
  · rw [e.current] at hm
    rw [e.receive]
    exact h.others m hm
  · rw [e.current] at hm
    rw [e.status] at hd
    rw [hg]
    exact h.live m hm hd
  · rw [hg] at hgui
    rw [e.current] at hm
    rw [e.receive]
    exact h.torn hgui m hm

theorem teardownInv_click (hs : procStep p .click = some p') : TeardownInv p' := by
  obtain ⟨s, hstep, rfl⟩ := Option.map_eq_some_iff.mp hs
  have ha := acceptInv_click h.accept hstep
  obtain ⟨hg, rfl⟩ := click_eq_some hstep
  refine ⟨ha, h.gone, h.others, fun m hm hd => ?_, fun hgui => ?_⟩
  · rw [h.live m hm hd] at hg
    exact absurd hg (by simp)
  · refine absurd (connectButton_head p.sys) (not_not.mpr ?_)
    exact congrArg List.head? hgui

/-- Under the guard `Server_Destroy` frees no server whose receive thread is running. -/
theorem teardownInv_gui (hg : ThreadGone p .gui) (hs : procStep p .gui = some p') :
    TeardownInv p' := by
  have hsys : sysStep p.sys .gui = some p'.sys := by
    simp only [procStep] at hs
    split at hs
    · exact absurd hs (by simp)
    · obtain ⟨s, hstep, rfl⟩ := Option.map_eq_some_iff.mp hs
      exact hstep
  have ha : AcceptInv p'.sys := acceptInv_gui h.accept hsys
  have hobjects : ∀ m, p.sys.current ≠ some m → p'.sys.current ≠ some m →
      p'.sys.objects m = p.sys.objects m := fun m => gui_objects hsys
  obtain ⟨⟨state, current, objects, created, onConnected, onRecv, gui, session⟩, status, serving⟩ := p
  obtain ⟨hacc, hgone, hothers, hlive, htorn⟩ := h
  have hguis := hacc.gui
  simp only at hguis hgone hothers hlive htorn
  simp only [ThreadGone] at hg
  -- no step but `destroy` frees a server
  have hfree : ∀ {g : List GuiStep}, gui ≠ [.clear, .setDisconnected] →
      ∀ m, current = some m → status m = .destroyed → g = [.clear, .setDisconnected] :=
    fun hne m hm hd => absurd (hlive m hm hd) hne
  cases hguis with
  | idle hc => exact absurd hs (by simp [procStep])
  | close n =>
    obtain rfl := Option.some.inj hs
    refine ⟨ha, fun m hm => ?_, fun m hm => ?_, fun m hm hd => ?_, by simp⟩
    · show ((Sys.setConnected _ n false).objects m).receive.Gone
      rw [Sys.setConnected_receive]
      exact hgone m (Proc.destroyed_of_setStatus (by decide) hm).2
    · rw [hobjects m hm hm]
      exact hothers m hm
    · exact absurd (Option.some.inj hm).symm (Proc.destroyed_of_setStatus (by decide) hd).1
  | destroy n =>
    obtain rfl := Option.some.inj hs
    have hgonen : (objects n).receive.Gone := hg rfl n rfl
    refine ⟨ha, fun m hm => ?_, hothers, fun _ _ _ => rfl, fun _ m hm => ?_⟩
    · by_cases hmn : m = n
      · subst hmn
        exact hgonen
      · exact hgone m (by simpa [Proc.statusAfter, Proc.setStatus, hmn] using hm)
    · obtain rfl : n = m := Option.some.inj hm
      exact hgonen
  | clear n =>
    obtain rfl := Option.some.inj hs
    refine ⟨ha, hgone, fun m _ => ?_, fun m hm => absurd hm.symm (Option.some_ne_none m), by simp⟩
    by_cases hmn : m = n
    · subst hmn
      exact htorn rfl m rfl
    · exact hothers m fun hm => hmn (Option.some.inj hm).symm
  | setDisconnected =>
    obtain rfl := Option.some.inj hs
    exact ⟨ha, hgone, hothers, hfree (by simp), by simp⟩
  | create =>
    obtain rfl := Option.some.inj hs
    refine ⟨ha, fun m hm => ?_, fun m hm => ?_, fun m hm hd => ?_, by simp⟩
    · obtain ⟨hmn, hst⟩ := Proc.destroyed_of_setStatus (by decide) hm
      simp only [Sys.guiStep, Sys.setObject_objects_ne _ _ hmn]
      exact hgone m hst
    · rw [hobjects m (by simp) hm]
      exact hothers m (by simp)
    · exact absurd (Option.some.inj hm).symm (Proc.destroyed_of_setStatus (by decide) hd).1
  | start n =>
    obtain rfl := Option.some.inj hs
    refine ⟨ha, fun m hm => ?_, fun m hm => ?_, hfree (by simp), by simp⟩
    · have hmn : m ≠ n := by
        rintro rfl
        exact absurd (hlive m rfl hm) (by simp)
      simp only [Sys.guiStep, Option.elim_some, Sys.setObject_objects_ne _ _ hmn]
      exact hgone m hm
    · rw [hobjects m hm hm]
      exact hothers m hm
  | setAwaitClient n =>
    obtain rfl := Option.some.inj hs
    exact ⟨ha, hgone, hothers, hfree (by simp), by simp⟩
  | registerOnConnected n hst =>
    obtain rfl := Option.some.inj hs
    exact ⟨ha, hgone, hothers, hfree (by simp), by simp⟩
  | registerOnRecv n hst =>
    obtain rfl := Option.some.inj hs
    exact ⟨ha, hgone, hothers, hfree (by simp), by simp⟩
  | reset n hst =>
    obtain rfl := Option.some.inj hs
    exact ⟨ha, hgone, hothers, hfree (by simp), by simp⟩

theorem teardownInv_step {l : SysStep} (hg : ThreadGone p l) (hs : procStep p l = some p') :
    TeardownInv p' := by
  cases l with
  | click => exact teardownInv_click h hs
  | gui => exact teardownInv_gui h hg hs
  | hook d =>
    obtain ⟨e, hgui⟩ := sameReceive_hook hs
    obtain ⟨s, hstep, rfl⟩ := Option.map_eq_some_iff.mp hs
    exact teardownInv_sameReceive h e hgui (acceptInv_step h.accept _ hstep)
  | acceptReturns n success =>
    obtain ⟨e, hgui⟩ := sameReceive_acceptReturns hs
    obtain ⟨s, hstep, rfl⟩ := Option.map_eq_some_iff.mp hs
    exact teardownInv_sameReceive h e hgui (acceptInv_step h.accept _ hstep)
  | accept n =>
    obtain ⟨e, hgui⟩ := sameReceive_accept hs
    obtain ⟨s, hstep, rfl⟩ := Option.map_eq_some_iff.mp hs
    exact teardownInv_sameReceive h e hgui (acceptInv_step h.accept _ hstep)
  | recvReturns n r => exact teardownInv_receiveOnly h (receiveOnly_recvReturns hs)
  | receive n env => exact teardownInv_receiveOnly h (receiveOnly_receive hs)

/-- A receive thread that takes a step is the current server's, and that is not freed. -/
theorem receiveOnly_safe (e : ReceiveOnly p p' n) :
    p.status n ≠ .destroyed ∧ p.sys.current = some n := by
  refine ⟨fun hd => e.running (h.gone n hd), ?_⟩
  by_contra hno
  exact e.running (h.others n hno)

/-- Without a server no step sends: no receive thread runs, and the main loop drops
hook messages. -/
theorem sent_of_null {l : SysStep} (hn : p.sys.current = none) (hs : procStep p l = some p') :
    p'.sys.session.sent.length ≤ p.sys.session.sent.length := by
  cases l with
  | click =>
    obtain ⟨s, hstep, rfl⟩ := Option.map_eq_some_iff.mp hs
    obtain ⟨-, rfl⟩ := click_eq_some hstep
    exact Nat.le_refl _
  | gui =>
    simp only [procStep] at hs
    split at hs
    · exact absurd hs (by simp)
    · next step gui hgui =>
      obtain ⟨s, hstep, rfl⟩ := Option.map_eq_some_iff.mp hs
      simp only [sysStep, hgui] at hstep
      obtain rfl := Option.some.inj hstep
      cases step <;> simp [Sys.guiStep, hn]
  | hook d =>
    obtain ⟨s, hstep, rfl⟩ := Option.map_eq_some_iff.mp hs
    simp only [sysStep] at hstep
    split at hstep
    · next hgui =>
      obtain rfl := Option.some.inj hstep
      have hst : p.sys.state ≠ .connected := by
        intro hc
        rw [h.accept.given_up hn hc] at hgui
        exact absurd hgui (by simp)
      simp only [deliver_of_not_connected hst]
      exact Nat.le_refl _
    · exact absurd hstep (by simp)
  | acceptReturns n success =>
    obtain ⟨s, hstep, rfl⟩ := Option.map_eq_some_iff.mp hs
    obtain ⟨-, rfl⟩ := acceptReturns_eq_some hstep
    exact Nat.le_refl _
  | accept n =>
    obtain ⟨s, hstep, rfl⟩ := Option.map_eq_some_iff.mp hs
    rcases accept_eq_some hstep with ⟨-, rfl⟩ | ⟨-, rfl⟩
    · exact Nat.le_refl _
    · exact Nat.le_refl _
  | recvReturns n r =>
    have := (receiveOnly_safe h (receiveOnly_recvReturns hs)).2
    exact absurd (hn.symm.trans this) (by simp)
  | receive n env =>
    have := (receiveOnly_safe h (receiveOnly_receive hs)).2
    exact absurd (hn.symm.trans this) (by simp)

theorem safe_step {l : SysStep} (hs : procStep p l = some p') : Safe p l := by
  constructor
  · intro htouch
    cases l with
    | recvReturns n r => exact (receiveOnly_safe h (receiveOnly_recvReturns hs)).1 htouch
    | receive n env => exact (receiveOnly_safe h (receiveOnly_receive hs)).1 htouch
    | click => exact htouch
    | gui => exact htouch
    | hook d => exact htouch
    | acceptReturns n success => exact htouch
    | accept n => exact htouch
  · rintro ⟨hn, p₁, hp₁, hlt⟩
    obtain rfl : p' = p₁ := Option.some.inj (hs.symm.trans hp₁)
    exact absurd (sent_of_null h hn hs) (Nat.not_le_of_lt hlt)

end

/-- After a `Server_Destroy` under a running receive thread, that thread's next step
uses the freed server. -/
theorem next_step_destroyed {p p' : Proc} {l : SysStep} (hg : ¬ ThreadGone p l)
    (hs : procStep p l = some p') : ∃ l', TouchesDestroyed p' l' ∧ ∃ p'', procStep p' l' = some p'' := by
  cases l with
  | gui =>
    simp only [ThreadGone, not_forall] at hg
    obtain ⟨hhead, n, hn, hrun⟩ := hg
    obtain ⟨gui, hgui⟩ := List.head?_eq_some_iff.mp hhead
    simp only [procStep, sysStep, hgui, Option.map_some] at hs
    obtain rfl := Option.some.inj hs
    have hst : p.statusAfter .destroy n = .destroyed := by
      simp [Proc.statusAfter, Proc.setStatus, hn]
    obtain ⟨l', htouch, p'', hp''⟩ := step_of_running
      (p := ⟨{ p.sys with gui := gui }, p.statusAfter .destroy, p.serving⟩) hrun
    exact ⟨l', htouch hst, p'', hp''⟩
  | click => exact absurd trivial hg
  | hook d => exact absurd trivial hg
  | acceptReturns n success => exact absurd trivial hg
  | accept n => exact absurd trivial hg
  | recvReturns n r => exact absurd trivial hg
  | receive n env => exact absurd trivial hg

/-! ## The coarser model -/

section
variable {p : Proc} {n : Nat} {last : Bool}

/-- The rest of a list request, served at one go. -/
theorem serve_run (hcall : (p.sys.objects n).receive = .calling last) (env env' : Env)
    (hwnds : List HWND) (hserve : p.serving n = some (env, hwnds)) :
    run procStep p (List.replicate (hwnds.length + 1) (.receive n env')) =
      some ⟨{ p.sys.setObject n { p.sys.objects n with
          receive := if last then .left .closed else .testing } with
        session := sendWindowTasksToClient env (hwnds.foldl (refreshTask env) p.sys.session) },
        p.status, Function.update p.serving n none⟩ := by
  induction hwnds generalizing p with
  | nil => simp [run, procStep, Proc.receiveStep, hcall, hserve]
  | cons hwnd hwnds ih =>
    have hstep : procStep p (.receive n env') = some ⟨{ p.sys with
        session := refreshTask env p.sys.session hwnd }, p.status,
        Function.update p.serving n (some (env, hwnds))⟩ := by
      simp [procStep, Proc.receiveStep, hcall, hserve]
    rw [List.length_cons, List.replicate_succ]
    rw [run_cons hstep]
    refine (ih (p := ⟨{ p.sys with session := refreshTask env p.sys.session hwnd }, p.status,
      Function.update p.serving n (some (env, hwnds))⟩) hcall (Function.update_self ..)).trans ?_
    simp [Sys.setObject]

/-- A callback of the coarser model. -/
theorem callback_run (hcall : (p.sys.objects n).receive = .calling last) (hidle : p.serving n = none)
    (env : Env) : ∃ ls, run procStep p ls = (p.sys.receiveStep n env).map ({ p with sys := · }) := by
  cases hlist : p.listRequested n with
  | false =>
    refine ⟨[.receive n env], ?_⟩
    simp [run, procStep, Proc.receiveStep, hcall, hidle, hlist]
  | true =>
    -- the request is taken up, then served
    have hboth : p.sys.onRecv = true ∧ serverRecv (p.sys.objects n).server = some .activeTaskList := by
      simpa [Proc.listRequested] using hlist
    let session := enumTasks env (clearTasks p.sys.session)
    let hwnds := env.order.visit session.keys
    have hstep : procStep p (.receive n env) = some ⟨{ p.sys with session := session }, p.status,
        Function.update p.serving n (some (env, hwnds))⟩ := by
      simp [procStep, Proc.receiveStep, hcall, hidle, hlist, session, hwnds]
    refine ⟨.receive n env :: List.replicate (hwnds.length + 1) (.receive n env), ?_⟩
    rw [run_cons hstep]
    refine (serve_run (p := ⟨{ p.sys with session := session }, p.status,
      Function.update p.serving n (some (env, hwnds))⟩) hcall env env hwnds
        (Function.update_self ..)).trans ?_
    have hupd : Function.update p.serving n none = p.serving := by
      rw [← hidle, Function.update_eq_self]
    simp only [Function.update_idem, hupd, Sys.receiveStep, hcall, Option.map_some, Sys.callback,
      if_pos hboth.1, hboth.2, handle]
    rfl

/-- One step of the coarser model. -/
theorem step_run (hidle : ∀ n, p.serving n = none) {l : SysStep} {s : Sys}
    (hs : sysStep p.sys l = some s) :
    ∃ ls p', run procStep p ls = some p' ∧ p'.sys = s ∧ p'.serving = p.serving := by
  have hone : ∀ {p'}, procStep p l = some p' → run procStep p [l] = some p' := run_one
  cases l with
  | gui =>
    cases hgui : p.sys.gui with
    | nil => simp [sysStep, hgui] at hs
    | cons step gui =>
      refine ⟨[.gui], { p with sys := s, status := p.statusAfter step }, hone ?_, rfl, rfl⟩
      simp only [procStep, hgui, hs, Option.map_some]
  | receive n env =>
    have hmap : (p.sys.receiveStep n env).map ({ p with sys := · }) = some { p with sys := s } := by
      rw [show p.sys.receiveStep n env = some s from hs]
      rfl
    cases hrec : (p.sys.objects n).receive with
    | calling last =>
      obtain ⟨ls, hls⟩ := callback_run hrec (hidle n) env
      exact ⟨ls, { p with sys := s }, hls.trans hmap, rfl, rfl⟩
    | _ =>
      refine ⟨[.receive n env], { p with sys := s }, hone ?_, rfl, rfl⟩
      simp only [procStep, Proc.receiveStep, hrec]
      exact hmap
  | _ =>
    refine ⟨[_], { p with sys := s }, hone ?_, rfl, rfl⟩
    exact congrArg (Option.map _) hs

/-- **Refinement.**  Every run of `Sys` is a run of `Proc`. -/
theorem procRun_of_sysRun (ls : List SysStep) {s : Sys} (hr : run sysStep Sys.init ls = some s) :
    ∃ ls' p, run procStep Proc.init ls' = some p ∧ p.sys = s := by
  have hrun : ∀ (ls : List SysStep) (p : Proc) (s : Sys), (∀ n, p.serving n = none) →
      run sysStep p.sys ls = some s → ∃ ls' p', run procStep p ls' = some p' ∧ p'.sys = s := by
    intro ls
    induction ls with
    | nil =>
      intro p s _ hr
      exact ⟨[], p, rfl, Option.some.inj hr⟩
    | cons l ls ih =>
      intro p s hidle hr
      obtain ⟨s₁, hs₁, hrest⟩ := Option.bind_eq_some_iff.mp hr
      obtain ⟨ls₁, p₁, hp₁, rfl, hserving⟩ := step_run hidle hs₁
      obtain ⟨ls₂, p₂, hp₂, rfl⟩ := ih p₁ s (fun n => hserving ▸ hidle n) hrest
      exact ⟨ls₁ ++ ls₂, p₂, (run_append hp₁ ls₂).trans hp₂, rfl⟩
  exact hrun ls Proc.init s (fun _ => rfl) hr

end

/-! ## Any run -/

/-- **Teardown.**  In every run in which the receive thread has left its loop whenever
its server is destroyed, no receive thread uses a destroyed server and nothing is
sent without a server.  Where it has not, its next step uses the destroyed server. -/
theorem safe_of_threadGone (ls : List SysStep) :
    (Guarded procStep ThreadGone Proc.init ls → Guarded procStep Safe Proc.init ls) ∧
    ∀ p l p', run procStep Proc.init ls = some p → procStep p l = some p' → ¬ ThreadGone p l →
      ∃ l', TouchesDestroyed p' l' ∧ ∃ p'', procStep p' l' = some p'' := by
  constructor
  · refine Guarded.imp (I := TeardownInv) ?_ ?_ ls teardownInv_init
    · exact fun p l p' h hg hs => teardownInv_step h hg hs
    · exact fun p l p' h _ hs => safe_step h hs
  · exact fun p l p' _ hs hg => next_step_destroyed hg hs

/-- A client that asks for the task list of an empty desktop, and a disconnect click
before the list is sent. -/
def closedWhileServing : List SysStep :=
  [.click, .gui, .gui, .gui, .gui, .gui, .gui, .acceptReturns 0 true, .accept 0, .accept 0,
    .receive 0 default, .receive 0 default, .recvReturns 0 (.data Request.activeTaskList.chunk),
    .receive 0 default, .click, .gui, .gui, .gui]

/-- The receive thread of the destroyed server goes on, and sends without a server. -/
theorem serves_after_destroy :
    ∃ p, run procStep Proc.init closedWhileServing = some p ∧ p.status 0 = .destroyed ∧
      p.sys.current = none ∧ TouchesDestroyed p (.receive 0 default) ∧
      SendsToNull p (.receive 0 default) ∧
      ¬ Guarded procStep Safe Proc.init (closedWhileServing ++ [.receive 0 default]) := by
  have hrun : ∃ p p', run procStep Proc.init closedWhileServing = some p ∧
      procStep p (.receive 0 default) = some p' ∧ p.status 0 = .destroyed ∧ p.sys.current = none ∧
      p.sys.session.sent.length = 0 ∧ p'.sys.session.sent.length = 1 :=
    ⟨_, _, rfl, rfl, rfl, rfl, rfl, rfl⟩
  obtain ⟨p, p', hp, hp', hst, hcur, hsent, hsent'⟩ := hrun
  have htouch : TouchesDestroyed p (.receive 0 default) := hst
  refine ⟨p, hp, hst, hcur, htouch, ⟨hcur, p', hp', by omega⟩, fun hg => ?_⟩
  exact (hg.last hp hp').1 htouch

end RemoteTaskbar
