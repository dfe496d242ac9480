import Mathlib.Logic.Function.Basic
import RemoteTaskbar.Server.MainLoop
import RemoteTaskbar.Server.Receive

/-!
# Connections

`Sys` is the server process: `NetworkManager`, the `Server` objects it created,
each with its accept and its receive thread, and the GUI thread, which carries
out a click step by step and handles hook messages in between.  `sysStep` lets
any thread take its next step; the two callbacks are global and stay registered.

A `Server` is never reused: a new connection has a new one, at index `created`.
What a freed `Server` holds is not modelled further; it keeps its last values.
-/

namespace RemoteTaskbar

open Wire

/-! ## Threads -/

/-- `IServer_AcceptThread`. -/
inductive AcceptThread where
  | notStarted
  /-- in `accept` -/
  | waiting
  /-- `accept` returned a socket -/
  | accepted
  /-- `connected` is set, the callback is next -/
  | connectedSet
  | finished
deriving DecidableEq

/-- Why the receive thread left its loop. -/
inductive LeftBecause where
  /-- `recv` returned 0: the client closed -/
  | closed
  /-- `recv` failed -/
  | recvFailed
  /-- `connected` was found cleared -/
  | notConnected
deriving DecidableEq

/-- `IServer_RecieveThread`. -/
inductive ReceiveThread where
  | notStarted
  /-- `while(!server->connected) Sleep(100)` -/
  | sleeping
  /-- at the test of `while(server->connected)` -/
  | testing
  | inRecv
  /-- before the callback; `last` if `recv` returned 0 -/
  | calling (last : Bool)
  | left (why : LeftBecause)
deriving DecidableEq

structure ServerObject where
  server : Server
  accept : AcceptThread
  receive : ReceiveThread

def ServerObject.create : ServerObject := ⟨Server.create, .notStarted, .notStarted⟩

/-- A step of the GUI thread inside the handler of a click. -/
inductive GuiStep where
  /-- `Server_Close` -/
  | close
  /-- `Server_Destroy` -/
  | destroy
  /-- `_server = 0` -/
  | clear
  | setDisconnected
  /-- `_server = Server_Create()` -/
  | create
  /-- `Server_Start` -/
  | start
  | setAwaitClient
  /-- `Server_OnConnected(Server_Connected)` -/
  | registerOnConnected
  /-- `Server_OnRecv(Server_Recv)` -/
  | registerOnRecv
  /-- `WindowManager::reset` -/
  | reset
deriving DecidableEq

/-! ## The process -/

structure Sys where
  /-- `NetworkManager::state` -/
  state : NetState
  /-- `NetworkManager::_server` -/
  current : Option Nat
  objects : Nat → ServerObject
  created : Nat
  onConnected : Bool
  onRecv : Bool
  /-- what is left of the click the GUI thread handles -/
  gui : List GuiStep
  session : Session

namespace Sys

def init : Sys where
  state := .disconnected
  current := none
  objects := fun _ => ServerObject.create
  created := 0
  onConnected := false
  onRecv := false
  gui := []
  session := Session.init

/-- `NetworkManager::startUp`. -/
def startUp (s : Sys) : List GuiStep :=
  (if s.current.isSome then [.close, .destroy, .clear] else []) ++
    [.create, .start, .setAwaitClient, .registerOnConnected, .registerOnRecv]

/-- `NetworkManager::disconnect`. -/
def disconnect (s : Sys) : List GuiStep :=
  if s.current.isSome then [.close, .destroy, .clear, .setDisconnected] else []

/-- `IDC_CONNECT_BUTTON`. -/
def connectButton (s : Sys) : List GuiStep :=
  match s.state with
  | .disconnected => s.startUp ++ [.reset]
  | .awaitClient => []
  | .connected => s.disconnect

def setObject (s : Sys) (n : Nat) (o : ServerObject) : Sys :=
  { s with objects := Function.update s.objects n o }

@[simp] theorem setObject_objects_self (s : Sys) (n : Nat) (o : ServerObject) :
    (s.setObject n o).objects n = o := by
  unfold setObject
  exact Function.update_self ..

theorem setObject_objects_ne (s : Sys) {n m : Nat} (o : ServerObject) (h : m ≠ n) :
    (s.setObject n o).objects m = s.objects m := by
  unfold setObject
  exact Function.update_of_ne h ..

def setConnected (s : Sys) (n : Nat) (connected : Bool) : Sys :=
  s.setObject n { s.objects n with server := { (s.objects n).server with connected := connected } }

theorem setConnected_receive (s : Sys) (n m : Nat) (connected : Bool) :
    ((s.setConnected n connected).objects m).receive = (s.objects m).receive := by
  unfold setConnected
  by_cases h : m = n
  · subst h
    rw [setObject_objects_self]
  · rw [setObject_objects_ne _ _ h]

def guiStep (s : Sys) : GuiStep → Sys
  | .close => s.current.elim s fun n => s.setConnected n false
  | .destroy => s
  | .clear => { s with current := none }
  | .setDisconnected => { s with state := .disconnected }
  | .create =>
    { s.setObject s.created ServerObject.create with
      current := some s.created
      created := s.created + 1
      -- what is sent from now on goes to the new connection
      session := { s.session with sent := [] } }
  | .start =>
    s.current.elim s fun n =>
      s.setObject n { s.objects n with accept := .waiting, receive := .sleeping }
  | .setAwaitClient => { s with state := .awaitClient }
  | .registerOnConnected => { s with onConnected := true }
  | .registerOnRecv => { s with onRecv := true }
  | .reset => { s with session := { s.session with wm := RemoteTaskbar.reset } }

/-- A step of the GUI thread leaves alone a server that is current neither before nor after it. -/
theorem guiStep_objects (s : Sys) (step : GuiStep) {m : Nat} (h : s.current ≠ some m)
    (h' : (s.guiStep step).current ≠ some m) : (s.guiStep step).objects m = s.objects m := by
  have hkeep : ∀ o : Nat → ServerObject,
      (s.current.elim s fun n => s.setObject n (o n)).objects m = s.objects m := by
    intro o
    cases hc : s.current with
    | none => rfl
    | some n => exact setObject_objects_ne s _ fun e => h (hc.trans (congrArg some e.symm))
  cases step with
  | close => exact hkeep _
  | start => exact hkeep _
  | create => exact setObject_objects_ne s _ fun e => h' (congrArg some e.symm)
  | _ => rfl

/-- A step of the accept thread after `accept` returned. -/
def acceptStep (s : Sys) (n : Nat) : Option Sys :=
  match (s.objects n).accept with
  | .accepted =>
    let s := s.setConnected n true
    some (s.setObject n { s.objects n with accept := .connectedSet })
  | .connectedSet =>
    let s := s.setObject n { s.objects n with accept := .finished }
    -- Server_Connected
    some (if s.onConnected then { s with state := .connected } else s)
  | _ => none

/-- The effect of `Server_Recv` on the window manager. -/
def callback (s : Sys) (n : Nat) (env : Env) : Session :=
  if s.onRecv then
    match serverRecv (s.objects n).server with
    | some .activeTaskList => handle s.session (.list env)
    | _ => s.session
  else s.session

/-- A step of the receive thread outside `recv`. -/
def receiveStep (s : Sys) (n : Nat) (env : Env) : Option Sys :=
  let o := s.objects n
  match o.receive with
  | .sleeping => some (if o.server.connected then s.setObject n { o with receive := .testing } else s)
  | .testing =>
    some (s.setObject n { o with
      receive := if o.server.connected then .inRecv else .left .notConnected })
  | .calling last =>
    some { s.setObject n { o with receive := if last then .left .closed else .testing } with
      session := s.callback n env }
  | _ => none

end Sys

inductive SysStep where
  /-- the connect button, while the GUI thread is in its message loop -/
  | click
  /-- the GUI thread's next step in a click -/
  | gui
  /-- a hook event, handled in the message loop -/
  | hook (d : Delivery)
  /-- `accept` returns a client, or fails -/
  | acceptReturns (n : Nat) (success : Bool)
  | accept (n : Nat)
  | recvReturns (n : Nat) (r : RecvResult)
  | receive (n : Nat) (env : Env)

def sysStep (s : Sys) : SysStep → Option Sys
  | .click =>
    match s.gui with
    | [] => some { s with gui := s.connectButton }
    | _ :: _ => none
  | .gui =>
    match s.gui with
    | [] => none
    | step :: gui => some { s.guiStep step with gui := gui }
  | .hook d =>
    match s.gui with
    | [] => some { s with session := deliver s.state s.session d }
    | _ :: _ => none
  | .acceptReturns n success =>
    let o := s.objects n
    match o.accept with
    | .waiting => some (s.setObject n { o with accept := if success then .accepted else .finished })
    | _ => none
  | .accept n => s.acceptStep n
  | .recvReturns n r =>
    let o := s.objects n
    match o.receive with
    | .inRecv =>
      some (s.setObject n { o with
        server := o.server.recv r
        receive :=
          if r.retVal = SOCKET_ERROR then .left .recvFailed
          else .calling (r.retVal = 0) })
    | _ => none
  | .receive n env => s.receiveStep n env

theorem gui_objects {s s' : Sys} (hs : sysStep s .gui = some s') {m : Nat} (h : s.current ≠ some m)
    (h' : s'.current ≠ some m) : s'.objects m = s.objects m := by
  simp only [sysStep] at hs
  split at hs
  · cases hs
  · obtain rfl := Option.some.inj hs
    exact Sys.guiStep_objects s _ h h'

end RemoteTaskbar
