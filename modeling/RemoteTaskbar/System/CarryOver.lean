import Mathlib.Data.Set.Insert
import RemoteTaskbar.System.Connection
import RemoteTaskbar.System.Dispatch
import RemoteTaskbar.System.Icons

/-!
# What one connection leaves to the next

The connect button starts the server first and resets the window manager last, so
a request may be served from the maps of the connection before.  Until the reset
the icon cache holds what was left and the icons `found` by the requests served so
far, and the client was sent those found that were not left (`Early`).  Two
connections that differ in what was left to them send the same exactly if every
icon found was left to both or to neither (`EarlyPair.sent_eq_iff`).  From the
reset on they do the same (`late_run`).

The control of the process never looks at the session (`sysStep_withSession`).
-/

namespace RemoteTaskbar

open Wire Trans

/-! ## The property -/

def Sys.withSession (s : Sys) (x : Session) : Sys := { s with session := x }

@[simp] theorem Sys.withSession_objects (s : Sys) (x : Session) :
    (s.withSession x).objects = s.objects := rfl

/-- The process with another window manager left by earlier connections. -/
def Sys.withWindowManager (s : Sys) (wm : WindowManager) : Sys :=
  s.withSession { s.session with wm := wm }

/-- A step of the connection with server `n`, the GUI thread's included. -/
def OfConnection (n : Nat) : SysStep → Prop
  | .click => False
  | .gui => True
  | .hook _ => True
  | .acceptReturns m _ => m = n
  | .accept m => m = n
  | .recvReturns m _ => m = n
  | .receive m _ => m = n

/-- The OS answers of the list request that a step serves, if it serves one. -/
def Sys.listServed (s : Sys) : SysStep → Option Env
  | .receive n env =>
    match (s.objects n).receive with
    | .calling _ =>
      if s.onRecv ∧ serverRecv (s.objects n).server = some .activeTaskList then some env else none
    | _ => none
  | _ => none

/-- The icons a list request asks the cache for. -/
def requestIcons (env : Env) : Set HICON :=
  {i | ∃ hwnd ∈ env.enumWindows, isAltTabWindow env hwnd = true ∧ getHICON env hwnd = i}

/-- Both caches hold the same of these icons. -/
def SameCached (wm₁ wm₂ : WindowManager) (icons : Set HICON) : Prop :=
  ∀ i ∈ icons, i ∈ wm₁.clientCachedIcons ↔ i ∈ wm₂.clientCachedIcons

/-- A request served before the reset finds only icons left in both caches or in none. -/
def EarlySame (wm₁ wm₂ : WindowManager) (s : Sys) (l : SysStep) : Prop :=
  GuiStep.reset ∈ s.gui → ∀ env, s.listServed l = some env → SameCached wm₁ wm₂ (requestIcons env)

/-! ## The control does not depend on the session -/

/-- What a step does to the session. -/
def sessionStep (s : Sys) (l : SysStep) (x : Session) : Session :=
  match l with
  | .gui =>
    match s.gui with
    | .create :: _ => { x with sent := [] }
    | .reset :: _ => { x with wm := reset }
    | _ => x
  | .hook d => deliver s.state x d
  | .receive n env => (s.listServed (.receive n env)).elim x fun env => handle x (.list env)
  | _ => x

/-- The callback serves a list request and otherwise leaves the session alone. -/
theorem callback_eq (s : Sys) (n : Nat) (env : Env) (last : Bool)
    (h : (s.objects n).receive = .calling last) :
    s.callback n env =
      (s.listServed (.receive n env)).elim s.session fun env => handle s.session (.list env) := by
  unfold Sys.callback Sys.listServed
  simp only [h]
  by_cases hon : s.onRecv = true
  · rw [if_pos hon]
    cases hr : serverRecv (s.objects n).server with
    | none => simp
    | some action => cases action <;> simp [hon]
  · simp [hon]

/-- **Replacing the session.**  A step can happen whatever the session is, and leads to
the same process around a session that depends on the old one only. -/
theorem sysStep_withSession (s : Sys) (l : SysStep) (x : Session) :
    sysStep (s.withSession x) l =
      (sysStep s l).map fun s' => s'.withSession (sessionStep s l x) := by
  cases l with
  | click =>
    obtain ⟨state, current, objects, created, onConnected, onRecv, gui, session⟩ := s
    cases gui <;> rfl
  | gui =>
    obtain ⟨state, current, objects, created, onConnected, onRecv, gui, session⟩ := s
    cases gui with
    | nil => rfl
    | cons step gui => cases step <;> cases current <;> rfl
  | hook d =>
    obtain ⟨state, current, objects, created, onConnected, onRecv, gui, session⟩ := s
    cases gui <;> rfl
  | acceptReturns n success =>
    simp only [sysStep, Sys.withSession_objects]
    cases (s.objects n).accept <;> rfl
  | accept n =>
    simp only [sysStep, Sys.acceptStep, Sys.withSession_objects]
    cases (s.objects n).accept with
    | connectedSet =>
      obtain ⟨state, current, objects, created, onConnected, onRecv, gui, session⟩ := s
      cases onConnected <;> rfl
    | _ => rfl
  | recvReturns n r =>
    simp only [sysStep, Sys.withSession_objects]
    cases (s.objects n).receive <;> rfl
  | receive n env =>
    simp only [sysStep, Sys.receiveStep, Sys.withSession_objects]
    cases hr : (s.objects n).receive with
    | sleeping =>
      have hx : sessionStep s (.receive n env) x = x := by simp [sessionStep, Sys.listServed, hr]
      rw [hx]
      show some (if (s.objects n).server.connected = true then _ else _) = some _
      split <;> rfl
    | testing =>
      have hx : sessionStep s (.receive n env) x = x := by simp [sessionStep, Sys.listServed, hr]
      rw [hx]
      rfl
    | calling last =>
      have hx := callback_eq (s.withSession x) n env last hr
      simp only [hx]
      rfl
    | notStarted => rfl
    | inRecv => rfl
    | left why => rfl

theorem session_eq_sessionStep {s s' : Sys} {l : SysStep} (hs : sysStep s l = some s') :
    s'.session = sessionStep s l s.session := by
  have h := sysStep_withSession s l s.session
  rw [show s.withSession s.session = s from rfl, hs, Option.map_some] at h
  exact congrArg Sys.session (Option.some.inj h)

/-- The same step from another session. -/
theorem sysStep_other_session {s s' : Sys} {l : SysStep} (hs : sysStep s l = some s') (x : Session) :
    sysStep (s.withSession x) l = some (s'.withSession (sessionStep s l x)) := by
  rw [sysStep_withSession, hs, Option.map_some]

/-! ## A list request before the reset -/

/-- The session of a connection before its reset, if `wm` was left to it and the
requests served so far found `found`. -/
structure Early (wm : WindowManager) (found : Set HICON) (x : Session) : Prop where
  cached : ∀ i, i ∈ x.wm.clientCachedIcons ↔ i ∈ wm.clientCachedIcons ∨ i ∈ found
  sent : ∀ i, i ∈ iconsSent x.sent ↔ i ∈ found ∧ i ∉ wm.clientCachedIcons

theorem early_init (wm : WindowManager) : Early wm ∅ ⟨wm, []⟩ := by
  refine ⟨fun i => ?_, fun i => ?_⟩
  · simp
  · simp [iconsSent]

theorem Early.sendMissingIcon {wm : WindowManager} {found : Set HICON} {x : Session}
    (h : Early wm found x) (env : Env) (hIcon : HICON) :
    Early wm (insert hIcon found) (sendMissingIcon env hIcon x) := by
  rcases sendMissingIcon_cases env x hIcon with ⟨hold, he⟩ | ⟨hnew, he⟩
  · rw [he]
    refine ⟨fun i => ?_, fun i => ?_⟩
    · rw [h.cached, Set.mem_insert_iff]
      rw [h.cached] at hold
      grind
    · rw [h.sent, Set.mem_insert_iff]
      rw [h.cached] at hold
      grind
  · rw [he]
    rw [h.cached, not_or] at hnew
    refine ⟨fun i => ?_, fun i => ?_⟩
    · rw [mem_addIconToClientCache, h.cached, Set.mem_insert_iff]
      exact or_left_comm
    · rw [iconsSent_append, List.mem_append, h.sent, Set.mem_insert_iff]
      show _ ∨ i ∈ [hIcon] ↔ _
      rw [List.mem_singleton]
      constructor
      · rintro (⟨hf, hw⟩ | rfl)
        · exact ⟨Or.inr hf, hw⟩
        · exact ⟨Or.inl rfl, hnew.1⟩
      · rintro ⟨rfl | hf, hw⟩
        · exact Or.inr rfl
        · exact Or.inl ⟨hf, hw⟩

theorem Early.foldl_refreshTask {wm : WindowManager} {found : Set HICON} {x : Session}
    (h : Early wm found x) (env : Env) (ks : List HWND) :
    Early wm (found ∪ {i | ∃ k ∈ ks, getHICON env k = i}) (ks.foldl (refreshTask env) x) := by
  induction ks generalizing found x with
  | nil => simpa using h
  | cons k ks ih =>
    have hx : Early wm found { x with wm := { x.wm with
        activeWindowTasks := x.wm.activeWindowTasks.insert k (getHICON env k) } } :=
      ⟨h.cached, h.sent⟩
    have hk : Early wm (insert (getHICON env k) found) (refreshTask env x k) :=
      hx.sendMissingIcon env _
    have hset : insert (getHICON env k) found ∪ {i | ∃ k' ∈ ks, getHICON env k' = i} =
        found ∪ {i | ∃ k' ∈ k :: ks, getHICON env k' = i} := by
      ext i
      simp only [Set.mem_union, Set.mem_insert_iff, Set.mem_ofPred_eq, List.exists_mem_cons_iff]
      rw [or_assoc, or_left_comm, eq_comm]
    rw [← hset]
    exact ih hk

/-- The windows the loop of a list request visits. -/
theorem mem_visit (env : Env) (x : Session) (k : HWND) :
    k ∈ env.order.visit (enumTasks env (clearTasks x)).keys ↔
      k ∈ env.enumWindows ∧ isAltTabWindow env k = true := by
  rw [(env.order.perm _).mem_iff, Session.keys, ← AList.mem_keys, mem_enumTasks]
  constructor
  · rintro (h | h)
    · exact h
    · exact absurd h (AList.notMem_empty k)
  · exact Or.inl

theorem Early.list {wm : WindowManager} {found : Set HICON} {x : Session} (h : Early wm found x)
    (env : Env) : Early wm (found ∪ requestIcons env) (handle x (.list env)) := by
  have henum := enumTasks_sent env (clearTasks x)
  have hx : Early wm found (enumTasks env (clearTasks x)) := by
    refine ⟨?_, ?_⟩
    · rw [henum.2]
      exact h.cached
    · rw [henum.1]
      exact h.sent
  have hfold := hx.foldl_refreshTask env (env.order.visit (enumTasks env (clearTasks x)).keys)
  have hset : {i | ∃ k ∈ env.order.visit (enumTasks env (clearTasks x)).keys, getHICON env k = i} =
      requestIcons env := by
    ext i
    simp only [requestIcons, Set.mem_ofPred_eq, mem_visit, and_assoc]
  rw [hset] at hfold
  refine ⟨hfold.cached, fun i => ?_⟩
  show i ∈ iconsSent ((refreshWindowTasksList env x).sendMessage _).sent ↔ _
  rw [Session.sendMessage_sent, iconsSent_append, ← hfold.sent i]
  simp [Packet.iconSent, refreshWindowTasksList, sendMissingIcons]

/-! ## Two connections before their resets -/

/-- Two sessions in the loop of the same request: the same windows and messages, and
caches that agree on what is asked for. -/
structure InStep (icons : Set HICON) (x₁ x₂ : Session) : Prop where
  tasks : x₁.wm.activeWindowTasks = x₂.wm.activeWindowTasks
  sent : x₁.sent = x₂.sent
  cached : SameCached x₁.wm x₂.wm icons

section
variable (env : Env) {icons : Set HICON} {x₁ x₂ : Session}

theorem InStep.sendMissingIcon (h : InStep icons x₁ x₂) (hIcon : HICON) (hi : hIcon ∈ icons) :
    InStep icons (sendMissingIcon env hIcon x₁) (sendMissingIcon env hIcon x₂) := by
  have hc := h.cached hIcon hi
  refine ⟨?_, ?_, fun i hi' => ?_⟩
  · rw [sendMissingIcon_tasks, sendMissingIcon_tasks]
    exact h.tasks
  · rcases sendMissingIcon_cases env x₁ hIcon with ⟨h₁, he₁⟩ | ⟨h₁, he₁⟩
    · rcases sendMissingIcon_cases env x₂ hIcon with ⟨-, he₂⟩ | ⟨h₂, -⟩
      · rw [he₁, he₂]
        exact h.sent
      · exact absurd (hc.mp h₁) h₂
    · rcases sendMissingIcon_cases env x₂ hIcon with ⟨h₂, -⟩ | ⟨-, he₂⟩
      · exact absurd (hc.mpr h₂) h₁
      · rw [he₁, he₂, h.sent]
  · rw [mem_cache_sendMissingIcon, mem_cache_sendMissingIcon]
    exact or_congr_right (h.cached i hi')

theorem InStep.refreshTask (h : InStep icons x₁ x₂) (k : HWND) (hk : getHICON env k ∈ icons) :
    InStep icons (refreshTask env x₁ k) (refreshTask env x₂ k) := by
  have hx : InStep icons
      { x₁ with wm := { x₁.wm with
        activeWindowTasks := x₁.wm.activeWindowTasks.insert k (getHICON env k) } }
      { x₂ with wm := { x₂.wm with
        activeWindowTasks := x₂.wm.activeWindowTasks.insert k (getHICON env k) } } := by
    refine ⟨?_, h.sent, h.cached⟩
    rw [h.tasks]
  exact hx.sendMissingIcon env _ hk

theorem InStep.foldl_refreshTask (h : InStep icons x₁ x₂) (ks : List HWND)
    (hks : ∀ k ∈ ks, getHICON env k ∈ icons) :
    InStep icons (ks.foldl (RemoteTaskbar.refreshTask env) x₁)
      (ks.foldl (RemoteTaskbar.refreshTask env) x₂) := by
  induction ks generalizing x₁ x₂ with
  | nil => exact h
  | cons k ks ih =>
    rw [List.forall_mem_cons] at hks
    exact ih (h.refreshTask env k hks.1) hks.2

theorem enumTasks_tasks_congr (h : x₁.wm.activeWindowTasks = x₂.wm.activeWindowTasks) :
    (enumTasks env x₁).wm.activeWindowTasks = (enumTasks env x₂).wm.activeWindowTasks := by
  unfold enumTasks
  induction env.enumWindows generalizing x₁ x₂ with
  | nil => exact h
  | cons k ks ih =>
    apply ih
    unfold enumWindowsProc insertTask
    split
    · simp only [h]
    · exact h

/-- The same request, answered alike, sends the same if the caches agree on its icons. -/
theorem list_sent_congr (hsent : x₁.sent = x₂.sent) (hc : SameCached x₁.wm x₂.wm (requestIcons env)) :
    (handle x₁ (.list env)).sent = (handle x₂ (.list env)).sent := by
  have henum₁ := enumTasks_sent env (clearTasks x₁)
  have henum₂ := enumTasks_sent env (clearTasks x₂)
  have htasks : (enumTasks env (clearTasks x₁)).wm.activeWindowTasks =
      (enumTasks env (clearTasks x₂)).wm.activeWindowTasks := enumTasks_tasks_congr env rfl
  have hkeys : (enumTasks env (clearTasks x₁)).keys = (enumTasks env (clearTasks x₂)).keys :=
    congrArg AList.keys htasks
  have hstart : InStep (requestIcons env) (enumTasks env (clearTasks x₁))
      (enumTasks env (clearTasks x₂)) := by
    refine ⟨htasks, ?_, fun i hi => ?_⟩
    · rw [henum₁.1, henum₂.1]
      exact hsent
    · rw [henum₁.2, henum₂.2]
      exact hc i hi
  have hend := hstart.foldl_refreshTask env (env.order.visit (enumTasks env (clearTasks x₁)).keys)
    fun k hk => ⟨k, ((mem_visit env x₁ k).mp hk).1, ((mem_visit env x₁ k).mp hk).2, rfl⟩
  have hkeys' : (refreshWindowTasksList env x₁).keys = (refreshWindowTasksList env x₂).keys := by
    unfold refreshWindowTasksList sendMissingIcons
    rw [← hkeys]
    exact congrArg AList.keys hend.tasks
  have hend' : InStep (requestIcons env) (refreshWindowTasksList env x₁)
      (refreshWindowTasksList env x₂) := by
    unfold refreshWindowTasksList sendMissingIcons
    rw [← hkeys]
    exact hend
  show (refreshWindowTasksList env x₁).sent ++ [.activeTaskList (taskRecords env _)] =
    (refreshWindowTasksList env x₂).sent ++ [.activeTaskList (taskRecords env _)]
  unfold taskRecords
  rw [hend'.sent, hend'.tasks, hkeys']

end

/-- The sessions of two connections before their resets, with what was left to each. -/
structure EarlyPair (wm₁ wm₂ : WindowManager) (found : Set HICON) (x₁ x₂ : Session) : Prop where
  first : Early wm₁ found x₁
  second : Early wm₂ found x₂
  sent : SameCached wm₁ wm₂ found → x₁.sent = x₂.sent

section
variable {wm₁ wm₂ : WindowManager} {found : Set HICON} {x₁ x₂ : Session}

theorem sameCached_union (icons : Set HICON) :
    SameCached wm₁ wm₂ (found ∪ icons) ↔ SameCached wm₁ wm₂ found ∧ SameCached wm₁ wm₂ icons := by
  unfold SameCached
  simp only [Set.mem_union, or_imp, forall_and]

/-- An icon found and left to one of the two only was sent to the other only. -/
theorem EarlyPair.sent_eq_iff (h : EarlyPair wm₁ wm₂ found x₁ x₂) :
    x₁.sent = x₂.sent ↔ SameCached wm₁ wm₂ found := by
  constructor
  · intro hsent i hi
    have hiff := h.first.sent i
    rw [hsent, h.second.sent i] at hiff
    have hnot : i ∉ wm₂.clientCachedIcons ↔ i ∉ wm₁.clientCachedIcons := by
      simpa [hi] using hiff
    exact not_iff_not.mp hnot.symm
  · exact h.sent

theorem EarlyPair.list (h : EarlyPair wm₁ wm₂ found x₁ x₂) (env : Env) :
    EarlyPair wm₁ wm₂ (found ∪ requestIcons env) (handle x₁ (.list env)) (handle x₂ (.list env)) := by
  refine ⟨h.first.list env, h.second.list env, fun hc => ?_⟩
  obtain ⟨hfound, hicons⟩ := (sameCached_union _).mp hc
  refine list_sent_congr env (h.sent hfound) fun i hi => ?_
  rw [h.first.cached, h.second.cached]
  exact or_congr_left (hicons i hi)

end

/-! ## After the reset -/

/-- A session in which `before` had been sent already. -/
def Session.after (before : List Packet) (x : Session) : Session :=
  { x with sent := before ++ x.sent }

@[simp] theorem Session.after_wm (before : List Packet) (x : Session) : (x.after before).wm = x.wm := rfl

section
variable (before : List Packet)

theorem sendMessage_after (x : Session) (p : Packet) :
    (x.after before).sendMessage p = (x.sendMessage p).after before := by
  simp only [Session.sendMessage, Session.after, List.append_assoc]

theorem sendMissingIcon_after (env : Env) (hIcon : HICON) (x : Session) :
    sendMissingIcon env hIcon (x.after before) = (sendMissingIcon env hIcon x).after before := by
  rcases sendMissingIcon_cases env x hIcon with ⟨hold, he⟩ | ⟨hnew, he⟩
  · rcases sendMissingIcon_cases env (x.after before) hIcon with ⟨-, he'⟩ | ⟨hnew, -⟩
    · rw [he, he']
    · exact absurd hold hnew
  · rcases sendMissingIcon_cases env (x.after before) hIcon with ⟨hold, -⟩ | ⟨-, he'⟩
    · exact absurd hold hnew
    · rw [he, he']
      simp only [Session.after, List.append_assoc]

theorem enumTasks_after (env : Env) (x : Session) :
    enumTasks env (x.after before) = (enumTasks env x).after before := by
  refine List.foldl_hom (Session.after before) fun x k => ?_
  unfold enumWindowsProc
  split <;> rfl

theorem refreshTask_after (env : Env) (x : Session) (hwnd : HWND) :
    refreshTask env (x.after before) hwnd = (refreshTask env x hwnd).after before :=
  sendMissingIcon_after before env _ { x with wm := { x.wm with
    activeWindowTasks := x.wm.activeWindowTasks.insert hwnd (getHICON env hwnd) } }

theorem refreshWindowTasksList_after (env : Env) (x : Session) :
    refreshWindowTasksList env (x.after before) = (refreshWindowTasksList env x).after before := by
  unfold refreshWindowTasksList sendMissingIcons
  rw [show clearTasks (x.after before) = (clearTasks x).after before from rfl, enumTasks_after]
  exact List.foldl_hom (Session.after before) (refreshTask_after before env)

theorem addWindowTask_after (env : Env) (hwnd : HWND) (x : Session) :
    addWindowTask env hwnd (x.after before) = (addWindowTask env hwnd x).after before := by
  unfold addWindowTask
  rw [Session.after_wm]
  by_cases h : hwnd ∈ x.wm.activeWindowTasks
  · rw [if_pos h, if_pos h]
  · rw [if_neg h, if_neg h]
    show sendAddTask env hwnd _ (sendMissingIcon env _ ((insertTask hwnd _ x).after before)) = _
    rw [sendMissingIcon_after]
    exact sendMessage_after before _ _

theorem removeWindowTask_after (hwnd : HWND) (x : Session) :
    removeWindowTask hwnd (x.after before) = (removeWindowTask hwnd x).after before := by
  unfold removeWindowTask
  rw [Session.after_wm]
  by_cases h : hwnd ∈ x.wm.activeWindowTasks
  · rw [if_pos h, if_pos h]
    exact sendMessage_after before (eraseTask hwnd x) _
  · rw [if_neg h, if_neg h]

theorem updateWindowTaskTitle_after (env : Env) (hwnd : HWND) (x : Session) :
    updateWindowTaskTitle env hwnd (x.after before) = (updateWindowTaskTitle env hwnd x).after before := by
  unfold updateWindowTaskTitle
  rw [Session.after_wm]
  by_cases h : hwnd ∈ x.wm.activeWindowTasks
  · rw [if_pos h, if_pos h]
    exact sendMessage_after before x _
  · rw [if_neg h, if_neg h]

/-- No handler looks at what was sent. -/
theorem handle_after (x : Session) (e : Event) :
    handle (x.after before) e = (handle x e).after before := by
  cases e with
  | list env =>
    show sendWindowTasksToClient env (refreshWindowTasksList env (x.after before)) = _
    rw [refreshWindowTasksList_after]
    exact sendMessage_after before _ _
  | create env hwnd => exact addWindowTask_after before env hwnd x
  | destroy hwnd => exact removeWindowTask_after before hwnd x
  | rename env hwnd => exact updateWindowTaskTitle_after before env hwnd x

theorem deliver_after (state : NetState) (x : Session) (d : Delivery) :
    deliver state (x.after before) d = (deliver state x d).after before := by
  unfold deliver
  split
  · rfl
  · next msg hmsg =>
    unfold mainLoopStep
    split
    · cases msg.lParam with
      | windowsCreate => exact handle_after before x (.create d.env msg.wParam)
      | windowsDestroy => exact handle_after before x (.destroy msg.wParam)
      | windowsRename => exact handle_after before x (.rename d.env msg.wParam)
    · rfl

end

/-- Only a click and the GUI thread itself change what the GUI thread has to do. -/
theorem gui_eq_of_step {s s' : Sys} {l : SysStep} (hs : sysStep s l = some s') (hc : l ≠ .click)
    (hg : l ≠ .gui) : s'.gui = s.gui := by
  cases l with
  | click => exact absurd rfl hc
  | gui => exact absurd rfl hg
  | hook d =>
    simp only [sysStep] at hs
    split at hs
    · exact (Option.some.inj hs) ▸ rfl
    · exact absurd hs (by simp)
  | acceptReturns n success => exact (ownStep_acceptReturns n success hs).gui
  | accept n => exact (ownStep_accept n hs).gui
  | recvReturns n r => exact (ownStep_recvReturns n r hs).gui
  | receive n env => exact (ownStep_receive n env hs).gui

theorem sessionStep_after {s : Sys} (hg : s.gui = []) (l : SysStep) (before : List Packet) (x : Session) :
    sessionStep s l (x.after before) = (sessionStep s l x).after before := by
  cases l with
  | hook d => exact deliver_after before s.state x d
  | gui =>
    unfold sessionStep
    rw [hg]
  | receive n env =>
    show (s.listServed (.receive n env)).elim (x.after before) _ =
      ((s.listServed (.receive n env)).elim x _).after before
    cases s.listServed (.receive n env) with
    | none => rfl
    | some env' => exact handle_after before x (.list env')
  | _ => rfl

/-- From its reset on a connection goes on the same way behind whatever was sent. -/
theorem late_run (wm₁ wm₂ : WindowManager) (ls : List SysStep) {s s₁ : Sys} {x : Session}
    (before₁ before₂ : List Packet) (hg : s.gui = []) (hx : s.session = x.after before₁)
    (hls : SysStep.click ∉ ls) (hr : run sysStep s ls = some s₁) :
    Guarded sysStep (EarlySame wm₁ wm₂) s ls ∧ ∃ x₁ : Session, s₁.session = x₁.after before₁ ∧
      run sysStep (s.withSession (x.after before₂)) ls = some (s₁.withSession (x₁.after before₂)) := by
  induction ls generalizing s x with
  | nil =>
    obtain rfl : s = s₁ := Option.some.inj hr
    exact ⟨trivial, x, hx, rfl⟩
  | cons l ls ih =>
    obtain ⟨s', hs', hrest⟩ := Option.bind_eq_some_iff.mp hr
    rw [List.mem_cons, not_or] at hls
    have hl : l ≠ .gui := by
      rintro rfl
      simp only [sysStep, hg] at hs'
      exact absurd hs' (by simp)
    have hg' : s'.gui = [] := (gui_eq_of_step hs' (Ne.symm hls.1) hl).trans hg
    have hx' : s'.session = (sessionStep s l x).after before₁ := by
      rw [session_eq_sessionStep hs', hx, sessionStep_after hg]
    obtain ⟨hguard, x₁, hx₁, hr₁⟩ := ih hg' hx' hls.2 hrest
    refine ⟨guarded_cons hs' ?_ hguard, x₁, hx₁, ?_⟩
    · intro hreset
      rw [hg] at hreset
      exact absurd hreset List.not_mem_nil
    · show (sysStep (s.withSession _) l).bind (run sysStep · ls) = _
      rw [sysStep_other_session hs', sessionStep_after hg]
      exact hr₁

/-! ## Before the reset -/

/-- The server was created and the window manager not yet reset. -/
def Opening (gui : List GuiStep) : Prop :=
  gui ≠ [] ∧ gui <:+ [.start, .setAwaitClient, .registerOnConnected, .registerOnRecv, .reset]

theorem opening_cons {step : GuiStep} {gui : List GuiStep} (h : Opening (step :: gui)) :
    (step = .reset ∧ gui = []) ∨ (step ≠ .create ∧ step ≠ .reset ∧ Opening gui) := by
  obtain ⟨-, hsuf⟩ := h
  simp only [List.suffix_cons_iff, List.cons.injEq, List.suffix_nil] at hsuf
  unfold Opening
  rcases hsuf with ⟨rfl, rfl⟩ | ⟨rfl, rfl⟩ | ⟨rfl, rfl⟩ | ⟨rfl, rfl⟩ | ⟨rfl, rfl⟩ | h
  · exact Or.inr (by decide)
  · exact Or.inr (by decide)
  · exact Or.inr (by decide)
  · exact Or.inr (by decide)
  · exact Or.inl ⟨rfl, rfl⟩
  · exact absurd h (List.cons_ne_nil _ _)

theorem Opening.reset_mem {gui : List GuiStep} (h : Opening gui) : GuiStep.reset ∈ gui := by
  induction gui with
  | nil => exact absurd rfl h.1
  | cons step gui ih =>
    rcases opening_cons h with ⟨rfl, rfl⟩ | ⟨-, -, hgui⟩
    · exact List.mem_cons_self
    · exact List.mem_cons_of_mem _ (ih hgui)

/-- Before the reset only list requests change the session. -/
theorem sessionStep_opening {s s' : Sys} {l : SysStep} (h : Opening s.gui)
    (hs : sysStep s l = some s') (hl : l ≠ .gui) (x : Session) :
    sessionStep s l x = (s.listServed l).elim x fun env => handle x (.list env) := by
  cases l with
  | gui => exact absurd rfl hl
  | hook d =>
    simp only [sysStep] at hs
    split at hs
    · next hg => exact absurd hg h.1
    · exact absurd hs (by simp)
  | receive n env => rfl
  | _ => rfl

section
variable {wm₁ wm₂ : WindowManager}

theorem earlySame_of_none {s : Sys} {l : SysStep} (h : s.listServed l = none) :
    EarlySame wm₁ wm₂ s l := by
  intro _ env he
  rw [h] at he
  exact absurd he (by simp)

/-- The reset: what was sent until then stays different, all else becomes the same. -/
theorem reset_run {found : Set HICON} {ls : List SysStep} {s s' s₁ : Sys} {x : Session}
    (hp : EarlyPair wm₁ wm₂ found s.session x) (hgui : s.gui = [.reset])
    (hs' : sysStep s .gui = some s') (hls : SysStep.click ∉ ls) (hr : run sysStep s' ls = some s₁) :
    ∃ x₁, run sysStep (s.withSession x) (.gui :: ls) = some (s₁.withSession x₁) ∧
      s₁.session.wm = x₁.wm ∧ (s₁.session = x₁ ↔
        SameCached wm₁ wm₂ found ∧ Guarded sysStep (EarlySame wm₁ wm₂) s (.gui :: ls)) := by
  have hreset : ∀ y : Session, sessionStep s .gui y = (Session.init).after y.sent := by
    intro y
    unfold sessionStep Session.after
    rw [hgui]
    simp [Session.init]
  have hg' : s'.gui = [] := by
    simp only [sysStep, hgui] at hs'
    exact (Option.some.inj hs') ▸ rfl
  have hx' : s'.session = (Session.init).after s.session.sent := by
    rw [session_eq_sessionStep hs', hreset]
  obtain ⟨hguard, x₁, hx₁, hr₁⟩ := late_run wm₁ wm₂ ls s.session.sent x.sent hg' hx' hls hr
  refine ⟨x₁.after x.sent, ?_, by rw [hx₁]; rfl, ?_⟩
  · show (sysStep (s.withSession _) .gui).bind (run sysStep · ls) = _
    rw [sysStep_other_session hs', hreset]
    exact hr₁
  · have hsame : s₁.session = x₁.after x.sent ↔ s.session.sent = x.sent := by
      rw [hx₁]
      simp [Session.after]
    rw [hsame, hp.sent_eq_iff, guarded_cons_iff hs']
    constructor
    · exact fun h => ⟨h, earlySame_of_none rfl, hguard⟩
    · exact And.left

/-- Until the reset each request served counts, and after it none. -/
theorem early_run (ls : List SysStep) {s s₁ : Sys} {found : Set HICON} {x : Session}
    (hp : EarlyPair wm₁ wm₂ found s.session x) (hopen : Opening s.gui) (hls : SysStep.click ∉ ls)
    (hr : run sysStep s ls = some s₁) (hend : s₁.gui = []) :
    ∃ x₁, run sysStep (s.withSession x) ls = some (s₁.withSession x₁) ∧ s₁.session.wm = x₁.wm ∧
      (s₁.session = x₁ ↔ SameCached wm₁ wm₂ found ∧ Guarded sysStep (EarlySame wm₁ wm₂) s ls) := by
  induction ls generalizing s found x with
  | nil =>
    obtain rfl : s = s₁ := Option.some.inj hr
    exact absurd hend hopen.1
  | cons l ls ih =>
    obtain ⟨s', hs', hrest⟩ := Option.bind_eq_some_iff.mp hr
    rw [List.mem_cons, not_or] at hls
    have hsession := session_eq_sessionStep hs'
    have hother := sysStep_other_session hs' x
    have hrun : run sysStep (s.withSession x) (l :: ls) =
        run sysStep (s'.withSession (sessionStep s l x)) ls := run_cons hother ls
    by_cases hl : l = .gui
    · subst hl
      obtain ⟨step, gui, hgui⟩ := List.exists_cons_of_ne_nil hopen.1
      rcases opening_cons (hgui ▸ hopen) with ⟨rfl, rfl⟩ | ⟨hcreate, hreset, hopen'⟩
      · exact reset_run hp hgui hs' hls.2 hrest
      · have hid : ∀ y, sessionStep s .gui y = y := by
          intro y
          unfold sessionStep
          rw [hgui]
          cases step <;> first | rfl | contradiction
        have hgui' : s'.gui = gui := by
          simp only [sysStep, hgui] at hs'
          exact (Option.some.inj hs') ▸ rfl
        rw [hid] at hsession hrun
        rw [hrun, guarded_cons_iff hs', and_iff_right (earlySame_of_none rfl)]
        exact ih (hsession ▸ hp) (hgui' ▸ hopen') hls.2 hrest
    · have hopen' : Opening s'.gui := gui_eq_of_step hs' (Ne.symm hls.1) hl ▸ hopen
      rw [sessionStep_opening hopen hs' hl] at hsession hrun
      rw [hrun, guarded_cons_iff hs']
      cases hserved : s.listServed l with
      | none =>
        rw [hserved] at hsession
        rw [and_iff_right (earlySame_of_none hserved)]
        exact ih (hsession ▸ hp) hopen' hls.2 hrest
      | some env =>
        rw [hserved, Option.elim_some] at hsession
        have hguard : EarlySame wm₁ wm₂ s l ↔ SameCached wm₁ wm₂ (requestIcons env) := by
          constructor
          · exact fun h => h hopen.reset_mem env hserved
          · intro h _ env' he
            rw [hserved] at he
            exact Option.some.inj he ▸ h
        obtain ⟨x₁, hr₁, hwm, hiff⟩ := ih (hsession ▸ hp.list env) hopen' hls.2 hrest
        refine ⟨x₁, hr₁, hwm, ?_⟩
        rw [hiff, hguard, sameCached_union, and_assoc]

end

/-! ## Servers not yet created -/

/-- A server that does not exist yet has no threads, and none is in use. -/
structure Fresh (s : Sys) : Prop where
  objects : ∀ m, s.created ≤ m → s.objects m = ServerObject.create
  current : ∀ n, s.current = some n → n < s.created

theorem fresh_init : Fresh Sys.init :=
  ⟨fun _ _ => rfl, fun n hn => absurd hn (by simp [Sys.init])⟩

section
variable {s s' : Sys} {n : Nat}

/-- The threads of a server that does not exist yet take no step. -/
theorem Fresh.no_step (h : Fresh s) (hn : s.created ≤ n) {l : SysStep} (hl : OfConnection n l)
    (hg : l ≠ .gui) (hh : ∀ d, l ≠ .hook d) : sysStep s l = none := by
  have ho := h.objects n hn
  cases l with
  | click => exact absurd hl id
  | gui => exact absurd rfl hg
  | hook d => exact absurd rfl (hh d)
  | acceptReturns m success =>
    obtain rfl : m = n := hl
    simp only [sysStep, ho, ServerObject.create]
  | accept m =>
    obtain rfl : m = n := hl
    simp only [sysStep, Sys.acceptStep, ho, ServerObject.create]
  | recvReturns m r =>
    obtain rfl : m = n := hl
    simp only [sysStep, ho, ServerObject.create]
  | receive m env =>
    obtain rfl : m = n := hl
    simp only [sysStep, Sys.receiveStep, ho, ServerObject.create]

theorem Fresh.lt_created (h : Fresh s) {l : SysStep} (hs : sysStep s l = some s')
    (hl : OfConnection n l) (hg : l ≠ .gui) (hh : ∀ d, l ≠ .hook d) : n < s.created := by
  by_contra hn
  rw [h.no_step (Nat.not_lt.mp hn) hl hg hh] at hs
  exact absurd hs (by simp)

theorem fresh_gui (h : Fresh s) (hs : sysStep s .gui = some s') : Fresh s' := by
  obtain ⟨state, current, objects, created, onConnected, onRecv, gui, session⟩ := s
  cases gui with
  | nil => exact absurd hs (by simp [sysStep])
  | cons step gui =>
    obtain rfl := Option.some.inj hs
    have hset : ∀ (n : Nat) (o : ServerObject), current = some n → ∀ m, created ≤ m →
        Function.update objects n o m = ServerObject.create := by
      intro n o hn m hm
      have hmn : m ≠ n := fun e => absurd hm (e ▸ Nat.not_le.mpr (h.current n hn))
      rw [Function.update_of_ne hmn]
      exact h.objects m hm
    cases step with
    | create =>
      refine ⟨fun m hm => ?_, fun m hm => ?_⟩
      · have hmn : m ≠ created := fun e => absurd hm (e ▸ Nat.not_succ_le_self created)
        refine (Sys.setObject_objects_ne _ _ hmn).trans (h.objects m ?_)
        exact Nat.le_of_succ_le hm
      · obtain rfl : created = m := Option.some.inj hm
        exact Nat.lt_succ_self created
    | close =>
      cases current with
      | none => exact ⟨h.objects, h.current⟩
      | some n => exact ⟨hset n _ rfl, h.current⟩
    | start =>
      cases current with
      | none => exact ⟨h.objects, h.current⟩
      | some n => exact ⟨hset n _ rfl, h.current⟩
    | clear => exact ⟨h.objects, fun n hn => absurd hn (by simp [Sys.guiStep])⟩
    | destroy => exact ⟨h.objects, h.current⟩
    | setDisconnected => exact ⟨h.objects, h.current⟩
    | setAwaitClient => exact ⟨h.objects, h.current⟩
    | registerOnConnected => exact ⟨h.objects, h.current⟩
    | registerOnRecv => exact ⟨h.objects, h.current⟩
    | reset => exact ⟨h.objects, h.current⟩

/-- Only the GUI thread creates a server. -/
theorem created_eq_of_step {l : SysStep} (hs : sysStep s l = some s') (hg : l ≠ .gui) :
    s'.created = s.created := by
  cases l with
  | gui => exact absurd rfl hg
  | click => exact (click_eq_some hs).2 ▸ rfl
  | hook d =>
    simp only [sysStep] at hs
    split at hs
    · exact (Option.some.inj hs) ▸ rfl
    · exact absurd hs (by simp)
  | acceptReturns n success =>
    simp only [sysStep] at hs
    split at hs
    · exact (Option.some.inj hs) ▸ rfl
    · exact absurd hs (by simp)
  | accept n =>
    simp only [sysStep, Sys.acceptStep] at hs
    split at hs
    · exact (Option.some.inj hs) ▸ rfl
    · obtain rfl := Option.some.inj hs
      split <;> rfl
    · exact absurd hs (by simp)
  | recvReturns n r =>
    simp only [sysStep] at hs
    split at hs
    · exact (Option.some.inj hs) ▸ rfl
    · exact absurd hs (by simp)
  | receive n env =>
    simp only [sysStep, Sys.receiveStep] at hs
    split at hs
    · obtain rfl := Option.some.inj hs
      split <;> rfl
    · exact (Option.some.inj hs) ▸ rfl
    · exact (Option.some.inj hs) ▸ rfl
    · exact absurd hs (by simp)

theorem fresh_ownStep {l : SysStep} (h : Fresh s) (ho : OwnStep s l s' n)
    (hc : s'.created = s.created) (hn : n < s.created) : Fresh s' := by
  refine ⟨fun m hm => ?_, fun m hm => ?_⟩
  · rw [hc] at hm
    have hmn : m ≠ n := fun e => absurd hm (e ▸ Nat.not_le.mpr hn)
    rw [ho.others m hmn]
    exact h.objects m hm
  · rw [ho.current] at hm
    rw [hc]
    exact h.current m hm

theorem fresh_step (h : Fresh s) (l : SysStep) (hs : sysStep s l = some s') : Fresh s' := by
  cases l with
  | gui => exact fresh_gui h hs
  | click =>
    obtain ⟨-, rfl⟩ := click_eq_some hs
    exact ⟨h.objects, h.current⟩
  | hook d =>
    simp only [sysStep] at hs
    split at hs
    · obtain rfl := Option.some.inj hs
      exact ⟨h.objects, h.current⟩
    · exact absurd hs (by simp)
  | acceptReturns n success =>
    exact fresh_ownStep h (ownStep_acceptReturns n success hs) (created_eq_of_step hs (by simp))
      (h.lt_created hs rfl (by simp) (by simp))
  | accept n =>
    exact fresh_ownStep h (ownStep_accept n hs) (created_eq_of_step hs (by simp))
      (h.lt_created hs rfl (by simp) (by simp))
  | recvReturns n r =>
    exact fresh_ownStep h (ownStep_recvReturns n r hs) (created_eq_of_step hs (by simp))
      (h.lt_created hs rfl (by simp) (by simp))
  | receive n env =>
    exact fresh_ownStep h (ownStep_receive n env hs) (created_eq_of_step hs (by simp))
      (h.lt_created hs rfl (by simp) (by simp))

end

/-! ## Two connections -/

/-- The process with `session`, about to carry out a click that starts a connection. -/
def Sys.connecting (s : Sys) (session : Session) : Sys :=
  { s.withSession session with gui := s.startUp ++ [.reset] }

/-- The process with `session`, right after it created the server of the connection. -/
def Sys.opened (s : Sys) (session : Session) : Sys :=
  { s.guiStep .create with
    session := { session with sent := [] }
    gui := [.start, .setAwaitClient, .registerOnConnected, .registerOnRecv, .reset] }

section
variable {s : Sys}

theorem connecting_gui (hcur : s.current = none) (session : Session) :
    (s.connecting session).gui =
      [.create, .start, .setAwaitClient, .registerOnConnected, .registerOnRecv, .reset] := by
  show s.startUp ++ [.reset] = _
  unfold Sys.startUp
  rw [hcur]
  rfl

theorem sysStep_create (hcur : s.current = none) (session : Session) :
    sysStep (s.connecting session) .gui = some (s.opened session) := by
  simp only [sysStep, connecting_gui hcur]
  rfl

/-- Nothing of the new connection happens before its server is created. -/
theorem eq_gui_of_first (hcur : s.current = none) (hf : Fresh s) (session : Session) {l : SysStep}
    (hl : OfConnection s.created l) {s' : Sys} (hs : sysStep (s.connecting session) l = some s') :
    l = .gui := by
  by_contra hg
  by_cases hh : ∃ d, l = .hook d
  · obtain ⟨d, rfl⟩ := hh
    simp only [sysStep, connecting_gui hcur] at hs
    exact absurd hs (by simp)
  · have hf' : Fresh (s.connecting session) := ⟨hf.objects, hf.current⟩
    rw [hf'.no_step (Nat.le_refl _) hl hg fun d hd => hh ⟨d, hd⟩] at hs
    exact absurd hs (by simp)

theorem sysStep_click_disconnected (hgui : s.gui = []) (hst : s.state = .disconnected)
    (wm : WindowManager) : sysStep (s.withWindowManager wm) .click =
      some (s.connecting { s.session with wm := wm }) := by
  have hbutton : (s.withWindowManager wm).connectButton = s.startUp ++ [.reset] := by
    unfold Sys.connectButton
    rw [show (s.withWindowManager wm).state = .disconnected from hst]
    rfl
  simp only [sysStep]
  rw [show (s.withWindowManager wm).gui = [] from hgui, hbutton]
  rfl

end

/-- **What carries over.**  Two connections that differ in the window manager left to
them end with the same window manager, and have sent the same exactly if no list
request served before the reset finds an icon left in one of the two caches only. -/
theorem same_connection_iff (ls₀ ls : List SysStep) (wm₁ wm₂ : WindowManager) (s s₁ : Sys)
    (hs : run sysStep Sys.init ls₀ = some s) (hgui : s.gui = []) (hst : s.state = .disconnected)
    (hls : ∀ l ∈ ls, OfConnection s.created l)
    (hr : run sysStep (s.withWindowManager wm₁) (.click :: ls) = some s₁) (hend : s₁.gui = []) :
    ∃ s₂, run sysStep (s.withWindowManager wm₂) (.click :: ls) = some s₂ ∧
      s₁.session.wm = s₂.session.wm ∧
      (s₁.session = s₂.session ↔
        Guarded sysStep (EarlySame wm₁ wm₂) (s.withWindowManager wm₁) (.click :: ls)) := by
  have hinv : SysInv s := run_of_invariant (fun s l s' h hs => sysInv_step h l hs) sysInv_init hs
  have hfresh : Fresh s := run_of_invariant (fun s l s' h hs => fresh_step h l hs) fresh_init hs
  have hcur : s.current = none := by
    have hg := hinv.gui
    rw [hst, hgui] at hg
    exact hg.current_eq_none
  have hclick := sysStep_click_disconnected hgui hst
  obtain ⟨c, hc, hrest⟩ := Option.bind_eq_some_iff.mp hr
  obtain rfl := Option.some.inj ((hclick wm₁).symm.trans hc)
  cases ls with
  | nil =>
    obtain rfl := Option.some.inj hrest
    exact absurd hend (List.append_ne_nil_of_right_ne_nil _ (List.cons_ne_nil _ _))
  | cons l ls =>
    rw [List.forall_mem_cons] at hls
    obtain ⟨c', hc', hrest'⟩ := Option.bind_eq_some_iff.mp hrest
    obtain rfl := eq_gui_of_first hcur hfresh _ hls.1 hc'
    obtain rfl := Option.some.inj ((sysStep_create hcur _).symm.trans hc')
    have hpair : EarlyPair wm₁ wm₂ ∅ (s.opened { s.session with wm := wm₁ }).session ⟨wm₂, []⟩ :=
      ⟨early_init wm₁, early_init wm₂, fun _ => rfl⟩
    obtain ⟨x₁, hr₁, hwm, hiff⟩ := early_run ls hpair ⟨List.cons_ne_nil _ _, List.suffix_refl _⟩
      (fun hm => hls.2 _ hm) hrest' hend
    refine ⟨s₁.withSession x₁, ?_, hwm, ?_⟩
    · show (sysStep (s.withWindowManager wm₂) .click).bind (run sysStep · (.gui :: ls)) = _
      rw [hclick]
      show (sysStep (s.connecting _) .gui).bind (run sysStep · ls) = _
      rw [sysStep_create hcur]
      exact hr₁
    · rw [guarded_cons_iff hc, guarded_cons_iff hc', and_iff_right (earlySame_of_none rfl),
        and_iff_right (earlySame_of_none rfl)]
      have hnone : SameCached wm₁ wm₂ ∅ := fun i hi => absurd hi (Set.notMem_empty i)
      exact hiff.trans (and_iff_right hnone)

/-- A desktop with one window and its icon. -/
def oneListedWindow : Env :=
  { (default : Env) with
    enumWindows := [Handle.ofInt 7], isWindowVisible := fun _ => true, loadIcon := Handle.ofInt 9 }

/-- A client that connects at once and asks for the task list before the reset. -/
def askedEarly : List SysStep :=
  [.gui, .gui, .gui, .acceptReturns 0 true, .accept 0, .gui, .accept 0, .gui, .receive 0 default,
    .receive 0 default, .recvReturns 0 (.data Request.activeTaskList.chunk), .receive 0 oneListedWindow, .gui]

/-- What an earlier connection leaves that listed the window. -/
def leftListed : WindowManager := (handle Session.init (.list oneListedWindow)).wm

theorem same_connection_early :
    ∃ s₁, run sysStep (Sys.init.withWindowManager reset) (.click :: askedEarly) = some s₁ ∧
      s₁.gui = [] ∧
      ∃ s₂, run sysStep (Sys.init.withWindowManager leftListed) (.click :: askedEarly) = some s₂ ∧
        s₁.session.wm = s₂.session.wm ∧
        (s₁.session = s₂.session ↔ Guarded sysStep (EarlySame reset leftListed)
          (Sys.init.withWindowManager reset) (.click :: askedEarly)) :=
  ⟨_, rfl, rfl, same_connection_iff [] askedEarly reset leftListed Sys.init _ rfl rfl rfl
    (by simp [askedEarly, OfConnection, Sys.init]) rfl rfl⟩

/-- The second client to connect is listed the window, but not sent its icon. -/
theorem early_icon_missing :
    ∃ s₁ s₂, run sysStep (Sys.init.withWindowManager reset) (.click :: askedEarly) = some s₁ ∧
      run sysStep (Sys.init.withWindowManager leftListed) (.click :: askedEarly) = some s₂ ∧
      s₁.gui = [] ∧ s₂.gui = [] ∧ iconsSent s₁.session.sent = [Handle.ofInt 9] ∧
      iconsSent s₂.session.sent = [] ∧ s₁.session ≠ s₂.session := by
  refine ⟨_, _, rfl, rfl, rfl, rfl, by decide, by decide, fun h => ?_⟩
  have hicons := congrArg (fun x : Session => (iconsSent x.sent).length) h
  exact absurd hicons (by decide)

end RemoteTaskbar
