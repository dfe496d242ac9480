import RemoteTaskbar.Lib.CheckThenAct
import RemoteTaskbar.System.Icons
import RemoteTaskbar.System.Snapshot

/-!
# The icon cache between two threads

`IconThreads` are the two threads of `Threads` in smaller steps: the check of the
cache, the icon frame and the record in the cache are three, and the loop of
`refreshWindowTasksList` goes window by window.  C++ gives no meaning to a loop whose
map changes under it; here it goes on with any windows of the map.

Towards the cache each thread checks, acts and records (`IconThreads.cache`), so
an icon goes out at most twice, and once in the runs that send it alone
(`SendsAlone`).  As long as the loop skips no window (`SkipsNone`), a frame names an
icon not yet sent only if a list goes out with the window that the main thread has
just put in the map (`IconInTime`).
-/

namespace RemoteTaskbar

open Trans

/-! ## The two threads -/

/-- Where a thread is in
`if(!iconExistsInClientCache(hIcon)) { sendIconToClient(hIcon); addIconToClientCache(hIcon); }`. -/
inductive IconPc where
  | check
  | send
  | record
deriving DecidableEq

/-- The next of its steps, and where it leaves the thread. -/
def iconStep (env : Env) (hIcon : HICON) (s : Session) : IconPc → Session × Option IconPc
  | .check => (s, if !iconExistsInClientCache s.wm hIcon then some .send else none)
  | .send => (sendIconToClient env hIcon s, some .record)
  | .record => ({ s with wm := addIconToClientCache s.wm hIcon }, none)

/-- Where the receive thread is in a list request. -/
inductive ListPc where
  | idle
  | cleared (env : Env)
  | enumerated (env : Env)
  /-- at the head of the loop, with the windows to come -/
  | looping (env : Env) (rest : List HWND)
  | checking (env : Env) (rest : List HWND) (hIcon : HICON) (pc : IconPc)
  | refreshed (env : Env)
  | serialised (tasks : List TaskRecord)

/-- Where the main thread is in a window event. -/
inductive EventPc where
  | idle
  | checking (env : Env) (hwnd : HWND) (hIcon : HICON) (pc : IconPc)
  | checked (env : Env) (hwnd : HWND) (hIcon : HICON)
  | erased (hwnd : HWND)
  | found (env : Env) (hwnd : HWND)

structure IconThreads where
  session : Session
  list : ListPc
  event : EventPc

/-- The windows the loop has not come to. -/
def ListPc.rest : ListPc → List HWND
  | .looping _ rest => rest
  | .checking _ rest _ _ => rest
  | _ => []

/-- The loop, if it is under way, goes on with other windows. -/
def ListPc.goOn (rest : List HWND) : ListPc → ListPc
  | .looping env _ => .looping env rest
  | .checking env _ hIcon pc => .checking env rest hIcon pc
  | list => list

def listStep (t : IconThreads) : Option IconThreads :=
  match t.list with
  | .idle => none
  | .cleared env => some { t with session := enumTasks env t.session, list := .enumerated env }
  | .enumerated env => some { t with list := .looping env (env.order.visit t.session.keys) }
  | .looping env [] => some { t with list := .refreshed env }
  | .looping env (hwnd :: rest) =>
    let hIcon := getHICON env hwnd
    let wm := { t.session.wm with activeWindowTasks := t.session.wm.activeWindowTasks.insert hwnd hIcon }
    some { t with session := { t.session with wm := wm }, list := .checking env rest hIcon .check }
  | .checking env rest hIcon pc =>
    let (session, pc') := iconStep env hIcon t.session pc
    some { t with session := session, list := pc'.elim (.looping env rest) (.checking env rest hIcon) }
  | .refreshed env => some { t with list := .serialised (taskRecords env t.session) }
  | .serialised tasks => some { t with session := t.session.sendMessage (.activeTaskList tasks), list := .idle }

def eventStep (t : IconThreads) : Option IconThreads :=
  match t.event with
  | .idle => none
  | .checking env hwnd hIcon pc =>
    let (session, pc') := iconStep env hIcon t.session pc
    some { t with
      session := session
      event := pc'.elim (.checked env hwnd hIcon) (.checking env hwnd hIcon) }
  | .checked env hwnd hIcon =>
    some { t with session := sendAddTask env hwnd hIcon t.session, event := .idle }
  | .erased hwnd => some { t with session := t.session.sendMessage (.removeTask hwnd), event := .idle }
  | .found env hwnd =>
    let title := getWindowTitle (env.windowText hwnd)
    some { t with session := t.session.sendMessage (.updateTask hwnd title), event := .idle }

/-- A step of one of the threads.  If it changes the map under the loop, the loop goes on with
those of `rest` that are in the map. -/
structure IconThreadStep where
  step : ThreadStep
  rest : List HWND

def iconThreadStep (t : IconThreads) (l : IconThreadStep) : Option IconThreads :=
  match l.step with
  | .request env =>
    match t.list with
    | .idle => some { t with session := clearTasks t.session, list := .cleared env }
    | _ => none
  | .recv => listStep t
  | .create env hwnd =>
    match t.event with
    | .idle =>
      if hwnd ∈ t.session.wm.activeWindowTasks then some t
      else
        let hIcon := getHICON env hwnd
        let session := insertTask hwnd hIcon t.session
        let rest := l.rest.filter (· ∈ session.wm.activeWindowTasks)
        some ⟨session, t.list.goOn rest, .checking env hwnd hIcon .check⟩
    | _ => none
  | .destroy hwnd =>
    match t.event with
    | .idle =>
      if hwnd ∈ t.session.wm.activeWindowTasks then
        let session := eraseTask hwnd t.session
        let rest := l.rest.filter (· ∈ session.wm.activeWindowTasks)
        some ⟨session, t.list.goOn rest, .erased hwnd⟩
      else some t
    | _ => none
  | .rename env hwnd =>
    match t.event with
    | .idle => if hwnd ∈ t.session.wm.activeWindowTasks then some { t with event := .found env hwnd } else some t
    | _ => none
  | .main => eventStep t

def IconThreads.init : IconThreads := ⟨Session.init, .idle, .idle⟩

/-- A step that finds no loop under way. -/
def ThreadStep.small (l : ThreadStep) : IconThreadStep := ⟨l, []⟩

/-! ## The cache -/

inductive ServerThread where
  | recv
  | main
deriving DecidableEq

instance : Fintype ServerThread where
  elems := {.recv, .main}
  complete := by
    intro thread
    cases thread <;> decide

/-- Where a thread is towards the cache. -/
def IconPc.cachePc (hIcon : HICON) : IconPc → CheckThenAct.Pc HICON
  | .check => .idle
  | .send => .acting hIcon
  | .record => .recording hIcon

def ListPc.cachePc : ListPc → CheckThenAct.Pc HICON
  | .checking _ _ hIcon pc => pc.cachePc hIcon
  | _ => .idle

def EventPc.cachePc : EventPc → CheckThenAct.Pc HICON
  | .checking _ _ hIcon pc => pc.cachePc hIcon
  | _ => .idle

theorem ListPc.cachePc_goOn (rest : List HWND) (list : ListPc) : (list.goOn rest).cachePc = list.cachePc := by
  cases list <;> rfl

theorem ListPc.cachePc_elim (env : Env) (rest : List HWND) (hIcon : HICON) (pc : Option IconPc) :
    (pc.elim (.looping env rest) (.checking env rest hIcon) : ListPc).cachePc =
      pc.elim .idle (·.cachePc hIcon) := by
  cases pc <;> rfl

theorem EventPc.cachePc_elim (env : Env) (hwnd : HWND) (hIcon : HICON) (pc : Option IconPc) :
    (pc.elim (.checked env hwnd hIcon) (.checking env hwnd hIcon) : EventPc).cachePc =
      pc.elim .idle (·.cachePc hIcon) := by
  cases pc <;> rfl

def IconThreads.pcs (t : IconThreads) : ServerThread → CheckThenAct.Pc HICON
  | .recv => t.list.cachePc
  | .main => t.event.cachePc

/-- The icons cached, those sent, and the two threads as far as they use the cache. -/
def cacheState (s : Session) (pcs : ServerThread → CheckThenAct.Pc HICON) :
    CheckThenAct.State ServerThread HICON :=
  ⟨{i | i ∈ s.wm.clientCachedIcons}, iconsSent s.sent, pcs⟩

def IconThreads.cache (t : IconThreads) : CheckThenAct.State ServerThread HICON :=
  cacheState t.session t.pcs

/-- The icon whose frame a step sends. -/
def IconThreads.sending (t : IconThreads) (l : IconThreadStep) : Option HICON :=
  match l.step with
  | .recv =>
    match t.list with
    | .checking _ _ hIcon .send => some hIcon
    | _ => none
  | .main =>
    match t.event with
    | .checking _ _ hIcon .send => some hIcon
    | _ => none
  | _ => none

theorem pcs_list (s s' : Session) (list list' : ListPc) (event : EventPc) :
    (IconThreads.mk s' list' event).pcs =
      Function.update (IconThreads.mk s list event).pcs .recv list'.cachePc := by
  funext thread
  cases thread <;> rfl

theorem pcs_event (s s' : Session) (list : ListPc) (event event' : EventPc) :
    (IconThreads.mk s' list event').pcs =
      Function.update (IconThreads.mk s list event).pcs .main event'.cachePc := by
  funext thread
  cases thread <;> rfl

section
variable {s s' : Session} {pcs : ServerThread → CheckThenAct.Pc HICON}

theorem cacheState_congr (hs : iconsSent s'.sent = iconsSent s.sent)
    (hc : s'.wm.clientCachedIcons = s.wm.clientCachedIcons) : cacheState s' pcs = cacheState s pcs := by
  unfold cacheState
  rw [hs, hc]

/-- What a step of a check does. -/
theorem iconStep_cases (env : Env) (hIcon : HICON) (s : Session) (pc : IconPc) :
    (pc = .check ∧ hIcon ∈ s.wm.clientCachedIcons ∧ iconStep env hIcon s pc = (s, none)) ∨
    (pc = .check ∧ hIcon ∉ s.wm.clientCachedIcons ∧ iconStep env hIcon s pc = (s, some .send)) ∨
    (pc = .send ∧ iconStep env hIcon s pc =
      (s.sendMessage (.sendIcon hIcon (env.png hIcon)), some .record)) ∨
    (pc = .record ∧ iconStep env hIcon s pc = (⟨addIconToClientCache s.wm hIcon, s.sent⟩, none)) := by
  cases pc with
  | check =>
    by_cases h : iconExistsInClientCache s.wm hIcon = true
    · exact Or.inl ⟨rfl, (iconExistsInClientCache_eq s.wm hIcon).mp h, by simp [iconStep, h]⟩
    · refine Or.inr (Or.inl ⟨rfl, fun hmem => h ((iconExistsInClientCache_eq s.wm hIcon).mpr hmem), ?_⟩)
      simp [iconStep, h]
  | send => exact Or.inr (Or.inr (Or.inl ⟨rfl, rfl⟩))
  | record => exact Or.inr (Or.inr (Or.inr ⟨rfl, rfl⟩))

/-- A thread that checks for an icon checks, acts and records. -/
theorem inv_iconStep (env : Env) {hIcon : HICON} {pc : IconPc} {a : ServerThread}
    (hpc : pcs a = pc.cachePc hIcon) (h : CheckThenAct.Inv (cacheState s pcs)) :
    CheckThenAct.Inv (cacheState (iconStep env hIcon s pc).1
      (Function.update pcs a ((iconStep env hIcon s pc).2.elim .idle (·.cachePc hIcon)))) := by
  rcases iconStep_cases env hIcon s pc with ⟨rfl, -, he⟩ | ⟨rfl, hnew, he⟩ | ⟨rfl, he⟩ | ⟨rfl, he⟩
  · rw [he]
    have hidle : Function.update pcs a .idle = pcs := Function.update_eq_self_iff.mpr hpc.symm
    exact hidle.symm ▸ h
  · rw [he]
    exact h.step (.pass hpc hnew)
  · rw [he]
    have hstep := h.step (.act hpc)
    have hacts : iconsSent (s.sent ++ [.sendIcon hIcon (env.png hIcon)]) = iconsSent s.sent ++ [hIcon] :=
      iconsSent_append _ _
    unfold cacheState
    rw [Session.sendMessage_sent, hacts]
    exact hstep
  · rw [he]
    have hdone : {i | i ∈ (addIconToClientCache s.wm hIcon).clientCachedIcons} =
        insert hIcon {i | i ∈ s.wm.clientCachedIcons} :=
      Set.ext fun i => mem_addIconToClientCache hIcon s.wm i
    unfold cacheState
    rw [hdone]
    exact h.step (.record hpc)

end

theorem iconsSent_sendMessage (s : Session) {p : Packet} (hn : p.iconSent = none) :
    iconsSent (s.sendMessage p).sent = iconsSent s.sent := by
  rw [Session.sendMessage_sent, iconsSent_append, hn]
  exact List.append_nil _

/-- A step that is no part of a check leaves the cache and its users alone. -/
def IconThreads.SameCache (t t' : IconThreads) : Prop :=
  iconsSent t'.session.sent = iconsSent t.session.sent ∧
    t'.session.wm.clientCachedIcons = t.session.wm.clientCachedIcons ∧ t'.pcs = t.pcs

theorem sameCache {s s' : Session} {list list' : ListPc} {event event' : EventPc}
    (hs : iconsSent s'.sent = iconsSent s.sent) (hc : s'.wm.clientCachedIcons = s.wm.clientCachedIcons)
    (hl : list'.cachePc = list.cachePc) (he : event'.cachePc = event.cachePc) :
    (IconThreads.mk s list event).SameCache (IconThreads.mk s' list' event') := by
  refine ⟨hs, hc, ?_⟩
  funext thread
  cases thread with
  | recv => exact hl
  | main => exact he

/-- A step belongs to the check of one thread, or it leaves the cache alone. -/
theorem iconThreadStep_cases {t t' : IconThreads} {l : IconThreadStep} (hs : iconThreadStep t l = some t') :
    (t.SameCache t' ∧ t.sending l = none) ∨
    (∃ env rest hIcon pc, l.step = .recv ∧ t.list = .checking env rest hIcon pc ∧
      t' = ⟨(iconStep env hIcon t.session pc).1,
        (iconStep env hIcon t.session pc).2.elim (.looping env rest) (.checking env rest hIcon), t.event⟩) ∨
    (∃ env hwnd hIcon pc, l.step = .main ∧ t.event = .checking env hwnd hIcon pc ∧
      t' = ⟨(iconStep env hIcon t.session pc).1, t.list,
        (iconStep env hIcon t.session pc).2.elim (.checked env hwnd hIcon) (.checking env hwnd hIcon)⟩) := by
  obtain ⟨s, list, event⟩ := t
  obtain ⟨l, rest'⟩ := l
  cases l with
  | request env =>
    cases list with
    | idle =>
      obtain rfl := Option.some.inj hs
      exact Or.inl ⟨sameCache rfl rfl rfl rfl, rfl⟩
    | _ => cases hs
  | recv =>
    cases list with
    | idle => cases hs
    | cleared env =>
      obtain rfl := Option.some.inj hs
      have henum := enumTasks_sent env s
      exact Or.inl ⟨sameCache (congrArg iconsSent henum.1) henum.2 rfl rfl, rfl⟩
    | enumerated env =>
      obtain rfl := Option.some.inj hs
      exact Or.inl ⟨sameCache rfl rfl rfl rfl, rfl⟩
    | looping env rest =>
      cases rest with
      | nil =>
        obtain rfl := Option.some.inj hs
        exact Or.inl ⟨sameCache rfl rfl rfl rfl, rfl⟩
      | cons hwnd rest =>
        obtain rfl := Option.some.inj hs
        exact Or.inl ⟨sameCache rfl rfl rfl rfl, rfl⟩
    | checking env rest hIcon pc =>
      obtain rfl := Option.some.inj hs
      exact Or.inr (Or.inl ⟨env, rest, hIcon, pc, rfl, rfl, rfl⟩)
    | refreshed env =>
      obtain rfl := Option.some.inj hs
      exact Or.inl ⟨sameCache rfl rfl rfl rfl, rfl⟩
    | serialised tasks =>
      obtain rfl := Option.some.inj hs
      exact Or.inl ⟨sameCache (iconsSent_sendMessage s rfl) rfl rfl rfl, rfl⟩
  | create env hwnd =>
    cases event with
    | idle =>
      simp only [iconThreadStep] at hs
      split at hs
      · obtain rfl := Option.some.inj hs
        exact Or.inl ⟨sameCache rfl rfl rfl rfl, rfl⟩
      · obtain rfl := Option.some.inj hs
        exact Or.inl ⟨sameCache rfl rfl (ListPc.cachePc_goOn _ list) rfl, rfl⟩
    | _ => cases hs
  | destroy hwnd =>
    cases event with
    | idle =>
      simp only [iconThreadStep] at hs
      split at hs
      · obtain rfl := Option.some.inj hs
        exact Or.inl ⟨sameCache rfl rfl (ListPc.cachePc_goOn _ list) rfl, rfl⟩
      · obtain rfl := Option.some.inj hs
        exact Or.inl ⟨sameCache rfl rfl rfl rfl, rfl⟩
    | _ => cases hs
  | rename env hwnd =>
    cases event with
    | idle =>
      simp only [iconThreadStep] at hs
      split at hs
      · obtain rfl := Option.some.inj hs
        exact Or.inl ⟨sameCache rfl rfl rfl rfl, rfl⟩
      · obtain rfl := Option.some.inj hs
        exact Or.inl ⟨sameCache rfl rfl rfl rfl, rfl⟩
    | _ => cases hs
  | main =>
    cases event with
    | idle => cases hs
    | checking env hwnd hIcon pc =>
      obtain rfl := Option.some.inj hs
      exact Or.inr (Or.inr ⟨env, hwnd, hIcon, pc, rfl, rfl, rfl⟩)
    | checked env hwnd hIcon =>
      obtain rfl := Option.some.inj hs
      exact Or.inl ⟨sameCache (iconsSent_sendMessage s rfl) rfl rfl rfl, rfl⟩
    | erased hwnd =>
      obtain rfl := Option.some.inj hs
      exact Or.inl ⟨sameCache (iconsSent_sendMessage s rfl) rfl rfl rfl, rfl⟩
    | found env hwnd =>
      obtain rfl := Option.some.inj hs
      exact Or.inl ⟨sameCache (iconsSent_sendMessage s rfl) rfl rfl rfl, rfl⟩

theorem inv_cache_step {t t' : IconThreads} {l : IconThreadStep} (h : CheckThenAct.Inv t.cache)
    (hs : iconThreadStep t l = some t') : CheckThenAct.Inv t'.cache := by
  rcases iconThreadStep_cases hs with ⟨⟨hsent, hcache, hpcs⟩, -⟩ | ⟨env, rest, hIcon, pc, -, hpc, rfl⟩ |
    ⟨env, hwnd, hIcon, pc, -, hpc, rfl⟩
  · unfold IconThreads.cache
    rw [hpcs, cacheState_congr hsent hcache]
    exact h
  · have hnext := inv_iconStep env (a := .recv) (congrArg ListPc.cachePc hpc) h
    unfold IconThreads.cache
    rw [pcs_list t.session _ t.list, ListPc.cachePc_elim]
    exact hnext
  · have hnext := inv_iconStep env (a := .main) (congrArg EventPc.cachePc hpc) h
    unfold IconThreads.cache
    rw [pcs_event t.session _ t.list t.event, EventPc.cachePc_elim]
    exact hnext

theorem iconsSent_iconStep (env : Env) (hIcon : HICON) (s : Session) (pc : IconPc) :
    iconsSent (iconStep env hIcon s pc).1.sent = iconsSent s.sent ++ (if pc = .send then [hIcon] else []) := by
  cases pc with
  | check => exact (List.append_nil _).symm
  | send => exact iconsSent_append _ _
  | record => exact (List.append_nil _).symm

/-- The icons sent grow by the one the step sends. -/
theorem iconsSent_step {t t' : IconThreads} {l : IconThreadStep} (hs : iconThreadStep t l = some t') :
    iconsSent t'.session.sent = iconsSent t.session.sent ++ (t.sending l).toList := by
  obtain ⟨s, list, event⟩ := t
  obtain ⟨l, rest'⟩ := l
  rcases iconThreadStep_cases hs with ⟨⟨hsent, -, -⟩, hnone⟩ | ⟨env, rest, hIcon, pc, rfl, rfl, rfl⟩ |
    ⟨env, hwnd, hIcon, pc, rfl, rfl, rfl⟩
  · rw [hsent, hnone]
    exact (List.append_nil _).symm
  · rw [iconsSent_iconStep]
    cases pc <;> rfl
  · rw [iconsSent_iconStep]
    cases pc <;> rfl

/-! ## How often an icon is sent -/

/-- An icon is sent only while it is not cached and the other thread, too, has not sent it. -/
def SendsAlone (t : IconThreads) (l : IconThreadStep) : Prop :=
  ∀ hIcon, t.sending l = some hIcon → CheckThenAct.Fresh t.cache hIcon

theorem inv_cache_init : CheckThenAct.Inv IconThreads.init.cache := by
  have hdone : ({i | i ∈ Session.init.wm.clientCachedIcons} : Set HICON) = ∅ :=
    Set.eq_empty_of_forall_notMem fun i => AList.notMem_empty i
  unfold IconThreads.cache cacheState
  rw [show IconThreads.init.session = Session.init from rfl, hdone]
  refine CheckThenAct.inv_start _ fun thread => ?_
  cases thread <;> rfl

theorem nodup_iconsSent_step {t t' : IconThreads} {l : IconThreadStep} (h : CheckThenAct.Inv t.cache)
    (hs : iconThreadStep t l = some t') :
    (iconsSent t'.session.sent).Nodup ↔ (iconsSent t.session.sent).Nodup ∧ SendsAlone t l := by
  rw [iconsSent_step hs]
  unfold SendsAlone
  cases hsend : t.sending l with
  | none => simp
  | some hIcon =>
    have hfresh : CheckThenAct.Fresh t.cache hIcon ↔ hIcon ∉ iconsSent t.session.sent := h.fresh_iff hIcon
    rw [Option.toList_some, List.nodup_append_comm, List.singleton_append, List.nodup_cons, and_comm]
    simp [hfresh]

/-- **At most twice.**  In every interleaving of the two threads, whatever windows of the map the loop
goes on with when it changes, an icon is sent at most twice, and no icon is sent twice if and
only if none is sent while the other thread has sent it too since the cache was checked. -/
theorem icon_frames (ls : List IconThreadStep) :
    Always iconThreadStep (fun t => ∀ hIcon, (iconsSent t.session.sent).count hIcon ≤ 2)
      IconThreads.init ls ∧
    (Always iconThreadStep (fun t => (iconsSent t.session.sent).Nodup) IconThreads.init ls ↔
      Guarded iconThreadStep SendsAlone IconThreads.init ls) := by
  constructor
  · have htwice : ∀ t : IconThreads, CheckThenAct.Inv t.cache →
        ∀ hIcon, (iconsSent t.session.sent).count hIcon ≤ 2 := by
      intro t h hIcon
      have hcard : Nat.card ServerThread = 2 := by
        rw [Nat.card_eq_fintype_card]
        rfl
      exact hcard ▸ h.count hIcon
    exact Guarded.always (fun _ _ _ h _ hs => inv_cache_step h hs) htwice ls inv_cache_init
      (guarded_true ls _)
  · have hstep : ∀ t l t', CheckThenAct.Inv t.cache ∧ (iconsSent t.session.sent).Nodup → SendsAlone t l →
        iconThreadStep t l = some t' → CheckThenAct.Inv t'.cache ∧ (iconsSent t'.session.sent).Nodup :=
      fun t l t' h hg hs => ⟨inv_cache_step h.1 hs, (nodup_iconsSent_step h.1 hs).mpr ⟨h.2, hg⟩⟩
    refine always_iff_guarded hstep (fun _ h => h.2) ?_ ls ⟨inv_cache_init, List.nodup_nil⟩
    exact fun t l t' h hg hs hnodup => hg ((nodup_iconsSent_step h.1 hs).mp hnodup).2

/-- The window is in the map when the list is requested; both threads find its icon missing. -/
example : ∃ t, run iconThreadStep IconThreads.init
    ([.create default (Handle.ofInt 7), .request (oneWindow (Handle.ofInt 7)), .recv, .recv, .recv,
      .recv, .main, .recv, .main].map ThreadStep.small) = some t ∧ iconsSent t.session.sent = [NULL, NULL] :=
  ⟨_, rfl, rfl⟩

/-! ## Icons before their use -/

/-- Every frame comes after those of the icons it names. -/
def IconsBefore (sent : List Packet) : Prop :=
  ∀ pre p post, sent = pre ++ p :: post → ∀ h ∈ p.iconsUsed, h ∈ iconsSent pre

/-- The window the main thread has put in the map, with the icon it has not sent so far. -/
def EventPc.unchecked : EventPc → Option (HWND × HICON)
  | .checking _ hwnd hIcon .check => some (hwnd, hIcon)
  | .checking _ hwnd hIcon .send => some (hwnd, hIcon)
  | _ => none

/-- No list goes out with the window that the main thread has just put in the map, unless its
icon was sent. -/
def IconInTime (t : IconThreads) (l : IconThreadStep) : Prop :=
  match l.step with
  | .recv =>
    match t.list with
    | .serialised tasks => ∀ r ∈ tasks, t.event.unchecked = some (r.hwnd, r.hIcon) →
        r.hIcon ∈ iconsSent t.session.sent
    | _ => True
  | _ => True

/-- A change of the map makes the loop skip none of the map's windows it has not come to.  A table
that grows under the loop may. -/
def SkipsNone (t : IconThreads) (l : IconThreadStep) : Prop :=
  match l.step with
  | .create _ hwnd => hwnd ∉ t.session.wm.activeWindowTasks → ∀ k ∈ t.list.rest, k ∈ l.rest
  | .destroy hwnd => hwnd ∈ t.session.wm.activeWindowTasks → ∀ k ∈ t.list.rest, k ≠ hwnd → k ∈ l.rest
  | _ => True

/-- The icon that the main thread's next frame names was sent. -/
def EventPc.Checked (s : Session) : EventPc → Prop
  | .checked _ _ hIcon => hIcon ∈ iconsSent s.sent
  | _ => True

/-- The windows the receive thread is through with, and their icons. -/
def ListPc.Names (s : Session) : ListPc → HWND → HICON → Prop
  | .looping _ rest, k, v => k ∉ rest ∧ s.wm.activeWindowTasks.lookup k = some v
  | .checking _ rest hIcon pc, k, v =>
    (k ∉ rest ∧ s.wm.activeWindowTasks.lookup k = some v) ∧ (v = hIcon → pc = .record)
  | .refreshed _, k, v => s.wm.activeWindowTasks.lookup k = some v
  | .serialised tasks, k, v => ∃ r ∈ tasks, r.hwnd = k ∧ r.hIcon = v
  | _, _, _ => False

structure IconInv (t : IconThreads) : Prop where
  cache : CheckThenAct.Inv t.cache
  before : IconsBefore t.session.sent
  checked : t.event.Checked t.session
  named : ∀ k v, t.list.Names t.session k v →
    v ∈ iconsSent t.session.sent ∨ t.event.unchecked = some (k, v)

/-! ### The steps of a check -/

section
variable (env : Env) (hIcon : HICON) (s : Session) (pc : IconPc)

theorem iconStep_tasks : (iconStep env hIcon s pc).1.wm.activeWindowTasks = s.wm.activeWindowTasks := by
  cases pc <;> rfl

theorem iconsBefore_iconStep (h : IconsBefore s.sent) : IconsBefore (iconStep env hIcon s pc).1.sent := by
  cases pc with
  | check => exact h
  | send => exact before_append h fun i hi => absurd hi List.not_mem_nil
  | record => exact h

/-- Unless the frame comes next, the icon was sent. -/
theorem sent_of_iconStep (hcached : hIcon ∈ s.wm.clientCachedIcons → hIcon ∈ iconsSent s.sent)
    (hrecord : pc = .record → hIcon ∈ iconsSent s.sent) (h : (iconStep env hIcon s pc).2 ≠ some .send) :
    hIcon ∈ iconsSent (iconStep env hIcon s pc).1.sent := by
  rcases iconStep_cases env hIcon s pc with ⟨rfl, hmem, he⟩ | ⟨rfl, -, he⟩ | ⟨rfl, he⟩ | ⟨rfl, he⟩
  · rw [he]
    exact hcached hmem
  · rw [he] at h
    exact absurd rfl h
  · rw [he, Session.sendMessage_sent, iconsSent_append]
    exact List.mem_append_right _ (List.mem_singleton.mpr rfl)
  · rw [he]
    exact hrecord rfl

end

theorem names_congr {s s' : Session} (h : s'.wm.activeWindowTasks = s.wm.activeWindowTasks) (list : ListPc)
    (k : HWND) (v : HICON) : list.Names s' k v ↔ list.Names s k v := by
  cases list <;> simp only [ListPc.Names, h]

/-- Where the map has lost no window the loop is through with, it has named no other. -/
theorem ListPc.Names.of_goOn {s s' : Session} {list : ListPc} {rest' : List HWND} {k : HWND} {v : HICON}
    (hn : (list.goOn rest').Names s' k v)
    (hlook : s'.wm.activeWindowTasks.lookup k = some v → s.wm.activeWindowTasks.lookup k = some v)
    (hrest : s'.wm.activeWindowTasks.lookup k = some v → k ∉ rest' → k ∉ list.rest) : list.Names s k v := by
  cases list with
  | looping env rest => exact ⟨hrest hn.2 hn.1, hlook hn.2⟩
  | checking env rest hIcon pc => exact ⟨⟨hrest hn.1.2 hn.1.1, hlook hn.1.2⟩, hn.2⟩
  | refreshed env => exact hlook hn
  | serialised tasks => exact hn
  | _ => exact hn.elim

/-- The loop goes on with every window of the map that is offered. -/
theorem notMem_of_notMem_filter {s : Session} {rest : List HWND} {k : HWND} {v : HICON}
    (hlook : s.wm.activeWindowTasks.lookup k = some v)
    (hk : k ∉ rest.filter (· ∈ s.wm.activeWindowTasks)) : k ∉ rest := by
  intro hmem
  refine hk (List.mem_filter.mpr ⟨hmem, decide_eq_true ?_⟩)
  exact AList.lookup_isSome.mp (Option.isSome_of_mem hlook)

/-- A record of the list has the icon of its window in the map. -/
theorem lookup_taskRecords (env : Env) (s : Session) {r : TaskRecord} (hr : r ∈ taskRecords env s) :
    s.wm.activeWindowTasks.lookup r.hwnd = some r.hIcon := by
  obtain ⟨k, hk, rfl⟩ := List.mem_map.mp hr
  have hmem : k ∈ s.wm.activeWindowTasks := AList.mem_keys.mpr ((env.order.perm _).mem_iff.mp hk)
  obtain ⟨v, hv⟩ := Option.isSome_iff_exists.mp (AList.lookup_isSome.mpr hmem)
  show AList.lookup k s.wm.activeWindowTasks = some ((AList.lookup k s.wm.activeWindowTasks).getD NULL)
  rw [hv]
  rfl

/-! ### One step -/

section
variable {t t' : IconThreads} {l : IconThreadStep} (h : IconInv t)
include h

theorem IconInv.sent_of_cached {i : HICON} (hi : i ∈ t.session.wm.clientCachedIcons) :
    i ∈ iconsSent t.session.sent := (h.cache.mem_iff i).mpr (Or.inl hi)

theorem IconInv.sent_of_recording {i : HICON} (thread : ServerThread) (hpc : t.pcs thread = .recording i) :
    i ∈ iconsSent t.session.sent := (h.cache.mem_iff i).mpr (Or.inr ⟨thread, hpc⟩)

/-- The main thread moves, and what the receive thread has done stays done. -/
theorem iconInv_event (hs : iconThreadStep t l = some t') (hbefore : IconsBefore t'.session.sent) (hchecked : t'.event.Checked t'.session)
    (hunchecked : ∀ k v, t.event.unchecked = some (k, v) →
      v ∈ iconsSent t'.session.sent ∨ t'.event.unchecked = some (k, v))
    (hmap : ∀ k v, t'.list.Names t'.session k v →
      t.list.Names t.session k v ∨ t'.event.unchecked = some (k, v)) : IconInv t' := by
  refine ⟨inv_cache_step h.cache hs, hbefore, hchecked, fun k v hn => ?_⟩
  rcases hmap k v hn with hold | hnew
  · rcases h.named k v hold with hsent | hu
    · refine Or.inl ?_
      rw [iconsSent_step hs]
      exact List.mem_append_left _ hsent
    · exact hunchecked k v hu
  · exact Or.inr hnew

/-- The receive thread moves. -/
theorem iconInv_list (hs : iconThreadStep t l = some t') (hevent : t'.event = t.event)
    (hbefore : IconsBefore t'.session.sent)
    (hnamed : ∀ k v, t'.list.Names t'.session k v →
      v ∈ iconsSent t'.session.sent ∨ t.list.Names t.session k v) : IconInv t' := by
  have hmono : ∀ i ∈ iconsSent t.session.sent, i ∈ iconsSent t'.session.sent := by
    intro i hi
    rw [iconsSent_step hs]
    exact List.mem_append_left _ hi
  refine ⟨inv_cache_step h.cache hs, hbefore, ?_, fun k v hn => ?_⟩
  · have hchecked := h.checked
    rw [hevent]
    cases he : t.event with
    | checked env hwnd hIcon =>
      rw [he] at hchecked
      exact hmono hIcon hchecked
    | _ => trivial
  · rw [hevent]
    rcases hnamed k v hn with hsent | hold
    · exact Or.inl hsent
    · exact (h.named k v hold).imp_left (hmono v)

theorem iconInv_recv {rest' : List HWND} (hg : IconInTime t ⟨.recv, rest'⟩)
    (hs : iconThreadStep t ⟨.recv, rest'⟩ = some t') : IconInv t' := by
  obtain ⟨s, list, event⟩ := t
  cases list with
  | idle => cases hs
  | cleared env =>
    obtain rfl := Option.some.inj hs
    refine iconInv_list h hs rfl ?_ fun k v hn => hn.elim
    show IconsBefore (enumTasks env s).sent
    rw [(enumTasks_sent env s).1]
    exact h.before
  | enumerated env =>
    obtain rfl := Option.some.inj hs
    refine iconInv_list h hs rfl h.before ?_
    rintro k v ⟨hrest, hv⟩
    have hk : k ∈ s.keys := AList.mem_keys.mp (AList.lookup_isSome.mp (Option.isSome_of_mem hv))
    exact absurd ((env.order.perm s.keys).mem_iff.mpr hk) hrest
  | looping env rest =>
    cases rest with
    | nil =>
      obtain rfl := Option.some.inj hs
      exact iconInv_list h hs rfl h.before fun k v hn => Or.inr ⟨List.not_mem_nil, hn⟩
    | cons hwnd rest =>
      obtain rfl := Option.some.inj hs
      refine iconInv_list h hs rfl h.before ?_
      rintro k v ⟨⟨hk, hv⟩, hcheck⟩
      by_cases he : k = hwnd
      · subst he
        rw [AList.lookup_insert] at hv
        exact absurd (hcheck (Option.some.inj hv).symm) (by decide)
      · rw [AList.lookup_insert_ne he] at hv
        exact Or.inr ⟨fun hmem => (List.mem_cons.mp hmem).elim he hk, hv⟩
  | checking env rest hIcon pc =>
    obtain rfl : (⟨(iconStep env hIcon s pc).1,
        (iconStep env hIcon s pc).2.elim (.looping env rest) (.checking env rest hIcon), event⟩ : IconThreads) =
      t' := Option.some.inj hs
    refine iconInv_list h hs rfl (iconsBefore_iconStep env hIcon s pc h.before) fun k v hn => ?_
    have hsent := sent_of_iconStep env hIcon s pc (fun hi => h.sent_of_cached hi) fun hpc =>
      h.sent_of_recording .recv (hpc ▸ rfl)
    have hk : (k ∉ rest ∧ s.wm.activeWindowTasks.lookup k = some v) ∧
        (v = hIcon → (iconStep env hIcon s pc).2 ≠ some .send) := by
      rw [← iconStep_tasks env hIcon s pc]
      cases hpc : (iconStep env hIcon s pc).2 with
      | none =>
        rw [hpc] at hn
        exact ⟨hn, fun _ => nofun⟩
      | some pc' =>
        rw [hpc] at hn
        refine ⟨hn.1, fun hv => ?_⟩
        rw [hn.2 hv]
        nofun
    by_cases hv : v = hIcon
    · subst hv
      exact Or.inl (hsent (hk.2 rfl))
    · exact Or.inr ⟨hk.1, fun he => absurd he hv⟩
  | refreshed env =>
    obtain rfl := Option.some.inj hs
    refine iconInv_list h hs rfl h.before ?_
    rintro _ _ ⟨r, hr, rfl, rfl⟩
    exact Or.inr (lookup_taskRecords env s hr)
  | serialised tasks =>
    obtain rfl := Option.some.inj hs
    refine iconInv_list h hs rfl (before_append h.before fun i hi => ?_) fun k v hn => hn.elim
    obtain ⟨r, hr, rfl⟩ := List.mem_map.mp hi
    rcases h.named r.hwnd r.hIcon ⟨r, hr, rfl, rfl⟩ with hsent | hu
    · exact hsent
    · exact hg r hr hu

theorem iconInv_main {rest' : List HWND} (hs : iconThreadStep t ⟨.main, rest'⟩ = some t') : IconInv t' := by
  obtain ⟨s, list, event⟩ := t
  cases event with
  | idle => cases hs
  | checking env hwnd hIcon pc =>
    obtain rfl : (⟨(iconStep env hIcon s pc).1, list,
        (iconStep env hIcon s pc).2.elim (.checked env hwnd hIcon) (.checking env hwnd hIcon)⟩ : IconThreads) =
      t' := Option.some.inj hs
    have hsent := sent_of_iconStep env hIcon s pc (fun hi => h.sent_of_cached hi) fun hpc =>
      h.sent_of_recording .main (hpc ▸ rfl)
    refine iconInv_event h hs (iconsBefore_iconStep env hIcon s pc h.before) ?_ (fun k v hu => ?_)
      fun k v hn => Or.inl ((names_congr (iconStep_tasks env hIcon s pc) list k v).mp hn)
    · cases hpc : (iconStep env hIcon s pc).2 with
      | none => exact hsent (hpc ▸ nofun)
      | some pc' => trivial
    · have hkv : k = hwnd ∧ v = hIcon := by
        cases pc <;> cases hu <;> exact ⟨rfl, rfl⟩
      obtain ⟨rfl, rfl⟩ := hkv
      by_cases hsend : (iconStep env v s pc).2 = some .send
      · refine Or.inr ?_
        rw [hsend]
        rfl
      · exact Or.inl (hsent hsend)
  | checked env hwnd hIcon =>
    obtain rfl := Option.some.inj hs
    refine iconInv_event h hs (before_append h.before fun i hi => ?_) trivial (fun _ _ hu => nomatch hu)
      fun k v hn => Or.inl ((names_congr rfl list k v).mp hn)
    obtain rfl := List.mem_singleton.mp hi
    exact h.checked
  | erased hwnd =>
    obtain rfl := Option.some.inj hs
    exact iconInv_event h hs (before_append h.before fun _ hi => absurd hi List.not_mem_nil) trivial
      (fun _ _ hu => nomatch hu) fun k v hn => Or.inl ((names_congr rfl list k v).mp hn)
  | found env hwnd =>
    obtain rfl := Option.some.inj hs
    exact iconInv_event h hs (before_append h.before fun _ hi => absurd hi List.not_mem_nil) trivial
      (fun _ _ hu => nomatch hu) fun k v hn => Or.inl ((names_congr rfl list k v).mp hn)

theorem iconInv_create {env : Env} {hwnd : HWND} {rest' : List HWND}
    (hskip : SkipsNone t ⟨.create env hwnd, rest'⟩)
    (hs : iconThreadStep t ⟨.create env hwnd, rest'⟩ = some t') : IconInv t' := by
  obtain ⟨s, list, event⟩ := t
  cases event with
  | idle =>
    have hstep := hs
    simp only [iconThreadStep] at hs
    split at hs
    · exact Option.some.inj hs ▸ h
    · next hnew =>
      obtain rfl := Option.some.inj hs
      refine iconInv_event h hstep h.before trivial (fun _ _ hu => nomatch hu) fun k v hn => ?_
      have hins : (insertTask hwnd (getHICON env hwnd) s).wm.activeWindowTasks =
          s.wm.activeWindowTasks.insert hwnd (getHICON env hwnd) := if_neg hnew
      by_cases hkv : k = hwnd ∧ v = getHICON env hwnd
      · obtain ⟨rfl, rfl⟩ := hkv
        exact Or.inr rfl
      · refine Or.inl (hn.of_goOn (fun hlook => ?_) fun hlook hk hrest => ?_)
        · have hne : k ≠ hwnd := by
            rintro rfl
            rw [hins, AList.lookup_insert] at hlook
            exact hkv ⟨rfl, (Option.some.inj hlook).symm⟩
          rwa [hins, AList.lookup_insert_ne hne] at hlook
        · exact notMem_of_notMem_filter hlook hk (hskip hnew k hrest)
  | _ => cases hs

theorem iconInv_destroy {hwnd : HWND} {rest' : List HWND} (hskip : SkipsNone t ⟨.destroy hwnd, rest'⟩)
    (hs : iconThreadStep t ⟨.destroy hwnd, rest'⟩ = some t') : IconInv t' := by
  obtain ⟨s, list, event⟩ := t
  cases event with
  | idle =>
    have hstep := hs
    simp only [iconThreadStep] at hs
    split at hs
    · next hmem =>
      obtain rfl := Option.some.inj hs
      refine iconInv_event h hstep h.before trivial (fun _ _ hu => nomatch hu) fun k v hn => Or.inl ?_
      have hne : (eraseTask hwnd s).wm.activeWindowTasks.lookup k = some v → k ≠ hwnd := by
        rintro hlook rfl
        exact absurd hlook (by simp [eraseTask])
      refine hn.of_goOn (fun hlook => ?_) fun hlook hk hrest => ?_
      · have hk := hne hlook
        rwa [eraseTask, AList.lookup_erase_ne hk] at hlook
      · exact notMem_of_notMem_filter hlook hk (hskip hmem k hrest (hne hlook))
    · exact Option.some.inj hs ▸ h
  | _ => cases hs

theorem iconInv_rename {env : Env} {hwnd : HWND} {rest' : List HWND}
    (hs : iconThreadStep t ⟨.rename env hwnd, rest'⟩ = some t') : IconInv t' := by
  obtain ⟨s, list, event⟩ := t
  cases event with
  | idle =>
    have hstep := hs
    simp only [iconThreadStep] at hs
    split at hs
    · obtain rfl := Option.some.inj hs
      exact iconInv_event h hstep h.before trivial (fun _ _ hu => nomatch hu) fun k v hn => Or.inl hn
    · exact Option.some.inj hs ▸ h
  | _ => cases hs

theorem iconInv_step (hskip : SkipsNone t l) (hg : IconInTime t l) (hs : iconThreadStep t l = some t') :
    IconInv t' := by
  obtain ⟨l, rest'⟩ := l
  cases l with
  | request env =>
    obtain ⟨s, list, event⟩ := t
    cases list with
    | idle =>
      obtain rfl := Option.some.inj hs
      exact iconInv_list h hs rfl h.before fun k v hn => hn.elim
    | _ => cases hs
  | recv => exact iconInv_recv h hg hs
  | create env hwnd => exact iconInv_create h hskip hs
  | destroy hwnd => exact iconInv_destroy h hskip hs
  | rename env hwnd => exact iconInv_rename h hs
  | main => exact iconInv_main h hs

omit h in
/-- A list that is not in time names an icon that was not sent. -/
theorem not_iconsBefore (hg : ¬ IconInTime t l) (hs : iconThreadStep t l = some t') :
    ¬ IconsBefore t'.session.sent := by
  obtain ⟨s, list, event⟩ := t
  obtain ⟨l, rest'⟩ := l
  cases l with
  | recv =>
    cases list with
    | serialised tasks =>
      obtain rfl := Option.some.inj hs
      intro hbefore
      apply hg
      intro r hr _
      exact hbefore s.sent _ [] rfl r.hIcon (List.mem_map_of_mem hr)
    | _ => exact absurd trivial hg
  | _ => exact absurd trivial hg

end

theorem iconInv_init : IconInv IconThreads.init :=
  ⟨inv_cache_init, iconsOnce_reset.before, trivial, fun _ _ hn => hn.elim⟩

/-- **Icons before lists.**  In an interleaving of the two threads in which the loop, when the map
changes under it, skips none of its windows, every frame comes after those of the icons it names
if and only if no list goes out with the window that the main thread has just put in the map and
whose icon was not sent. -/
theorem iconsBefore_iff_inTime (ls : List IconThreadStep)
    (hskip : Guarded iconThreadStep SkipsNone IconThreads.init ls) :
    Always iconThreadStep (fun t => IconsBefore t.session.sent) IconThreads.init ls ↔
      Guarded iconThreadStep IconInTime IconThreads.init ls :=
  always_iff_guarded_of (fun _ _ _ h hskip hg hs => iconInv_step h hskip hg hs) (fun _ h => h.before)
    (fun _ _ _ _ _ hg hs => not_iconsBefore hg hs) ls iconInv_init hskip

/-- A window is created while the loop is at another, and its icon is sent with that one's. -/
theorem iconsBefore_iff_inTime_created :
    let ls := [ThreadStep.request (oneWindow (Handle.ofInt 7)), .recv, .recv].map ThreadStep.small ++
      ⟨.create default (Handle.ofInt 8), [Handle.ofInt 7]⟩ ::
        [ThreadStep.recv, .recv, .recv, .recv, .recv, .recv, .recv].map ThreadStep.small
    ∃ t, run iconThreadStep IconThreads.init ls = some t ∧
      t.session.sent.map Packet.iconsUsed = [[], [NULL, NULL]] ∧ IconsBefore t.session.sent := by
  intro ls
  have hrun : ∃ t, run iconThreadStep IconThreads.init ls = some t ∧
      t.session.sent.map Packet.iconsUsed = [[], [NULL, NULL]] := ⟨_, rfl, rfl⟩
  have hskip : Guarded iconThreadStep SkipsNone IconThreads.init ls := by
    refine guarded_cons rfl trivial (guarded_cons rfl trivial (guarded_cons rfl trivial (guarded_cons rfl ?_ ?_)))
    · exact fun _ k hk => hk
    · exact guarded_of_forall (by simp [ThreadStep.small, SkipsNone]) _
  have hin : Guarded iconThreadStep IconInTime IconThreads.init ls := by
    refine guarded_cons rfl trivial (guarded_cons rfl trivial (guarded_cons rfl trivial (guarded_cons rfl trivial
      (guarded_cons rfl trivial (guarded_cons rfl trivial (guarded_cons rfl trivial (guarded_cons rfl trivial
        (guarded_cons rfl trivial (guarded_cons rfl trivial (guarded_cons rfl ?_ trivial))))))))))
    show ∀ r ∈ _, _ = _ → _ ∈ _
    decide
  obtain ⟨t, hr, hused⟩ := hrun
  exact ⟨t, hr, hused, ((iconsBefore_iff_inTime ls hskip).mpr hin).run hr⟩

/-! ## The steps of `Threads` -/

def RecvPc.small : RecvPc → ListPc
  | .idle => .idle
  | .cleared env => .cleared env
  | .enumerated env => .enumerated env
  | .iconsSent env => .refreshed env
  | .serialised tasks => .serialised tasks

def MainPc.small : MainPc → EventPc
  | .idle => .idle
  | .inserted env hwnd hIcon => .checking env hwnd hIcon .check
  | .iconSent env hwnd hIcon => .checked env hwnd hIcon
  | .erased hwnd => .erased hwnd
  | .found env hwnd => .found env hwnd

def Threads.small (t : Threads) : IconThreads := ⟨t.session, t.recv.small, t.main.small⟩

/-- Here no loop is under way. -/
theorem goOn_small (rest : List HWND) (recv : RecvPc) : recv.small.goOn rest = recv.small := by
  cases recv <;> rfl

/-- A check left alone is `sendMissingIcon`. -/
theorem run_check (env : Env) (hIcon : HICON) (s : Session) :
    (iconStep env hIcon s .check = (s, none) ∧ sendMissingIcon env hIcon s = s) ∨
    (iconStep env hIcon s .check = (s, some .send) ∧ sendMissingIcon env hIcon s =
      (iconStep env hIcon (iconStep env hIcon s .send).1 .record).1) := by
  rcases sendMissingIcon_cases env s hIcon with ⟨hmem, he⟩ | ⟨hnew, he⟩
  · refine Or.inl ⟨?_, he⟩
    have hex := (iconExistsInClientCache_eq s.wm hIcon).mpr hmem
    simp [iconStep, hex]
  · refine Or.inr ⟨?_, he⟩
    have hex : iconExistsInClientCache s.wm hIcon = false := by
      rw [← Bool.not_eq_true, iconExistsInClientCache_eq]
      exact hnew
    simp [iconStep, hex]

theorem exists_run_listCheck (env : Env) (rest : List HWND) (hIcon : HICON) (s : Session) (event : EventPc) :
    ∃ ls, run iconThreadStep ⟨s, .checking env rest hIcon .check, event⟩ ls =
      some ⟨sendMissingIcon env hIcon s, .looping env rest, event⟩ := by
  rcases run_check env hIcon s with ⟨hcheck, he⟩ | ⟨hcheck, he⟩
  · refine ⟨[ThreadStep.recv.small], ?_⟩
    simp only [run, iconThreadStep, ThreadStep.small, listStep, hcheck, he]
    rfl
  · refine ⟨[ThreadStep.recv.small, ThreadStep.recv.small, ThreadStep.recv.small], ?_⟩
    simp only [run, iconThreadStep, ThreadStep.small, listStep, hcheck, he]
    rfl

theorem exists_run_eventCheck (env : Env) (hwnd : HWND) (hIcon : HICON) (s : Session) (list : ListPc) :
    ∃ ls, run iconThreadStep ⟨s, list, .checking env hwnd hIcon .check⟩ ls =
      some ⟨sendMissingIcon env hIcon s, list, .checked env hwnd hIcon⟩ := by
  rcases run_check env hIcon s with ⟨hcheck, he⟩ | ⟨hcheck, he⟩
  · refine ⟨[ThreadStep.main.small], ?_⟩
    simp only [run, iconThreadStep, ThreadStep.small, eventStep, hcheck, he]
    rfl
  · refine ⟨[ThreadStep.main.small, ThreadStep.main.small, ThreadStep.main.small], ?_⟩
    simp only [run, iconThreadStep, ThreadStep.small, eventStep, hcheck, he]
    rfl

/-- The loop left alone is the fold over the windows. -/
theorem exists_run_loop (env : Env) (rest : List HWND) (s : Session) (event : EventPc) :
    ∃ ls, run iconThreadStep ⟨s, .looping env rest, event⟩ ls =
      some ⟨rest.foldl (refreshTask env) s, .refreshed env, event⟩ := by
  induction rest generalizing s with
  | nil => exact ⟨[ThreadStep.recv.small], rfl⟩
  | cons hwnd rest ih =>
    let wm := { s.wm with activeWindowTasks := s.wm.activeWindowTasks.insert hwnd (getHICON env hwnd) }
    obtain ⟨check, hcheck⟩ := exists_run_listCheck env rest (getHICON env hwnd) { s with wm := wm } event
    obtain ⟨ls, hloop⟩ := ih (refreshTask env s hwnd)
    refine ⟨ThreadStep.recv.small :: (check ++ ls), ?_⟩
    have hturn := run_append hcheck ls
    exact hturn.trans hloop

theorem run_one_small {t t' : Threads} {l : ThreadStep}
    (hsmall : iconThreadStep t.small l.small = (threadStep t l).map Threads.small)
    (hs : threadStep t l = some t') : ∃ ls, run iconThreadStep t.small ls = some t'.small := by
  rw [hs] at hsmall
  exact ⟨[l.small], run_one hsmall⟩

/-- A step of `Threads` is some steps here. -/
theorem exists_run_small {t t' : Threads} {l : ThreadStep} (hs : threadStep t l = some t') :
    ∃ ls, run iconThreadStep t.small ls = some t'.small := by
  obtain ⟨s, recv, main⟩ := t
  cases l with
  | request env =>
    cases recv with
    | idle =>
      obtain rfl := Option.some.inj hs
      exact ⟨[ThreadStep.small (.request env)], rfl⟩
    | _ => cases hs
  | recv =>
    cases recv with
    | idle => cases hs
    | enumerated env =>
      obtain rfl := Option.some.inj hs
      obtain ⟨ls, hloop⟩ := exists_run_loop env (env.order.visit s.keys) s main.small
      exact ⟨ThreadStep.recv.small :: ls, hloop⟩
    | _ =>
      obtain rfl := Option.some.inj hs
      exact ⟨[ThreadStep.recv.small], rfl⟩
  | create env hwnd =>
    cases main with
    | idle =>
      have hstep : iconThreadStep (Threads.small ⟨s, recv, .idle⟩) (ThreadStep.small (.create env hwnd)) =
          (threadStep ⟨s, recv, .idle⟩ (.create env hwnd)).map Threads.small := by
        simp only [iconThreadStep, threadStep, Threads.small, ThreadStep.small, MainPc.small, goOn_small]
        split <;> rfl
      exact run_one_small hstep hs
    | _ => cases hs
  | destroy hwnd =>
    cases main with
    | idle =>
      have hstep : iconThreadStep (Threads.small ⟨s, recv, .idle⟩) (ThreadStep.small (.destroy hwnd)) =
          (threadStep ⟨s, recv, .idle⟩ (.destroy hwnd)).map Threads.small := by
        simp only [iconThreadStep, threadStep, Threads.small, ThreadStep.small, MainPc.small, goOn_small]
        split <;> rfl
      exact run_one_small hstep hs
    | _ => cases hs
  | rename env hwnd =>
    cases main with
    | idle =>
      have hstep : iconThreadStep (Threads.small ⟨s, recv, .idle⟩) (ThreadStep.small (.rename env hwnd)) =
          (threadStep ⟨s, recv, .idle⟩ (.rename env hwnd)).map Threads.small := by
        simp only [iconThreadStep, threadStep, Threads.small, ThreadStep.small, MainPc.small]
        rw [apply_ite (Option.map Threads.small)]
        rfl
      exact run_one_small hstep hs
    | _ => cases hs
  | main =>
    cases main with
    | idle => cases hs
    | inserted env hwnd hIcon =>
      obtain rfl := Option.some.inj hs
      exact exists_run_eventCheck env hwnd hIcon s recv.small
    | _ =>
      obtain rfl := Option.some.inj hs
      exact ⟨[ThreadStep.main.small], rfl⟩

/-- **Smaller steps.**  Every interleaving of the steps of `Threads` is one here. -/
theorem run_small (ls : List ThreadStep) (t t' : Threads) (hr : run threadStep t ls = some t') :
    ∃ ls', run iconThreadStep t.small ls' = some t'.small := by
  induction ls generalizing t with
  | nil =>
    obtain rfl := Option.some.inj hr
    exact ⟨[], rfl⟩
  | cons l ls ih =>
    obtain ⟨t₁, hs, hrest⟩ := Option.bind_eq_some_iff.mp hr
    obtain ⟨first, hfirst⟩ := exists_run_small hs
    obtain ⟨more, hmore⟩ := ih t₁ hrest
    exact ⟨first ++ more, (run_append hfirst more).trans hmore⟩

end RemoteTaskbar
