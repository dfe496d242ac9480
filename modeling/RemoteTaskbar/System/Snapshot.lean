import RemoteTaskbar.Lib.Pending
import RemoteTaskbar.Lib.Trans
import RemoteTaskbar.System.Replica

/-!
# List snapshots and incremental updates

The receive thread serves a list request and the main thread the window events,
step by step in any order (`threadStep`); the frames of both go out in the order
they are sent.  A handler that runs with no other in between is `handle`
(`serial_runs`).

A snapshot `S` is right for the map `K` either as it is, or with the change the
main thread has made and not announced (`Pending.Agree`).  A list frame must
find the second: sent while the announced change is in `S` already, the change
is made twice.  An announcement that goes out while a snapshot is still unsent
must find the first: the snapshot will undo it (`InOrder`).
-/

namespace RemoteTaskbar

open Wire Trans

/-! ## The two threads -/

/-- Where the receive thread is in a list request; the frame is built from the
map when the buffer is filled. -/
inductive RecvPc where
  | idle
  | cleared (env : Env)
  | enumerated (env : Env)
  | iconsSent (env : Env)
  | serialised (tasks : List TaskRecord)

/-- Where the main thread is in a window event. -/
inductive MainPc where
  | idle
  | inserted (env : Env) (hwnd : HWND) (hIcon : HICON)
  | iconSent (env : Env) (hwnd : HWND) (hIcon : HICON)
  | erased (hwnd : HWND)
  /-- the window to rename was found in the map -/
  | found (env : Env) (hwnd : HWND)

structure Threads where
  session : Session
  recv : RecvPc
  main : MainPc

def Threads.init : Threads := ⟨Session.init, .idle, .idle⟩

inductive ThreadStep where
  /-- the receive thread begins a list request -/
  | request (env : Env)
  /-- the receive thread's next step -/
  | recv
  | create (env : Env) (hwnd : HWND)
  | destroy (hwnd : HWND)
  | rename (env : Env) (hwnd : HWND)
  /-- the main thread's next step -/
  | main

def recvStep (t : Threads) : Option Threads :=
  match t.recv with
  | .idle => none
  | .cleared env => some { t with session := enumTasks env t.session, recv := .enumerated env }
  | .enumerated env => some { t with session := sendMissingIcons env t.session, recv := .iconsSent env }
  | .iconsSent env => some { t with recv := .serialised (taskRecords env t.session) }
  | .serialised tasks =>
    some { t with session := t.session.sendMessage (.activeTaskList tasks), recv := .idle }

def mainStep (t : Threads) : Option Threads :=
  match t.main with
  | .idle => none
  | .inserted env hwnd hIcon =>
    some { t with session := sendMissingIcon env hIcon t.session, main := .iconSent env hwnd hIcon }
  | .iconSent env hwnd hIcon => some { t with session := sendAddTask env hwnd hIcon t.session, main := .idle }
  | .erased hwnd => some { t with session := t.session.sendMessage (.removeTask hwnd), main := .idle }
  | .found env hwnd =>
    let title := getWindowTitle (env.windowText hwnd)
    some { t with session := t.session.sendMessage (.updateTask hwnd title), main := .idle }

def threadStep (t : Threads) : ThreadStep → Option Threads
  | .request env =>
    match t.recv with
    | .idle => some { t with session := clearTasks t.session, recv := .cleared env }
    | _ => none
  | .recv => recvStep t
  | .create env hwnd =>
    match t.main with
    | .idle =>
      if hwnd ∈ t.session.wm.activeWindowTasks then some t
      else
        let hIcon := getHICON env hwnd
        some { t with session := insertTask hwnd hIcon t.session, main := .inserted env hwnd hIcon }
    | _ => none
  | .destroy hwnd =>
    match t.main with
    | .idle =>
      if hwnd ∈ t.session.wm.activeWindowTasks then
        some { t with session := eraseTask hwnd t.session, main := .erased hwnd }
      else some t
    | _ => none
  | .rename env hwnd =>
    match t.main with
    | .idle => if hwnd ∈ t.session.wm.activeWindowTasks then some { t with main := .found env hwnd } else some t
    | _ => none
  | .main => mainStep t

/-! ## What is pending -/

/-- The windows of the client's tasks, of the map and of a snapshot, as sent. -/
def clientHwnds [BitmapFactory] (s : Session) : List Word := (clientOf s.sent).taskList.map Task.hwnd

def mapHwnds (s : Session) : List Word := s.keys.map Handle.toInt

def snapshotHwnds (tasks : List TaskRecord) : List Word := tasks.map (·.hwnd.toInt)

/-- The change made to the map and not yet announced. -/
def MainPc.pending : MainPc → Pending Word
  | .idle => .none
  | .inserted _ hwnd _ => .add hwnd.toInt
  | .iconSent _ hwnd _ => .add hwnd.toInt
  | .erased hwnd => .remove hwnd.toInt
  | .found _ _ => .none

/-- The change the main thread's next step announces. -/
def MainPc.announced : MainPc → Pending Word
  | .idle => .none
  | .inserted _ _ _ => .none
  | .iconSent _ hwnd _ => .add hwnd.toInt
  | .erased hwnd => .remove hwnd.toInt
  | .found _ _ => .none

/-- With both threads between handlers, the client has one task for each key and
no other. -/
def Settled [BitmapFactory] (t : Threads) : Prop :=
  t.recv = .idle → t.main = .idle → (clientHwnds t.session).Perm (mapHwnds t.session)

/-- No list frame is sent over a change that is still to be announced, unless the
snapshot was taken before it; and no change is announced ahead of a snapshot
that was taken before it. -/
def InOrder (t : Threads) : ThreadStep → Prop
  | .recv =>
    match t.recv with
    | .serialised tasks => t.main.pending.MayFollow (snapshotHwnds tasks) (mapHwnds t.session)
    | _ => True
  | .main =>
    match t.recv with
    | .serialised tasks => t.main.announced.MayPass (snapshotHwnds tasks) (mapHwnds t.session)
    | _ => True
  | _ => True

/-- Between list requests the client agrees with the map, and once a snapshot is
taken the snapshot does.  In between nothing is asked: the list frame to come
replaces all the client has. -/
def ThreadsInv [BitmapFactory] (t : Threads) : Prop :=
  match t.recv with
  | .idle => t.main.pending.Agree (clientHwnds t.session) (mapHwnds t.session)
  | .serialised tasks =>
    (mapHwnds t.session).Perm (snapshotHwnds tasks) ∨
      t.main.pending.Agree (snapshotHwnds tasks) (mapHwnds t.session)
  | _ => True

/-! ## What the steps do to the three lists -/

section
variable (s : Session) (env : Env) (hwnd : HWND) (hIcon : HICON)

theorem mapHwnds_nodup : (mapHwnds s).Nodup := map_toInt_nodup s

theorem mem_mapHwnds : hwnd.toInt ∈ mapHwnds s ↔ hwnd ∈ s.wm.activeWindowTasks := by
  unfold mapHwnds
  rw [List.mem_map_of_injective Handle.toInt_injective]
  exact AList.mem_keys.symm

theorem mapHwnds_insertTask (h : hwnd ∉ s.wm.activeWindowTasks) :
    mapHwnds (insertTask hwnd hIcon s) = hwnd.toInt :: mapHwnds s := by
  unfold mapHwnds
  rw [insertTask_keys_of_notMem s hwnd hIcon h, List.map_cons]

theorem mapHwnds_eraseTask : mapHwnds (eraseTask hwnd s) = (mapHwnds s).erase hwnd.toInt := by
  unfold mapHwnds
  rw [eraseTask_keys, List.map_erase Handle.toInt_injective]

theorem mapHwnds_sendMissingIcon : mapHwnds (sendMissingIcon env hIcon s) = mapHwnds s := by
  unfold mapHwnds
  rw [sendMissingIcon_keys]

theorem snapshotHwnds_taskRecords : (snapshotHwnds (taskRecords env s)).Perm (mapHwnds s) := by
  have h := taskRecords_hwnds env s
  rw [List.map_map] at h
  exact h

variable [BitmapFactory]

theorem clientHwnds_sendMissingIcon : clientHwnds (sendMissingIcon env hIcon s) = clientHwnds s := by
  unfold clientHwnds
  rw [taskList_sendMissingIcon]

theorem clientHwnds_sendAddTask :
    clientHwnds (sendAddTask env hwnd hIcon s) = clientHwnds s ++ [hwnd.toInt] := by
  unfold clientHwnds sendAddTask
  rw [Session.sendMessage_sent, clientOf_append, Packet.msg, apply_addTask, List.map_append]
  rfl

theorem clientHwnds_removeTask :
    clientHwnds (s.sendMessage (.removeTask hwnd)) = (clientHwnds s).erase hwnd.toInt := by
  unfold clientHwnds
  rw [Session.sendMessage_sent, clientOf_append, Packet.msg, apply_removeTask]
  exact List.map_eraseP_key Task.hwnd hwnd.toInt _

theorem clientHwnds_activeTaskList (tasks : List TaskRecord) :
    clientHwnds (s.sendMessage (.activeTaskList tasks)) = snapshotHwnds tasks := by
  unfold clientHwnds snapshotHwnds
  rw [Session.sendMessage_sent, clientOf_append, Packet.msg, apply_activeTaskList, List.map_map]
  rfl

theorem clientHwnds_updateTask (title : WindowTitle) :
    clientHwnds (s.sendMessage (.updateTask hwnd title)) = clientHwnds s := by
  unfold clientHwnds
  rw [Session.sendMessage_sent, clientOf_append, Packet.msg, apply_updateTask]
  exact List.map_updateFirst Task.hwnd _ (fun t => { t with title := title.text.bytes ++ [0] }) (fun _ => rfl) _

end

/-! ## One step -/

section
variable [BitmapFactory] {t : Threads} (h : ThreadsInv t)
include h

/-- The main thread changes the map. -/
theorem threadsInv_change {s' : Session} {m' : MainPc} (hm : t.main = .idle)
    (hC : clientHwnds s' = clientHwnds t.session)
    (hchange : ∀ C, C.Perm (mapHwnds t.session) → m'.pending.Agree C (mapHwnds s')) :
    ThreadsInv { t with session := s', main := m' } := by
  obtain ⟨s, r, m⟩ := t
  obtain rfl : m = .idle := hm
  cases r with
  | idle =>
    show m'.pending.Agree (clientHwnds s') (mapHwnds s')
    rw [hC]
    exact hchange _ h
  | serialised tasks =>
    refine Or.inr (hchange _ ?_)
    rcases h with h | h
    · exact h.symm
    · exact h
  | cleared env => trivial
  | enumerated env => trivial
  | iconsSent env => trivial

/-- The main thread announces a change. -/
theorem threadsInv_announce {s' : Session} (hK : mapHwnds s' = mapHwnds t.session)
    (hC : clientHwnds s' = t.main.pending.deliver (clientHwnds t.session))
    (hg : ∀ tasks, t.recv = .serialised tasks →
      t.main.pending.MayPass (snapshotHwnds tasks) (mapHwnds t.session)) :
    ThreadsInv { t with session := s', main := .idle } := by
  obtain ⟨s, r, m⟩ := t
  cases r with
  | idle =>
    show (clientHwnds s').Perm (mapHwnds s')
    rw [hC, hK]
    exact Pending.Agree.deliver h
  | serialised tasks =>
    refine Or.inl ?_
    rw [hK]
    exact Pending.perm_of_mayPass h (hg tasks rfl)
  | cleared env => trivial
  | enumerated env => trivial
  | iconsSent env => trivial

theorem threadsInv_create {t' : Threads} (env : Env) (hwnd : HWND)
    (hs : threadStep t (.create env hwnd) = some t') : ThreadsInv t' := by
  simp only [threadStep] at hs
  split at hs
  · next hm =>
    split at hs
    · exact Option.some.inj hs ▸ h
    · next hnew =>
      obtain rfl := Option.some.inj hs
      refine threadsInv_change h hm rfl fun C hC => ?_
      rw [mapHwnds_insertTask _ _ _ hnew]
      exact Pending.agree_add hC fun hmem => hnew ((mem_mapHwnds t.session hwnd).mp hmem)
  · exact absurd hs (by simp)

theorem threadsInv_destroy {t' : Threads} (hwnd : HWND)
    (hs : threadStep t (.destroy hwnd) = some t') : ThreadsInv t' := by
  simp only [threadStep] at hs
  split at hs
  · next hm =>
    split at hs
    · obtain rfl := Option.some.inj hs
      refine threadsInv_change h hm rfl fun C hC => ?_
      rw [mapHwnds_eraseTask]
      exact Pending.agree_remove hC (mapHwnds_nodup t.session)
    · exact Option.some.inj hs ▸ h
  · exact absurd hs (by simp)

theorem threadsInv_rename {t' : Threads} (env : Env) (hwnd : HWND)
    (hs : threadStep t (.rename env hwnd) = some t') : ThreadsInv t' := by
  simp only [threadStep] at hs
  split at hs
  · next hm =>
    split at hs
    · obtain rfl := Option.some.inj hs
      exact threadsInv_change h hm rfl fun C hC => hC
    · exact Option.some.inj hs ▸ h
  · exact absurd hs (by simp)

theorem threadsInv_main {t' : Threads} (hg : InOrder t .main) (hs : threadStep t .main = some t') :
    ThreadsInv t' := by
  obtain ⟨s, r, m⟩ := t
  have hg' : ∀ tasks, r = .serialised tasks → m.announced.MayPass (snapshotHwnds tasks) (mapHwnds s) := by
    rintro tasks rfl
    exact hg
  cases m with
  | idle => exact absurd hs (by simp [threadStep, mainStep])
  | inserted env hwnd hIcon =>
    obtain rfl := Option.some.inj hs
    -- an icon frame: neither list changes, and the same window is pending
    cases r with
    | idle =>
      show Pending.Agree _ _ (.add hwnd.toInt)
      rw [clientHwnds_sendMissingIcon, mapHwnds_sendMissingIcon]
      exact h
    | serialised tasks =>
      show _ ∨ Pending.Agree _ _ (.add hwnd.toInt)
      rw [mapHwnds_sendMissingIcon]
      exact h
    | cleared env => trivial
    | enumerated env => trivial
    | iconsSent env => trivial
  | iconSent env hwnd hIcon =>
    obtain rfl := Option.some.inj hs
    exact threadsInv_announce h rfl (clientHwnds_sendAddTask s env hwnd hIcon) hg'
  | erased hwnd =>
    obtain rfl := Option.some.inj hs
    exact threadsInv_announce h rfl (clientHwnds_removeTask s hwnd) hg'
  | found env hwnd =>
    obtain rfl := Option.some.inj hs
    exact threadsInv_announce h rfl (clientHwnds_updateTask s hwnd _) hg'

theorem threadsInv_recv {t' : Threads} (hg : InOrder t .recv) (hs : threadStep t .recv = some t') :
    ThreadsInv t' := by
  obtain ⟨s, r, m⟩ := t
  cases r with
  | idle => exact absurd hs (by simp [threadStep, recvStep])
  | cleared env =>
    obtain rfl := Option.some.inj hs
    trivial
  | enumerated env =>
    obtain rfl := Option.some.inj hs
    trivial
  | iconsSent env =>
    obtain rfl := Option.some.inj hs
    exact Or.inl (snapshotHwnds_taskRecords s env).symm
  | serialised tasks =>
    obtain rfl := Option.some.inj hs
    show m.pending.Agree (clientHwnds _) (mapHwnds s)
    rw [clientHwnds_activeTaskList]
    exact Pending.agree_of_mayFollow h hg

/-- A step in order keeps the invariant. -/
theorem threadsInv_step {t' : Threads} {l : ThreadStep} (hg : InOrder t l) (hs : threadStep t l = some t') :
    ThreadsInv t' := by
  cases l with
  | request env =>
    simp only [threadStep] at hs
    split at hs
    · obtain rfl := Option.some.inj hs
      trivial
    · exact absurd hs (by simp)
  | recv => exact threadsInv_recv h hg hs
  | create env hwnd => exact threadsInv_create h env hwnd hs
  | destroy hwnd => exact threadsInv_destroy h hwnd hs
  | rename env hwnd => exact threadsInv_rename h env hwnd hs
  | main => exact threadsInv_main h hg hs

theorem ThreadsInv.settled : Settled t := by
  obtain ⟨s, r, m⟩ := t
  rintro (rfl : r = .idle) (rfl : m = .idle)
  exact h

end

/-! ## A step out of order -/

section
variable [BitmapFactory]

/-- Both threads are between handlers and the client has other tasks than the map. -/
def Wrong (t : Threads) : Prop :=
  t.recv = .idle ∧ t.main = .idle ∧ ¬ (clientHwnds t.session).Perm (mapHwnds t.session)

/-- The main thread left to itself announces what is pending. -/
theorem main_finishes (s : Session) (m : MainPc) :
    ∃ ls s', (∀ l ∈ ls, l = .recv ∨ l = .main) ∧
      run threadStep ⟨s, .idle, m⟩ ls = some ⟨s', .idle, .idle⟩ ∧
      clientHwnds s' = m.pending.deliver (clientHwnds s) ∧ mapHwnds s' = mapHwnds s := by
  cases m with
  | idle => exact ⟨[], s, fun l hl => absurd hl List.not_mem_nil, rfl, rfl, rfl⟩
  | inserted env hwnd hIcon =>
    refine ⟨[.main, .main], sendAddTask env hwnd hIcon (sendMissingIcon env hIcon s), ?_, rfl, ?_, ?_⟩
    · intro l hl
      exact Or.inr (by simpa using hl)
    · rw [clientHwnds_sendAddTask, clientHwnds_sendMissingIcon]
      rfl
    · exact mapHwnds_sendMissingIcon s env hIcon
  | iconSent env hwnd hIcon =>
    refine ⟨[.main], sendAddTask env hwnd hIcon s, ?_, rfl, clientHwnds_sendAddTask s env hwnd hIcon, rfl⟩
    intro l hl
    exact Or.inr (List.mem_singleton.mp hl)
  | erased hwnd =>
    refine ⟨[.main], s.sendMessage (.removeTask hwnd), ?_, rfl, clientHwnds_removeTask s hwnd, rfl⟩
    intro l hl
    exact Or.inr (List.mem_singleton.mp hl)
  | found env hwnd =>
    refine ⟨[.main], _, ?_, rfl, clientHwnds_updateTask s hwnd _, rfl⟩
    intro l hl
    exact Or.inr (List.mem_singleton.mp hl)

/-- After a step out of order the handlers under way end with the client wrong. -/
theorem wrong_of_not_inOrder {t t' : Threads} {l : ThreadStep} (h : ThreadsInv t) (hg : ¬ InOrder t l)
    (hs : threadStep t l = some t') :
    ∃ ls t'', (∀ l ∈ ls, l = .recv ∨ l = .main) ∧ run threadStep t' ls = some t'' ∧ Wrong t'' := by
  obtain ⟨s, r, m⟩ := t
  cases l with
  | request env => exact absurd trivial hg
  | create env hwnd => exact absurd trivial hg
  | destroy hwnd => exact absurd trivial hg
  | rename env hwnd => exact absurd trivial hg
  | recv =>
    cases r with
    | serialised tasks =>
      -- the snapshot goes out, then the change that is in it already
      obtain rfl := Option.some.inj hs
      obtain ⟨ls, s', hls, hrun, hC, hK⟩ := main_finishes (s.sendMessage (.activeTaskList tasks)) m
      refine ⟨ls, _, hls, hrun, rfl, rfl, ?_⟩
      show ¬ (clientHwnds s').Perm (mapHwnds s')
      rw [hC, hK, clientHwnds_activeTaskList]
      exact Pending.not_perm_of_not_mayFollow h hg
    | idle => exact absurd trivial hg
    | cleared env => exact absurd trivial hg
    | enumerated env => exact absurd trivial hg
    | iconsSent env => exact absurd trivial hg
  | main =>
    cases r with
    | serialised tasks =>
      -- the change goes out, then the snapshot without it
      have hwrong : ∀ s', mapHwnds s' = mapHwnds s → ∃ ls t'', (∀ l ∈ ls, l = .recv ∨ l = .main) ∧
          run threadStep ⟨s', .serialised tasks, .idle⟩ ls = some t'' ∧ Wrong t'' := by
        intro s' hK
        refine ⟨[.recv], ⟨s'.sendMessage (.activeTaskList tasks), .idle, .idle⟩, ?_, rfl, rfl, rfl, ?_⟩
        · intro l hl
          exact Or.inl (List.mem_singleton.mp hl)
        · rw [clientHwnds_activeTaskList]
          show ¬ (snapshotHwnds tasks).Perm (mapHwnds s')
          rw [hK]
          exact Pending.not_perm_of_not_mayPass hg
      cases m with
      | idle => exact absurd trivial hg
      | inserted env hwnd hIcon => exact absurd trivial hg
      | found env hwnd => exact absurd trivial hg
      | iconSent env hwnd hIcon =>
        obtain rfl := Option.some.inj hs
        exact hwrong _ rfl
      | erased hwnd =>
        obtain rfl := Option.some.inj hs
        exact hwrong _ rfl
    | idle => exact absurd trivial hg
    | cleared env => exact absurd trivial hg
    | enumerated env => exact absurd trivial hg
    | iconsSent env => exact absurd trivial hg

/-! ## Any interleaving -/

theorem threadsInv_init : ThreadsInv Threads.init := List.Perm.refl _

/-- **Snapshots and updates.**  In every interleaving whose frames are sent in
order, the client has one task for each key and no other whenever both threads
are between handlers.  The first step out of order leaves it with other tasks
once the handlers under way have ended. -/
theorem settled_of_inOrder (ls : List ThreadStep) :
    (Guarded threadStep InOrder Threads.init ls → Always threadStep Settled Threads.init ls) ∧
    (Guarded threadStep InOrder Threads.init ls → ∀ t l t', run threadStep Threads.init ls = some t →
      threadStep t l = some t' → ¬ InOrder t l →
        ∃ ls' t'', (∀ l' ∈ ls', l' = .recv ∨ l' = .main) ∧ run threadStep t' ls' = some t'' ∧ Wrong t'') := by
  have hstep : ∀ t l t', ThreadsInv t → InOrder t l → threadStep t l = some t' → ThreadsInv t' :=
    fun _ _ _ h hg hs => threadsInv_step h hg hs
  constructor
  · exact Guarded.always hstep (fun _ h => h.settled) ls threadsInv_init
  · intro h t l t' hrun hs hg
    have hinv : ThreadsInv t := (Guarded.always hstep (fun _ h => h) ls threadsInv_init h).run hrun
    exact wrong_of_not_inOrder hinv hg hs

end

/-- An OS that shows one window. -/
def oneWindow (hwnd : HWND) : Env :=
  { (default : Env) with enumWindows := [hwnd], isWindowVisible := fun k => k == hwnd }

/-- A window is created while a snapshot without it is waiting to be sent. -/
theorem settled_waiting_snapshot :
    letI := BitmapFactory.pngOnly
    Always threadStep Settled Threads.init
      [.request default, .recv, .recv, .recv, .create default (Handle.ofInt 7), .main, .recv, .main] := by
  let := BitmapFactory.pngOnly
  refine (settled_of_inOrder _).1 ?_
  refine guarded_cons rfl trivial (guarded_cons rfl trivial (guarded_cons rfl trivial
    (guarded_cons rfl trivial (guarded_cons rfl trivial (guarded_cons rfl trivial
      (guarded_cons rfl ?_ (guarded_cons rfl trivial trivial)))))))
  exact ⟨by decide, by decide⟩

/-- A list is requested between the insert of window 7 and its announcement, and
finds the window too. -/
theorem wrong_duplicate :
    letI := BitmapFactory.pngOnly
    let hwnd : HWND := Handle.ofInt 7
    ∃ t, run threadStep Threads.init
        [.create default hwnd, .request (oneWindow hwnd), .recv, .recv, .recv, .recv, .main, .main] = some t ∧
      mapHwnds t.session = [7] ∧ clientHwnds t.session = [7, 7] ∧ ¬ Settled t := by
  intro hwnd
  refine ⟨_, rfl, by decide, by decide, fun h => ?_⟩
  have hp := h rfl rfl
  exact absurd hp (by decide)

/-! ## Handlers one at a time -/

/-- The handler a step begins. -/
def ThreadStep.event : ThreadStep → Option Event
  | .request env => some (.list env)
  | .create env hwnd => some (.create env hwnd)
  | .destroy hwnd => some (.destroy hwnd)
  | .rename env hwnd => some (.rename env hwnd)
  | _ => none

/-- A handler begins only when none is under way. -/
def Serial (t : Threads) (l : ThreadStep) : Prop := l.event ≠ none → t.recv = .idle ∧ t.main = .idle

/-- The session once the list request under way is served. -/
def RecvPc.finish (s : Session) : RecvPc → Session
  | .idle => s
  | .cleared env => sendWindowTasksToClient env (sendMissingIcons env (enumTasks env s))
  | .enumerated env => sendWindowTasksToClient env (sendMissingIcons env s)
  | .iconsSent env => sendWindowTasksToClient env s
  | .serialised tasks => s.sendMessage (.activeTaskList tasks)

/-- The session once the window event under way is handled. -/
def MainPc.finish (s : Session) : MainPc → Session
  | .idle => s
  | .inserted env hwnd hIcon => sendAddTask env hwnd hIcon (sendMissingIcon env hIcon s)
  | .iconSent env hwnd hIcon => sendAddTask env hwnd hIcon s
  | .erased hwnd => s.sendMessage (.removeTask hwnd)
  | .found env hwnd => s.sendMessage (.updateTask hwnd (getWindowTitle (env.windowText hwnd)))

def Threads.finish (t : Threads) : Session := t.main.finish (t.recv.finish t.session)

/-- One thread at most is in a handler, and `s` is the session after it. -/
structure SerialInv (s : Session) (t : Threads) : Prop where
  alone : t.recv = .idle ∨ t.main = .idle
  finish : t.finish = s

theorem serialInv_idle (s : Session) : SerialInv s ⟨s, .idle, .idle⟩ := ⟨Or.inl rfl, rfl⟩

theorem serialInv_step {s : Session} {t t' : Threads} {l : ThreadStep} (h : SerialInv s t) (hg : Serial t l)
    (hs : threadStep t l = some t') : SerialInv (l.event.toList.foldl handle s) t' := by
  obtain ⟨session, recv, main⟩ := t
  obtain ⟨halone, rfl⟩ := h
  have hrest : l.event ≠ none → recv = .idle ∧ main = .idle := hg
  cases l with
  | request env =>
    obtain ⟨rfl, rfl⟩ := hrest (by simp [ThreadStep.event])
    obtain rfl := Option.some.inj hs
    exact ⟨Or.inr rfl, rfl⟩
  | create env hwnd =>
    obtain ⟨rfl, rfl⟩ := hrest (by simp [ThreadStep.event])
    show SerialInv (addWindowTask env hwnd session) t'
    unfold addWindowTask
    simp only [threadStep] at hs
    split at hs
    · next hold =>
      obtain rfl := Option.some.inj hs
      rw [if_pos hold]
      exact ⟨Or.inl rfl, rfl⟩
    · next hnew =>
      obtain rfl := Option.some.inj hs
      rw [if_neg hnew]
      exact ⟨Or.inl rfl, rfl⟩
  | destroy hwnd =>
    obtain ⟨rfl, rfl⟩ := hrest (by simp [ThreadStep.event])
    show SerialInv (removeWindowTask hwnd session) t'
    unfold removeWindowTask
    simp only [threadStep] at hs
    split at hs
    · next hold =>
      obtain rfl := Option.some.inj hs
      rw [if_pos hold]
      exact ⟨Or.inl rfl, rfl⟩
    · next hnew =>
      obtain rfl := Option.some.inj hs
      rw [if_neg hnew]
      exact ⟨Or.inl rfl, rfl⟩
  | rename env hwnd =>
    obtain ⟨rfl, rfl⟩ := hrest (by simp [ThreadStep.event])
    show SerialInv (updateWindowTaskTitle env hwnd session) t'
    unfold updateWindowTaskTitle
    simp only [threadStep] at hs
    split at hs
    · next hold =>
      obtain rfl := Option.some.inj hs
      rw [if_pos hold]
      exact ⟨Or.inl rfl, rfl⟩
    · next hnew =>
      obtain rfl := Option.some.inj hs
      rw [if_neg hnew]
      exact ⟨Or.inl rfl, rfl⟩
  | recv =>
    cases recv with
    | idle => exact absurd hs (by simp [threadStep, recvStep])
    | _ =>
      obtain rfl : main = .idle := halone.resolve_left (by simp)
      obtain rfl := Option.some.inj hs
      exact ⟨Or.inr rfl, rfl⟩
  | main =>
    cases main with
    | idle => exact absurd hs (by simp [threadStep, mainStep])
    | _ =>
      obtain rfl : recv = .idle := halone.resolve_right (by simp)
      obtain rfl := Option.some.inj hs
      exact ⟨Or.inl rfl, rfl⟩

theorem serialInv_run {s : Session} {t t' : Threads} {ls : List ThreadStep} (h : SerialInv s t)
    (hg : Guarded threadStep Serial t ls) (hr : run threadStep t ls = some t') :
    SerialInv ((ls.filterMap ThreadStep.event).foldl handle s) t' := by
  induction ls generalizing s t with
  | nil =>
    obtain rfl := Option.some.inj hr
    exact h
  | cons l ls ih =>
    obtain ⟨t₁, hs, hrest⟩ := Option.bind_eq_some_iff.mp hr
    obtain ⟨hgl, hgs⟩ := hg t₁ hs
    have hend := ih (serialInv_step h hgl hs) hgs hrest
    cases he : l.event with
    | none =>
      rw [he] at hend
      rw [List.filterMap_cons_none he]
      exact hend
    | some e =>
      rw [he] at hend
      rw [List.filterMap_cons_some he]
      exact hend

/-- Left to itself the handler under way runs to its end. -/
theorem run_finish {t : Threads} (h : t.recv = .idle ∨ t.main = .idle) :
    ∃ ls, (∀ l ∈ ls, l = .recv ∨ l = .main) ∧ run threadStep t ls = some ⟨t.finish, .idle, .idle⟩ := by
  obtain ⟨s, recv, main⟩ := t
  have hrecv : ∀ n, ∀ l ∈ List.replicate n ThreadStep.recv, l = .recv ∨ l = .main :=
    fun n l hl => Or.inl (List.eq_of_mem_replicate hl)
  have hmain : ∀ n, ∀ l ∈ List.replicate n ThreadStep.main, l = .recv ∨ l = .main :=
    fun n l hl => Or.inr (List.eq_of_mem_replicate hl)
  rcases h with rfl | rfl
  · cases main with
    | idle => exact ⟨_, hmain 0, rfl⟩
    | inserted env hwnd hIcon => exact ⟨_, hmain 2, rfl⟩
    | iconSent env hwnd hIcon => exact ⟨_, hmain 1, rfl⟩
    | erased hwnd => exact ⟨_, hmain 1, rfl⟩
    | found env hwnd => exact ⟨_, hmain 1, rfl⟩
  · cases recv with
    | idle => exact ⟨_, hrecv 0, rfl⟩
    | cleared env => exact ⟨_, hrecv 4, rfl⟩
    | enumerated env => exact ⟨_, hrecv 3, rfl⟩
    | iconsSent env => exact ⟨_, hrecv 2, rfl⟩
    | serialised tasks => exact ⟨_, hrecv 1, rfl⟩

/-- Between handlers any handler can begin. -/
theorem exists_begin (s : Session) (e : Event) :
    ∃ l t, l.event = some e ∧ threadStep ⟨s, .idle, .idle⟩ l = some t := by
  cases e with
  | list env => exact ⟨.request env, _, rfl, rfl⟩
  | create env hwnd =>
    refine ⟨.create env hwnd, ?_⟩
    simp only [threadStep]
    split <;> exact ⟨_, rfl, rfl⟩
  | destroy hwnd =>
    refine ⟨.destroy hwnd, ?_⟩
    simp only [threadStep]
    split <;> exact ⟨_, rfl, rfl⟩
  | rename env hwnd =>
    refine ⟨.rename env hwnd, ?_⟩
    simp only [threadStep]
    split <;> exact ⟨_, rfl, rfl⟩

/-- Steps of a handler under way begin none. -/
theorem event_of_next {ls : List ThreadStep} (h : ∀ l ∈ ls, l = .recv ∨ l = .main) :
    ls.filterMap ThreadStep.event = [] := by
  rw [List.filterMap_eq_nil_iff]
  intro l hl
  rcases h l hl with rfl | rfl
  · rfl
  · rfl

theorem serial_of_next {ls : List ThreadStep} (h : ∀ l ∈ ls, l = .recv ∨ l = .main) (t : Threads) :
    Guarded threadStep Serial t ls := by
  refine guarded_of_forall (fun l hl t hne => ?_) t
  rcases h l hl with rfl | rfl
  · exact absurd rfl hne
  · exact absurd rfl hne

/-- One handler, step by step with nothing in between. -/
theorem exists_run_handle (s : Session) (e : Event) :
    ∃ ls, Guarded threadStep Serial ⟨s, .idle, .idle⟩ ls ∧ ls.filterMap ThreadStep.event = [e] ∧
      run threadStep ⟨s, .idle, .idle⟩ ls = some ⟨handle s e, .idle, .idle⟩ := by
  obtain ⟨l, t, he, hs⟩ := exists_begin s e
  have hg : Serial ⟨s, .idle, .idle⟩ l := fun _ => ⟨rfl, rfl⟩
  have hinv := serialInv_step (serialInv_idle s) hg hs
  obtain ⟨ls, hls, hr⟩ := run_finish hinv.alone
  refine ⟨l :: ls, guarded_cons hs hg (serial_of_next hls t), ?_, ?_⟩
  · rw [List.filterMap_cons_some he, event_of_next hls]
  · refine (run_cons hs ls).trans (hr.trans ?_)
    rw [hinv.finish, he]
    rfl

/-- **Handlers one at a time.**  A run of the two threads in which no handler begins while another
is under way leaves between handlers what the handlers leave one after the other, and a handler
under way, left to itself, leads there.  Any handlers run so. -/
theorem serial_runs (s : Session) :
    (∀ ls t, Guarded threadStep Serial ⟨s, .idle, .idle⟩ ls → run threadStep ⟨s, .idle, .idle⟩ ls = some t →
      (t.recv = .idle → t.main = .idle → t.session = (ls.filterMap ThreadStep.event).foldl handle s) ∧
      ∃ ls', (∀ l ∈ ls', l = .recv ∨ l = .main) ∧ run threadStep t ls' =
        some ⟨(ls.filterMap ThreadStep.event).foldl handle s, .idle, .idle⟩) ∧
    ∀ es, ∃ ls, Guarded threadStep Serial ⟨s, .idle, .idle⟩ ls ∧ ls.filterMap ThreadStep.event = es ∧
      run threadStep ⟨s, .idle, .idle⟩ ls = some ⟨es.foldl handle s, .idle, .idle⟩ := by
  constructor
  · intro ls t hg hr
    have hinv := serialInv_run (serialInv_idle s) hg hr
    rw [← hinv.finish]
    refine ⟨?_, run_finish hinv.alone⟩
    obtain ⟨session, recv, main⟩ := t
    rintro (rfl : recv = .idle) (rfl : main = .idle)
    rfl
  · intro es
    induction es generalizing s with
    | nil => exact ⟨[], trivial, rfl, rfl⟩
    | cons e es ih =>
      obtain ⟨first, hg₁, he₁, hr₁⟩ := exists_run_handle s e
      obtain ⟨rest, hg₂, he₂, hr₂⟩ := ih (handle s e)
      refine ⟨first ++ rest, hg₁.append hr₁ hg₂, ?_, (run_append hr₁ rest).trans hr₂⟩
      rw [List.filterMap_append, he₁, he₂]
      rfl

end RemoteTaskbar
