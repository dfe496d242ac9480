import RemoteTaskbar.System.Replica
import RemoteTaskbar.System.RowIcons
import RemoteTaskbar.System.Snapshot

/-!
# From the server's map to the client's list

The pieces together: handlers change the map and send frames, the frames go out as
bytes, the network thread reads them and posts, the UI thread carries out what is
posted.  When both threads have come to rest the list shows the windows of the map
with their icons, in every interleaving; the titles are the last ones sent if every
lookup was in time (`list_mirrors_map`).

A lookup that comes too early or too late loses a title and nothing else: what the
list becomes is the same up to titles (`SameRows`), so the simulation behind the
titles is kept with a target that may drift in them (`SimRows`).
-/

namespace RemoteTaskbar

open Wire Reader Trans

/-! ## Rows up to their titles -/

/-- What a title never changes. -/
def Task.row (task : Task) : Word × Word := (task.hwnd, task.hicon)

def SameRows (l l' : List Task) : Prop := l.map Task.row = l'.map Task.row

theorem map_row_setTitle (l : List Task) (hwnd : Word) (title : List Byte) :
    (setTitle l hwnd title).map Task.row = l.map Task.row :=
  List.map_updateFirst Task.row _ (fun t => { t with title := title }) (fun _ => rfl) l

theorem map_hwnd (l : List Task) : l.map Task.hwnd = (l.map Task.row).map Prod.fst := by
  rw [List.map_map]
  rfl

theorem map_row_eraseP (l : List Task) (hwnd : Word) :
    (l.eraseP (·.hwnd == hwnd)).map Task.row = (l.map Task.row).eraseP (·.1 == hwnd) := by
  rw [List.eraseP_map]
  rfl

section
variable [BitmapFactory]

theorem SameRows.perform {c c' : ClientState} (h : SameRows c.taskList c'.taskList) (act : ClientAct) :
    SameRows (c.perform act).taskList (c'.perform act).taskList := by
  unfold SameRows at h ⊢
  cases act with
  | runOnUiThread op =>
    cases op with
    | clear => rfl
    | add task =>
      show (c.taskList ++ [task]).map Task.row = (c'.taskList ++ [task]).map Task.row
      rw [List.map_append, List.map_append, h]
    | remove hwnd =>
      show (c.taskList.eraseP _).map Task.row = (c'.taskList.eraseP _).map Task.row
      rw [map_row_eraseP, map_row_eraseP, h]
    | notifyDataSetChanged => exact h
  | putIcon hicon png => exact h
  | setTitle hwnd title =>
    show (setTitle c.taskList hwnd title).map Task.row = (setTitle c'.taskList hwnd title).map Task.row
    rw [map_row_setTitle, map_row_setTitle, h]

theorem SameRows.foldl_perform {c c' : ClientState} (h : SameRows c.taskList c'.taskList)
    (acts : List ClientAct) :
    SameRows (acts.foldl ClientState.perform c).taskList (acts.foldl ClientState.perform c').taskList := by
  induction acts generalizing c c' with
  | nil => exact h
  | cons act acts ih => exact ih (h.perform act)

namespace ClientThreads

/-- The simulation up to titles. -/
def SimRows (target : ClientState) (t : ClientThreads) : Prop :=
  ∃ target', Sim target' t ∧ SameRows target'.taskList target.taskList

/-- A lookup out of time leads elsewhere, but to the same rows. -/
theorem simRows_untimely {target : ClientState} {t t' : ClientThreads} {side : Side} (h : Sim target t)
    (hg : ¬ t.Timely side) (hs : clientStep t side = some t') : SimRows target t' := by
  obtain ⟨rfl, hf, hwnd, title, todo, hl⟩ := untimely_cases hg
  have hu : ¬ t.UpToDate hwnd := by
    unfold Timely at hg
    rw [hf, hl] at hg
    exact hg
  obtain ⟨-, hlost⟩ := lookup_lost h hf hl hu hs
  obtain ⟨target', hsim'⟩ := sim_untimely h hg hs
  refine ⟨target', hsim', ?_⟩
  change t.networkStep = some t' at hs
  unfold networkStep at hs
  rw [hf, hl] at hs
  obtain rfl := Option.some.inj hs
  rw [← hsim'.reach, ← h.reach, hl]
  refine SameRows.foldl_perform ?_ todo
  show (List.map _ _).map Task.row = (setTitle _ hwnd title).map Task.row
  rw [hlost, map_row_setTitle, assigned_of_found_none hf]

theorem simRows_step {target : ClientState} {t t' : ClientThreads} {side : Side} (h : SimRows target t)
    (hs : clientStep t side = some t') : SimRows target t' := by
  obtain ⟨target', hsim, hrows⟩ := h
  by_cases hg : t.Timely side
  · exact ⟨target', sim_step hsim hg hs, hrows⟩
  · obtain ⟨target'', hsim', hrows'⟩ := simRows_untimely hsim hg hs
    exact ⟨target'', hsim', hrows'.trans hrows⟩

/-! ## The threads come to rest -/

/-- What is left to do; an action may become a runnable or an assignment. -/
def rank (t : ClientThreads) : Nat := 3 * t.todo.length + 2 * t.found.toList.length + t.queue.length

theorem runOnUiThread_queue_length (t : ClientThreads) (op : UiOp) :
    (t.runOnUiThread op).queue.length = t.queue.length + 1 := by
  cases op <;> exact List.length_append

theorem runOnUiThread_found (t : ClientThreads) (op : UiOp) : (t.runOnUiThread op).found = t.found := by
  cases op <;> rfl

/-- Every step of either thread leaves less to do. -/
theorem rank_step {t t' : ClientThreads} {side : Side} (hs : clientStep t side = some t') :
    t'.rank < t.rank := by
  cases side with
  | ui =>
    obtain ⟨heap, next, taskList, queue, iconMap, todo, found⟩ := t
    cases queue with
    | nil => cases hs
    | cons op queue =>
      obtain rfl := Option.some.inj hs
      show 3 * todo.length + 2 * found.toList.length + queue.length <
        3 * todo.length + 2 * found.toList.length + (queue.length + 1)
      omega
  | network =>
    change t.networkStep = some t' at hs
    unfold networkStep at hs
    cases hf : t.found with
    | some p =>
      rw [hf] at hs
      obtain rfl := Option.some.inj hs
      unfold rank
      rw [hf]
      show 3 * t.todo.length + 2 * 0 + t.queue.length < 3 * t.todo.length + 2 * 1 + t.queue.length
      omega
    | none =>
      rw [hf] at hs
      cases hl : t.todo with
      | nil =>
        rw [hl] at hs
        cases hs
      | cons act todo =>
        rw [hl] at hs
        unfold rank
        rw [hl, hf, List.length_cons]
        cases act with
        | runOnUiThread op =>
          obtain rfl := Option.some.inj hs
          show 3 * todo.length + 2 * (t.runOnUiThread op).found.toList.length +
            (t.runOnUiThread op).queue.length < _
          rw [runOnUiThread_found, hf, runOnUiThread_queue_length]
          omega
        | putIcon hicon png =>
          obtain rfl := Option.some.inj hs
          show 3 * todo.length + 2 * 0 + t.queue.length < 3 * (todo.length + 1) + 2 * 0 + t.queue.length
          omega
        | setTitle hwnd title =>
          obtain rfl := Option.some.inj hs
          show 3 * todo.length + 2 * (Option.map _ _).toList.length + t.queue.length < _
          have hone : ∀ o : Option (Nat × List Byte), o.toList.length ≤ 1 := by
            intro o
            cases o <;> simp
          have := hone ((t.taskList.find? (t.hwndOf · == hwnd)).map (·, title))
          omega

theorem enabled_of_not_finished (t : ClientThreads) (h : ¬ t.Finished) : ∃ side t', clientStep t side = some t' := by
  obtain ⟨heap, next, taskList, queue, iconMap, todo, found⟩ := t
  cases queue with
  | cons op queue => exact ⟨.ui, _, rfl⟩
  | nil =>
    cases found with
    | some p => exact ⟨.network, _, rfl⟩
    | none =>
      cases todo with
      | nil => exact absurd ⟨rfl, rfl, rfl⟩ h
      | cons act todo => cases act <;> exact ⟨.network, _, rfl⟩

theorem finishes (t : ClientThreads) : ∃ ls t', run clientStep t ls = some t' ∧ t'.Finished :=
  exists_run_of_measure rank (fun _ _ _ => rank_step) enabled_of_not_finished t

theorem SimRows.rows {target : ClientState} {t : ClientThreads} (h : SimRows target t) (ht : t.Finished) :
    SameRows t.tasks target.taskList := by
  obtain ⟨target', hsim, hrows⟩ := h
  rw [hsim.tasks ht]
  exact hrows

end ClientThreads

/-! ## The server's side -/

theorem perform_taskList_congr {c c' : ClientState} (h : c.taskList = c'.taskList) (act : ClientAct) :
    (c.perform act).taskList = (c'.perform act).taskList := by
  cases act with
  | runOnUiThread op => exact congrArg op.run h
  | putIcon hicon png => exact h
  | setTitle hwnd title => exact congrArg (setTitle · hwnd title) h

theorem foldl_perform_taskList_congr {c c' : ClientState} (h : c.taskList = c'.taskList)
    (acts : List ClientAct) :
    (acts.foldl ClientState.perform c).taskList = (acts.foldl ClientState.perform c').taskList := by
  induction acts generalizing c c' with
  | nil => exact h
  | cons act acts ih => exact ih (perform_taskList_congr h act)

/-- An icon that arrives otherwise than it was meant changes nothing in the list. -/
theorem applyAll_sentMsg (ps : List Packet) {c c' : ClientState} (h : c.taskList = c'.taskList) :
    (c.applyAll (ps.map Packet.sentMsg)).taskList = (c'.applyAll (ps.map Packet.msg)).taskList := by
  induction ps generalizing c c' with
  | nil => exact h
  | cons p ps ih =>
    refine ih ?_
    cases p with
    | sendIcon hIcon calls => exact h
    | activeTaskList tasks => exact foldl_perform_taskList_congr h _
    | addTask hwnd hIcon title => exact foldl_perform_taskList_congr h _
    | removeTask hwnd => exact foldl_perform_taskList_congr h _
    | updateTask hwnd title => exact foldl_perform_taskList_congr h _

/-- What the whole stream leads to is the client that agrees with the server. -/
theorem target_taskList {sent : List Packet} {frames : List (List Byte)}
    (h : sent.mapM Packet.frame = some frames) :
    ((clientThreadRun frames.flatten).log.foldl ClientState.perform ClientState.init).taskList =
      (clientOf sent).taskList := by
  rw [log_built h, List.foldl_flatMap]
  exact applyAll_sentMsg sent rfl

/-! ## Both sides -/

/-- **The list mirrors the map.**  For any handlers whose frames were built, and any order of the
client's threads on the bytes: at rest the list has one task for each window of the map, with
the icon the map has for it, and each has the title last sent for its window if every lookup
was in time.  The threads can always come to rest, and do after so many steps. -/
theorem list_mirrors_map (es : List Event) (frames : List (List Byte)) (ls : List Side) (t : ClientThreads)
    (h : (es.foldl handle Session.init).sent.mapM Packet.frame = some frames)
    (hr : run clientStep (ClientThreads.reading (clientThreadRun frames.flatten).log) ls = some t) :
    let s := es.foldl handle Session.init
    (t.Finished → (t.tasks.map Task.hwnd).Perm (s.keys.map Handle.toInt) ∧
      ∀ task ∈ t.tasks, ∀ k, task.hwnd = Handle.toInt k →
        (s.wm.activeWindowTasks.lookup k).map Handle.toInt = some task.hicon) ∧
    (t.Finished → Guarded clientStep ClientThreads.Timely
        (ClientThreads.reading (clientThreadRun frames.flatten).log) ls →
      ∀ task ∈ t.tasks, ∀ k, task.hwnd = Handle.toInt k →
        (lastTitle k s.sent).map (·.text.bytes ++ [0]) = some task.title) ∧
    ls.length ≤ 3 * (clientThreadRun frames.flatten).log.length ∧
    ∃ ls' t', run clientStep t ls' = some t' ∧ t'.Finished := by
  intro s
  have hagree : Agrees s := agrees_run es Session.init agrees_init
  have htarget : _ = (clientOf s.sent).taskList := target_taskList h
  have hstart := ClientThreads.sim_reading (clientThreadRun frames.flatten).log
  refine ⟨fun ht => ?_, fun ht hg => ?_, ?_, t.finishes⟩
  · have hsim := run_of_invariant (fun _ _ _ => ClientThreads.simRows_step) ⟨_, hstart, rfl⟩ hr
    have hrows := hsim.rows ht
    rw [htarget] at hrows
    refine ⟨?_, fun task hmem k hk => ?_⟩
    · rw [map_hwnd, hrows, ← map_hwnd]
      exact hagree.hwnds
    · -- the task of the server's picture with the same handle and icon
      have hrow : task.row ∈ (clientOf s.sent).taskList.map Task.row := hrows ▸ List.mem_map_of_mem hmem
      obtain ⟨task', hmem', he⟩ := List.mem_map.mp hrow
      obtain ⟨hhwnd, hhicon⟩ := Prod.mk.inj he
      rw [← hhicon]
      exact hagree.icons task' hmem' k (hhwnd.trans hk)
  · have hsim := (Guarded.always (fun _ _ _ h hg hs => ClientThreads.sim_step h hg hs) (fun _ h => h) ls
      hstart hg).run hr
    have htasks := hsim.tasks ht
    rw [htarget] at htasks
    intro task hmem k hk
    exact hagree.titles task (htasks ▸ hmem) k hk
  · exact length_le_of_measure ClientThreads.rank (fun _ _ _ => ClientThreads.rank_step) hr

end

/-- A window is created and renamed, and its row is listed before its title is looked up. -/
theorem list_mirrors_map_renamed :
    letI := BitmapFactory.pngOnly
    let es : List Event := [.create default (Handle.ofInt 7), .rename default (Handle.ofInt 7)]
    let s := es.foldl handle Session.init
    ∃ frames t, s.sent.mapM Packet.frame = some frames ∧
      run clientStep (ClientThreads.reading (clientThreadRun frames.flatten).log)
        [.network, .network, .ui, .network, .network, .network, .network, .ui, .ui] = some t ∧
      t.tasks = [⟨7, 0, [0]⟩] ∧ (t.tasks.map Task.hwnd).Perm (s.keys.map Handle.toInt) ∧
      ∀ task ∈ t.tasks, ∀ k, task.hwnd = Handle.toInt k →
        (lastTitle k s.sent).map (·.text.bytes ++ [0]) = some task.title := by
  let := BitmapFactory.pngOnly
  intro es s
  have hsent : s.sent = [.sendIcon NULL default, .addTask (Handle.ofInt 7) NULL (getWindowTitle default),
      .updateTask (Handle.ofInt 7) (getWindowTitle default)] := rfl
  obtain ⟨frames, hframes⟩ : ∃ frames, s.sent.mapM Packet.frame = some frames :=
    exists_frames_cons (frame_unconverted _)
      (exists_frames_cons (encodeAddTask_eq _ _ _) (exists_frames_cons (encodeUpdateTask_eq _ _) ⟨[], rfl⟩))
  have hlog := log_built hframes
  have hrun : ∃ t, run clientStep (ClientThreads.reading (clientThreadRun frames.flatten).log)
      [.network, .network, .ui, .network, .network, .network, .network, .ui, .ui] = some t ∧
      t.Finished ∧ t.tasks = [⟨7, 0, [0]⟩] ∧
      Guarded clientStep ClientThreads.Timely (ClientThreads.reading (clientThreadRun frames.flatten).log)
        [.network, .network, .ui, .network, .network, .network, .network, .ui, .ui] := by
    rw [hlog, hsent]
    refine ⟨_, rfl, ⟨rfl, rfl, rfl⟩, by decide, ?_⟩
    refine guarded_cons rfl trivial (guarded_cons rfl trivial (guarded_cons rfl trivial
      (guarded_cons rfl trivial (guarded_cons rfl ?_ (guarded_cons rfl trivial
        (guarded_cons rfl trivial (guarded_cons rfl trivial (guarded_cons rfl trivial trivial))))))))
    exact Or.inr ⟨⟨0, by decide, by decide⟩, by decide, by decide⟩
  obtain ⟨t, hr, ht, htasks, hg⟩ := hrun
  obtain ⟨hrows, htitles, -, -⟩ := list_mirrors_map es frames _ t hframes hr
  exact ⟨frames, t, hframes, hr, htasks, (hrows ht).1, htitles ht hg⟩

/-! ## Both sides, with the server's threads interleaved -/

section
variable [BitmapFactory]

/-- At rest the list shows the windows of the frames, whatever the order of the client's threads. -/
theorem hwnds_at_rest {s : Session} {frames : List (List Byte)} {ls : List Side} {u : ClientThreads}
    (h : s.sent.mapM Packet.frame = some frames)
    (hr : run clientStep (ClientThreads.reading (clientThreadRun frames.flatten).log) ls = some u)
    (hu : u.Finished) : u.tasks.map Task.hwnd = clientHwnds s := by
  have hsim := run_of_invariant (fun _ _ _ => ClientThreads.simRows_step)
    ⟨_, ClientThreads.sim_reading (clientThreadRun frames.flatten).log, rfl⟩ hr
  have hrows := hsim.rows hu
  rw [target_taskList h] at hrows
  rw [map_hwnd, hrows, ← map_hwnd]
  rfl

/-- What a client at rest shows that was sent the frames. -/
def ShownBy (frames : List (List Byte)) (shown : List Word) : Prop :=
  ∃ ls u, run clientStep (ClientThreads.reading (clientThreadRun frames.flatten).log) ls = some u ∧
    u.Finished ∧ shown = u.tasks.map Task.hwnd

/-- Whatever it was sent, a client comes to rest. -/
theorem exists_shownBy (frames : List (List Byte)) : ∃ shown, ShownBy frames shown := by
  obtain ⟨ls, u, hr, hu⟩ := (ClientThreads.reading (clientThreadRun frames.flatten).log).finishes
  exact ⟨_, ls, u, hr, hu, rfl⟩

theorem ShownBy.eq_clientHwnds {s : Session} {frames : List (List Byte)} {shown : List Word}
    (hshown : ShownBy frames shown) (h : s.sent.mapM Packet.frame = some frames) :
    shown = clientHwnds s := by
  obtain ⟨ls, u, hr, hu, rfl⟩ := hshown
  exact hwnds_at_rest h hr hu

/-- **Four threads.**  While the server's two threads send their frames in order: between handlers,
if the frames were built, a client comes to rest, and all that one at rest can show are the
windows of the map, in whatever order its own threads run.  The first step out of order can
end with the server's handlers done and, if the frames were built, every client at rest
showing other windows. -/
theorem shown_mirrors_map (steps : List ThreadStep) (t : Threads)
    (hg : Guarded threadStep InOrder Threads.init steps) (hrun : run threadStep Threads.init steps = some t) :
    (t.recv = .idle → t.main = .idle → ∀ frames, t.session.sent.mapM Packet.frame = some frames →
      (∃ shown, ShownBy frames shown) ∧
      ∀ shown, ShownBy frames shown → shown.Perm (mapHwnds t.session)) ∧
    ∀ l t', threadStep t l = some t' → ¬ InOrder t l →
      ∃ ls t'', (∀ l' ∈ ls, l' = .recv ∨ l' = .main) ∧ run threadStep t' ls = some t'' ∧
        t''.recv = .idle ∧ t''.main = .idle ∧
        ∀ frames, t''.session.sent.mapM Packet.frame = some frames →
          (∃ shown, ShownBy frames shown) ∧
          ∀ shown, ShownBy frames shown → ¬ shown.Perm (mapHwnds t''.session) := by
  have hinv : ThreadsInv t :=
    (Guarded.always (fun _ _ _ h hg hs => threadsInv_step h hg hs) (fun _ h => h) steps threadsInv_init hg).run hrun
  constructor
  · refine fun hrecv hmain frames h => ⟨exists_shownBy frames, fun shown hshown => ?_⟩
    rw [hshown.eq_clientHwnds h]
    exact hinv.settled hrecv hmain
  · intro l t' hs hout
    obtain ⟨ls, t'', hls, hr', hrecv, hmain, hwrong⟩ := wrong_of_not_inOrder hinv hout hs
    refine ⟨ls, t'', hls, hr', hrecv, hmain, fun frames h => ⟨exists_shownBy frames, fun shown hshown => ?_⟩⟩
    rw [hshown.eq_clientHwnds h]
    exact hwrong

end

/-- A window is created and announced. -/
theorem shown_mirrors_map_created :
    letI := BitmapFactory.pngOnly
    ∃ t frames, run threadStep Threads.init [.create default (Handle.ofInt 7), .main, .main] = some t ∧
      t.session.sent.mapM Packet.frame = some frames ∧
      ShownBy frames [7] ∧ List.Perm [7] (mapHwnds t.session) := by
  let := BitmapFactory.pngOnly
  have hrun : ∃ t, run threadStep Threads.init [.create default (Handle.ofInt 7), .main, .main] = some t ∧
      t.recv = .idle ∧ t.main = .idle ∧ t.session.sent =
        [.sendIcon NULL default, .addTask (Handle.ofInt 7) NULL (getWindowTitle default)] :=
    ⟨_, rfl, rfl, rfl, rfl⟩
  obtain ⟨t, hrun, hrecv, hmain, hsent⟩ := hrun
  obtain ⟨frames, hframes⟩ : ∃ frames, t.session.sent.mapM Packet.frame = some frames := by
    rw [hsent]
    exact exists_frames_cons (frame_unconverted _) (exists_frames_cons (encodeAddTask_eq _ _ _) ⟨[], rfl⟩)
  have hshown : ShownBy frames [7] := by
    have hclient : ∃ u, run clientStep (ClientThreads.reading (clientThreadRun frames.flatten).log)
        [.network, .network, .network, .ui, .ui] = some u ∧ u.Finished ∧ [7] = u.tasks.map Task.hwnd := by
      rw [log_built hframes, hsent]
      exact ⟨_, rfl, ⟨rfl, rfl, rfl⟩, by decide⟩
    obtain ⟨u, hr, hu, htasks⟩ := hclient
    exact ⟨_, u, hr, hu, htasks⟩
  have hg : Guarded threadStep InOrder Threads.init [.create default (Handle.ofInt 7), .main, .main] :=
    guarded_cons rfl trivial (guarded_cons rfl trivial (guarded_cons rfl trivial trivial))
  exact ⟨t, frames, hrun, hframes, hshown,
    ((shown_mirrors_map _ t hg hrun).1 hrecv hmain frames hframes).2 [7] hshown⟩

end RemoteTaskbar
