import RemoteTaskbar.System.UiQueue
import RemoteTaskbar.System.Framing

/-!
# A stream that ends inside a frame

Four of the five kinds of frame are acted on once they are read whole, so a cut
inside one has no effect (`StopsQuiet`).  A task list is not: the list is cleared
once the type word is read, and each record is added as soon as it is there
(`cutPosts`).

What a cut frame posts comes behind everything else in the queue of the UI thread,
and no title is looked up after it, so the order of the two threads does not matter
for it (`finished_of_posts`).
-/

namespace RemoteTaskbar

open Wire Reader Trans

/-! ## What a cut frame still does -/

/-- What the first `k` bytes of a frame post to the UI thread, `k` less than all. -/
def cutPosts : Packet → Nat → List UiOp
  | .activeTaskList tasks, k =>
    if k < 4 then [] else .clear :: (wholes taskBytes tasks (k - 8)).map fun t => .add t.task
  | _, _ => []

theorem cutPosts_activeTaskList (tasks : List TaskRecord) (k : Nat) :
    cutPosts (.activeTaskList tasks) k =
      if k < 4 then [] else .clear :: (wholes taskBytes tasks (k - 8)).map fun t => .add t.task := rfl

theorem stopsQuiet_readInt (w : Word) : StopsQuiet readInt (beBytes w) := by
  intro k hk
  match k, hk with
  | 0, _ => rfl
  | 1, _ => rfl
  | 2, _ => rfl
  | 3, _ => rfl
  | k + 4, hk => exact absurd hk (by rw [beBytes_length]; omega)

theorem stopsShort_readInt_bind {α : Type} {f : Word → ClientReader α} {w : Word} {i : List Byte}
    {l : Nat → List ClientAct} (hf : StopsShort (f w) i l) :
    StopsShort (readInt >>= f) (beBytes w ++ i) fun k => if k < 4 then [] else l (k - 4) :=
  stopsShort_bind (reads_readInt w) (stopsQuiet_readInt w) hf

theorem stopsQuiet_readInt_bind {α : Type} {f : Word → ClientReader α} {w : Word} {i : List Byte}
    (hf : StopsQuiet (f w) i) : StopsQuiet (readInt >>= f) (beBytes w ++ i) :=
  stopsQuiet_bind (reads_readInt w) (stopsQuiet_readInt w) hf

theorem stopsQuiet_readBuffer (xs : List Byte) (h : xs.length < 2 ^ 31) :
    StopsQuiet (readBuffer (BitVec.ofNat 32 xs.length)) xs := by
  unfold readBuffer
  rw [toInt_ofNat_of_lt _ h, if_neg (by omega), Int.toNat_natCast]
  exact stopsQuiet_readFully xs

theorem stopsQuiet_title (title : WindowTitle) :
    StopsQuiet (readBuffer (BitVec.ofNat 32 (title.text.bytes.length + 1)))
      (title.text.bytes ++ [0]) := by
  have h := stopsQuiet_readBuffer (title.text.bytes ++ [0]) (title_length_lt title)
  rwa [List.length_append] at h

theorem stopsQuiet_readTask (t : TaskRecord) : StopsQuiet readTask (taskBytes t) := by
  unfold readTask taskBytes titleBytes
  exact stopsQuiet_readInt_bind (stopsQuiet_readInt_bind (stopsQuiet_readInt_bind
    (stopsShort_then (stopsQuiet_title t.title) _)))

/-! ## One frame -/

theorem wholes_taskBytes_zero (tasks : List TaskRecord) : wholes taskBytes tasks 0 = [] := by
  cases tasks with
  | nil => rfl
  | cons t tasks =>
    unfold wholes
    rw [if_neg (by simp [taskBytes])]

theorem stopsShort_activeTaskList (tasks : List TaskRecord)
    (h : 4 + 4 + recordSize * tasks.length < 2 ^ 31) :
    StopsShort readMessage (Packet.activeTaskList tasks).bytes fun k =>
      (cutPosts (.activeTaskList tasks) k).map .runOnUiThread := by
  have hrecords := stopsShort_readMany taskBytes (fun t => [addTask t.task]) TaskRecord.task tasks
    (fun t _ => reads_readTask t) fun t _ => stopsQuiet_readTask t
  rw [← toInt_numTasks h] at hrecords
  -- the records behind the count, the count behind the type word
  have hbody := stopsShort_then hrecords fun tasks' => do
    emit updateItems
    pure (some (ServerMsg.activeTaskList tasks'))
  have hcount := stopsShort_readInt_bind (f := fun numTasks => do
    let tasks' ← readMany readTask numTasks.toInt.toNat
    emit updateItems
    pure (some (ServerMsg.activeTaskList tasks'))) hbody
  have hmessage : StopsShort readMessage (Packet.activeTaskList tasks).bytes fun k =>
      if k < 4 then [] else clearTaskList :: if k - 4 < 4 then [] else
        (wholes taskBytes tasks (k - 4 - 4)).flatMap fun t => [addTask t.task] := by
    unfold readMessage Packet.bytes
    refine stopsShort_readInt_bind (l := fun k => clearTaskList :: if k < 4 then [] else
      (wholes taskBytes tasks (k - 4)).flatMap fun t => [addTask t.task]) ?_
    rw [readCase_activeTaskList]
    exact stopsShort_emit_bind clearTaskList hcount
  refine hmessage.congr fun k _ => ?_
  rw [cutPosts_activeTaskList]
  by_cases hk : k < 4
  · rw [if_pos hk, if_pos hk, List.map_nil]
  rw [if_neg hk, if_neg hk, List.map_cons, List.map_map]
  congr 1
  by_cases hcut : k - 4 < 4
  · have hnone : k - 8 = 0 := by omega
    rw [if_pos hcut, hnone, wholes_taskBytes_zero, List.map_nil]
  · rw [if_neg hcut, Nat.sub_sub]
    exact List.flatMap_pure_eq_map _ _

theorem stopsQuiet_sendIcon (hIcon : HICON) {calls : PngCalls} {png : List Byte}
    (h : calls.Complete png) : StopsQuiet readMessage (Packet.sendIcon hIcon calls).bytes := by
  unfold readMessage Packet.bytes
  refine stopsQuiet_readInt_bind ?_
  rw [readCase_sendIcon]
  exact stopsQuiet_readInt_bind (stopsQuiet_readInt_bind
    (stopsShort_then (stopsQuiet_readBuffer _ h.stream_length_lt) _))

theorem stopsQuiet_addTask (hwnd : HWND) (hIcon : HICON) (title : WindowTitle) :
    StopsQuiet readMessage (Packet.addTask hwnd hIcon title).bytes := by
  unfold readMessage Packet.bytes
  refine stopsQuiet_readInt_bind ?_
  rw [readCase_addTask]
  exact stopsShort_then (stopsQuiet_readTask ⟨hwnd, hIcon, title⟩) _

theorem stopsQuiet_removeTask (hwnd : HWND) : StopsQuiet readMessage (Packet.removeTask hwnd).bytes := by
  unfold readMessage Packet.bytes
  refine stopsQuiet_readInt_bind ?_
  rw [readCase_removeTask]
  exact stopsShort_then (stopsQuiet_readInt _) _

theorem stopsQuiet_updateTask (hwnd : HWND) (title : WindowTitle) :
    StopsQuiet readMessage (Packet.updateTask hwnd title).bytes := by
  unfold readMessage Packet.bytes titleBytes
  refine stopsQuiet_readInt_bind ?_
  rw [readCase_updateTask]
  exact stopsQuiet_readInt_bind (stopsQuiet_readInt_bind (stopsShort_then (stopsQuiet_title title) _))

/-- A frame that is cut is acted on as far as `cutPosts` says. -/
theorem stopsShort_packet (p : Packet) (h : p.Fits) :
    StopsShort readMessage p.bytes fun k => (cutPosts p k).map .runOnUiThread := by
  cases p with
  | activeTaskList tasks => exact stopsShort_activeTaskList tasks h
  | sendIcon hIcon calls =>
    obtain ⟨png, hpng⟩ := h
    exact stopsQuiet_sendIcon hIcon hpng
  | addTask hwnd hIcon title => exact stopsQuiet_addTask hwnd hIcon title
  | removeTask hwnd => exact stopsQuiet_removeTask hwnd
  | updateTask hwnd title => exact stopsQuiet_updateTask hwnd title

/-! ## Two threads on a stream -/

namespace ClientThreads

section
variable [BitmapFactory]

/-- The two threads with these actions still to do. -/
def reading (log : List ClientAct) : ClientThreads := { start [] with todo := log }

/-- The task list once the queue has run and the assignment looked up is made. -/
def listed (t : ClientThreads) : List Task := t.drained.map t.assigned

theorem sim_reading (log : List ClientAct) :
    Sim (log.foldl ClientState.perform ClientState.init) (reading log) :=
  ⟨fun _ ht => absurd ht List.not_mem_nil, List.nodup_nil, rfl⟩

section
variable {t t' : ClientThreads} {side : Side}

/-- Only a lookup is ever too early. -/
theorem untimely_cases (hg : ¬ t.Timely side) :
    side = .network ∧ t.found = none ∧ ∃ hwnd title todo, t.todo = .setTitle hwnd title :: todo := by
  cases side with
  | ui => exact absurd trivial hg
  | network =>
    simp only [Timely] at hg
    split at hg
    · rename_i hf hl
      exact ⟨rfl, hf, _, _, _, hl⟩
    · exact absurd trivial hg

theorem sim_untimely {target : ClientState} (h : Sim target t) (hg : ¬ t.Timely side)
    (hs : clientStep t side = some t') : ∃ target', Sim target' t' := by
  obtain ⟨rfl, hf, hwnd, title, todo, hl⟩ := untimely_cases hg
  change t.networkStep = some t' at hs
  unfold networkStep at hs
  rw [hf, hl] at hs
  obtain rfl := Option.some.inj hs
  exact ⟨_, h.fresh, h.nodup, rfl⟩

/-- In time or not, a step keeps the references apart. -/
theorem exists_sim_step (h : ∃ target, Sim target t) (hs : clientStep t side = some t') :
    ∃ target, Sim target t' := by
  obtain ⟨target, h⟩ := h
  by_cases hg : t.Timely side
  · exact ⟨target, sim_step h hg hs⟩
  · exact sim_untimely h hg hs

/-- A step does the first thing left to do, whatever comes behind it, or none of it. -/
theorem step_todo (hs : clientStep t side = some t') :
    (t'.todo = t.todo ∧
      ∀ todo, clientStep { t with todo := todo } side = some { t' with todo := todo }) ∨
    ∃ act, t.todo = act :: t'.todo ∧
      ∀ todo, clientStep { t with todo := act :: todo } side = some { t' with todo := todo } := by
  obtain ⟨heap, next, taskList, queue, iconMap, todo, found⟩ := t
  cases side with
  | ui =>
    cases queue with
    | nil => cases hs
    | cons op queue =>
      cases hs
      exact Or.inl ⟨rfl, fun _ => rfl⟩
  | network =>
    cases found with
    | some p =>
      cases hs
      exact Or.inl ⟨rfl, fun _ => rfl⟩
    | none =>
      cases todo with
      | nil => cases hs
      | cons act todo =>
        refine Or.inr ⟨act, ?_⟩
        cases act with
        | runOnUiThread op =>
          cases hs
          exact ⟨rfl, fun _ => by cases op <;> rfl⟩
        | putIcon hicon png =>
          cases hs
          exact ⟨rfl, fun _ => rfl⟩
        | setTitle hwnd title =>
          cases hs
          exact ⟨rfl, fun _ => rfl⟩

theorem todo_step (hs : clientStep t side = some t') : t'.todo <:+ t.todo := by
  rcases step_todo hs with ⟨hl, -⟩ | ⟨act, hl, -⟩
  · exact hl ▸ List.suffix_rfl
  · exact hl ▸ List.suffix_cons act t'.todo

/-- Up to what is behind it, the threads do what they do without it. -/
theorem run_of_behind {ls : List Side} {before behind : List ClientAct} (hl : t.todo = before ++ behind)
    (hr : run clientStep t ls = some t') (hl' : t'.todo = behind) :
    run clientStep { t with todo := before } ls = some { t' with todo := [] } := by
  induction ls generalizing t before with
  | nil =>
    obtain rfl := Option.some.inj hr
    rw [hl', List.self_eq_append_left] at hl
    rw [hl]
    rfl
  | cons side ls ih =>
    obtain ⟨t₁, hs, hr⟩ := Option.bind_eq_some_iff.mp hr
    show (clientStep _ side).bind (run clientStep · ls) = _
    rcases step_todo hs with ⟨hl₁, hsame⟩ | ⟨act, hl₁, hsame⟩
    · rw [hsame before]
      exact ih (hl₁.trans hl) hr
    · cases before with
      | nil =>
        -- it would be gone by the end
        have hle := run_of_invariant (I := fun u => u.todo <:+ t₁.todo)
          (fun u side u' hu hs => (todo_step hs).trans hu) List.suffix_rfl hr
        have hlen := hle.length_le
        rw [hl', ← List.nil_append behind, ← hl, hl₁, List.length_cons] at hlen
        omega
      | cons act' before =>
        rw [hl₁, List.cons_append, List.cons.injEq] at hl
        obtain ⟨rfl, hl⟩ := hl
        rw [hsame before]
        exact ih hl hr

/-! ## What is posted at the end -/

theorem timely_of_posts (h : ∀ act ∈ t.todo, ∃ op, act = .runOnUiThread op) : t.Timely side := by
  cases side with
  | ui => trivial
  | network =>
    unfold Timely
    cases t.found with
    | some p => trivial
    | none =>
      cases hl : t.todo with
      | nil => trivial
      | cons act todo =>
        obtain ⟨op, rfl⟩ := h act (by rw [hl]; exact List.mem_cons_self)
        trivial

theorem Sim.iconMap {target : ClientState} (h : Sim target t) (ht : t.Finished) :
    t.iconMap = target.iconMap := by
  rw [← h.reach, ht.1]
  rfl

/-- Where only runnables are left to post, the threads end with these run on the list. -/
theorem finished_of_posts {ls : List Side} {posted : List UiOp} (h : ∃ target, Sim target t)
    (hl : t.todo = posted.map .runOnUiThread) (hr : run clientStep t ls = some t') (ht : t'.Finished) :
    t'.tasks = posted.foldl UiOp.run t.listed ∧ t'.iconMap = t.iconMap := by
  obtain ⟨target, hsim⟩ := h
  have hstep : ∀ (u : ClientThreads) (side : Side) (u' : ClientThreads),
      (Sim target u ∧ ∀ act ∈ u.todo, ∃ op, act = .runOnUiThread op) → clientStep u side = some u' →
        Sim target u' ∧ ∀ act ∈ u'.todo, ∃ op, act = .runOnUiThread op := by
    rintro u side u' ⟨hu, hposts⟩ hs
    exact ⟨sim_step hu (timely_of_posts hposts) hs, fun act ha => hposts act ((todo_step hs).subset ha)⟩
  have hposts : ∀ act ∈ t.todo, ∃ op, act = .runOnUiThread op := by
    intro act ha
    rw [hl] at ha
    obtain ⟨op, -, rfl⟩ := List.mem_map.mp ha
    exact ⟨op, rfl⟩
  have hend := (run_of_invariant hstep ⟨hsim, hposts⟩ hr).1
  have htarget := hsim.reach
  rw [hl, foldl_perform_posts] at htarget
  constructor
  · rw [hend.tasks ht, ← htarget]
    rfl
  · rw [hend.iconMap ht, ← htarget]

end

end

end ClientThreads

/-! ## The task list behind a cut -/

/-- What a frame cut at `k` posts changes nothing: it is no task list cut behind its type
word, or the records read whole are the list as it is. -/
def CutHarmless (p : Packet) (k : Nat) (taskList : List Task) : Prop :=
  ∀ tasks, p = .activeTaskList tasks → 4 ≤ k →
    taskList = (wholes taskBytes tasks (k - 8)).map TaskRecord.task

theorem foldl_cutPosts_iff (p : Packet) (k : Nat) (taskList : List Task) :
    (cutPosts p k).foldl UiOp.run taskList = taskList ↔ CutHarmless p k taskList := by
  cases p with
  | activeTaskList tasks =>
    rw [cutPosts_activeTaskList]
    by_cases hk : k < 4
    · rw [if_pos hk]
      exact iff_of_true rfl fun _ _ h => absurd h (Nat.not_le.mpr hk)
    · have hadds : (wholes taskBytes tasks (k - 8)).map (fun t => UiOp.add t.task) =
          ((wholes taskBytes tasks (k - 8)).map TaskRecord.task).map .add := by
        rw [List.map_map]
        rfl
      rw [if_neg hk, List.foldl_cons, hadds, foldl_run_add]
      constructor
      · intro h tasks' htasks _
        cases htasks
        exact h.symm
      · exact fun h => (h tasks rfl (Nat.not_lt.mp hk)).symm
  | sendIcon hIcon calls => exact iff_of_true rfl fun _ h => nomatch h
  | addTask hwnd hIcon title => exact iff_of_true rfl fun _ h => nomatch h
  | removeTask hwnd => exact iff_of_true rfl fun _ h => nomatch h
  | updateTask hwnd title => exact iff_of_true rfl fun _ h => nomatch h

theorem log_complete (ps : List Packet) (hps : ∀ q ∈ ps, q.Fits) :
    (clientThreadRun (ps.map Packet.bytes).flatten).log = (ps.map Packet.msg).flatMap ServerMsg.acts := by
  have h := clientThreadRun_append ps hps []
  have hempty : clientThreadRun [] = ⟨[], [], []⟩ := rfl
  rw [List.append_nil, hempty, List.append_nil] at h
  rw [h]

/-- What a cut in the frame of `p` adds to what the complete frames of `ps` do. -/
theorem log_cut (ps : List Packet) (hps : ∀ q ∈ ps, q.Fits) (p : Packet) (hp : p.Fits) {k : Nat}
    (hk : k < p.bytes.length) :
    (clientThreadRun ((ps.map Packet.bytes).flatten ++ p.bytes.take k)).log =
      (clientThreadRun (ps.map Packet.bytes).flatten).log ++ (cutPosts p k).map .runOnUiThread := by
  have hcut : clientThreadRun (p.bytes.take k) =
      ⟨(cutPosts p k).map .runOnUiThread, [], p.bytes.take k⟩ :=
    loop_of_stops (stopsShort_packet p hp k hk)
  rw [clientThreadRun_append ps hps, log_complete ps hps, hcut]

/-- **A stream cut inside a frame.**  The client ends as the complete frames leave it exactly
if the cut is harmless: carrying out the actions in order, and with both threads in any order,
where `t` is any state in which the network thread has carried out the complete frames. -/
theorem cut_frame_iff [BitmapFactory] (ps : List Packet) (hps : ∀ q ∈ ps, q.Fits) (p : Packet) (hp : p.Fits) (k : Nat)
    (hk : k < p.bytes.length) :
    ∃ frames frame, ps.mapM Packet.frame = some frames ∧ p.frame = some frame ∧
      let complete := (clientThreadRun frames.flatten).log
      let cut := (clientThreadRun (frames.flatten ++ frame.take k)).log
      (∀ c₀ : ClientState, let c := complete.foldl ClientState.perform c₀
        cut.foldl ClientState.perform c₀ = c ↔ CutHarmless p k c.taskList) ∧
      ∀ ls t, run clientStep (ClientThreads.reading cut) ls = some t → t.todo = cut.drop complete.length →
        run clientStep (ClientThreads.reading complete) ls = some { t with todo := [] } ∧
        ∀ ls' t' ls₀ t₀, run clientStep t ls' = some t' → t'.Finished →
          run clientStep { t with todo := [] } ls₀ = some t₀ → t₀.Finished →
            ((t'.tasks = t₀.tasks ∧ t'.iconMap = t₀.iconMap) ↔ CutHarmless p k t₀.tasks) := by
  refine ⟨ps.map Packet.bytes, p.bytes, mapM_frame ps hps, frame_eq p hp, ?_⟩
  intro complete cut
  have hcut : cut = complete ++ (cutPosts p k).map .runOnUiThread := log_cut ps hps p hp hk
  refine ⟨?_, ?_⟩
  · intro c₀ c
    rw [hcut, List.foldl_append, foldl_perform_posts, ← foldl_cutPosts_iff]
    constructor
    · exact fun h => congrArg ClientState.taskList h
    · exact fun h => congrArg (ClientState.mk · c.iconMap) h
  · intro ls t hr hl
    rw [hcut, List.drop_left] at hl
    have hsim := run_of_invariant (I := fun u => ∃ target, ClientThreads.Sim target u)
      (fun _ _ _ => ClientThreads.exists_sim_step) ⟨_, ClientThreads.sim_reading cut⟩ hr
    refine ⟨ClientThreads.run_of_behind (t := ClientThreads.reading cut) hcut hr hl, ?_⟩
    intro ls' t' ls₀ t₀ hr' ht' hr₀ ht₀
    obtain ⟨htasks, hicons⟩ := ClientThreads.finished_of_posts hsim hl hr' ht'
    have hsim₀ : ∃ target, ClientThreads.Sim target { t with todo := [] } := by
      obtain ⟨target, h⟩ := hsim
      exact ⟨_, h.fresh, h.nodup, rfl⟩
    have hnone : ({ t with todo := [] } : ClientThreads).todo = ([] : List UiOp).map .runOnUiThread := rfl
    obtain ⟨htasks₀, hicons₀⟩ := ClientThreads.finished_of_posts hsim₀ hnone hr₀ ht₀
    have hlisted : t₀.tasks = t.listed := htasks₀
    rw [htasks, hicons, hicons₀, hlisted, ← foldl_cutPosts_iff]
    exact and_iff_left rfl

/-- A removal cut in its handle removes nothing. -/
theorem cut_frame_removal :
    letI := BitmapFactory.pngOnly
    let ps : List Packet := [.addTask (Handle.ofInt 7) NULL (getWindowTitle default)]
    let p : Packet := .removeTask (Handle.ofInt 7)
    ∃ frames frame, ps.mapM Packet.frame = some frames ∧ p.frame = some frame ∧
      (clientThreadRun (frames.flatten ++ frame.take 7)).log.foldl ClientState.perform ClientState.init =
        (clientThreadRun frames.flatten).log.foldl ClientState.perform ClientState.init := by
  let := BitmapFactory.pngOnly
  intro ps p
  have hps : ∀ q ∈ ps, q.Fits := by
    intro q hq
    rw [List.mem_singleton.mp hq]
    trivial
  obtain ⟨frames, frame, hframes, hframe, hstate, -⟩ := cut_frame_iff ps hps p trivial 7 (by decide)
  exact ⟨frames, frame, hframes, hframe, (hstate ClientState.init).mpr fun _ h => nomatch h⟩

/-- The type word of a task list alone empties the list. -/
theorem cut_list_clears :
    letI := BitmapFactory.pngOnly
    let task : TaskRecord := ⟨Handle.ofInt 7, NULL, getWindowTitle default⟩
    let ps : List Packet := [.addTask task.hwnd task.hIcon task.title]
    let p : Packet := .activeTaskList [task]
    ∃ frames frame, ps.mapM Packet.frame = some frames ∧ p.frame = some frame ∧ 4 < frame.length ∧
      (∃ t, run clientStep (ClientThreads.reading (clientThreadRun frames.flatten).log)
        [.network, .network, .ui, .ui] = some t ∧ t.Finished ∧ t.tasks = [task.task]) ∧
      ∃ t, run clientStep (ClientThreads.reading (clientThreadRun (frames.flatten ++ frame.take 4)).log)
        [.network, .network, .network, .ui, .ui, .ui] = some t ∧ t.Finished ∧ t.tasks = [] := by
  intro task ps p
  have hps : ∀ q ∈ ps, q.Fits := by
    intro q hq
    rw [List.mem_singleton.mp hq]
    trivial
  have hp : p.Fits := by
    show 4 + 4 + recordSize * 1 < 2 ^ 31
    decide
  refine ⟨ps.map Packet.bytes, p.bytes, mapM_frame ps hps, frame_eq p hp, by decide, ?_, ?_⟩
  · rw [log_complete ps hps]
    exact ⟨_, rfl, ⟨rfl, rfl, rfl⟩, by decide⟩
  · rw [log_cut ps hps p hp (by decide), log_complete ps hps]
    exact ⟨_, rfl, ⟨rfl, rfl, rfl⟩, by decide⟩

end RemoteTaskbar
