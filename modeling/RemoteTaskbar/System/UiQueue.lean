import Mathlib.Logic.Function.Basic
import RemoteTaskbar.Lib.Trans
import RemoteTaskbar.Client.TasksActivity

/-!
# The client's two threads

The network thread carries out the actions of the messages in order; what it
posts to the UI thread waits in a queue and runs at any later time.  A `Task` is
an object: the list and the queue hold references, and the title of a task is
changed through the reference a lookup returned, on the network thread and past
the queue.

Running out the queue gives the list the network thread has posted
(`ClientThreads.drained`).  All actions but the lookup commute with that.  The
lookup sees the list as it is: it finds the right task if the task is listed and
nothing in the queue removes it, and finding a wrong one does no harm if there is
no right one (`UpToDate`).
-/

namespace RemoteTaskbar

open Wire Trans

/-! ## The queue -/

instance : Inhabited Task := ⟨⟨0, 0, []⟩⟩

/-- A runnable in the queue of the UI thread, with a reference for its task. -/
inductive Runnable where
  | clear
  | add (task : Nat)
  | remove (hwnd : Word)
  | notifyDataSetChanged
deriving DecidableEq

def Runnable.run (hwndOf : Nat → Word) (taskList : List Nat) : Runnable → List Nat
  | clear => []
  | add task => taskList ++ [task]
  | remove hwnd => taskList.eraseP (hwndOf · == hwnd)
  | notifyDataSetChanged => taskList

/-- The tasks a queue adds. -/
def added (queue : List Runnable) : List Nat :=
  queue.filterMap fun
    | .add task => some task
    | _ => none

def drain (hwndOf : Nat → Word) (taskList : List Nat) (queue : List Runnable) : List Nat :=
  queue.foldl (Runnable.run hwndOf) taskList

theorem run_added_sublist (hwndOf : Nat → Word) (l : List Nat) (queue : List Runnable) (op : Runnable) :
    (op.run hwndOf l ++ added queue).Sublist (l ++ added (op :: queue)) := by
  cases op with
  | clear => exact List.sublist_append_right l (added queue)
  | add task =>
    show (l ++ [task] ++ added queue).Sublist (l ++ (task :: added queue))
    rw [List.append_assoc]
    exact List.Sublist.refl _
  | remove hwnd => exact List.Sublist.append List.eraseP_sublist (List.Sublist.refl _)
  | notifyDataSetChanged => exact List.Sublist.refl _

section
variable {hwndOf : Nat → Word} {l : List Nat} {queue : List Runnable}

theorem drain_sublist : (drain hwndOf l queue).Sublist (l ++ added queue) := by
  induction queue generalizing l with
  | nil => exact List.sublist_append_left l _
  | cons op queue ih => exact ih.trans (run_added_sublist hwndOf l queue op)

theorem drain_congr {hwndOf' : Nat → Word} (h : ∀ task ∈ l ++ added queue, hwndOf task = hwndOf' task) :
    drain hwndOf l queue = drain hwndOf' l queue := by
  induction queue generalizing l with
  | nil => rfl
  | cons op queue ih =>
    have hop : op.run hwndOf l = op.run hwndOf' l := by
      cases op with
      | remove hwnd =>
        refine List.eraseP_congr fun task ht => ?_
        rw [h task (List.mem_append_left _ ht)]
      | clear => rfl
      | add task => rfl
      | notifyDataSetChanged => rfl
    show drain hwndOf (op.run hwndOf l) queue = drain hwndOf' (op.run hwndOf' l) queue
    rw [← hop]
    exact ih fun task ht => h task ((run_added_sublist hwndOf l queue op).subset ht)

/-- A runnable that neither clears the list nor removes the handle keeps its first task. -/
theorem find_run {op : Runnable} {hwnd : Word} {task : Nat} (h : l.find? (hwndOf · == hwnd) = some task)
    (hclear : op ≠ .clear) (hremove : op ≠ .remove hwnd) :
    (op.run hwndOf l).find? (hwndOf · == hwnd) = some task := by
  cases op with
  | clear => exact absurd rfl hclear
  | add task' =>
    show (l ++ [task']).find? _ = _
    rw [List.find?_append, h]
    rfl
  | remove hwnd' =>
    show (l.eraseP _).find? _ = _
    rw [List.find?_eraseP_of_disjoint _ l, h]
    intro a ha
    have hne : hwnd ≠ hwnd' := fun e => hremove (by rw [e])
    rw [eq_of_beq ha]
    exact beq_false_of_ne hne
  | notifyDataSetChanged => exact h

/-- The task found is still the first with its handle when the queue has run, if
nothing in the queue removes it. -/
theorem find_drain {hwnd : Word} {task : Nat} (h : l.find? (hwndOf · == hwnd) = some task)
    (hclear : .clear ∉ queue) (hremove : .remove hwnd ∉ queue) :
    (drain hwndOf l queue).find? (hwndOf · == hwnd) = some task := by
  induction queue generalizing l with
  | nil => exact h
  | cons op queue ih =>
    rw [List.mem_cons, not_or] at hclear hremove
    exact ih (find_run h (Ne.symm hclear.1) (Ne.symm hremove.1)) hclear.2 hremove.2

/-- Otherwise it is gone. -/
theorem notMem_drain {hwnd : Word} {task : Nat} (hn : (l ++ added queue).Nodup)
    (h : l.find? (hwndOf · == hwnd) = some task) (hq : .clear ∈ queue ∨ .remove hwnd ∈ queue) :
    task ∉ drain hwndOf l queue := by
  induction queue generalizing l with
  | nil =>
    rcases hq with hq | hq
    · exact absurd hq List.not_mem_nil
    · exact absurd hq List.not_mem_nil
  | cons op queue ih =>
    show task ∉ drain hwndOf (op.run hwndOf l) queue
    have hfar : task ∉ added (op :: queue) := fun hm =>
      (List.nodup_append.mp hn).2.2 task (List.mem_of_find?_eq_some h) task hm rfl
    have hgone : task ∉ op.run hwndOf l → task ∉ added queue →
        task ∉ drain hwndOf (op.run hwndOf l) queue := by
      intro hl ha hm
      rcases List.mem_append.mp (drain_sublist.subset hm) with hm | hm
      · exact hl hm
      · exact ha hm
    by_cases hc : op = .clear
    · subst hc
      exact hgone List.not_mem_nil hfar
    · by_cases hr : op = .remove hwnd
      · subst hr
        exact hgone (List.notMem_eraseP_of_find? (List.nodup_append.mp hn).1 h) hfar
      · -- the runnable that removes it comes later
        refine ih (hn.sublist (run_added_sublist hwndOf l queue op)) (find_run h hc hr) ?_
        rcases hq with hq | hq
        · exact Or.inl ((List.mem_cons.mp hq).resolve_left (Ne.symm hc))
        · exact Or.inr ((List.mem_cons.mp hq).resolve_left (Ne.symm hr))

end

/-! ## Two threads -/

inductive Side where
  | network
  | ui

section
open BitmapFactory

variable [BitmapFactory]

structure ClientThreads where
  /-- the `Task` objects by reference; `next` is the next one -/
  heap : Nat → Task
  next : Nat
  taskList : List Nat
  queue : List Runnable
  iconMap : AList fun _ : Word => Option BitmapFactory.Bitmap
  /-- what the network thread has still to do -/
  todo : List ClientAct
  /-- the task it looked up, and the title to set -/
  found : Option (Nat × List Byte)

namespace ClientThreads

def start (ms : List ServerMsg) : ClientThreads where
  heap := fun _ => default
  next := 0
  taskList := []
  queue := []
  iconMap := ∅
  todo := ms.flatMap ServerMsg.acts
  found := none

def hwndOf (t : ClientThreads) (task : Nat) : Word := (t.heap task).hwnd

/-- `runOnUiThread`; a task to add is allocated for it. -/
def runOnUiThread (t : ClientThreads) : UiOp → ClientThreads
  | .clear => { t with queue := t.queue ++ [.clear] }
  | .add task =>
    { t with
      heap := Function.update t.heap t.next task
      next := t.next + 1
      queue := t.queue ++ [.add t.next] }
  | .remove hwnd => { t with queue := t.queue ++ [.remove hwnd] }
  | .notifyDataSetChanged => { t with queue := t.queue ++ [.notifyDataSetChanged] }

/-- The heap with the assignment of a title that is about to be made. -/
def assigned (t : ClientThreads) : Nat → Task :=
  match t.found with
  | none => t.heap
  | some (task, title) => Function.update t.heap task { t.heap task with title := title }

def networkStep (t : ClientThreads) : Option ClientThreads :=
  match t.found with
  | some _ => some { t with heap := t.assigned, found := none }
  | none =>
    match t.todo with
    | [] => none
    | .runOnUiThread op :: todo => some { t.runOnUiThread op with todo := todo }
    | .putIcon hicon png :: todo =>
      some { t with iconMap := t.iconMap.insert hicon (decodeByteArray png), todo := todo }
    | .setTitle hwnd title :: todo =>
      -- getTaskByHwnd
      some { t with found := (t.taskList.find? (t.hwndOf · == hwnd)).map (·, title), todo := todo }

def uiStep (t : ClientThreads) : Option ClientThreads :=
  match t.queue with
  | [] => none
  | op :: queue => some { t with taskList := op.run t.hwndOf t.taskList, queue := queue }

end ClientThreads

def clientStep (t : ClientThreads) : Side → Option ClientThreads
  | .network => t.networkStep
  | .ui => t.uiStep

/-! ## The simulation -/

namespace ClientThreads

/-- The tasks listed or about to be. -/
def refs (t : ClientThreads) : List Nat := t.taskList ++ added t.queue

/-- The task list once the queue has run. -/
def drained (t : ClientThreads) : List Nat := drain t.hwndOf t.taskList t.queue

/-- The task list as the user sees it. -/
def tasks (t : ClientThreads) : List Task := t.taskList.map t.heap

def Finished (t : ClientThreads) : Prop := t.todo = [] ∧ t.found = none ∧ t.queue = []

/-- Once the queue has run no task has the handle, or one is listed already and
nothing in the queue removes it. -/
def UpToDate (t : ClientThreads) (hwnd : Word) : Prop :=
  (∀ task ∈ t.drained, t.hwndOf task ≠ hwnd) ∨
    ((∃ task ∈ t.taskList, t.hwndOf task = hwnd) ∧ .clear ∉ t.queue ∧ .remove hwnd ∉ t.queue)

/-- Every lookup is made on a task list up to date for its handle. -/
def Timely (t : ClientThreads) : Side → Prop
  | .ui => True
  | .network =>
    match t.found, t.todo with
    | none, .setTitle hwnd _ :: _ => t.UpToDate hwnd
    | _, _ => True

/-- Distinct references, and `target` is what running out the queue and then doing
what is left to do leads to. -/
structure Sim (target : ClientState) (t : ClientThreads) : Prop where
  fresh : ∀ task ∈ t.refs, task < t.next
  nodup : t.refs.Nodup
  reach : t.todo.foldl ClientState.perform ⟨t.drained.map t.assigned, t.iconMap⟩ = target

theorem hwnd_assigned (t : ClientThreads) (task : Nat) : (t.assigned task).hwnd = t.hwndOf task := by
  unfold assigned hwndOf
  cases t.found with
  | none => rfl
  | some p =>
    obtain ⟨task', title⟩ := p
    by_cases h : task = task'
    · subst h
      simp
    · simp [h]

theorem assigned_of_found_none {t : ClientThreads} (hf : t.found = none) : t.assigned = t.heap := by
  unfold assigned
  rw [hf]

theorem Sim.drained_nodup {target : ClientState} {t : ClientThreads} (h : Sim target t) : t.drained.Nodup :=
  h.nodup.sublist drain_sublist

/-! ## Steps of the UI thread -/

theorem sim_ui {target : ClientState} {t t' : ClientThreads} (h : Sim target t) (hs : t.uiStep = some t') :
    Sim target t' := by
  obtain ⟨heap, next, taskList, queue, iconMap, todo, found⟩ := t
  cases queue with
  | nil => exact absurd hs (by simp [uiStep])
  | cons op queue =>
    obtain rfl := Option.some.inj hs
    have hsub := run_added_sublist (fun task => (heap task).hwnd) taskList queue op
    exact ⟨fun task ht => h.fresh task (hsub.subset ht), h.nodup.sublist hsub, h.reach⟩

/-! ## Steps of the network thread -/

section
variable {target : ClientState} {t t' : ClientThreads}

/-- The assignment is made; it was counted in since the lookup. -/
theorem sim_assign (h : Sim target t) : Sim target { t with heap := t.assigned, found := none } := by
  refine ⟨h.fresh, h.nodup, ?_⟩
  have hd : ClientThreads.drained { t with heap := t.assigned, found := none } = t.drained :=
    drain_congr fun task _ => hwnd_assigned t task
  show t.todo.foldl ClientState.perform ⟨(ClientThreads.drained _).map t.assigned, t.iconMap⟩ = target
  rw [hd]
  exact h.reach

/-- One more runnable in the queue that adds no task. -/
theorem sim_post {todo : List ClientAct} {op : UiOp} {op' : Runnable} (h : Sim target t)
    (hf : t.found = none) (hl : t.todo = .runOnUiThread op :: todo)
    (hadd : added [op'] = [])
    (hrun : ∀ l, (op'.run t.hwndOf l).map t.heap = op.run (l.map t.heap)) :
    Sim target { t with queue := t.queue ++ [op'], todo := todo } := by
  have hrefs : ClientThreads.refs { t with queue := t.queue ++ [op'], todo := todo } = t.refs := by
    unfold refs added at *
    rw [List.filterMap_append, hadd, List.append_nil]
  have hd : ClientThreads.drained { t with queue := t.queue ++ [op'], todo := todo } =
      op'.run t.hwndOf t.drained := List.foldl_concat (Runnable.run t.hwndOf) t.taskList op' t.queue
  have ha := assigned_of_found_none hf
  refine ⟨?_, ?_, ?_⟩
  · rw [hrefs]
    exact h.fresh
  · rw [hrefs]
    exact h.nodup
  · show todo.foldl ClientState.perform ⟨(ClientThreads.drained _).map t.assigned, t.iconMap⟩ = target
    rw [hd, ha, hrun, ← h.reach, hl, ha]
    rfl

/-- A new task, and its addition in the queue. -/
theorem sim_add {todo : List ClientAct} {task : Task} (h : Sim target t) (hf : t.found = none)
    (hl : t.todo = .runOnUiThread (.add task) :: todo) :
    Sim target { t.runOnUiThread (.add task) with todo := todo } := by
  obtain ⟨heap, next, taskList, queue, iconMap, todo', found⟩ := t
  obtain rfl : found = none := hf
  obtain rfl : todo' = .runOnUiThread (.add task) :: todo := hl
  have hnew : next ∉ taskList ++ added queue := fun hm => Nat.lt_irrefl _ (h.fresh next hm)
  have hrefs : taskList ++ added (queue ++ [.add next]) = taskList ++ added queue ++ [next] := by
    unfold added
    rw [List.filterMap_append, List.append_assoc]
    rfl
  have hold : ∀ r ∈ taskList ++ added queue, Function.update heap next task r = heap r := by
    intro r hr
    refine Function.update_of_ne ?_ _ _
    rintro rfl
    exact hnew hr
  have hd : drain (fun r => (Function.update heap next task r).hwnd) taskList (queue ++ [.add next]) =
      drain (fun r => (heap r).hwnd) taskList queue ++ [next] := by
    show List.foldl _ _ _ = _
    rw [List.foldl_concat]
    show drain _ taskList queue ++ [next] = _
    rw [drain_congr fun r hr => by rw [hold r hr]]
  refine ⟨?_, ?_, ?_⟩
  · show ∀ r ∈ taskList ++ added (queue ++ [.add next]), r < next + 1
    rw [hrefs]
    intro r hr
    rcases List.mem_append.mp hr with hr | hr
    · exact Nat.lt_succ_of_lt (h.fresh r hr)
    · rw [List.mem_singleton.mp hr]
      exact Nat.lt_succ_self next
  · show (taskList ++ added (queue ++ [.add next])).Nodup
    rw [hrefs, List.nodup_append_comm, List.singleton_append, List.nodup_cons]
    exact ⟨hnew, h.nodup⟩
  · show todo.foldl ClientState.perform ⟨(drain (fun r => (Function.update heap next task r).hwnd) taskList
      (queue ++ [.add next])).map (Function.update heap next task), iconMap⟩ = target
    have hmap : (drain (fun r => (heap r).hwnd) taskList queue).map (Function.update heap next task) =
        (drain (fun r => (heap r).hwnd) taskList queue).map heap :=
      List.map_congr_left fun r hr => hold r (drain_sublist.subset hr)
    rw [hd, List.map_append, hmap, List.map_singleton, Function.update_self]
    exact h.reach

/-- A lookup on a list up to date: the assignment it leads to is the update. -/
theorem sim_lookup {todo : List ClientAct} {hwnd : Word} {title : List Byte} (h : Sim target t)
    (hf : t.found = none) (hl : t.todo = .setTitle hwnd title :: todo) (hu : t.UpToDate hwnd) :
    Sim target { t with
      found := (t.taskList.find? (t.hwndOf · == hwnd)).map (·, title), todo := todo } := by
  refine ⟨h.fresh, h.nodup, ?_⟩
  have ha := assigned_of_found_none hf
  have hupd : t.drained.map (ClientThreads.assigned { t with
      found := (t.taskList.find? (t.hwndOf · == hwnd)).map (·, title), todo := todo }) =
        setTitle (t.drained.map t.heap) hwnd title := by
    rcases hu with hnone | ⟨⟨task', ht', hk'⟩, hclear, hremove⟩
    · -- no task with the handle: nothing to change, and nothing changed
      have hskip : setTitle (t.drained.map t.heap) hwnd title = t.drained.map t.heap := by
        refine List.updateFirst_eq_self _ _ _ fun a ha => ?_
        obtain ⟨r, hr, rfl⟩ := List.mem_map.mp ha
        exact beq_false_of_ne (hnone r hr)
      rw [hskip]
      cases hfind : t.taskList.find? (t.hwndOf · == hwnd) with
      | none => rfl
      | some task =>
        refine List.map_update_of_notMem fun hm => hnone task hm ?_
        exact eq_of_beq (List.find?_some (p := fun r => t.hwndOf r == hwnd) hfind)
    · cases hfind : t.taskList.find? (t.hwndOf · == hwnd) with
      | none =>
        have hno := List.find?_eq_none.mp hfind task' ht'
        exact absurd (beq_iff_eq.mpr hk') hno
      | some task =>
        exact List.map_update_of_find? (fun a : Task => { a with title := title }) h.drained_nodup
          (find_drain hfind hclear hremove)
  show todo.foldl ClientState.perform ⟨t.drained.map _, t.iconMap⟩ = target
  rw [hupd, ← h.reach, hl, ha]
  rfl

theorem sim_network (h : Sim target t) (hg : t.Timely .network) (hs : t.networkStep = some t') :
    Sim target t' := by
  unfold networkStep at hs
  cases hf : t.found with
  | some p =>
    rw [hf] at hs
    obtain rfl := Option.some.inj hs
    exact sim_assign h
  | none =>
    rw [hf] at hs
    cases hl : t.todo with
    | nil =>
      rw [hl] at hs
      exact absurd hs (by simp)
    | cons act todo =>
      rw [hl] at hs
      cases act with
      | runOnUiThread op =>
        obtain rfl := Option.some.inj hs
        cases op with
        | clear => exact sim_post h hf hl rfl fun l => rfl
        | add task => exact sim_add h hf hl
        | remove hwnd =>
          refine sim_post h hf hl rfl fun l => ?_
          show _ = (l.map t.heap).eraseP _
          rw [List.eraseP_map]
          rfl
        | notifyDataSetChanged => exact sim_post h hf hl rfl fun l => rfl
      | putIcon hicon png =>
        obtain rfl := Option.some.inj hs
        refine ⟨h.fresh, h.nodup, ?_⟩
        rw [← h.reach, hl, assigned_of_found_none hf]
        rfl
      | setTitle hwnd title =>
        obtain rfl := Option.some.inj hs
        have hu : t.UpToDate hwnd := by
          unfold Timely at hg
          rw [hf, hl] at hg
          exact hg
        have hsim := sim_lookup h hf hl hu
        exact hsim

end

/-- A lookup on a list not up to date loses the update: the list, once the queue
has run, has a task with the handle and is the list without the update. -/
theorem lookup_lost {target : ClientState} {t t' : ClientThreads} {todo : List ClientAct} {hwnd : Word}
    {title : List Byte} (h : Sim target t) (hf : t.found = none) (hl : t.todo = .setTitle hwnd title :: todo)
    (hu : ¬ t.UpToDate hwnd) (hs : t.networkStep = some t') :
    (∃ task ∈ t.drained, t.hwndOf task = hwnd) ∧ t'.drained.map t'.assigned = t.drained.map t.heap := by
  unfold UpToDate at hu
  rw [not_or] at hu
  obtain ⟨hsome, hq⟩ := hu
  constructor
  · by_contra hno
    exact hsome fun task ht hk => hno ⟨task, ht, hk⟩
  · unfold networkStep at hs
    rw [hf, hl] at hs
    obtain rfl := Option.some.inj hs
    show t.drained.map _ = _
    cases hfind : t.taskList.find? (t.hwndOf · == hwnd) with
    | none => rfl
    | some task =>
      have hlisted : ∃ task ∈ t.taskList, t.hwndOf task = hwnd :=
        ⟨task, List.mem_of_find?_eq_some hfind,
          eq_of_beq (List.find?_some (p := fun r => t.hwndOf r == hwnd) hfind)⟩
      have hgone : Runnable.clear ∈ t.queue ∨ Runnable.remove hwnd ∈ t.queue := by
        by_contra hno
        rw [not_or] at hno
        exact hq ⟨hlisted, hno⟩
      exact List.map_update_of_notMem (notMem_drain h.nodup hfind hgone)

/-! ## Any interleaving -/

theorem sim_start (ms : List ServerMsg) : Sim (ClientState.init.applyAll ms) (start ms) := by
  refine ⟨fun task ht => absurd ht List.not_mem_nil, List.nodup_nil, ?_⟩
  show (ms.flatMap ServerMsg.acts).foldl ClientState.perform ClientState.init = _
  rw [List.foldl_flatMap]
  rfl

theorem sim_step {target : ClientState} {t t' : ClientThreads} {side : Side} (h : Sim target t)
    (hg : t.Timely side) (hs : clientStep t side = some t') : Sim target t' := by
  cases side with
  | network => exact sim_network h hg hs
  | ui => exact sim_ui h hs

theorem Sim.tasks {target : ClientState} {t : ClientThreads} (h : Sim target t) (ht : t.Finished) :
    t.tasks = target.taskList := by
  obtain ⟨htodo, hfound, hqueue⟩ := ht
  have hd : t.drained = t.taskList := by
    unfold drained
    rw [hqueue]
    rfl
  rw [← h.reach, htodo, hd, assigned_of_found_none hfound]
  rfl

/-- **The client's two threads.**  If every title is looked up on a task list up to
date for its handle, the threads end with the task list that the messages give
one after the other.  The first lookup that is not loses its update. -/
theorem updates_in_time (ms : List ServerMsg) (ls : List Side) :
    (Guarded clientStep Timely (start ms) ls →
      Always clientStep (fun t => t.Finished → t.tasks = (ClientState.init.applyAll ms).taskList)
        (start ms) ls) ∧
    (Guarded clientStep Timely (start ms) ls → ∀ t t' hwnd title todo,
      run clientStep (start ms) ls = some t → t.found = none → t.todo = .setTitle hwnd title :: todo →
      ¬ t.UpToDate hwnd → t.networkStep = some t' →
        (∃ task ∈ t.drained, t.hwndOf task = hwnd) ∧
          t'.drained.map t'.assigned = t.drained.map t.heap) := by
  have hstep : ∀ t side t', Sim (ClientState.init.applyAll ms) t → t.Timely side →
      clientStep t side = some t' → Sim (ClientState.init.applyAll ms) t' :=
    fun _ _ _ h hg hs => sim_step h hg hs
  constructor
  · exact Guarded.always hstep (fun _ h ht => h.tasks ht) ls (sim_start ms)
  · intro hg t t' hwnd title todo hrun hf hl hu hs
    have hsim := (Guarded.always hstep (fun _ h => h) ls (sim_start ms) hg).run hrun
    exact lookup_lost hsim hf hl hu hs

end ClientThreads

end

namespace ClientThreads

/-- The task is listed before its title is looked up. -/
theorem updates_in_time_listed :
    letI := BitmapFactory.pngOnly
    let ms : List ServerMsg := [.addTask ⟨7, 0, [0x41, 0]⟩, .updateTask 7 [0x42, 0]]
    Always clientStep (fun t => t.Finished → t.tasks = (ClientState.init.applyAll ms).taskList)
      (start ms) [.network, .ui, .network, .network, .ui, .network, .network, .ui] := by
  let := BitmapFactory.pngOnly
  intro ms
  refine (updates_in_time ms _).1 ?_
  refine guarded_cons rfl trivial (guarded_cons rfl trivial (guarded_cons rfl trivial
    (guarded_cons rfl ?_ (guarded_cons rfl trivial (guarded_cons rfl trivial
      (guarded_cons rfl trivial (guarded_cons rfl trivial trivial)))))))
  exact Or.inr ⟨⟨0, by decide, by decide⟩, by decide, by decide⟩

/-- The title is looked up before the UI thread has listed the task. -/
theorem update_lost_unlisted :
    letI := BitmapFactory.pngOnly
    let ms : List ServerMsg := [.addTask ⟨7, 0, [0x41, 0]⟩, .updateTask 7 [0x42, 0]]
    ∃ t, run clientStep (start ms) [.network, .network, .network, .network, .ui, .ui, .ui] = some t ∧
      t.Finished ∧ t.tasks = [⟨7, 0, [0x41, 0]⟩] ∧ t.tasks ≠ (ClientState.init.applyAll ms).taskList := by
  intro ms
  exact ⟨_, rfl, ⟨rfl, rfl, rfl⟩, by decide, by decide⟩

end ClientThreads

end RemoteTaskbar
