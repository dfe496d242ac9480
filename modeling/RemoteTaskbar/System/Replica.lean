import RemoteTaskbar.Server.WindowManager
import RemoteTaskbar.Client.TasksActivity
import RemoteTaskbar.System.Framing

/-!
# The client's list is a replica of the server's map

`clientOf sent` is the client after the messages of all packets sent, in order.
`Agrees s` says that its task list has exactly one task for each key of the
server's map, with the map's icon and the title last sent for that window.

A list frame makes the two sides agree whatever came before (`agrees_list`), and
the three window events keep an agreement (`agrees_create`, `agrees_destroy`,
`agrees_rename`): the client appends without looking, so these rest on the server
announcing a window only when it was not listed, and a removal or a title only
when it was.

`lastReturned` follows the titles on the server's side, by what `GetWindowText`
returned to the handlers; `lastTitle_handle` ties each answer to the frame sent.
-/

namespace RemoteTaskbar

open Wire

/-! ## The last title -/

/-- The title a frame carries for a window. -/
def titleFor (hwnd : HWND) : Packet → Option WindowTitle
  | .activeTaskList tasks => (tasks.find? (·.hwnd == hwnd)).map (·.title)
  | .addTask h _ title => if h = hwnd then some title else none
  | .updateTask h title => if h = hwnd then some title else none
  | .sendIcon _ _ => none
  | .removeTask _ => none

/-- The title in the most recent list, add or update frame for a window. -/
def lastTitle (hwnd : HWND) (sent : List Packet) : Option WindowTitle :=
  sent.reverse.findSome? (titleFor hwnd)

theorem lastTitle_append (k : HWND) (sent : List Packet) (p : Packet) :
    lastTitle k (sent ++ [p]) = (titleFor k p).or (lastTitle k sent) := by
  unfold lastTitle
  rw [List.reverse_append, List.reverse_singleton, List.singleton_append, List.findSome?_cons]
  cases titleFor k p <;> rfl

/-- An icon frame carries no title. -/
theorem lastTitle_sendMissingIcon (env : Env) (hIcon : HICON) (s : Session) (k : HWND) :
    lastTitle k (sendMissingIcon env hIcon s).sent = lastTitle k s.sent := by
  rcases sendMissingIcon_cases env s hIcon with ⟨-, h⟩ | ⟨-, h⟩
  · rw [h]
  · rw [h, lastTitle_append]
    rfl

theorem lastTitle_refreshWindowTasksList (env : Env) (s : Session) (k : HWND) :
    lastTitle k (refreshWindowTasksList env s).sent = lastTitle k s.sent := by
  have hloop : ∀ (ks : List HWND) (s : Session),
      lastTitle k (ks.foldl (refreshTask env) s).sent = lastTitle k s.sent := by
    intro ks
    induction ks with
    | nil => exact fun s => rfl
    | cons k' ks ih =>
      intro s
      rw [List.foldl_cons, ih]
      exact lastTitle_sendMissingIcon env _ _ k
  unfold refreshWindowTasksList sendMissingIcons
  rw [hloop, (enumTasks_sent env (clearTasks s)).1]
  rfl

theorem map_toInt_nodup (s : Session) : (s.keys.map Handle.toInt).Nodup :=
  (AList.keys_nodup _).map Handle.toInt_injective

theorem find_taskRecords (env : Env) (s : Session) (k : HWND) (hk : k ∈ s.keys) :
    (taskRecords env s).find? (·.hwnd == k) =
      some ⟨k, (s.wm.activeWindowTasks.lookup k).getD NULL, getWindowTitle (env.windowText k)⟩ := by
  have hv : k ∈ env.order.visit s.keys := (env.order.perm s.keys).mem_iff.mpr hk
  unfold taskRecords
  rw [List.find?_map]
  have hfind : (env.order.visit s.keys).find? (fun x => x == k) = some k := by
    cases h : (env.order.visit s.keys).find? (fun x => x == k) with
    | none => simpa using List.find?_eq_none.mp h k hv
    | some x =>
      have hx := List.find?_some (p := fun x => x == k) h
      rw [eq_of_beq hx]
  show Option.map _ ((env.order.visit s.keys).find? (fun x => x == k)) = _
  rw [hfind]
  rfl

theorem taskRecords_hwnds (env : Env) (s : Session) :
    (((taskRecords env s).map TaskRecord.task).map Task.hwnd).Perm (s.keys.map Handle.toInt) := by
  have h : ((taskRecords env s).map TaskRecord.task).map Task.hwnd =
      (env.order.visit s.keys).map Handle.toInt := by
    unfold taskRecords
    rw [List.map_map, List.map_map]
    rfl
  rw [h]
  exact (env.order.perm s.keys).map Handle.toInt

theorem find_taskRecords_none (env : Env) (s : Session) (k : HWND) (hk : k ∉ s.keys) :
    (taskRecords env s).find? (·.hwnd == k) = none := by
  rw [List.find?_eq_none]
  intro r hr
  obtain ⟨x, hx, rfl⟩ := List.mem_map.mp hr
  rw [beq_iff_eq]
  rintro rfl
  exact hk ((env.order.perm s.keys).mem_iff.mp hx)

/-! ## What `GetWindowText` returned -/

/-- What `GetWindowText` returned for the window `k` to a handler that sends its title: a list
request that finds it, a create event for it while it is not listed, a rename event while it is. -/
def titleReturned (k : HWND) (s : Session) : Event → Option CString
  | .list env =>
    if k ∈ env.enumWindows ∧ isAltTabWindow env k = true then
      some (getWindowText (env.windowText k) (MAX_WINDOW_TITLE_LENGTH - 1))
    else none
  | .create env hwnd =>
    if hwnd = k ∧ hwnd ∉ s.wm.activeWindowTasks then
      some (getWindowText (env.windowText hwnd) (MAX_WINDOW_TITLE_LENGTH - 1))
    else none
  | .destroy _ => none
  | .rename env hwnd =>
    if hwnd = k ∧ hwnd ∈ s.wm.activeWindowTasks then
      some (getWindowText (env.windowText hwnd) (MAX_WINDOW_TITLE_LENGTH - 1))
    else none

/-- The last of these answers over a run of handlers, `last` if there is none. -/
def lastReturned (k : HWND) : Session → List Event → Option CString → Option CString
  | _, [], last => last
  | s, e :: es, last => lastReturned k (handle s e) es ((titleReturned k s e).or last)

theorem lastTitle_list (env : Env) (s : Session) (k : HWND) :
    (lastTitle k (handle s (.list env)).sent).map WindowTitle.text =
      (titleReturned k s (.list env)).or ((lastTitle k s.sent).map WindowTitle.text) := by
  have hmem := mem_refreshWindowTasksList env s k
  simp only [handle, sendWindowTasksToClient, titleReturned]
  rw [Session.sendMessage_sent, lastTitle_append, titleFor,
    lastTitle_refreshWindowTasksList]
  by_cases hk : k ∈ env.enumWindows ∧ isAltTabWindow env k = true
  · rw [find_taskRecords env _ k (AList.mem_keys.mp (hmem.mpr hk)), if_pos hk]
    rfl
  · rw [find_taskRecords_none env _ k fun h => hk (hmem.mp (AList.mem_keys.mpr h)), if_neg hk]
    rfl

theorem lastTitle_create (env : Env) (hwnd : HWND) (s : Session) (k : HWND) :
    (lastTitle k (handle s (.create env hwnd)).sent).map WindowTitle.text =
      (titleReturned k s (.create env hwnd)).or ((lastTitle k s.sent).map WindowTitle.text) := by
  simp only [handle, addWindowTask, titleReturned]
  by_cases hin : hwnd ∈ s.wm.activeWindowTasks
  · rw [if_pos hin, if_neg fun h => h.2 hin]
    rfl
  · rw [if_neg hin]
    unfold sendAddTask
    rw [Session.sendMessage_sent, lastTitle_append, lastTitle_sendMissingIcon, titleFor]
    by_cases hk : hwnd = k
    · rw [if_pos hk, if_pos ⟨hk, hin⟩]
      rfl
    · rw [if_neg hk, if_neg fun h => hk h.1]
      rfl

theorem lastTitle_destroy (hwnd : HWND) (s : Session) (k : HWND) :
    lastTitle k (handle s (.destroy hwnd)).sent = lastTitle k s.sent := by
  simp only [handle, removeWindowTask]
  split
  · rw [Session.sendMessage_sent, lastTitle_append]
    rfl
  · rfl

theorem lastTitle_rename (env : Env) (hwnd : HWND) (s : Session) (k : HWND) :
    (lastTitle k (handle s (.rename env hwnd)).sent).map WindowTitle.text =
      (titleReturned k s (.rename env hwnd)).or ((lastTitle k s.sent).map WindowTitle.text) := by
  simp only [handle, updateWindowTaskTitle, titleReturned]
  by_cases hin : hwnd ∈ s.wm.activeWindowTasks
  · rw [if_pos hin, Session.sendMessage_sent, lastTitle_append, titleFor]
    by_cases hk : hwnd = k
    · rw [if_pos hk, if_pos ⟨hk, hin⟩]
      rfl
    · rw [if_neg hk, if_neg fun h => hk h.1]
      rfl
  · rw [if_neg hin, if_neg fun h => hin h.2]
    rfl

/-- The title last sent for a window is what `GetWindowText` returned to the handler, if the
handler sends one, and the one before it otherwise. -/
theorem lastTitle_handle (s : Session) (e : Event) (k : HWND) :
    (lastTitle k (handle s e).sent).map WindowTitle.text =
      (titleReturned k s e).or ((lastTitle k s.sent).map WindowTitle.text) := by
  cases e with
  | list env => exact lastTitle_list env s k
  | create env hwnd => exact lastTitle_create env hwnd s k
  | destroy hwnd =>
    rw [lastTitle_destroy]
    rfl
  | rename env hwnd => exact lastTitle_rename env hwnd s k

theorem lastTitle_run (es : List Event) (s : Session) (k : HWND) :
    (lastTitle k (es.foldl handle s).sent).map WindowTitle.text =
      lastReturned k s es ((lastTitle k s.sent).map WindowTitle.text) := by
  induction es generalizing s with
  | nil => rfl
  | cons e es ih =>
    rw [List.foldl_cons, ih, lastTitle_handle]
    rfl

/-! ## The client -/

variable [BitmapFactory]

def clientOf (sent : List Packet) : ClientState := ClientState.init.applyAll (sent.map Packet.msg)

/-- The client holds one task for each window listed, with the window's icon and
the title last sent for it, and no other task. -/
structure Agrees (s : Session) : Prop where
  hwnds : ((clientOf s.sent).taskList.map Task.hwnd).Perm (s.keys.map Handle.toInt)
  icons : ∀ t ∈ (clientOf s.sent).taskList, ∀ k, t.hwnd = Handle.toInt k →
    (s.wm.activeWindowTasks.lookup k).map Handle.toInt = some t.hicon
  titles : ∀ t ∈ (clientOf s.sent).taskList, ∀ k, t.hwnd = Handle.toInt k →
    (lastTitle k s.sent).map (·.text.bytes ++ [0]) = some t.title

theorem clientOf_append (sent : List Packet) (p : Packet) :
    clientOf (sent ++ [p]) = (clientOf sent).apply p.msg := by
  unfold clientOf
  rw [List.map_append, applyAll_append]
  rfl

theorem taskList_sendMissingIcon (env : Env) (hIcon : HICON) (s : Session) :
    (clientOf (sendMissingIcon env hIcon s).sent).taskList = (clientOf s.sent).taskList := by
  rcases sendMissingIcon_cases env s hIcon with ⟨-, h⟩ | ⟨-, h⟩
  · rw [h]
  · rw [h, clientOf_append]
    exact apply_sendIcon _ _ _

theorem Agrees.nodup {s : Session} (h : Agrees s) :
    ((clientOf s.sent).taskList.map Task.hwnd).Nodup :=
  h.hwnds.nodup_iff.mpr (map_toInt_nodup s)

theorem Agrees.notMem {s : Session} (h : Agrees s) {hwnd : HWND}
    (hk : hwnd ∉ s.wm.activeWindowTasks) : ∀ t ∈ (clientOf s.sent).taskList, t.hwnd ≠ hwnd.toInt := by
  intro t ht he
  have hm : hwnd.toInt ∈ s.keys.map Handle.toInt :=
    h.hwnds.mem_iff.mp (he ▸ List.mem_map_of_mem ht)
  obtain ⟨k, hks, hkt⟩ := List.mem_map.mp hm
  exact hk (AList.mem_keys.mpr (Handle.toInt_injective hkt ▸ hks))

/-! ## List requests -/

/-- A list frame makes the client agree, whatever it held before. -/
theorem agrees_list (env : Env) (s : Session) : Agrees (sendWindowTasksToClient env s) := by
  have hlist : (clientOf (sendWindowTasksToClient env s).sent).taskList =
      (taskRecords env s).map TaskRecord.task := by
    unfold sendWindowTasksToClient
    rw [Session.sendMessage_sent, clientOf_append]
    exact apply_activeTaskList _ _
  have hrec : ∀ t ∈ (taskRecords env s).map TaskRecord.task, ∀ k, t.hwnd = Handle.toInt k →
      k ∈ s.keys ∧ t = TaskRecord.task
        ⟨k, (s.wm.activeWindowTasks.lookup k).getD NULL, getWindowTitle (env.windowText k)⟩ := by
    intro t ht k htk
    obtain ⟨r, hr, rfl⟩ := List.mem_map.mp ht
    obtain ⟨k', hk', rfl⟩ := List.mem_map.mp hr
    obtain rfl : k' = k := Handle.toInt_injective htk
    exact ⟨(env.order.perm s.keys).mem_iff.mp hk', rfl⟩
  refine ⟨?_, ?_, ?_⟩
  · rw [hlist]
    exact taskRecords_hwnds env s
  · intro t ht k htk
    rw [hlist] at ht
    obtain ⟨hk, rfl⟩ := hrec t ht k htk
    obtain ⟨v, hv⟩ := Option.isSome_iff_exists.mp (AList.lookup_isSome.mpr (AList.mem_keys.mpr hk))
    show (s.wm.activeWindowTasks.lookup k).map Handle.toInt = some (Handle.toInt _)
    rw [hv]
    rfl
  · intro t ht k htk
    rw [hlist] at ht
    obtain ⟨hk, rfl⟩ := hrec t ht k htk
    unfold sendWindowTasksToClient
    rw [Session.sendMessage_sent, lastTitle_append, titleFor, find_taskRecords env s k hk]
    rfl

/-! ## Window events -/

theorem agrees_create (env : Env) (hwnd : HWND) (s : Session) (h : Agrees s) :
    Agrees (addWindowTask env hwnd s) := by
  unfold addWindowTask
  split
  · exact h
  next hnew =>
  have hnot := h.notMem hnew
  simp only []
  generalize hic : getHICON env hwnd = hIcon
  have htaskList : (clientOf (sendMissingIcon env hIcon (insertTask hwnd hIcon s)).sent).taskList =
      (clientOf s.sent).taskList := taskList_sendMissingIcon env hIcon _
  have htitle : ∀ k, lastTitle k (sendMissingIcon env hIcon (insertTask hwnd hIcon s)).sent =
      lastTitle k s.sent := lastTitle_sendMissingIcon env hIcon _
  generalize hs' : sendMissingIcon env hIcon (insertTask hwnd hIcon s) = s' at htaskList htitle
  have htasks : s'.wm.activeWindowTasks = s.wm.activeWindowTasks.insert hwnd hIcon := by
    rw [← hs', sendMissingIcon_tasks]
    exact if_neg hnew
  have hkeys : s'.keys = hwnd :: s.keys := by
    rw [← hs', sendMissingIcon_keys, insertTask_keys_of_notMem _ _ _ hnew]
  have hlist : (clientOf (sendAddTask env hwnd hIcon s').sent).taskList =
      (clientOf s.sent).taskList ++
        [TaskRecord.task ⟨hwnd, hIcon, getWindowTitle (env.windowText hwnd)⟩] := by
    unfold sendAddTask
    rw [Session.sendMessage_sent, clientOf_append, Packet.msg, apply_addTask, htaskList]
  have hlast : ∀ k, lastTitle k (sendAddTask env hwnd hIcon s').sent =
      if hwnd = k then some (getWindowTitle (env.windowText hwnd)) else lastTitle k s.sent := by
    intro k
    unfold sendAddTask
    rw [Session.sendMessage_sent, lastTitle_append, htitle, titleFor]
    split <;> rfl
  refine ⟨?_, ?_, ?_⟩
  · rw [hlist, List.map_append]
    show List.Perm _ (s'.keys.map Handle.toInt)
    rw [hkeys]
    exact List.perm_append_comm.trans (h.hwnds.cons _)
  · intro t ht k htk
    show (s'.wm.activeWindowTasks.lookup k).map Handle.toInt = _
    rw [htasks]
    rw [hlist, List.mem_append, List.mem_singleton] at ht
    rcases ht with ht | rfl
    · have hne : k ≠ hwnd := fun e => hnot t ht (by rw [htk, e])
      rw [AList.lookup_insert_ne hne]
      exact h.icons t ht k htk
    · obtain rfl : hwnd = k := Handle.toInt_injective htk
      rw [AList.lookup_insert]
      rfl
  · intro t ht k htk
    rw [hlast]
    rw [hlist, List.mem_append, List.mem_singleton] at ht
    rcases ht with ht | rfl
    · rw [if_neg fun e => hnot t ht (by rw [htk, e])]
      exact h.titles t ht k htk
    · obtain rfl : hwnd = k := Handle.toInt_injective htk
      rw [if_pos rfl]
      rfl

theorem agrees_destroy (hwnd : HWND) (s : Session) (h : Agrees s) :
    Agrees (removeWindowTask hwnd s) := by
  unfold removeWindowTask
  split
  swap
  · exact h
  have hlist : (clientOf ((eraseTask hwnd s).sendMessage (.removeTask hwnd)).sent).taskList =
      (clientOf s.sent).taskList.eraseP (·.hwnd == hwnd.toInt) := by
    rw [Session.sendMessage_sent, clientOf_append]
    exact apply_removeTask _ _
  have hlast : ∀ k, lastTitle k ((eraseTask hwnd s).sendMessage (.removeTask hwnd)).sent =
      lastTitle k s.sent := by
    intro k
    rw [Session.sendMessage_sent, lastTitle_append]
    rfl
  refine ⟨?_, ?_, ?_⟩
  · rw [hlist, List.map_eraseP_key Task.hwnd hwnd.toInt]
    show List.Perm _ ((eraseTask hwnd s).keys.map Handle.toInt)
    rw [eraseTask_keys, List.map_erase Handle.toInt_injective]
    exact h.hwnds.erase _
  · intro t ht k htk
    have hne : k ≠ hwnd := by
      -- the only task with the handle is the one removed
      rintro rfl
      have hgone : k.toInt ∉ ((clientOf s.sent).taskList.map Task.hwnd).erase k.toInt :=
        h.nodup.not_mem_erase
      rw [← List.map_eraseP_key Task.hwnd k.toInt, ← hlist] at hgone
      exact hgone (htk ▸ List.mem_map_of_mem ht)
    rw [hlist] at ht
    show ((s.wm.activeWindowTasks.erase hwnd).lookup k).map Handle.toInt = _
    rw [AList.lookup_erase_ne hne]
    exact h.icons t (List.mem_of_mem_eraseP ht) k htk
  · intro t ht k htk
    rw [hlist] at ht
    rw [hlast]
    exact h.titles t (List.mem_of_mem_eraseP ht) k htk

theorem agrees_rename (env : Env) (hwnd : HWND) (s : Session) (h : Agrees s) :
    Agrees (updateWindowTaskTitle env hwnd s) := by
  unfold updateWindowTaskTitle
  split
  swap
  · exact h
  generalize getWindowTitle (env.windowText hwnd) = title
  have hlist : (clientOf (s.sendMessage (.updateTask hwnd title)).sent).taskList =
      setTitle (clientOf s.sent).taskList hwnd.toInt (title.text.bytes ++ [0]) := by
    rw [Session.sendMessage_sent, clientOf_append]
    exact apply_updateTask _ _ _
  have hlast : ∀ k, lastTitle k (s.sendMessage (.updateTask hwnd title)).sent =
      if hwnd = k then some title else lastTitle k s.sent := by
    intro k
    rw [Session.sendMessage_sent, lastTitle_append, titleFor]
    split <;> rfl
  have hf : ∀ t : Task, Task.hwnd { t with title := title.text.bytes ++ [0] } = Task.hwnd t := fun _ => rfl
  -- a task of the new list: retitled if it is the window's, else an old one
  have hold : ∀ t ∈ setTitle (clientOf s.sent).taskList hwnd.toInt (title.text.bytes ++ [0]),
      (t.hwnd ≠ hwnd.toInt ∧ t ∈ (clientOf s.sent).taskList) ∨
      ∃ t₀ ∈ (clientOf s.sent).taskList, t₀.hwnd = hwnd.toInt ∧
        t = { t₀ with title := title.text.bytes ++ [0] } := by
    intro t ht
    by_cases hk : t.hwnd = hwnd.toInt
    · exact Or.inr (List.exists_of_mem_updateFirst h.nodup ht hk)
    · exact Or.inl ⟨hk, List.mem_of_mem_updateFirst_ne hf ht hk⟩
  refine ⟨?_, ?_, ?_⟩
  · rw [hlist, setTitle, List.map_updateFirst Task.hwnd _ _ hf]
    exact h.hwnds
  · intro t ht k htk
    rw [hlist] at ht
    rcases hold t ht with ⟨-, ht⟩ | ⟨t₀, ht₀, -, rfl⟩
    · exact h.icons t ht k htk
    · exact h.icons t₀ ht₀ k htk
  · intro t ht k htk
    rw [hlist] at ht
    rw [hlast]
    rcases hold t ht with ⟨hne, ht⟩ | ⟨t₀, ht₀, he, rfl⟩
    · rw [if_neg fun e => hne (by rw [htk, e])]
      exact h.titles t ht k htk
    · obtain rfl : hwnd = k := Handle.toInt_injective (he.symm.trans htk)
      rw [if_pos rfl]
      rfl

/-! ## Any run of handlers -/

theorem agrees_init : Agrees Session.init :=
  ⟨List.Perm.refl _, fun _ ht => absurd ht List.not_mem_nil, fun _ ht => absurd ht List.not_mem_nil⟩

theorem agrees_handle (s : Session) (e : Event) (h : Agrees s) : Agrees (handle s e) := by
  cases e with
  | list env => exact agrees_list env _
  | create env hwnd => exact agrees_create env hwnd s h
  | destroy hwnd => exact agrees_destroy hwnd s h
  | rename env hwnd => exact agrees_rename env hwnd s h

theorem agrees_run (es : List Event) (s : Session) (h : Agrees s) : Agrees (es.foldl handle s) := by
  induction es generalizing s with
  | nil => exact h
  | cons e es ih => exact ih (handle s e) (agrees_handle s e h)

/-- **Replica agreement.**  After any handlers, run one after the other from
`reset` and an empty client, the client's tasks are one for each window listed
and no others, with the map's icon and the title last sent, which is the text
`GetWindowText` returned to the last handler that sent one, and its NUL. -/
theorem replica_agreement (es : List Event) :
    ((clientOf (es.foldl handle Session.init).sent).taskList.map Task.hwnd).Nodup ∧
      Agrees (es.foldl handle Session.init) ∧
      ∀ t ∈ (clientOf (es.foldl handle Session.init).sent).taskList, ∀ k, t.hwnd = Handle.toInt k →
        (lastReturned k Session.init es none).map (·.bytes ++ [0]) = some t.title := by
  have h := agrees_run es Session.init agrees_init
  refine ⟨h.nodup, h, fun t ht k htk => ?_⟩
  have hreturned : (lastTitle k (es.foldl handle Session.init).sent).map WindowTitle.text =
      lastReturned k Session.init es none := lastTitle_run es Session.init k
  rw [← hreturned, Option.map_map]
  exact h.titles t ht k htk

end RemoteTaskbar
