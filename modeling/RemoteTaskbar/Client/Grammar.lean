import RemoteTaskbar.Client.ClientThread

/-!
# The streams the client understands

`IsFrame` is the format the read loop accepts, written without the loop: a
response type, and behind it the fields of that type.  The count of a task list
may be any word that counts its records (no records: any word not above 0), a
type the `switch` does not know is a frame of its own.  `Unfinished` says what the
loop does on bytes that no frame begins.

    clientThreadRun s = ⟨log, vals, rest⟩
      ↔  s is the frames of vals and then rest, and rest is unfinished    (clientThreadRun_iff)

So every stream, from whatever peer, is split in one way, and nothing is done that
its frames do not say.
-/

namespace RemoteTaskbar

open Wire Reader

/-! ## The format -/

/-- A length that a Java array can have. -/
def Sendable (bytes : List Byte) : Prop := bytes.length < 2 ^ 31

def sizedBytes (bytes : List Byte) : List Byte := beBytes (BitVec.ofNat 32 bytes.length) ++ bytes

def Task.bytes (task : Task) : List Byte :=
  beBytes task.hwnd ++ (beBytes task.hicon ++ sizedBytes task.title)

/-- The response types of the `switch`. -/
def responseTypes : List Word :=
  [SERVER_RESPONSE_ACTIVE_TASK_LIST, SERVER_RESPONSE_SEND_ICON, SERVER_RESPONSE_ADD_TASK,
    SERVER_RESPONSE_REMOVE_TASK, SERVER_RESPONSE_UPDATE_TASK]

inductive IsFrame : List Byte → Option ServerMsg → Prop
  | activeTaskList {numTasks : Word} {tasks : List Task} (count : numTasks.toInt.toNat = tasks.length)
      (titles : ∀ task ∈ tasks, Sendable task.title) :
      IsFrame (beBytes SERVER_RESPONSE_ACTIVE_TASK_LIST ++ (beBytes numTasks ++ tasks.flatMap Task.bytes))
        (some (.activeTaskList tasks))
  | sendIcon {hicon : Word} {png : List Byte} (size : Sendable png) :
      IsFrame (beBytes SERVER_RESPONSE_SEND_ICON ++ (beBytes hicon ++ sizedBytes png))
        (some (.sendIcon hicon png))
  | addTask {task : Task} (title : Sendable task.title) :
      IsFrame (beBytes SERVER_RESPONSE_ADD_TASK ++ task.bytes) (some (.addTask task))
  | removeTask {hwnd : Word} :
      IsFrame (beBytes SERVER_RESPONSE_REMOVE_TASK ++ beBytes hwnd) (some (.removeTask hwnd))
  | updateTask {hwnd : Word} {title : List Byte} (size : Sendable title) :
      IsFrame (beBytes SERVER_RESPONSE_UPDATE_TASK ++ (beBytes hwnd ++ sizedBytes title))
        (some (.updateTask hwnd title))
  | unknown {serverResponseType : Word} (h : serverResponseType ∉ responseTypes) :
      IsFrame (beBytes serverResponseType) none

/-- What a frame makes the client do. -/
def frameActs : Option ServerMsg → List ClientAct
  | none => []
  | some m => m.acts

/-- Bytes that no frame begins, and what is done of them: a task list loses its old
tasks with its type and gets each record once that is whole. -/
inductive Unfinished : List Byte → List ClientAct → Prop
  | records {numTasks : Word} {tasks : List Task} {cut : List Byte}
      (count : tasks.length < numTasks.toInt.toNat) (titles : ∀ task ∈ tasks, Sendable task.title)
      (short : ∀ task : Task, Sendable task.title → ¬ task.bytes <+: cut) :
      Unfinished (beBytes SERVER_RESPONSE_ACTIVE_TASK_LIST ++
        (beBytes numTasks ++ (tasks.flatMap Task.bytes ++ cut))) (clearTaskList :: tasks.map addTask)
  | numTasks {cut : List Byte} (short : cut.length < 4) :
      Unfinished (beBytes SERVER_RESPONSE_ACTIVE_TASK_LIST ++ cut) [clearTaskList]
  | quiet {rest : List Byte} (list : ¬ beBytes SERVER_RESPONSE_ACTIVE_TASK_LIST <+: rest)
      (short : ∀ frame v, IsFrame frame v → ¬ frame <+: rest) : Unfinished rest []

/-! ## Fields -/

theorem decodes_readInt : Decodes readInt (fun _ => True) beBytes fun _ => [] := by
  have hinv : ∀ s log w rest, readInt s = (log, some (w, rest)) → log = [] ∧ s = beBytes w ++ rest := by
    intro s log w rest h
    match s with
    | b0 :: b1 :: b2 :: b3 :: tail =>
      obtain ⟨rfl, rfl, rfl⟩ : log = [] ∧ beWord b0 b1 b2 b3 = w ∧ tail = rest := by
        simp only [readInt, Prod.mk.injEq, Option.some.injEq] at h
        exact ⟨h.1.symm, h.2.1, h.2.2⟩
      rw [beBytes_beWord]
      exact ⟨rfl, rfl⟩
    | [] | [_] | [_, _] | [_, _, _] => cases h
  refine ⟨fun s log w rest h => ?_, fun {i l w} => ⟨fun h => ?_, ?_⟩⟩
  · obtain ⟨rfl, hs⟩ := hinv s log w rest h
    exact ⟨beBytes w, hs, reads_readInt w⟩
  · obtain ⟨hl, hi⟩ := hinv _ l w [] (h [])
    rw [List.append_nil, List.append_nil] at hi
    exact ⟨trivial, hi, hl⟩
  · rintro ⟨-, rfl, rfl⟩
    exact reads_readInt w

theorem ofNat_length_eq_iff {length : Word} {xs : List Byte} (h : 0 ≤ length.toInt) :
    xs.length = length.toInt.toNat ↔ Sendable xs ∧ length = BitVec.ofNat 32 xs.length := by
  have hlt : length.toInt < 2 ^ 31 := BitVec.toInt_lt
  constructor
  · intro hx
    refine ⟨show xs.length < 2 ^ 31 by omega, ?_⟩
    apply BitVec.eq_of_toInt_eq
    rw [toInt_ofNat_of_lt _ (by omega)]
    omega
  · rintro ⟨hs, hl⟩
    have he := toInt_ofNat_of_lt xs.length hs
    rw [← hl] at he
    omega

theorem decodes_readBuffer (length : Word) :
    Decodes (readBuffer length) (fun xs => Sendable xs ∧ length = BitVec.ofNat 32 xs.length) (fun xs => xs)
      fun _ => [] := by
  unfold readBuffer
  split
  · next hneg =>
    refine ⟨local_stop, fun {i l xs} => ⟨fun h => ?_, ?_⟩⟩
    · cases h []
    · rintro ⟨⟨hs, rfl⟩, -⟩
      rw [toInt_ofNat_of_lt _ hs] at hneg
      omega
  · next hnonneg =>
    refine ⟨local_readFully _, fun {i l xs} => ⟨fun h => ?_, ?_⟩⟩
    · have h0 := h []
      rw [List.append_nil] at h0
      unfold readFully at h0
      split at h0
      · next hle =>
        simp only [Prod.mk.injEq, Option.some.injEq] at h0
        obtain ⟨rfl, rfl, hdrop⟩ := h0
        have hlen := List.drop_eq_nil_iff.mp hdrop
        have htake : i.take length.toInt.toNat = i := List.take_of_length_le hlen
        rw [htake]
        exact ⟨(ofNat_length_eq_iff (by omega)).mp (Nat.le_antisymm hlen hle), rfl, rfl⟩
      · cases h0
    · rintro ⟨hok, rfl, rfl⟩
      rw [← (ofNat_length_eq_iff (by omega)).mpr hok]
      exact reads_readFully _

/-- A length, then that many bytes: the field `sizedBytes` writes. -/
theorem sized_bind_iff {α : Type} {f : List Byte → ClientReader α} (hf : ∀ xs, Local (f xs))
    {i : List Byte} {l : List ClientAct} {c : α} :
    Reads (readInt >>= fun length => readBuffer length >>= f) i l c ↔
      ∃ xs j, Sendable xs ∧ i = sizedBytes xs ++ j ∧ Reads (f xs) j l c := by
  rw [decodes_readInt.bind_iff fun length => local_bind (decodes_readBuffer length).isLocal hf]
  constructor
  · rintro ⟨length, j, l, -, rfl, rfl, h⟩
    obtain ⟨xs, j, l, ⟨hs, rfl⟩, rfl, rfl, h⟩ := ((decodes_readBuffer length).bind_iff hf).mp h
    exact ⟨xs, j, hs, (List.append_assoc _ _ _).symm, h⟩
  · rintro ⟨xs, j, hs, rfl, h⟩
    exact ⟨_, xs ++ j, l, trivial, List.append_assoc _ _ _, rfl,
      ((decodes_readBuffer _).bind_iff hf).mpr ⟨xs, j, l, ⟨hs, rfl⟩, rfl, rfl, h⟩⟩

theorem local_sized {α : Type} {f : List Byte → ClientReader α} (hf : ∀ xs, Local (f xs)) :
    Local (readInt >>= fun length => readBuffer length >>= f) :=
  local_bind decodes_readInt.isLocal fun length => local_bind (decodes_readBuffer length).isLocal hf

/-- An action takes nothing off the stream. -/
theorem emit_bind_iff {α : Type} {p : ClientReader α} (hp : Local p) {e : ClientAct} {i : List Byte}
    {l : List ClientAct} {c : α} :
    Reads (emit e >>= fun _ => p) i l c ↔ ∃ l', l = e :: l' ∧ Reads p i l' c := by
  rw [(decodes_emit e).bind_iff fun _ => hp]
  constructor
  · rintro ⟨u, j, l', -, rfl, rfl, h⟩
    exact ⟨l', rfl, h⟩
  · rintro ⟨l', rfl, h⟩
    exact ⟨(), i, l', trivial, rfl, rfl, h⟩

theorem decodes_readTask :
    Decodes readTask (fun task => Sendable task.title) Task.bytes fun task => [addTask task] := by
  have hend : ∀ hwnd hicon titleBuffer, Local (emit (addTask ⟨hwnd, hicon, titleBuffer⟩) >>= fun _ =>
      (pure ⟨hwnd, hicon, titleBuffer⟩ : ClientReader Task)) :=
    fun _ _ _ => local_bind (local_emit _) fun _ => local_pure _
  have hicon : ∀ hwnd, Local (readInt >>= fun hicon => readInt >>= fun titleLength =>
      readBuffer titleLength >>= fun titleBuffer => emit (addTask ⟨hwnd, hicon, titleBuffer⟩) >>= fun _ =>
        (pure ⟨hwnd, hicon, titleBuffer⟩ : ClientReader Task)) :=
    fun hwnd => local_bind decodes_readInt.isLocal fun hicon => local_sized (hend hwnd hicon)
  refine ⟨local_bind decodes_readInt.isLocal hicon, fun {i l task} => ?_⟩
  unfold readTask
  rw [decodes_readInt.bind_iff hicon]
  constructor
  · rintro ⟨hwnd, _, _, -, rfl, rfl, h₁⟩
    obtain ⟨hicon, _, _, -, rfl, rfl, h₂⟩ :=
      (decodes_readInt.bind_iff fun _ => local_sized (hend hwnd _)).mp h₁
    obtain ⟨title, _, hs, rfl, h₃⟩ := (sized_bind_iff (hend hwnd hicon)).mp h₂
    obtain ⟨_, rfl, h₄⟩ := (emit_bind_iff (local_pure _)).mp h₃
    obtain ⟨rfl, rfl, rfl⟩ := reads_pure_iff.mp h₄
    rw [List.append_nil]
    exact ⟨hs, rfl, rfl⟩
  · obtain ⟨hwnd, hicon, title⟩ := task
    rintro ⟨hs, rfl, rfl⟩
    refine ⟨hwnd, _, _, trivial, rfl, rfl, ?_⟩
    refine (decodes_readInt.bind_iff fun _ => local_sized (hend hwnd _)).mpr
      ⟨hicon, _, _, trivial, rfl, rfl, ?_⟩
    refine (sized_bind_iff (hend hwnd hicon)).mpr ⟨title, [], hs, (List.append_nil _).symm, ?_⟩
    exact (emit_bind_iff (local_pure _)).mpr ⟨[], rfl, reads_pure _⟩

/-! ## The cases of the `switch` -/

/-- The last action of a message. -/
def finish (m : ServerMsg) : ClientReader (Option ServerMsg) := emit updateItems >>= fun _ => pure (some m)

theorem local_finish (m : ServerMsg) : Local (finish m) := local_bind (local_emit _) fun _ => local_pure _

theorem reads_finish_iff {m : ServerMsg} {i : List Byte} {l : List ClientAct} {v : Option ServerMsg} :
    Reads (finish m) i l v ↔ i = [] ∧ l = [updateItems] ∧ v = some m := by
  unfold finish
  rw [emit_bind_iff (local_pure _)]
  constructor
  · rintro ⟨l', rfl, h⟩
    obtain ⟨rfl, rfl, rfl⟩ := reads_pure_iff.mp h
    exact ⟨rfl, rfl, rfl⟩
  · rintro ⟨rfl, rfl, rfl⟩
    exact ⟨[], rfl, reads_pure _⟩

section
variable {i : List Byte} {l : List ClientAct} {v : Option ServerMsg}

theorem local_readActiveTaskList : Local readActiveTaskList :=
  local_bind (local_emit _) fun _ => local_bind decodes_readInt.isLocal fun _ =>
    local_bind (local_readMany decodes_readTask.isLocal _) fun _ => local_finish _

theorem reads_readActiveTaskList_iff :
    Reads readActiveTaskList i l v ↔ ∃ (numTasks : Word) (tasks : List Task),
      numTasks.toInt.toNat = tasks.length ∧ (∀ task ∈ tasks, Sendable task.title) ∧
      i = beBytes numTasks ++ tasks.flatMap Task.bytes ∧
      l = (ServerMsg.activeTaskList tasks).acts ∧ v = some (.activeTaskList tasks) := by
  have hmany := decodes_readMany decodes_readTask
  have hrecords : ∀ n, Local (readMany readTask n >>= fun tasks => finish (.activeTaskList tasks)) :=
    fun n => local_bind (hmany n).isLocal fun _ => local_finish _
  have hadds : ∀ tasks : List Task, tasks.flatMap (fun task => [addTask task]) = tasks.map addTask :=
    fun tasks => List.flatMap_pure_eq_map _ _
  show Reads (emit clearTaskList >>= fun _ => readInt >>= fun numTasks =>
    readMany readTask numTasks.toInt.toNat >>= fun tasks => finish (.activeTaskList tasks)) i l v ↔ _
  rw [emit_bind_iff (local_bind decodes_readInt.isLocal fun _ => hrecords _)]
  constructor
  · rintro ⟨_, rfl, h₁⟩
    obtain ⟨numTasks, _, _, -, rfl, rfl, h₂⟩ := (decodes_readInt.bind_iff fun _ => hrecords _).mp h₁
    obtain ⟨tasks, _, _, ⟨hn, htitles⟩, rfl, rfl, h₃⟩ := ((hmany _).bind_iff fun _ => local_finish _).mp h₂
    obtain ⟨rfl, rfl, rfl⟩ := reads_finish_iff.mp h₃
    refine ⟨numTasks, tasks, hn.symm, htitles, ?_, ?_, rfl⟩
    · rw [List.append_nil]
    · rw [hadds]
      rfl
  · rintro ⟨numTasks, tasks, hn, htitles, rfl, rfl, rfl⟩
    refine ⟨_, rfl, (decodes_readInt.bind_iff fun _ => hrecords _).mpr
      ⟨numTasks, _, _, trivial, rfl, rfl, ?_⟩⟩
    refine ((hmany _).bind_iff fun _ => local_finish _).mpr
      ⟨tasks, [], [updateItems], ⟨hn.symm, htitles⟩, (List.append_nil _).symm, ?_, ?_⟩
    · rw [hadds]
      rfl
    · exact reads_finish_iff.mpr ⟨rfl, rfl, rfl⟩

theorem local_readSendIcon : Local readSendIcon :=
  local_bind decodes_readInt.isLocal fun _ => local_sized fun _ =>
    local_bind (local_emit _) fun _ => local_pure _

theorem reads_readSendIcon_iff :
    Reads readSendIcon i l v ↔ ∃ hicon png, Sendable png ∧ i = beBytes hicon ++ sizedBytes png ∧
      l = (ServerMsg.sendIcon hicon png).acts ∧ v = some (.sendIcon hicon png) := by
  have hend : ∀ hicon png, Local (emit (.putIcon hicon png) >>= fun _ =>
      (pure (some (.sendIcon hicon png)) : ClientReader (Option ServerMsg))) :=
    fun _ _ => local_bind (local_emit _) fun _ => local_pure _
  unfold readSendIcon
  rw [decodes_readInt.bind_iff fun hicon => local_sized (hend hicon)]
  constructor
  · rintro ⟨hicon, _, _, -, rfl, rfl, h₁⟩
    obtain ⟨png, _, hs, rfl, h₂⟩ := (sized_bind_iff (hend hicon)).mp h₁
    obtain ⟨_, rfl, h₃⟩ := (emit_bind_iff (local_pure _)).mp h₂
    obtain ⟨rfl, rfl, rfl⟩ := reads_pure_iff.mp h₃
    refine ⟨hicon, png, hs, ?_, rfl, rfl⟩
    rw [List.append_nil]
  · rintro ⟨hicon, png, hs, rfl, rfl, rfl⟩
    refine ⟨hicon, _, _, trivial, rfl, rfl, ?_⟩
    refine (sized_bind_iff (hend hicon)).mpr ⟨png, [], hs, (List.append_nil _).symm, ?_⟩
    exact (emit_bind_iff (local_pure _)).mpr ⟨[], rfl, reads_pure _⟩

theorem local_readAddTask : Local readAddTask :=
  local_bind decodes_readTask.isLocal fun _ => local_finish _

theorem reads_readAddTask_iff :
    Reads readAddTask i l v ↔ ∃ task, Sendable task.title ∧ i = task.bytes ∧
      l = (ServerMsg.addTask task).acts ∧ v = some (.addTask task) := by
  show Reads (readTask >>= fun task => finish (.addTask task)) i l v ↔ _
  rw [decodes_readTask.bind_iff fun _ => local_finish _]
  constructor
  · rintro ⟨task, _, _, hs, rfl, rfl, h₁⟩
    obtain ⟨rfl, rfl, rfl⟩ := reads_finish_iff.mp h₁
    refine ⟨task, hs, ?_, rfl, rfl⟩
    rw [List.append_nil]
  · rintro ⟨task, hs, rfl, rfl, rfl⟩
    exact ⟨task, [], [updateItems], hs, (List.append_nil _).symm, rfl, reads_finish_iff.mpr ⟨rfl, rfl, rfl⟩⟩

theorem local_readRemoveTask : Local readRemoveTask :=
  local_bind decodes_readInt.isLocal fun _ => local_bind (local_emit _) fun _ => local_finish _

theorem reads_readRemoveTask_iff :
    Reads readRemoveTask i l v ↔ ∃ hwnd, i = beBytes hwnd ∧
      l = (ServerMsg.removeTask hwnd).acts ∧ v = some (.removeTask hwnd) := by
  show Reads (readInt >>= fun hwnd => emit (removeTaskByHwnd hwnd) >>= fun _ =>
    finish (.removeTask hwnd)) i l v ↔ _
  rw [decodes_readInt.bind_iff fun _ => local_bind (local_emit _) fun _ => local_finish _]
  constructor
  · rintro ⟨hwnd, _, _, -, rfl, rfl, h₁⟩
    obtain ⟨_, rfl, h₂⟩ := (emit_bind_iff (local_finish _)).mp h₁
    obtain ⟨rfl, rfl, rfl⟩ := reads_finish_iff.mp h₂
    refine ⟨hwnd, ?_, rfl, rfl⟩
    rw [List.append_nil]
  · rintro ⟨hwnd, rfl, rfl, rfl⟩
    refine ⟨hwnd, [], _, trivial, (List.append_nil _).symm, rfl, ?_⟩
    exact (emit_bind_iff (local_finish _)).mpr ⟨[updateItems], rfl, reads_finish_iff.mpr ⟨rfl, rfl, rfl⟩⟩

theorem local_readUpdateTask : Local readUpdateTask :=
  local_bind decodes_readInt.isLocal fun _ => local_sized fun _ =>
    local_bind (local_emit _) fun _ => local_finish _

theorem reads_readUpdateTask_iff :
    Reads readUpdateTask i l v ↔ ∃ hwnd title, Sendable title ∧ i = beBytes hwnd ++ sizedBytes title ∧
      l = (ServerMsg.updateTask hwnd title).acts ∧ v = some (.updateTask hwnd title) := by
  have hend : ∀ hwnd title, Local (emit (.setTitle hwnd title) >>= fun _ =>
      finish (.updateTask hwnd title)) := fun _ _ => local_bind (local_emit _) fun _ => local_finish _
  show Reads (readInt >>= fun hwnd => readInt >>= fun length => readBuffer length >>= fun title =>
    emit (.setTitle hwnd title) >>= fun _ => finish (.updateTask hwnd title)) i l v ↔ _
  rw [decodes_readInt.bind_iff fun hwnd => local_sized (hend hwnd)]
  constructor
  · rintro ⟨hwnd, _, _, -, rfl, rfl, h₁⟩
    obtain ⟨title, _, hs, rfl, h₂⟩ := (sized_bind_iff (hend hwnd)).mp h₁
    obtain ⟨_, rfl, h₃⟩ := (emit_bind_iff (local_finish _)).mp h₂
    obtain ⟨rfl, rfl, rfl⟩ := reads_finish_iff.mp h₃
    refine ⟨hwnd, title, hs, ?_, rfl, rfl⟩
    rw [List.append_nil]
  · rintro ⟨hwnd, title, hs, rfl, rfl, rfl⟩
    refine ⟨hwnd, _, _, trivial, rfl, rfl, ?_⟩
    refine (sized_bind_iff (hend hwnd)).mpr ⟨title, [], hs, (List.append_nil _).symm, ?_⟩
    exact (emit_bind_iff (local_finish _)).mpr ⟨[updateItems], rfl, reads_finish_iff.mpr ⟨rfl, rfl, rfl⟩⟩

end

/-! ## One frame -/

theorem local_readCase (serverResponseType : Word) : Local (readCase serverResponseType) := by
  unfold readCase
  split
  · exact local_readActiveTaskList
  split
  · exact local_readSendIcon
  split
  · exact local_readAddTask
  split
  · exact local_readRemoveTask
  split
  · exact local_readUpdateTask
  · exact local_pure none

theorem local_readMessage : Local readMessage := local_bind decodes_readInt.isLocal local_readCase

theorem isFrame_of_readCase {serverResponseType : Word} {i : List Byte} {l : List ClientAct}
    {v : Option ServerMsg} (h : Reads (readCase serverResponseType) i l v) :
    IsFrame (beBytes serverResponseType ++ i) v ∧ l = frameActs v := by
  unfold readCase at h
  split at h
  · next ht =>
    obtain ⟨numTasks, tasks, hn, htitles, rfl, rfl, rfl⟩ := reads_readActiveTaskList_iff.mp h
    exact ⟨ht ▸ .activeTaskList hn htitles, rfl⟩
  split at h
  · next ht =>
    obtain ⟨hicon, png, hs, rfl, rfl, rfl⟩ := reads_readSendIcon_iff.mp h
    exact ⟨ht ▸ .sendIcon hs, rfl⟩
  split at h
  · next ht =>
    obtain ⟨task, hs, rfl, rfl, rfl⟩ := reads_readAddTask_iff.mp h
    exact ⟨ht ▸ .addTask hs, rfl⟩
  split at h
  · next ht =>
    obtain ⟨hwnd, rfl, rfl, rfl⟩ := reads_readRemoveTask_iff.mp h
    exact ⟨ht ▸ .removeTask, rfl⟩
  split at h
  · next ht =>
    obtain ⟨hwnd, title, hs, rfl, rfl, rfl⟩ := reads_readUpdateTask_iff.mp h
    exact ⟨ht ▸ .updateTask hs, rfl⟩
  · next h1 h2 h3 h4 h5 =>
    obtain ⟨rfl, rfl, rfl⟩ := reads_pure_iff.mp h
    rw [List.append_nil]
    exact ⟨.unknown (by simp [responseTypes, *]), rfl⟩

theorem readCase_of_isFrame {i : List Byte} {v : Option ServerMsg} (h : IsFrame i v) :
    ∃ serverResponseType j, i = beBytes serverResponseType ++ j ∧
      Reads (readCase serverResponseType) j (frameActs v) v := by
  cases h with
  | activeTaskList count titles =>
    exact ⟨_, _, rfl, reads_readActiveTaskList_iff.mpr ⟨_, _, count, titles, rfl, rfl, rfl⟩⟩
  | sendIcon size => exact ⟨_, _, rfl, reads_readSendIcon_iff.mpr ⟨_, _, size, rfl, rfl, rfl⟩⟩
  | addTask title => exact ⟨_, _, rfl, reads_readAddTask_iff.mpr ⟨_, title, rfl, rfl, rfl⟩⟩
  | removeTask => exact ⟨_, _, rfl, reads_readRemoveTask_iff.mpr ⟨_, rfl, rfl, rfl⟩⟩
  | updateTask size => exact ⟨_, _, rfl, reads_readUpdateTask_iff.mpr ⟨_, _, size, rfl, rfl, rfl⟩⟩
  | unknown h =>
    refine ⟨_, [], (List.append_nil _).symm, ?_⟩
    simp only [responseTypes, List.mem_cons, List.not_mem_nil, or_false, not_or] at h
    obtain ⟨h1, h2, h3, h4, h5⟩ := h
    unfold readCase
    rw [if_neg h1, if_neg h2, if_neg h3, if_neg h4, if_neg h5]
    exact reads_pure none

/-- One turn of the loop reads a frame, and every frame in one turn. -/
theorem reads_readMessage_iff {i : List Byte} {l : List ClientAct} {v : Option ServerMsg} :
    Reads readMessage i l v ↔ IsFrame i v ∧ l = frameActs v := by
  rw [readMessage, decodes_readInt.bind_iff local_readCase]
  constructor
  · rintro ⟨serverResponseType, j, l', -, rfl, rfl, h⟩
    exact isFrame_of_readCase h
  · rintro ⟨hi, rfl⟩
    obtain ⟨serverResponseType, j, rfl, h⟩ := readCase_of_isFrame hi
    exact ⟨serverResponseType, j, _, trivial, rfl, rfl, h⟩

/-! ## What is left -/

theorem quiet_readInt : Quiet readInt := by
  intro s log h
  unfold readInt at h
  split at h
  · cases h
  · exact (Prod.mk.inj h).1.symm

theorem readInt_eq_none_iff {s : List Byte} : (readInt s).2 = none ↔ s.length < 4 := by
  match s with
  | b0 :: b1 :: b2 :: b3 :: rest => simp [readInt]
  | [] | [_] | [_, _] | [_, _, _] => simp [readInt]

theorem silent_of_decodes {α : Type} {p : ClientReader α} {ok : α → Prop} {input : α → List Byte}
    (hp : Decodes p ok input fun _ => []) : Silent p := by
  intro s log v h
  obtain ⟨i, -, hi⟩ := hp.isLocal s log v.1 v.2 h
  exact (hp.reads_iff.mp hi).2.2

theorem quiet_readBuffer (length : Word) : Quiet (readBuffer length) := by
  intro s log h
  unfold readBuffer at h
  split at h
  · exact (Prod.mk.inj h).1.symm
  · unfold readFully at h
    split at h
    · cases h
    · exact (Prod.mk.inj h).1.symm

theorem quiet_sized {α : Type} {f : List Byte → ClientReader α} (hf : ∀ xs s, (f xs s).2 ≠ none) :
    Quiet (readInt >>= fun length => readBuffer length >>= f) :=
  quiet_bind quiet_readInt (silent_of_decodes decodes_readInt) fun length =>
    quiet_bind_total (quiet_readBuffer length) hf

theorem quiet_int_sized {α : Type} {f : Word → List Byte → ClientReader α}
    (hf : ∀ w xs s, (f w xs s).2 ≠ none) :
    Quiet (readInt >>= fun w => readInt >>= fun length => readBuffer length >>= f w) :=
  quiet_bind quiet_readInt (silent_of_decodes decodes_readInt) fun w => quiet_sized (hf w)

theorem quiet_readTask : Quiet readTask :=
  quiet_bind quiet_readInt (silent_of_decodes decodes_readInt) fun hwnd =>
    quiet_int_sized fun hicon titleBuffer s => by simp [emit_bind, pure_apply]

theorem quiet_readCase {serverResponseType : Word}
    (h : serverResponseType ≠ SERVER_RESPONSE_ACTIVE_TASK_LIST) : Quiet (readCase serverResponseType) := by
  unfold readCase
  rw [if_neg h]
  split
  · exact quiet_int_sized fun _ _ _ => by simp [emit_bind, pure_apply]
  split
  · exact quiet_bind_total quiet_readTask fun _ _ => by simp [emit_bind, pure_apply]
  split
  · exact quiet_bind_total quiet_readInt fun _ _ => by simp [emit_bind, pure_apply]
  split
  · exact quiet_int_sized fun _ _ _ => by simp [emit_bind, pure_apply]
  · intro s log hs
    cases hs

theorem no_frame_iff {rest : List Byte} :
    (readMessage rest).2 = none ↔ ∀ frame v, IsFrame frame v → ¬ frame <+: rest := by
  rw [stops_iff local_readMessage]
  constructor
  · exact fun h frame v hf => h frame _ v (reads_readMessage_iff.mpr ⟨hf, rfl⟩)
  · exact fun h i l v hr => h i v (reads_readMessage_iff.mp hr).1

theorem no_record_iff {cut : List Byte} :
    (readTask cut).2 = none ↔ ∀ task : Task, Sendable task.title → ¬ task.bytes <+: cut := by
  rw [stops_iff decodes_readTask.isLocal]
  constructor
  · exact fun h task hs => h _ _ task (decodes_readTask.reads hs)
  · rintro h i l task hr
    obtain ⟨hs, rfl, rfl⟩ := decodes_readTask.reads_iff.mp hr
    exact h task hs

theorem beBytes_append_inj {v w : Word} {s t : List Byte} (h : beBytes v ++ s = beBytes w ++ t) :
    v = w ∧ s = t := by
  obtain ⟨hv, hs⟩ := List.append_inj h rfl
  refine ⟨?_, hs⟩
  have h0 := congrArg (fun bytes => byteSwap (loadWord (bytes ++ []) 0)) hv
  simpa only [byteSwap_loadWord_beBytes] using h0

theorem unfinished_of_readActiveTaskList {s : List Byte} {log : List ClientAct}
    (h : readActiveTaskList s = (log, none)) :
    Unfinished (beBytes SERVER_RESPONSE_ACTIVE_TASK_LIST ++ s) log := by
  rcases bind_eq_none_iff.mp h with h₁ | ⟨_, _, _, l, he, h₁, rfl⟩
  · cases h₁
  cases he
  rcases bind_eq_none_iff.mp h₁ with h₂ | ⟨_, numTasks, mid, l', hn, h₂, rfl⟩
  · -- cut inside the count
    obtain rfl := quiet_readInt s l h₂
    exact .numTasks (readInt_eq_none_iff.mp (congrArg Prod.snd h₂))
  obtain ⟨i, rfl, hi⟩ := decodes_readInt.isLocal s _ numTasks mid hn
  obtain ⟨-, rfl, rfl⟩ := decodes_readInt.reads_iff.mp hi
  rcases bind_eq_none_iff.mp h₂ with h₃ | ⟨_, _, _, _, -, h₃, -⟩
  · -- cut inside a record
    obtain ⟨tasks, cut, tail, hlt, htitles, rfl, hcut, rfl⟩ := (readMany_eq_none decodes_readTask).mp h₃
    obtain rfl := quiet_readTask cut tail hcut
    have hadds : tasks.flatMap (fun task => [addTask task]) = tasks.map addTask :=
      List.flatMap_pure_eq_map _ _
    rw [hadds, List.append_nil]
    exact .records hlt htitles (no_record_iff.mp (congrArg Prod.snd hcut))
  · cases h₃

theorem unfinished_of_readMessage {rest : List Byte} {tail : List ClientAct}
    (h : readMessage rest = (tail, none)) : Unfinished rest tail := by
  have hshort := no_frame_iff.mp (congrArg Prod.snd h)
  unfold readMessage at h
  rcases bind_eq_none_iff.mp h with h₁ | ⟨_, serverResponseType, mid, l, ht, h₁, rfl⟩
  · obtain rfl := quiet_readInt rest tail h₁
    refine .quiet ?_ hshort
    rintro ⟨more, rfl⟩
    have hlt := readInt_eq_none_iff.mp (congrArg Prod.snd h₁)
    rw [List.length_append, beBytes_length] at hlt
    omega
  obtain ⟨i, rfl, hi⟩ := decodes_readInt.isLocal rest _ serverResponseType mid ht
  obtain ⟨-, rfl, rfl⟩ := decodes_readInt.reads_iff.mp hi
  by_cases hlist : serverResponseType = SERVER_RESPONSE_ACTIVE_TASK_LIST
  · subst hlist
    exact unfinished_of_readActiveTaskList h₁
  · obtain rfl := quiet_readCase hlist mid l h₁
    refine .quiet ?_ hshort
    rintro ⟨more, hmore⟩
    exact hlist (beBytes_append_inj hmore).1.symm

theorem readMessage_of_unfinished {rest : List Byte} {tail : List ClientAct} (h : Unfinished rest tail) :
    readMessage rest = (tail, none) := by
  cases h with
  | @records numTasks tasks cut count titles short =>
    have hcut : readTask cut = ([], none) := by
      have hnone := no_record_iff.mpr short
      have hq := quiet_readTask cut (readTask cut).1 (Prod.ext rfl hnone)
      exact Prod.ext hq hnone
    have hmany : readMany readTask numTasks.toInt.toNat (tasks.flatMap Task.bytes ++ cut) =
        (tasks.map addTask, none) := by
      refine (readMany_eq_none decodes_readTask).mpr ⟨tasks, cut, [], count, titles, rfl, hcut, ?_⟩
      rw [List.append_nil]
      exact (List.flatMap_pure_eq_map _ _).symm
    rw [readMessage, bind_of_reads_quiet (reads_readInt _)]
    show readActiveTaskList _ = _
    unfold readActiveTaskList
    rw [emit_bind, bind_of_reads_quiet (reads_readInt _), bind_eq_none_iff.mpr (Or.inl hmany)]
  | @numTasks cut short =>
    have hcut : readInt cut = ([], none) := by
      have hnone := readInt_eq_none_iff.mpr short
      exact Prod.ext (quiet_readInt cut _ (Prod.ext rfl hnone)) hnone
    rw [readMessage, bind_of_reads_quiet (reads_readInt _)]
    show readActiveTaskList _ = _
    unfold readActiveTaskList
    rw [emit_bind, bind_eq_none_iff.mpr (Or.inl hcut)]
  | quiet list short =>
    have hnone := no_frame_iff.mpr short
    have hself : readMessage rest = ((readMessage rest).1, none) := Prod.ext rfl hnone
    have hu := unfinished_of_readMessage hself
    generalize (readMessage rest).1 = log at hself hu
    cases hu with
    | records => exact absurd (List.prefix_append _ _) list
    | numTasks => exact absurd (List.prefix_append _ _) list
    | quiet => exact hself

/-! ## The whole stream -/

theorem exists_reads {frames : List (List Byte)} {vals : List (Option ServerMsg)}
    (h : List.Forall₂ IsFrame frames vals) : ∃ fs : List (List Byte × List ClientAct),
      List.Forall₂ (fun f v => Reads readMessage f.1 f.2 v) fs vals ∧
      fs.flatMap (·.1) = frames.flatten ∧ fs.flatMap (·.2) = vals.flatMap frameActs := by
  induction h with
  | nil => exact ⟨[], .nil, rfl, rfl⟩
  | @cons frame v frames vals hf _ ih =>
    obtain ⟨fs, hfs, hi, hl⟩ := ih
    refine ⟨(frame, frameActs v) :: fs, hfs.cons (reads_readMessage_iff.mpr ⟨hf, rfl⟩), ?_, ?_⟩
    · rw [List.flatMap_cons, List.flatten_cons, hi]
    · rw [List.flatMap_cons, List.flatMap_cons, hl]

theorem isFrame_of_reads {fs : List (List Byte × List ClientAct)} {vals : List (Option ServerMsg)}
    (h : List.Forall₂ (fun f v => Reads readMessage f.1 f.2 v) fs vals) :
    List.Forall₂ IsFrame (fs.map (·.1)) vals ∧ fs.flatMap (·.2) = vals.flatMap frameActs := by
  induction h with
  | nil => exact ⟨.nil, rfl⟩
  | cons hr _ ih =>
    obtain ⟨hf, hl⟩ := reads_readMessage_iff.mp hr
    refine ⟨ih.1.cons hf, ?_⟩
    rw [List.flatMap_cons, List.flatMap_cons, ih.2, hl]

/-- **The streams the client understands.**  Whatever bytes arrive, the read loop
splits them into frames and an unfinished rest, in the one way there is, and
carries out the actions of the frames in order and then those of the rest. -/
theorem clientThreadRun_iff (stream rest : List Byte) (log : List ClientAct)
    (vals : List (Option ServerMsg)) :
    clientThreadRun stream = ⟨log, vals, rest⟩ ↔
      ∃ frames tail, List.Forall₂ IsFrame frames vals ∧ stream = frames.flatten ++ rest ∧
        Unfinished rest tail ∧ log = vals.flatMap frameActs ++ tail := by
  unfold clientThreadRun
  rw [loop_eq_iff consumes_readMessage local_readMessage]
  constructor
  · rintro ⟨fs, hfs, rfl, tail, htail, rfl⟩
    obtain ⟨hframes, hlog⟩ := isFrame_of_reads hfs
    refine ⟨fs.map (·.1), tail, hframes, ?_, unfinished_of_readMessage htail, ?_⟩
    · rw [List.flatMap_def]
    · rw [hlog]
  · rintro ⟨frames, tail, hframes, rfl, htail, rfl⟩
    obtain ⟨fs, hfs, hi, hl⟩ := exists_reads hframes
    refine ⟨fs, hfs, ?_, tail, readMessage_of_unfinished htail, ?_⟩
    · rw [hi]
    · rw [hl]

end RemoteTaskbar
