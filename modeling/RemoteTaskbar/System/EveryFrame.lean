import RemoteTaskbar.Client.Grammar
import RemoteTaskbar.Server.FrameBounds
import RemoteTaskbar.System.Framing

/-!
# Every frame that is built

The encoders do not check that they stay within their buffers, and a conversion
that fails is sent all the same.  Where a frame comes out at all, no store having
left its buffer and no unwritten byte being sent, it is one the client understands
and reads as the values that went in; an icon that was not converted arrives as an
empty PNG.

    ps.mapM frame = some frames  →  the client reads frames.flatten as ps.map sentMsg

(`clientThreadRun_built`), with no bound on the number of tasks and whatever the
stream calls of the conversions returned.
-/

namespace RemoteTaskbar

open Wire Reader

/-- The message a packet arrives as: the PNG is what the conversion stored. -/
def Packet.sentMsg : Packet → ServerMsg
  | .sendIcon hIcon calls => .sendIcon hIcon.toInt (hIconToPNG calls PNG_MAX_FILESIZE 0).written
  | p => p.msg

/-! ## Stores that stayed inside -/

theorem putTitle_filled_of_lt (title : WindowTitle) (bs : List Byte) (old : List (Option Byte))
    (h : old.length < (titleBytes title).length) : putTitle title (.filled bs old) = none := by
  have hc := cString_windowTitleBuffer title
  rw [titleBytes_length] at h
  unfold putTitle
  simp only [Option.bind_eq_bind]
  by_cases hint : old.length < 4
  · rw [CBuffer.putInt_filled_of_lt _ _ _ hint, Option.bind_none]
  · rw [CBuffer.putInt_filled _ _ _ (by omega), Option.bind_some,
      CBuffer.strcpy_filled_of_lt _ _ _ (by rw [hc, List.length_drop]; omega), Option.bind_none]

theorem putTask_filled_of_lt (task : TaskRecord) (bs : List Byte) (old : List (Option Byte))
    (h : old.length < (taskBytes task).length) : putTask (.filled bs old) task = none := by
  have hlen : (taskBytes task).length = 4 + (4 + (titleBytes task.title).length) := by
    simp [taskBytes]
  rw [hlen] at h
  unfold putTask
  simp only [Option.bind_eq_bind]
  by_cases hhwnd : old.length < 4
  · rw [CBuffer.putInt_filled_of_lt _ _ _ hhwnd, Option.bind_none]
  rw [CBuffer.putInt_filled _ _ _ (by omega), Option.bind_some]
  by_cases hicon : (old.drop 4).length < 4
  · rw [CBuffer.putInt_filled_of_lt _ _ _ hicon, Option.bind_none]
  rw [CBuffer.putInt_filled _ _ _ (by omega), Option.bind_some]
  refine putTitle_filled_of_lt _ _ _ ?_
  rw [List.length_drop] at hicon ⊢
  rw [List.length_drop]
  omega

/-- The records of a loop that went through had room. -/
theorem putTasks_eq_some {tasks : List TaskRecord} {bs : List Byte} {old : List (Option Byte)}
    {buffer : CBuffer} (h : tasks.foldlM putTask (.filled bs old) = some buffer) :
    (tasks.flatMap taskBytes).length ≤ old.length ∧
      buffer = .filled (bs ++ tasks.flatMap taskBytes) (old.drop (tasks.flatMap taskBytes).length) := by
  induction tasks generalizing bs old with
  | nil =>
    obtain rfl := Option.some.inj h
    simp
  | cons task tasks ih =>
    rw [List.foldlM_cons] at h
    by_cases hroom : old.length < (taskBytes task).length
    · rw [putTask_filled_of_lt task bs old hroom] at h
      cases h
    · rw [putTask_filled task bs old (Nat.not_lt.mp hroom)] at h
      obtain ⟨hle, rfl⟩ := ih h
      rw [List.length_drop] at hle
      rw [List.flatMap_cons, List.length_append, List.drop_drop, List.append_assoc]
      exact ⟨by omega, rfl⟩

/-! ## The frames -/

theorem TaskRecord.task_bytes (t : TaskRecord) : t.task.bytes = taskBytes t := by
  unfold Task.bytes sizedBytes taskBytes titleBytes TaskRecord.task
  rw [List.length_append, List.length_singleton]

theorem TaskRecord.task_sendable (t : TaskRecord) : Sendable t.task.title := title_length_lt t.title

theorem length_le_flatMap_taskBytes (tasks : List TaskRecord) :
    tasks.length ≤ (tasks.flatMap taskBytes).length := by
  induction tasks with
  | nil => exact Nat.zero_le _
  | cons task tasks ih =>
    have hone : 1 ≤ (taskBytes task).length := by
      simp only [taskBytes, List.length_append, beBytes_length]
      omega
    rw [List.flatMap_cons, List.length_append, List.length_cons]
    omega

theorem new_eq_some {n : Word} {buffer : CBuffer} (h : CBuffer.new n = some buffer) :
    n.toInt.toNat < 2 ^ 31 ∧ buffer = .filled [] (List.replicate n.toInt.toNat none) := by
  unfold CBuffer.new at h
  split at h
  · cases h
  · have hlt : n.toInt < 2 ^ 31 := BitVec.toInt_lt
    exact ⟨by omega, (Option.some.inj h).symm⟩

theorem isFrame_activeTaskList {tasks : List TaskRecord} {frame : List Byte}
    (h : encodeActiveTaskList tasks = some frame) :
    IsFrame frame (some (Packet.activeTaskList tasks).msg) := by
  unfold encodeActiveTaskList activeTaskListBuffer at h
  simp only [Option.bind_eq_bind, Option.bind_assoc] at h
  obtain ⟨b₀, hnew, h⟩ := Option.bind_eq_some_iff.mp h
  obtain ⟨hsize, rfl⟩ := new_eq_some hnew
  generalize hn : (_ : Word).toInt.toNat = size at hsize h
  by_cases htype : (List.replicate size (none : Option Byte)).length < 4
  · rw [CBuffer.putInt_filled_of_lt _ _ _ htype] at h
    cases h
  rw [putInt_htonl _ _ _ (Nat.not_lt.mp htype), Option.bind_some] at h
  by_cases hcount : ((List.replicate size (none : Option Byte)).drop 4).length < 4
  · rw [CBuffer.putInt_filled_of_lt _ _ _ hcount] at h
    cases h
  rw [putInt_htonl _ _ _ (Nat.not_lt.mp hcount), Option.bind_some] at h
  obtain ⟨b, hb, h⟩ := Option.bind_eq_some_iff.mp h
  obtain ⟨hroom, rfl⟩ := putTasks_eq_some hb
  rw [CBuffer.filled_ptr, CBuffer.sent_filled] at h
  obtain rfl := Option.some.inj h
  -- the records fit in less than 2^31 bytes, so there are fewer than that
  have hlen := length_le_flatMap_taskBytes tasks
  simp only [List.length_drop, List.length_replicate] at hroom
  have hbytes : (tasks.map TaskRecord.task).flatMap Task.bytes = tasks.flatMap taskBytes := by
    rw [List.flatMap_map]
    exact List.flatMap_congr fun t _ => TaskRecord.task_bytes t
  rw [List.nil_append, List.append_assoc, ← hbytes]
  refine .activeTaskList ?_ ?_
  · rw [toInt_ofNat_of_lt _ (by omega), Int.toNat_natCast, List.length_map]
  · intro task ht
    obtain ⟨t, -, rfl⟩ := List.mem_map.mp ht
    exact t.task_sendable

theorem isFrame_sendIcon {hIcon : HICON} {calls : PngCalls} {frame : List Byte}
    (h : encodeSendIcon hIcon calls = some frame) :
    IsFrame frame (some (Packet.sendIcon hIcon calls).sentMsg) := by
  obtain ⟨hsize, hmax⟩ := written_length_le calls
  rw [encodeSendIcon_eq_sent hIcon calls rfl hmax] at h
  show IsFrame frame (some (.sendIcon hIcon.toInt (hIconToPNG calls PNG_MAX_FILESIZE 0).written))
  generalize hIconToPNG calls PNG_MAX_FILESIZE 0 = result at hsize hmax h
  have hle : result.outputSize.toNat ≤ result.written.length := by
    by_contra hlt
    rw [CBuffer.sent_written_of_lt _ _ (by rw [iconFrame_length]; omega)] at h
    cases h
  have hnat : result.outputSize.toNat = result.written.length := Nat.le_antisymm hle hsize
  rw [hnat, ← iconFrame_length hIcon result.outputSize, CBuffer.sent_written] at h
  obtain rfl := Option.some.inj h
  have hword : result.outputSize = BitVec.ofNat 32 result.written.length := by
    rw [← hnat, BitVec.ofNat_toNat, BitVec.setWidth_eq]
  unfold iconFrame
  rw [hword]
  refine .sendIcon ?_
  show result.written.length < 2 ^ 31
  have hcap : PNG_MAX_FILESIZE.toNat = 8000 := rfl
  omega

/-- A frame that is built is one of the client's, with the packet's values. -/
theorem isFrame_of_frame {p : Packet} {frame : List Byte} (h : p.frame = some frame) :
    IsFrame frame (some p.sentMsg) := by
  cases p with
  | activeTaskList tasks => exact isFrame_activeTaskList h
  | sendIcon hIcon calls => exact isFrame_sendIcon h
  | addTask hwnd hIcon title =>
    obtain rfl := Option.some.inj ((encodeAddTask_eq hwnd hIcon title).symm.trans h)
    have hbytes := TaskRecord.task_bytes ⟨hwnd, hIcon, title⟩
    have hframe := IsFrame.addTask (TaskRecord.task_sendable ⟨hwnd, hIcon, title⟩)
    rw [hbytes] at hframe
    exact hframe
  | removeTask hwnd =>
    obtain rfl := Option.some.inj ((encodeRemoveTask_eq hwnd).symm.trans h)
    exact .removeTask
  | updateTask hwnd title =>
    obtain rfl := Option.some.inj ((encodeUpdateTask_eq hwnd title).symm.trans h)
    have hframe : IsFrame _ (some (.updateTask hwnd.toInt (title.text.bytes ++ [0]))) :=
      .updateTask (title_length_lt title)
    unfold sizedBytes at hframe
    rw [List.length_append, List.length_singleton] at hframe
    exact hframe

theorem reads_of_frame {p : Packet} {frame : List Byte} (h : p.frame = some frame) :
    Reads readMessage frame p.sentMsg.acts (some p.sentMsg) :=
  reads_readMessage_iff.mpr ⟨isFrame_of_frame h, rfl⟩

/-! ## Any sequence of them -/

theorem forall₂_frame {ps : List Packet} {frames : List (List Byte)}
    (h : ps.mapM Packet.frame = some frames) :
    List.Forall₂ (fun p frame => p.frame = some frame) ps frames := by
  induction ps generalizing frames with
  | nil =>
    obtain rfl : [] = frames := Option.some.inj h
    exact .nil
  | cons p ps ih =>
    rw [List.mapM_cons] at h
    obtain ⟨frame, hframe, h⟩ := Option.bind_eq_some_iff.mp h
    obtain ⟨frames', hframes, h⟩ := Option.bind_eq_some_iff.mp h
    obtain rfl : frame :: frames' = frames := Option.some.inj h
    exact .cons hframe (ih hframes)

/-- Behind frames that were built, a stream is read as it is without them. -/
theorem clientThreadRun_append_built {ps : List Packet} {frames : List (List Byte)}
    (h : List.Forall₂ (fun p frame => p.frame = some frame) ps frames) (rest : List Byte) :
    clientThreadRun (frames.flatten ++ rest) =
      ⟨(ps.map Packet.sentMsg).flatMap ServerMsg.acts ++ (clientThreadRun rest).log,
        ps.map (some ·.sentMsg) ++ (clientThreadRun rest).vals, (clientThreadRun rest).rest⟩ := by
  induction h with
  | nil => rfl
  | @cons p frame ps frames hframe _ ih =>
    have hread := loop_cons consumes_readMessage (reads_of_frame hframe) (frames.flatten ++ rest)
    unfold clientThreadRun at ih ⊢
    rw [List.flatten_cons, List.append_assoc, hread, ih]
    simp only [List.map_cons, List.flatMap_cons, List.append_assoc, List.cons_append]

/-- What the client does with frames that were built. -/
theorem log_built {ps : List Packet} {frames : List (List Byte)}
    (h : ps.mapM Packet.frame = some frames) :
    (clientThreadRun frames.flatten).log = (ps.map Packet.sentMsg).flatMap ServerMsg.acts := by
  have hread := clientThreadRun_append_built (forall₂_frame h) []
  have hempty : clientThreadRun [] = ⟨[], [], []⟩ := rfl
  rw [List.append_nil, hempty, List.append_nil] at hread
  rw [hread]

/-! ## Frames for short lists -/

theorem exists_frames_cons {p : Packet} {ps : List Packet} {frame : List Byte} (hp : p.frame = some frame)
    (hps : ∃ frames, ps.mapM Packet.frame = some frames) :
    ∃ frames, (p :: ps).mapM Packet.frame = some frames := by
  obtain ⟨frames, hframes⟩ := hps
  refine ⟨frame :: frames, ?_⟩
  rw [List.mapM_cons, hp, hframes]
  rfl

/-- An icon that no stream could be created for. -/
theorem frame_unconverted (hIcon : HICON) :
    (Packet.sendIcon hIcon default).frame = some (iconFrame hIcon 0 []) := by
  show encodeSendIcon _ _ = _
  rw [encodeSendIcon_eq_sent _ _ rfl (Nat.zero_le _)]
  exact CBuffer.sent_written _ _

/-- **Frames that are built are read.**  If the encoders build the frames of `ps`, these are
frames of the client's, which reads their concatenation as the messages of `ps` and
leaves nothing; what follows it reads as if that were the whole stream. -/
theorem clientThreadRun_built (ps : List Packet) (frames : List (List Byte))
    (h : ps.mapM Packet.frame = some frames) :
    List.Forall₂ IsFrame frames (ps.map (some ·.sentMsg)) ∧
      clientThreadRun frames.flatten =
        ⟨(ps.map Packet.sentMsg).flatMap ServerMsg.acts, ps.map (some ·.sentMsg), []⟩ ∧
      ∀ rest, clientThreadRun (frames.flatten ++ rest) =
        ⟨(ps.map Packet.sentMsg).flatMap ServerMsg.acts ++ (clientThreadRun rest).log,
          ps.map (some ·.sentMsg) ++ (clientThreadRun rest).vals, (clientThreadRun rest).rest⟩ := by
  have hall := forall₂_frame h
  have hread := clientThreadRun_append_built hall
  refine ⟨?_, ?_, hread⟩
  · rw [List.forall₂_map_right_iff]
    exact hall.flip.imp fun frame p hp => isFrame_of_frame hp
  · have hnil := hread []
    have hempty : clientThreadRun [] = ⟨[], [], []⟩ := rfl
    simp only [List.append_nil, hempty] at hnil
    exact hnil

/-- An icon that no stream could be created for, and a removal. -/
theorem clientThreadRun_built_failed :
    let ps : List Packet := [.sendIcon (Handle.ofInt 9) ⟨false, none, false, []⟩, .removeTask (Handle.ofInt 7)]
    ∃ frames, ps.mapM Packet.frame = some frames ∧
      List.Forall₂ IsFrame frames [some (.sendIcon 9 []), some (.removeTask 7)] := by
  intro ps
  obtain ⟨frames, h⟩ : ∃ frames, ps.mapM Packet.frame = some frames :=
    exists_frames_cons (frame_unconverted _) (exists_frames_cons (encodeRemoveTask_eq _) ⟨[], rfl⟩)
  exact ⟨frames, h, (clientThreadRun_built ps _ h).1⟩

end RemoteTaskbar
