import RemoteTaskbar.Server.Frames
import RemoteTaskbar.Client.ClientThread

/-!
# Framing: the client reads what the server framed

`Packet.msg` is the message a packet stands for on the client: handles narrowed
to `int`, titles with the NUL the server sends behind them.  The read loop of
the client, on the concatenated frames of any packets within the encoders'
bounds, reads exactly these messages and stops at the end of the last frame:

    frames.flatten ++ rest  ⟶  ps.map msg, then whatever `rest` reads as

(`clientThreadRun_frames`).
-/

namespace RemoteTaskbar

open Wire Reader

def TaskRecord.task (t : TaskRecord) : Task := ⟨t.hwnd.toInt, t.hIcon.toInt, t.title.text.bytes ++ [0]⟩

def Packet.msg : Packet → ServerMsg
  | .activeTaskList tasks => .activeTaskList (tasks.map TaskRecord.task)
  | .sendIcon hIcon calls => .sendIcon hIcon.toInt calls.stream
  | .addTask hwnd hIcon title => .addTask (TaskRecord.task ⟨hwnd, hIcon, title⟩)
  | .removeTask hwnd => .removeTask hwnd.toInt
  | .updateTask hwnd title => .updateTask hwnd.toInt (title.text.bytes ++ [0])

/-! ## Lengths as the client reads them -/

theorem title_length_lt (title : WindowTitle) : (title.text.bytes ++ [0]).length < 2 ^ 31 := by
  have hfits := title.fits
  unfold MAX_WINDOW_TITLE_LENGTH at hfits
  rw [List.length_append, List.length_singleton]
  omega

theorem toInt_numTasks {tasks : List TaskRecord} (h : 4 + 4 + recordSize * tasks.length < 2 ^ 31) :
    (BitVec.ofNat 32 tasks.length).toInt.toNat = tasks.length := by
  have hrec : recordSize = 267 := rfl
  rw [hrec] at h
  rw [toInt_ofNat_of_lt _ (by omega), Int.toNat_natCast]

theorem PngCalls.Complete.stream_length_lt {calls : PngCalls} {png : List Byte} (h : calls.Complete png) :
    calls.stream.length < 2 ^ 31 := by
  have hf : png.length ≤ 8000 := h.fits
  rw [h.stream]
  omega

/-! ## One frame -/

theorem reads_title (title : WindowTitle) :
    Reads (readBuffer (BitVec.ofNat 32 (title.text.bytes.length + 1))) (title.text.bytes ++ [0]) []
      (title.text.bytes ++ [0]) := by
  have h := reads_readBuffer (title.text.bytes ++ [0]) (title_length_lt title)
  rwa [List.length_append] at h

theorem reads_readTask (t : TaskRecord) : Reads readTask (taskBytes t) [addTask t.task] t.task := by
  intro rest
  unfold readTask taskBytes titleBytes
  simp only [List.append_assoc]
  rw [bind_of_reads_quiet (reads_readInt _), bind_of_reads_quiet (reads_readInt _),
    bind_of_reads_quiet (reads_readInt _), ← List.append_assoc t.title.text.bytes,
    bind_of_reads_quiet (reads_title _)]
  rfl

theorem reads_readTasks (tasks : List TaskRecord) :
    Reads (readMany readTask tasks.length) (tasks.flatMap taskBytes)
      ((tasks.map TaskRecord.task).map addTask) (tasks.map TaskRecord.task) := by
  have h := reads_readMany taskBytes (fun t => [addTask t.task]) TaskRecord.task tasks
    fun t _ => reads_readTask t
  have hlog : tasks.flatMap (fun t => [addTask t.task]) = (tasks.map TaskRecord.task).map addTask := by
    rw [List.map_map]
    exact List.flatMap_pure_eq_map _ _
  rwa [hlog] at h

theorem reads_activeTaskList (tasks : List TaskRecord)
    (h : 4 + 4 + recordSize * tasks.length < 2 ^ 31) :
    Reads readMessage (Packet.activeTaskList tasks).bytes (Packet.activeTaskList tasks).msg.acts
      (some (Packet.activeTaskList tasks).msg) := by
  intro rest
  unfold readMessage Packet.bytes
  simp only [List.append_assoc]
  rw [bind_of_reads_quiet (reads_readInt _), readCase_activeTaskList, readActiveTaskList, emit_bind,
    bind_of_reads_quiet (reads_readInt _), toInt_numTasks h, bind_of_reads (reads_readTasks tasks), emit_bind, pure_apply]
  rfl

theorem reads_sendIcon (hIcon : HICON) {calls : PngCalls} {png : List Byte} (h : calls.Complete png) :
    Reads readMessage (Packet.sendIcon hIcon calls).bytes (Packet.sendIcon hIcon calls).msg.acts
      (some (Packet.sendIcon hIcon calls).msg) := by
  intro rest
  unfold readMessage Packet.bytes
  simp only [List.append_assoc]
  rw [bind_of_reads_quiet (reads_readInt _), readCase_sendIcon, readSendIcon,
    bind_of_reads_quiet (reads_readInt _), bind_of_reads_quiet (reads_readInt _),
    bind_of_reads_quiet (reads_readBuffer _ h.stream_length_lt)]
  rfl

theorem reads_addTask (hwnd : HWND) (hIcon : HICON) (title : WindowTitle) :
    Reads readMessage (Packet.addTask hwnd hIcon title).bytes (Packet.addTask hwnd hIcon title).msg.acts
      (some (Packet.addTask hwnd hIcon title).msg) := by
  intro rest
  unfold readMessage Packet.bytes
  rw [List.append_assoc, bind_of_reads_quiet (reads_readInt _), readCase_addTask]
  exact bind_of_reads (reads_readTask ⟨hwnd, hIcon, title⟩) _ rest

theorem reads_removeTask (hwnd : HWND) :
    Reads readMessage (Packet.removeTask hwnd).bytes (Packet.removeTask hwnd).msg.acts
      (some (Packet.removeTask hwnd).msg) := by
  intro rest
  unfold readMessage Packet.bytes
  rw [List.append_assoc, bind_of_reads_quiet (reads_readInt _), readCase_removeTask, readRemoveTask,
    bind_of_reads_quiet (reads_readInt _)]
  rfl

theorem reads_updateTask (hwnd : HWND) (title : WindowTitle) :
    Reads readMessage (Packet.updateTask hwnd title).bytes (Packet.updateTask hwnd title).msg.acts
      (some (Packet.updateTask hwnd title).msg) := by
  intro rest
  unfold readMessage Packet.bytes titleBytes
  simp only [List.append_assoc]
  rw [bind_of_reads_quiet (reads_readInt _), readCase_updateTask, readUpdateTask, bind_of_reads_quiet (reads_readInt _),
    bind_of_reads_quiet (reads_readInt _), ← List.append_assoc title.text.bytes,
    bind_of_reads_quiet (reads_title _)]
  rfl

/-- **One frame.**  The client reads a packet's bytes as the packet's message,
whatever follows them. -/
theorem reads_packet (p : Packet) (h : p.Fits) : Reads readMessage p.bytes p.msg.acts (some p.msg) := by
  cases p with
  | activeTaskList tasks => exact reads_activeTaskList tasks h
  | sendIcon hIcon calls =>
    obtain ⟨png, hpng⟩ := h
    exact reads_sendIcon hIcon hpng
  | addTask hwnd hIcon title => exact reads_addTask hwnd hIcon title
  | removeTask hwnd => exact reads_removeTask hwnd
  | updateTask hwnd title => exact reads_updateTask hwnd title

/-! ## Any sequence of frames -/

theorem mapM_frame (ps : List Packet) (h : ∀ p ∈ ps, p.Fits) :
    ps.mapM Packet.frame = some (ps.map Packet.bytes) := by
  induction ps with
  | nil => rfl
  | cons p ps ih =>
    have hp := frame_eq p (h p List.mem_cons_self)
    have hps := ih fun q hq => h q (List.mem_cons_of_mem p hq)
    rw [List.mapM_cons, hp, hps]
    rfl

/-- The client reads the frames of `ps` as their messages and then what follows them. -/
theorem clientThreadRun_append (ps : List Packet) (h : ∀ p ∈ ps, p.Fits) (rest : List Byte) :
    clientThreadRun ((ps.map Packet.bytes).flatten ++ rest) =
      ⟨(ps.map Packet.msg).flatMap ServerMsg.acts ++ (clientThreadRun rest).log,
        ps.map (some ·.msg) ++ (clientThreadRun rest).vals, (clientThreadRun rest).rest⟩ := by
  have := loop_of_reads consumes_readMessage Packet.bytes (·.msg.acts) (some ·.msg) ps
    (fun p hp => reads_packet p (h p hp)) rest
  rw [List.flatMap_def, List.flatMap_def] at this
  rw [List.flatMap_def, List.map_map]
  exact this

/-- **Framing round trip.**  The frames of `ps` are all built, and the client
reads their concatenation as the messages of `ps`, in order; it then reads on in
`rest` as if `rest` were the whole stream.  Without a `rest` nothing is left. -/
theorem clientThreadRun_frames (ps : List Packet) (h : ∀ p ∈ ps, p.Fits) :
    ∃ frames, ps.mapM Packet.frame = some frames ∧
      clientThreadRun frames.flatten =
        ⟨(ps.map Packet.msg).flatMap ServerMsg.acts, ps.map (some ·.msg), []⟩ ∧
      ∀ rest, clientThreadRun (frames.flatten ++ rest) =
        ⟨(ps.map Packet.msg).flatMap ServerMsg.acts ++ (clientThreadRun rest).log,
          ps.map (some ·.msg) ++ (clientThreadRun rest).vals, (clientThreadRun rest).rest⟩ := by
  have hread := clientThreadRun_append ps h
  refine ⟨ps.map Packet.bytes, mapM_frame ps h, ?_, hread⟩
  have hnil := hread []
  simp only [List.append_nil] at hnil
  rw [hnil]
  have hempty : clientThreadRun [] = ⟨[], [], []⟩ := rfl
  rw [hempty, List.append_nil, List.append_nil]

theorem sampleTitle_noNul : (0 : Byte) ∉ [0x41, 0x42] := by decide

/-- A session of five packets, one of each kind, one title empty. -/
def samplePackets : List Packet :=
  let h := Handle.ofInt 0xFFFF0A12
  let icon := Handle.ofInt 0x10013
  let title := getWindowTitle ⟨[0x41, 0x42], sampleTitle_noNul⟩
  [.sendIcon icon ⟨true, some 3, true, [0x89, 0x50, 0]⟩,
    .activeTaskList [⟨h, icon, title⟩, ⟨NULL, NULL, getWindowTitle default⟩],
    .addTask icon icon title, .updateTask h title, .removeTask h]

theorem clientThreadRun_frames_sample :
    ∃ frames, samplePackets.mapM Packet.frame = some frames ∧
      clientThreadRun frames.flatten =
        ⟨(samplePackets.map Packet.msg).flatMap ServerMsg.acts, samplePackets.map (some ·.msg), []⟩ ∧
      ∀ rest, clientThreadRun (frames.flatten ++ rest) =
        ⟨(samplePackets.map Packet.msg).flatMap ServerMsg.acts ++ (clientThreadRun rest).log,
          samplePackets.map (some ·.msg) ++ (clientThreadRun rest).vals, (clientThreadRun rest).rest⟩ :=
  clientThreadRun_frames samplePackets (by
    intro p hp
    simp only [samplePackets, List.mem_cons, List.not_mem_nil, or_false] at hp
    rcases hp with rfl | rfl | rfl | rfl | rfl
    · exact ⟨_, rfl, rfl, rfl, rfl, by decide⟩
    · show 4 + 4 + recordSize * 2 < 2 ^ 31
      decide
    · trivial
    · trivial
    · trivial)

end RemoteTaskbar
