import RemoteTaskbar.Server.Frames

/-!
# The buffers of the frames

The task frames are stored record by record behind a cursor, into a buffer sized
before the titles are known: at every turn there is room for the longest title
still to come, and what is sent is what was stored (`taskFrames_inside`).

The icon frame is stored the other way round, the PNG first and its header around
it, and its length is the size the stream reported, also where the conversion gave
up: too large a PNG makes it longer than its buffer, and after a failed or short
read it counts bytes that were never stored (`iconFrameOk_iff`).
-/

namespace RemoteTaskbar

open Wire

/-! ## Task frames -/

/-- Every store so far was inside a buffer of `size` bytes, each byte before the cursor
is written and none behind it. -/
def FilledInside (size : Nat) (buffer : Option CBuffer) : Prop :=
  ∃ bs : List Byte, bs.length ≤ size ∧ buffer = some (.written size bs)

/-- What is sent is exactly the bytes written before the cursor. -/
def SendsWritten (buffer : Option CBuffer) (frame : Option (List Byte)) : Prop :=
  ∃ b bs, buffer = some b ∧ b.ptr = bs.length ∧ b.sent b.ptr = some bs ∧ frame = some bs

theorem sendsWritten_written {size : Nat} {bs : List Byte} {buffer : Option CBuffer}
    {frame : Option (List Byte)} (hb : buffer = some (.written size bs))
    (hf : frame = buffer.bind fun b => b.sent b.ptr) : SendsWritten buffer frame := by
  have hsent := CBuffer.sent_written size bs
  refine ⟨_, bs, hb, rfl, hsent, ?_⟩
  rw [hf, hb]
  exact hsent

theorem windowTitleBuffer_length (title : WindowTitle) :
    (windowTitleBuffer title).length = MAX_WINDOW_TITLE_LENGTH := by
  have hfits := title.fits
  unfold windowTitleBuffer
  rw [overlay_length _ _ ?_, List.length_replicate]
  rw [List.length_append, List.length_replicate, List.length_singleton]
  omega

theorem flatMap_taskBytes_length_le (tasks : List TaskRecord) :
    (tasks.flatMap taskBytes).length ≤ recordSize * tasks.length := by
  induction tasks with
  | nil => exact Nat.le_refl 0
  | cons task tasks ih =>
    have hle := taskBytes_length_le task
    rw [List.flatMap_cons, List.length_append, List.length_cons, Nat.mul_succ]
    omega

section
variable (tasks : List TaskRecord) (h : 4 + 4 + recordSize * tasks.length < 2 ^ 31)
include h

theorem activeTaskListBuffer_inside (i : Nat) (hi : i ≤ tasks.length) :
    FilledInside (4 + 4 + recordSize * tasks.length)
      (activeTaskListBuffer tasks.length (tasks.take i)) := by
  have hlen : (tasks.take i).length = i := by
    rw [List.length_take]
    exact Nat.min_eq_left hi
  refine ⟨_, ?_, activeTaskListBuffer_eq _ _ (by rw [hlen]; exact hi) h⟩
  have hrecords := flatMap_taskBytes_length_le (tasks.take i)
  have hroom : recordSize * i ≤ recordSize * tasks.length := Nat.mul_le_mul_left _ hi
  rw [hlen] at hrecords
  simp only [List.length_append, beBytes_length]
  omega

theorem activeTaskList_sendsWritten :
    SendsWritten (activeTaskListBuffer tasks.length tasks) (Packet.activeTaskList tasks).frame :=
  sendsWritten_written (activeTaskListBuffer_eq _ _ (Nat.le_refl _) h) rfl

end

section
variable (hwnd : HWND) (hIcon : HICON) (title : WindowTitle)

theorem addTaskBuffer_inside : FilledInside (4 + recordSize) (addTaskBuffer hwnd hIcon title) := by
  refine ⟨_, ?_, addTaskBuffer_eq hwnd hIcon title⟩
  have ht := titleBytes_length_le title
  simp only [Packet.bytes, List.length_append, beBytes_length]
  unfold recordSize
  omega

theorem updateTaskBuffer_inside :
    FilledInside (4 + (4 + 4 + MAX_WINDOW_TITLE_LENGTH)) (updateTaskBuffer hwnd title) := by
  refine ⟨_, ?_, updateTaskBuffer_eq hwnd title⟩
  have ht := titleBytes_length_le title
  simp only [Packet.bytes, List.length_append, beBytes_length]
  omega

end

/-- **Task frames.**  No store of the task list, add and update frames leaves its buffer,
whatever the titles are, and each frame is sent as far as it was written. -/
theorem taskFrames_inside (tasks : List TaskRecord) (h : 4 + 4 + recordSize * tasks.length < 2 ^ 31)
    (hwnd : HWND) (hIcon : HICON) (title : WindowTitle) :
    (windowTitleBuffer title).length = MAX_WINDOW_TITLE_LENGTH ∧
    (∀ i ≤ tasks.length, FilledInside (4 + 4 + recordSize * tasks.length)
      (activeTaskListBuffer tasks.length (tasks.take i))) ∧
    SendsWritten (activeTaskListBuffer tasks.length tasks) (Packet.activeTaskList tasks).frame ∧
    FilledInside (4 + recordSize) (addTaskBuffer hwnd hIcon title) ∧
    SendsWritten (addTaskBuffer hwnd hIcon title) (Packet.addTask hwnd hIcon title).frame ∧
    FilledInside (4 + (4 + 4 + MAX_WINDOW_TITLE_LENGTH)) (updateTaskBuffer hwnd title) ∧
    SendsWritten (updateTaskBuffer hwnd title) (Packet.updateTask hwnd title).frame :=
  ⟨windowTitleBuffer_length title, activeTaskListBuffer_inside tasks h,
    activeTaskList_sendsWritten tasks h, addTaskBuffer_inside hwnd hIcon title,
    sendsWritten_written (addTaskBuffer_eq hwnd hIcon title) rfl,
    updateTaskBuffer_inside hwnd title,
    sendsWritten_written (updateTaskBuffer_eq hwnd title) rfl⟩

/-- A task with the longest title and one with none. -/
theorem taskFrames_inside_two :
    let long : WindowTitle := getWindowTitle
      ⟨List.replicate 300 0x41, fun h => absurd (List.eq_of_mem_replicate h) (by decide)⟩
    let tasks : List TaskRecord :=
      [⟨Handle.ofInt 7, Handle.ofInt 9, long⟩, ⟨Handle.ofInt 8, NULL, getWindowTitle default⟩]
    long.text.bytes.length = 253 ∧ ∀ i ≤ tasks.length, FilledInside (4 + 4 + 267 * 2)
      (activeTaskListBuffer tasks.length (tasks.take i)) := by
  intro long tasks
  have htasks := taskFrames_inside tasks (by decide) NULL NULL long
  refine ⟨?_, htasks.2.1⟩
  show ((List.replicate 300 (0x41 : Byte)).take (MAX_WINDOW_TITLE_LENGTH - 1 - 1)).length = 253
  rw [List.length_take, List.length_replicate]
  rfl

/-! ## Icon frames -/

/-- The size `HIconToPNG` stores in `*outputSize`, if it comes to it. -/
def PngCalls.reportedSize (calls : PngCalls) : Option Word :=
  if calls.createStream then calls.seekEnd.map (·.setWidth 32) else none

/-- The bytes of a PNG the call wrote: none when it returned -1. -/
def PngResult.png (result : PngResult) : List Byte := if result.ret = -1 then [] else result.written

/-- The frame of an icon lies in its buffer, and its size field counts the PNG bytes written. -/
structure IconFrameOk (calls : PngCalls) : Prop where
  inside : 4 * 3 + (hIconToPNG calls PNG_MAX_FILESIZE 0).outputSize.toNat ≤
    4 * 3 + PNG_MAX_FILESIZE.toNat
  counted : (hIconToPNG calls PNG_MAX_FILESIZE 0).outputSize.toNat =
    (hIconToPNG calls PNG_MAX_FILESIZE 0).png.length

/-- The reported size is 0, or the buffer holds it and the read delivers all of it. -/
def PngCalls.Delivers (calls : PngCalls) (size : Word) : Prop :=
  size = 0 ∨ (size ≤ PNG_MAX_FILESIZE ∧ calls.readOk = true ∧ size.toNat ≤ calls.stream.length)

/-- A read is short exactly if the stream has fewer bytes than asked for. -/
theorem short_read_iff (size : Word) (stream : List Byte) :
    (size != BitVec.ofNat 32 (stream.take size.toNat).length) = true ↔ stream.length < size.toNat := by
  have hlt : size.toNat < 2 ^ 32 := size.isLt
  have hle : (stream.take size.toNat).length ≤ size.toNat := List.length_take_le _ _
  rw [bne_iff_ne, ne_eq, ← BitVec.toNat_inj, toNat_ofNat_of_lt _ (by omega), List.length_take]
  omega

/-- The exits of the conversion. -/
theorem hIconToPNG_cases (calls : PngCalls) :
    (calls.reportedSize = none ∧ hIconToPNG calls PNG_MAX_FILESIZE 0 = ⟨-1, 0, []⟩) ∨
    ∃ size, calls.reportedSize = some size ∧
      ((PNG_MAX_FILESIZE < size ∧ hIconToPNG calls PNG_MAX_FILESIZE 0 = ⟨-1, size, []⟩) ∨
      (size ≤ PNG_MAX_FILESIZE ∧ ¬ (calls.readOk = true ∧ size.toNat ≤ calls.stream.length) ∧
        hIconToPNG calls PNG_MAX_FILESIZE 0 = ⟨-1, size, calls.stream.take size.toNat⟩) ∨
      (size ≤ PNG_MAX_FILESIZE ∧ (calls.readOk = true ∧ size.toNat ≤ calls.stream.length) ∧
        hIconToPNG calls PNG_MAX_FILESIZE 0 = ⟨size, size, calls.stream.take size.toNat⟩)) := by
  obtain ⟨createStream, seekEnd, readOk, stream⟩ := calls
  cases createStream with
  | false => exact Or.inl ⟨rfl, rfl⟩
  | true =>
    cases seekEnd with
    | none => exact Or.inl ⟨rfl, rfl⟩
    | some quadPart =>
      refine Or.inr ⟨quadPart.setWidth 32, rfl, ?_⟩
      generalize hsize : quadPart.setWidth 32 = size
      have hexits : hIconToPNG ⟨true, some quadPart, readOk, stream⟩ PNG_MAX_FILESIZE 0 =
          if PNG_MAX_FILESIZE < size then ⟨-1, size, []⟩
          else if !readOk || size != BitVec.ofNat 32 (stream.take size.toNat).length then
            ⟨-1, size, stream.take size.toNat⟩
          else ⟨size, size, stream.take size.toNat⟩ := by
        rw [← hsize]
        rfl
      have hfail : (!readOk || size != BitVec.ofNat 32 (stream.take size.toNat).length) = true ↔
          ¬ (readOk = true ∧ size.toNat ≤ stream.length) := by
        rw [Bool.or_eq_true, short_read_iff, Bool.not_eq_true', ← Bool.not_eq_true, not_and_or, Nat.not_le]
      rw [hexits]
      by_cases hbig : PNG_MAX_FILESIZE < size
      · exact Or.inl ⟨hbig, if_pos hbig⟩
      · have hle : size ≤ PNG_MAX_FILESIZE := BitVec.not_lt.mp hbig
        rw [if_neg hbig]
        by_cases hread : readOk = true ∧ size.toNat ≤ stream.length
        · exact Or.inr (Or.inr ⟨hle, hread, if_neg fun h => hfail.mp h hread⟩)
        · exact Or.inr (Or.inl ⟨hle, hread, if_pos (hfail.mpr hread)⟩)

/-- The conversion writes no more than the size it reports, and no more than the buffer holds. -/
theorem written_length_le (calls : PngCalls) :
    (hIconToPNG calls PNG_MAX_FILESIZE 0).written.length ≤
        (hIconToPNG calls PNG_MAX_FILESIZE 0).outputSize.toNat ∧
      (hIconToPNG calls PNG_MAX_FILESIZE 0).written.length ≤ PNG_MAX_FILESIZE.toNat := by
  have htake : ∀ size : Word, size ≤ PNG_MAX_FILESIZE →
      (calls.stream.take size.toNat).length ≤ size.toNat ∧
        (calls.stream.take size.toNat).length ≤ PNG_MAX_FILESIZE.toNat := by
    intro size hle
    have hlen : (calls.stream.take size.toNat).length ≤ size.toNat := List.length_take_le _ _
    exact ⟨hlen, Nat.le_trans hlen (BitVec.le_def.mp hle)⟩
  rcases hIconToPNG_cases calls with ⟨-, h⟩ | ⟨size, -, ⟨-, h⟩ | ⟨hle, -, h⟩ | ⟨hle, -, h⟩⟩
  · rw [h]
    exact ⟨Nat.zero_le _, Nat.zero_le _⟩
  · rw [h]
    exact ⟨Nat.zero_le _, Nat.zero_le _⟩
  · rw [h]
    exact htake size hle
  · rw [h]
    exact htake size hle

/-- The frame is as it should be exactly if it is sent with its header and the PNG. -/
theorem iconFrameOk_iff_sent (hIcon : HICON) (calls : PngCalls) :
    IconFrameOk calls ↔ (Packet.sendIcon hIcon calls).frame =
      some (iconFrame hIcon (hIconToPNG calls PNG_MAX_FILESIZE 0).outputSize
        (hIconToPNG calls PNG_MAX_FILESIZE 0).png) := by
  obtain ⟨hsize, hmax⟩ := written_length_le calls
  have hsent := encodeSendIcon_eq_sent hIcon calls rfl hmax
  show _ ↔ encodeSendIcon hIcon calls = _
  rw [hsent]
  constructor
  · intro h
    have hpng : (hIconToPNG calls PNG_MAX_FILESIZE 0).png =
        (hIconToPNG calls PNG_MAX_FILESIZE 0).written := by
      have hc := h.counted
      unfold PngResult.png at hc ⊢
      split at hc
      · next hret =>
        rw [if_pos hret]
        exact (List.eq_nil_of_length_eq_zero (by rw [List.length_nil] at hc; omega)).symm
      · next hret => rw [if_neg hret]
    rw [h.counted, hpng, ← iconFrame_length hIcon (hIconToPNG calls PNG_MAX_FILESIZE 0).outputSize]
    exact CBuffer.sent_written _ _
  · intro h
    obtain ⟨hlen, hle⟩ := CBuffer.length_of_sent h
    rw [iconFrame_length] at hlen
    rw [CBuffer.written_cells_length (by rw [iconFrame_length]; omega)] at hle
    exact ⟨hle, by omega⟩

/-- After a conversion that returned -1 only a size of 0 is right. -/
theorem iconFrameOk_of_failed {calls : PngCalls} {size : Word} {written : List Byte}
    (h : hIconToPNG calls PNG_MAX_FILESIZE 0 = ⟨-1, size, written⟩) : IconFrameOk calls ↔ size = 0 := by
  constructor
  · intro hok
    have hc := hok.counted
    rw [h] at hc
    exact BitVec.eq_of_toNat_eq hc
  · rintro rfl
    constructor
    · rw [h]
      exact Nat.le_add_right _ _
    · rw [h]
      rfl

theorem iconFrameOk_of_converted {calls : PngCalls} {size : Word} (hle : size ≤ PNG_MAX_FILESIZE)
    (hread : size.toNat ≤ calls.stream.length)
    (h : hIconToPNG calls PNG_MAX_FILESIZE 0 = ⟨size, size, calls.stream.take size.toNat⟩) :
    IconFrameOk calls := by
  have hret : size ≠ -1 := by
    rintro rfl
    exact absurd hle (by decide)
  constructor
  · rw [h]
    exact Nat.add_le_add_left (BitVec.le_def.mp hle) _
  · rw [h]
    unfold PngResult.png
    rw [if_neg hret, List.length_take, Nat.min_eq_left hread]

/-- **Icon frames.**  The frame is well formed exactly if the conversion reports no size, or
a size of 0, or one that the buffer holds and the read delivers. -/
theorem iconFrameOk_iff (hIcon : HICON) (calls : PngCalls) :
    (IconFrameOk calls ↔ ∀ size, calls.reportedSize = some size → calls.Delivers size) ∧
    (IconFrameOk calls ↔ (Packet.sendIcon hIcon calls).frame =
      some (iconFrame hIcon (hIconToPNG calls PNG_MAX_FILESIZE 0).outputSize
        (hIconToPNG calls PNG_MAX_FILESIZE 0).png)) := by
  refine ⟨?_, iconFrameOk_iff_sent hIcon calls⟩
  rcases hIconToPNG_cases calls with ⟨hnone, h⟩ | ⟨size, hsome, hexit⟩
  · have hok : IconFrameOk calls := (iconFrameOk_of_failed h).mpr rfl
    exact iff_of_true hok fun size hsize => absurd (hnone.symm.trans hsize) (by simp)
  · have hall : (∀ n, calls.reportedSize = some n → calls.Delivers n) ↔ calls.Delivers size := by
      rw [hsome]
      simp
    rw [hall]
    rcases hexit with ⟨hbig, h⟩ | ⟨hle, hread, h⟩ | ⟨hle, hread, h⟩
    · rw [iconFrameOk_of_failed h]
      exact (or_iff_left fun hd => BitVec.not_lt.mpr hd.1 hbig).symm
    · rw [iconFrameOk_of_failed h]
      exact (or_iff_left fun hd => hread hd.2).symm
    · exact iff_of_true (iconFrameOk_of_converted hle hread.2 h) (Or.inr ⟨hle, hread⟩)

/-- A PNG of 8001 bytes is counted but not written, and its frame ends behind the buffer; so is
a PNG of 3 bytes that could not be read, whose frame has bytes never written. -/
theorem iconFrame_counts_unwritten :
    let large : PngCalls := ⟨true, some 8001, true, List.replicate 8001 0x89⟩
    let unread : PngCalls := ⟨true, some 3, false, []⟩
    hIconToPNG large PNG_MAX_FILESIZE 0 = ⟨-1, 8001, []⟩ ∧ ¬ IconFrameOk large ∧
      (Packet.sendIcon NULL large).frame = none ∧
      hIconToPNG unread PNG_MAX_FILESIZE 0 = ⟨-1, 3, []⟩ ∧ ¬ IconFrameOk unread ∧
      (Packet.sendIcon NULL unread).frame = none := by
  intro large unread
  have hlarge : hIconToPNG large PNG_MAX_FILESIZE 0 = ⟨-1, 8001, []⟩ := rfl
  have hunread : hIconToPNG unread PNG_MAX_FILESIZE 0 = ⟨-1, 3, []⟩ := rfl
  refine ⟨hlarge, ?_, ?_, hunread, ?_, ?_⟩
  · rw [iconFrameOk_of_failed hlarge]
    decide
  · show encodeSendIcon NULL large = none
    rw [encodeSendIcon_eq_sent NULL large hlarge (Nat.zero_le _)]
    exact CBuffer.sent_written_of_lt _ _ (by rw [iconFrame_length]; decide)
  · rw [iconFrameOk_of_failed hunread]
    decide
  · show encodeSendIcon NULL unread = none
    rw [encodeSendIcon_eq_sent NULL unread hunread (Nat.zero_le _)]
    exact CBuffer.sent_written_of_lt _ _ (by rw [iconFrame_length]; decide)

end RemoteTaskbar
