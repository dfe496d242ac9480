import RemoteTaskbar.Lib.CBuffer
import RemoteTaskbar.Server.IconUtil

/-!
# The five frames the server sends

`Packet` is one call of `sendMessage`, by the values that go into its buffer;
`Packet.frame` is the buffer the C++ builds for it, store by store, and the
bytes of it that are sent (`none`: a store or the send left the buffer, or an
unwritten byte would be sent).  `frame_eq` gives the bytes in closed form:

    task list   2001 n (hwnd hicon titleLength+1 title NUL)*
    icon        2002 hicon pngSize png
    add         2003 hwnd hicon titleLength+1 title NUL
    remove      2004 hwnd
    update      2005 hwnd titleLength+1 title NUL
-/

namespace RemoteTaskbar

open Wire

structure TaskRecord where
  hwnd : HWND
  hIcon : HICON
  title : WindowTitle
deriving DecidableEq

inductive Packet where
  | activeTaskList (tasks : List TaskRecord)
  | sendIcon (hIcon : HICON) (png : PngCalls)
  | addTask (hwnd : HWND) (hIcon : HICON) (title : WindowTitle)
  | removeTask (hwnd : HWND)
  | updateTask (hwnd : HWND) (title : WindowTitle)
deriving DecidableEq

def htonl (w : Word) : Word := byteSwap w

/-! ## Encoders -/

/-- `char windowTitle[MAX_WINDOW_TITLE_LENGTH]` after the `memset` and
`GetWindowText`. -/
def windowTitleBuffer (title : WindowTitle) : List Byte :=
  overlay (title.text.bytes ++ [0]) (List.replicate MAX_WINDOW_TITLE_LENGTH 0)

/-- Title length and title, as the list, add and update frames end. -/
def putTitle (title : WindowTitle) (buffer : CBuffer) : Option CBuffer := do
  let titleLength := title.text.bytes.length
  let buffer ← buffer.putInt (htonl (BitVec.ofNat 32 titleLength + 1))
  let buffer ← buffer.strcpy (windowTitleBuffer title)
  pure (buffer.advance (titleLength + 1))

/-- One turn of the loop of `sendWindowTasksToClient`. -/
def putTask (buffer : CBuffer) (task : TaskRecord) : Option CBuffer := do
  let buffer ← buffer.putInt (htonl task.hwnd.toInt)
  let buffer ← buffer.putInt (htonl task.hIcon.toInt)
  putTitle task.title buffer

/-- Size of one record with its longest title. -/
def recordSize : Nat := 4 + 4 + 4 + MAX_WINDOW_TITLE_LENGTH

/-- The buffer of `sendWindowTasksToClient`, allocated for `n` tasks, once the records of
`tasks` are stored. -/
def activeTaskListBuffer (n : Nat) (tasks : List TaskRecord) : Option CBuffer := do
  let numActiveWindowTasks : Word := BitVec.ofNat 32 n
  let bufferSize : Word := 4 + 4 + numActiveWindowTasks * BitVec.ofNat 32 recordSize
  let buffer ← CBuffer.new bufferSize
  let buffer ← buffer.putInt (htonl SERVER_RESPONSE_ACTIVE_TASK_LIST)
  let buffer ← buffer.putInt (htonl numActiveWindowTasks)
  tasks.foldlM putTask buffer

def encodeActiveTaskList (tasks : List TaskRecord) : Option (List Byte) := do
  let buffer ← activeTaskListBuffer tasks.length tasks
  buffer.sent buffer.ptr

/-- The PNG is converted into the buffer behind the header first; the length
sent is the one `HIconToPNG` reported, whatever it returned. -/
def encodeSendIcon (hIcon : HICON) (png : PngCalls) : Option (List Byte) := do
  let buffer := CBuffer.alloc (4 * 3 + PNG_MAX_FILESIZE.toNat)
  let result := hIconToPNG png PNG_MAX_FILESIZE 0
  let buffer ← buffer.storeAt (4 * 3) result.written
  let buffer ← buffer.putInt (htonl SERVER_RESPONSE_SEND_ICON)
  let buffer ← buffer.putInt (htonl hIcon.toInt)
  let buffer ← buffer.putInt (htonl result.outputSize)
  buffer.sent (4 * 3 + result.outputSize.toNat)

/-- The buffer of `addWindowTask` before it is sent. -/
def addTaskBuffer (hwnd : HWND) (hIcon : HICON) (title : WindowTitle) : Option CBuffer := do
  let buffer := CBuffer.alloc (4 + recordSize)
  let buffer ← buffer.putInt (htonl SERVER_RESPONSE_ADD_TASK)
  let buffer ← buffer.putInt (htonl hwnd.toInt)
  let buffer ← buffer.putInt (htonl hIcon.toInt)
  putTitle title buffer

def encodeAddTask (hwnd : HWND) (hIcon : HICON) (title : WindowTitle) : Option (List Byte) := do
  let buffer ← addTaskBuffer hwnd hIcon title
  buffer.sent buffer.ptr

def encodeRemoveTask (hwnd : HWND) : Option (List Byte) := do
  let buffer := CBuffer.alloc (4 + 4)
  let buffer ← buffer.putInt (htonl SERVER_RESPONSE_REMOVE_TASK)
  let buffer ← buffer.putInt (htonl hwnd.toInt)
  buffer.sent buffer.ptr

/-- The buffer of `updateWindowTaskTitle` before it is sent. -/
def updateTaskBuffer (hwnd : HWND) (title : WindowTitle) : Option CBuffer := do
  let buffer := CBuffer.alloc (4 + (4 + 4 + MAX_WINDOW_TITLE_LENGTH))
  let buffer ← buffer.putInt (htonl SERVER_RESPONSE_UPDATE_TASK)
  let buffer ← buffer.putInt (htonl hwnd.toInt)
  putTitle title buffer

def encodeUpdateTask (hwnd : HWND) (title : WindowTitle) : Option (List Byte) := do
  let buffer ← updateTaskBuffer hwnd title
  buffer.sent buffer.ptr

def Packet.frame : Packet → Option (List Byte)
  | .activeTaskList tasks => encodeActiveTaskList tasks
  | .sendIcon hIcon png => encodeSendIcon hIcon png
  | .addTask hwnd hIcon title => encodeAddTask hwnd hIcon title
  | .removeTask hwnd => encodeRemoveTask hwnd
  | .updateTask hwnd title => encodeUpdateTask hwnd title

/-! ## The bytes of a frame -/

/-- The conversion stored a whole PNG, no longer than the buffer. -/
structure PngCalls.Complete (calls : PngCalls) (png : List Byte) : Prop where
  createStream : calls.createStream = true
  seekEnd : calls.seekEnd = some (BitVec.ofNat 64 png.length)
  readOk : calls.readOk = true
  stream : calls.stream = png
  fits : png.length ≤ PNG_MAX_FILESIZE.toNat

/-- Frames within the bounds the encoders are written for. -/
def Packet.Fits : Packet → Prop
  | .activeTaskList tasks => 4 + 4 + recordSize * tasks.length < 2 ^ 31
  | .sendIcon _ calls => ∃ png, calls.Complete png
  | _ => True

def titleBytes (title : WindowTitle) : List Byte :=
  beBytes (BitVec.ofNat 32 (title.text.bytes.length + 1)) ++ (title.text.bytes ++ [0])

def taskBytes (task : TaskRecord) : List Byte :=
  beBytes task.hwnd.toInt ++ (beBytes task.hIcon.toInt ++ titleBytes task.title)

def Packet.bytes : Packet → List Byte
  | .activeTaskList tasks =>
    beBytes SERVER_RESPONSE_ACTIVE_TASK_LIST ++
      (beBytes (BitVec.ofNat 32 tasks.length) ++ tasks.flatMap taskBytes)
  | .sendIcon hIcon calls =>
    beBytes SERVER_RESPONSE_SEND_ICON ++
      (beBytes hIcon.toInt ++ (beBytes (BitVec.ofNat 32 calls.stream.length) ++ calls.stream))
  | .addTask hwnd hIcon title =>
    beBytes SERVER_RESPONSE_ADD_TASK ++ (beBytes hwnd.toInt ++ (beBytes hIcon.toInt ++ titleBytes title))
  | .removeTask hwnd => beBytes SERVER_RESPONSE_REMOVE_TASK ++ beBytes hwnd.toInt
  | .updateTask hwnd title =>
    beBytes SERVER_RESPONSE_UPDATE_TASK ++ (beBytes hwnd.toInt ++ titleBytes title)

theorem cString_windowTitleBuffer (title : WindowTitle) :
    cString (windowTitleBuffer title) = title.text.bytes := by
  unfold windowTitleBuffer overlay
  rw [List.append_assoc, List.singleton_append]
  exact cString_append_nul _ _ title.text.noNul

theorem putInt_htonl (bs : List Byte) (w : Word) (old : List (Option Byte)) (h : 4 ≤ old.length) :
    (CBuffer.filled bs old).putInt (htonl w) = some (.filled (bs ++ beBytes w) (old.drop 4)) := by
  rw [CBuffer.putInt_filled bs _ old h, htonl, leBytes_byteSwap]

theorem titleBytes_length (title : WindowTitle) :
    (titleBytes title).length = 4 + (title.text.bytes.length + 1) := by
  simp [titleBytes]

theorem titleBytes_length_le (title : WindowTitle) :
    (titleBytes title).length ≤ 4 + MAX_WINDOW_TITLE_LENGTH := by
  have := title.fits
  rw [titleBytes_length]
  unfold MAX_WINDOW_TITLE_LENGTH at this ⊢
  omega

theorem putTitle_filled (title : WindowTitle) (bs : List Byte) (old : List (Option Byte))
    (h : (titleBytes title).length ≤ old.length) :
    putTitle title (.filled bs old) =
      some (.filled (bs ++ titleBytes title) (old.drop (titleBytes title).length)) := by
  have hc := cString_windowTitleBuffer title
  have hl : BitVec.ofNat 32 title.text.bytes.length + 1 =
      BitVec.ofNat 32 (title.text.bytes.length + 1) := by
    rw [BitVec.ofNat_add]
    rfl
  rw [titleBytes_length] at h
  unfold putTitle
  simp only [Option.bind_eq_bind, Option.pure_def]
  rw [hl, putInt_htonl bs _ old (by omega), Option.bind_some]
  have hs := CBuffer.strcpy_filled
    (bs ++ beBytes (BitVec.ofNat 32 (title.text.bytes.length + 1))) (windowTitleBuffer title)
    (old.drop 4) (by rw [hc, List.length_drop]; omega)
  rw [hc, Option.map_eq_bind] at hs
  refine hs.trans ?_
  rw [titleBytes_length, List.drop_drop, titleBytes, List.append_assoc]

theorem taskBytes_length_le (task : TaskRecord) : (taskBytes task).length ≤ recordSize := by
  have := titleBytes_length_le task.title
  simp only [taskBytes, List.length_append, beBytes_length]
  unfold recordSize
  omega

theorem putTask_filled (task : TaskRecord) (bs : List Byte) (old : List (Option Byte))
    (h : (taskBytes task).length ≤ old.length) :
    putTask (.filled bs old) task =
      some (.filled (bs ++ taskBytes task) (old.drop (taskBytes task).length)) := by
  have hlen : (taskBytes task).length = 4 + (4 + (titleBytes task.title).length) := by
    simp [taskBytes]
  rw [hlen] at h ⊢
  unfold putTask
  simp only [Option.bind_eq_bind]
  rw [putInt_htonl bs _ old (by omega), Option.bind_some,
    putInt_htonl _ _ _ (by rw [List.length_drop]; omega), Option.bind_some,
    putTitle_filled _ _ _ (by simp only [List.length_drop]; omega)]
  simp only [List.drop_drop, taskBytes, List.append_assoc, Nat.add_assoc]

/-- The loop invariant of `sendWindowTasksToClient`: behind each record there
is room for the longest form of every record still to come. -/
theorem putTasks_filled (tasks : List TaskRecord) (bs : List Byte) (old : List (Option Byte))
    (h : recordSize * tasks.length ≤ old.length) :
    tasks.foldlM putTask (.filled bs old) =
      some (.filled (bs ++ tasks.flatMap taskBytes)
        (old.drop (tasks.flatMap taskBytes).length)) := by
  induction tasks generalizing bs old with
  | nil => simp
  | cons task tasks ih =>
    have hle := taskBytes_length_le task
    rw [List.length_cons, Nat.mul_succ] at h
    rw [List.foldlM_cons, putTask_filled task bs old (by omega)]
    simp only [Option.bind_eq_bind, Option.bind_some]
    rw [ih _ _ (by rw [List.length_drop]; omega)]
    simp only [List.flatMap_cons, List.append_assoc, List.length_append, List.drop_drop]

theorem new_eq_filled (n : Nat) (h : n < 2 ^ 31) :
    CBuffer.new (BitVec.ofNat 32 n) = some (.filled [] (List.replicate n none)) := by
  unfold CBuffer.new
  rw [toInt_ofNat_of_lt n h, if_neg (by omega), Int.toNat_natCast, CBuffer.alloc_eq_filled]

/-- At every turn of the loop the buffer holds the header and the records so far. -/
theorem activeTaskListBuffer_eq (n : Nat) (tasks : List TaskRecord) (hn : tasks.length ≤ n)
    (h : 4 + 4 + recordSize * n < 2 ^ 31) :
    activeTaskListBuffer n tasks = some (.written (4 + 4 + recordSize * n)
      (beBytes SERVER_RESPONSE_ACTIVE_TASK_LIST ++
        (beBytes (BitVec.ofNat 32 n) ++ tasks.flatMap taskBytes))) := by
  have hsize : (4 + 4 + BitVec.ofNat 32 n * BitVec.ofNat 32 recordSize : Word) =
      BitVec.ofNat 32 (4 + 4 + recordSize * n) := by
    rw [BitVec.ofNat_add, BitVec.ofNat_mul, BitVec.mul_comm]
    rfl
  have hroom : recordSize * tasks.length ≤ recordSize * n := Nat.mul_le_mul_left _ hn
  unfold activeTaskListBuffer
  simp only [Option.bind_eq_bind]
  rw [hsize, new_eq_filled _ h, Option.bind_some, putInt_htonl _ _ _ (by simp; omega), Option.bind_some,
    putInt_htonl _ _ _ (by simp; omega), Option.bind_some, putTasks_filled _ _ _ (by simp; omega),
    ← CBuffer.filled_drop]
  simp only [List.drop_drop, List.length_append, beBytes_length, List.nil_append, List.append_assoc,
    Nat.add_assoc]

theorem encodeActiveTaskList_eq (tasks : List TaskRecord)
    (h : 4 + 4 + recordSize * tasks.length < 2 ^ 31) :
    encodeActiveTaskList tasks = some (Packet.activeTaskList tasks).bytes := by
  unfold encodeActiveTaskList
  rw [activeTaskListBuffer_eq _ _ (Nat.le_refl _) h, Option.bind_eq_bind, Option.bind_some]
  exact CBuffer.sent_written _ _

theorem addTaskBuffer_eq (hwnd : HWND) (hIcon : HICON) (title : WindowTitle) :
    addTaskBuffer hwnd hIcon title =
      some (.written (4 + recordSize) (Packet.addTask hwnd hIcon title).bytes) := by
  have ht := titleBytes_length_le title
  unfold addTaskBuffer
  simp only [Option.bind_eq_bind, CBuffer.alloc_eq_filled]
  rw [putInt_htonl _ _ _ (by simp [recordSize]), Option.bind_some,
    putInt_htonl _ _ _ (by simp [recordSize]; omega), Option.bind_some,
    putInt_htonl _ _ _ (by simp [recordSize]; omega), Option.bind_some,
    putTitle_filled _ _ _ (by simp [recordSize]; omega), ← CBuffer.filled_drop]
  simp only [Packet.bytes, List.drop_drop, List.length_append, beBytes_length, List.nil_append,
    List.append_assoc, Nat.add_assoc]

theorem encodeAddTask_eq (hwnd : HWND) (hIcon : HICON) (title : WindowTitle) :
    encodeAddTask hwnd hIcon title = some (Packet.addTask hwnd hIcon title).bytes := by
  unfold encodeAddTask
  rw [addTaskBuffer_eq, Option.bind_eq_bind, Option.bind_some]
  exact CBuffer.sent_written _ _

theorem encodeRemoveTask_eq (hwnd : HWND) :
    encodeRemoveTask hwnd = some (Packet.removeTask hwnd).bytes := by
  unfold encodeRemoveTask
  simp only [Option.bind_eq_bind, CBuffer.alloc_eq_filled]
  rw [putInt_htonl _ _ _ (by simp), Option.bind_some, putInt_htonl _ _ _ (by simp), Option.bind_some,
    CBuffer.filled_ptr, CBuffer.sent_filled]
  simp [Packet.bytes]

theorem updateTaskBuffer_eq (hwnd : HWND) (title : WindowTitle) :
    updateTaskBuffer hwnd title =
      some (.written (4 + (4 + 4 + MAX_WINDOW_TITLE_LENGTH)) (Packet.updateTask hwnd title).bytes) := by
  have ht := titleBytes_length_le title
  unfold updateTaskBuffer
  simp only [Option.bind_eq_bind, CBuffer.alloc_eq_filled]
  rw [putInt_htonl _ _ _ (by simp), Option.bind_some, putInt_htonl _ _ _ (by simp; omega),
    Option.bind_some, putTitle_filled _ _ _ (by simp; omega), ← CBuffer.filled_drop]
  simp only [Packet.bytes, List.drop_drop, List.length_append, beBytes_length, List.nil_append,
    List.append_assoc, Nat.add_assoc]

theorem encodeUpdateTask_eq (hwnd : HWND) (title : WindowTitle) :
    encodeUpdateTask hwnd title = some (Packet.updateTask hwnd title).bytes := by
  unfold encodeUpdateTask
  rw [updateTaskBuffer_eq, Option.bind_eq_bind, Option.bind_some]
  exact CBuffer.sent_written _ _

/-! ## The icon frame -/

theorem hIconToPNG_of_complete {calls : PngCalls} {png : List Byte} (h : calls.Complete png) :
    hIconToPNG calls PNG_MAX_FILESIZE 0 =
      ⟨BitVec.ofNat 32 png.length, BitVec.ofNat 32 png.length, png⟩ := by
  have hf : png.length ≤ PNG_MAX_FILESIZE.toNat := h.fits
  have hmax : PNG_MAX_FILESIZE.toNat < 2 ^ 32 := PNG_MAX_FILESIZE.isLt
  have hsize : (BitVec.ofNat 64 png.length).setWidth 32 = BitVec.ofNat 32 png.length := by
    apply BitVec.eq_of_toNat_eq
    simp
  have hnat := toNat_ofNat_of_lt png.length (by omega)
  have hlt : ¬ PNG_MAX_FILESIZE < BitVec.ofNat 32 png.length := by
    rw [BitVec.lt_def, hnat]
    omega
  unfold hIconToPNG
  rw [h.createStream, h.seekEnd, h.readOk, h.stream]
  simp only [hsize, hnat, hlt, List.take_length]
  simp

/-- Header, size and bytes of an icon frame. -/
def iconFrame (hIcon : HICON) (pngSize : Word) (png : List Byte) : List Byte :=
  beBytes SERVER_RESPONSE_SEND_ICON ++ (beBytes hIcon.toInt ++ (beBytes pngSize ++ png))

theorem iconFrame_length (hIcon : HICON) (pngSize : Word) (png : List Byte) :
    (iconFrame hIcon pngSize png).length = 4 * 3 + png.length := by
  simp only [iconFrame, List.length_append, beBytes_length]
  omega

/-- What is sent is read from a buffer that holds the header and the bytes the conversion
stored, over the length it reported. -/
theorem encodeSendIcon_eq_sent (hIcon : HICON) (calls : PngCalls) {result : PngResult}
    (hr : hIconToPNG calls PNG_MAX_FILESIZE 0 = result)
    (hw : result.written.length ≤ PNG_MAX_FILESIZE.toNat) :
    encodeSendIcon hIcon calls =
      (CBuffer.written (4 * 3 + PNG_MAX_FILESIZE.toNat)
        (iconFrame hIcon result.outputSize result.written)).sent (4 * 3 + result.outputSize.toNat) := by
  unfold encodeSendIcon
  simp only [Option.bind_eq_bind, hr]
  rw [CBuffer.storeAt_alloc _ _ _ (by omega), Option.bind_some, putInt_htonl _ _ _ (by simp),
    Option.bind_some, putInt_htonl _ _ _ (by simp), Option.bind_some, putInt_htonl _ _ _ (by simp),
    Option.bind_some, List.nil_append]
  -- the three words fill the gap in front of the PNG exactly
  have hgap : ∀ more : List (Option Byte),
      (((List.replicate (4 * 3) none ++ more).drop 4).drop 4).drop 4 = more := fun _ => rfl
  rw [hgap, CBuffer.sent_filled_assoc, CBuffer.written, iconFrame_length]
  simp only [iconFrame, List.append_assoc]

theorem encodeSendIcon_eq (hIcon : HICON) {calls : PngCalls} {png : List Byte}
    (h : calls.Complete png) :
    encodeSendIcon hIcon calls = some (Packet.sendIcon hIcon calls).bytes := by
  have hf : png.length ≤ PNG_MAX_FILESIZE.toNat := h.fits
  have hmax : PNG_MAX_FILESIZE.toNat < 2 ^ 32 := PNG_MAX_FILESIZE.isLt
  have hbytes : (Packet.sendIcon hIcon calls).bytes = iconFrame hIcon (BitVec.ofNat 32 png.length) png := by
    rw [← h.stream]
    rfl
  rw [encodeSendIcon_eq_sent hIcon calls (hIconToPNG_of_complete h) hf,
    toNat_ofNat_of_lt png.length (by omega), hbytes, ← iconFrame_length hIcon (BitVec.ofNat 32 png.length)]
  exact CBuffer.sent_written _ _

/-- **Every frame within its bounds is built without leaving its buffer.** -/
theorem frame_eq (p : Packet) (h : p.Fits) : p.frame = some p.bytes := by
  cases p with
  | activeTaskList tasks => exact encodeActiveTaskList_eq tasks h
  | sendIcon hIcon calls =>
    obtain ⟨png, hpng⟩ := h
    exact encodeSendIcon_eq hIcon hpng
  | addTask hwnd hIcon title => exact encodeAddTask_eq hwnd hIcon title
  | removeTask hwnd => exact encodeRemoveTask_eq hwnd
  | updateTask hwnd title => exact encodeUpdateTask_eq hwnd title

end RemoteTaskbar
