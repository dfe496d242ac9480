import RemoteTaskbar.Server.Global

/-!
# Icons and titles the OS hands to the server

`Env` is what the OS and the runtime answer while one handler runs.  A handler
asks for the icon and the title of a window at most once, so answers are
functions of the window; two handlers may get different answers.

`hIconToPNG` follows its exits: the size goes to `*outputSize` before the
buffer check and before the read, and `ret` is -1 on every exit but the last.
-/

namespace RemoteTaskbar

open Wire

/-- A NUL-terminated text, without its NUL. -/
structure CString where
  bytes : List Byte
  noNul : 0 ∉ bytes
deriving DecidableEq

instance : Inhabited CString := ⟨⟨[], List.not_mem_nil⟩⟩

def MAX_WINDOW_TITLE_LENGTH : Nat := 255

def PNG_MAX_FILESIZE : Word := 8000

/-- `GetWindowText(hwnd, buf, nMaxCount)`: at most `nMaxCount - 1` bytes of the
window's text are copied, and a NUL behind them. -/
def getWindowText (text : CString) (nMaxCount : Nat) : CString :=
  ⟨text.bytes.take (nMaxCount - 1), fun h => text.noNul (List.mem_of_mem_take h)⟩

/-- What `GetWindowText` copies for the server's limit argument
`MAX_WINDOW_TITLE_LENGTH-1`. -/
structure WindowTitle where
  text : CString
  fits : text.bytes.length < MAX_WINDOW_TITLE_LENGTH - 1
deriving DecidableEq

theorem getWindowText_length_lt (text : CString) {nMaxCount : Nat} (h : 0 < nMaxCount) :
    (getWindowText text nMaxCount).bytes.length < nMaxCount := by
  show (text.bytes.take (nMaxCount - 1)).length < nMaxCount
  rw [List.length_take]
  omega

def getWindowTitle (text : CString) : WindowTitle :=
  ⟨getWindowText text (MAX_WINDOW_TITLE_LENGTH - 1), getWindowText_length_lt text (by decide)⟩

/-- Outcomes of the stream calls of one PNG conversion. -/
structure PngCalls where
  /-- `CreateStreamOnHGlobal` returned `S_OK` -/
  createStream : Bool
  /-- size reported by the seek to the end, if it returned `S_OK` -/
  seekEnd : Option (BitVec 64)
  /-- `Read` returned `S_OK` -/
  readOk : Bool
  /-- bytes `Read` had for the buffer -/
  stream : List Byte
deriving DecidableEq, Inhabited

structure PngResult where
  ret : Word
  outputSize : Word
  /-- bytes really stored in the caller's buffer -/
  written : List Byte
deriving DecidableEq

/-- `IconUtil::HIconToPNG(buffer, bufferLength, hIcon, &outputSize)`. -/
def hIconToPNG (calls : PngCalls) (bufferLength outputSize : Word) : PngResult :=
  if !calls.createStream then ⟨-1, outputSize, []⟩
  else
    match calls.seekEnd with
    | none => ⟨-1, outputSize, []⟩
    | some quadPart =>
      let size : Word := quadPart.setWidth 32
      if bufferLength < size then ⟨-1, size, []⟩
      else
        let read := calls.stream.take size.toNat
        if !calls.readOk || size != BitVec.ofNat 32 read.length then ⟨-1, size, read⟩
        else ⟨size, size, read⟩

/-- The order in which an iteration over an unordered map visits its keys.  It is taken not to
depend on what the container held before a `clear()`. -/
structure VisitOrder where
  visit : List HWND → List HWND
  perm : ∀ keys, (visit keys).Perm keys

instance : Inhabited VisitOrder := ⟨⟨id, fun keys => List.Perm.refl keys⟩⟩

def GCL_HICON : Int := -14
def GCL_HICONSM : Int := -34
def WS_EX_TOOLWINDOW : Word := 0x80

structure Env where
  /-- windows `EnumWindows` passes to its callback, in order -/
  enumWindows : List HWND
  isWindowVisible : HWND → Bool
  getParent : HWND → HWND
  /-- `GetWindow(hWnd, GW_OWNER)` -/
  getOwner : HWND → HWND
  /-- `GetWindowLong(hWnd, GWL_EXSTYLE)` -/
  exStyle : HWND → Word
  windowText : HWND → CString
  getClassLongPtr : HWND → Int → HICON
  /-- `SendMessage(hWnd, WM_GETICON, big, 0)` -/
  wmGetIcon : HWND → Bool → HICON
  /-- `LoadIcon(NULL, MAKEINTRESOURCE(IDI_APPLICATION))` -/
  loadIcon : HICON
  png : HICON → PngCalls
  order : VisitOrder
deriving Inhabited

/-- `IconUtil::GetHICON`. -/
def getHICON (env : Env) (hwnd : HWND) : HICON :=
  let hIcon := env.getClassLongPtr hwnd GCL_HICON
  let hIcon := if hIcon = NULL then env.wmGetIcon hwnd true else hIcon
  let hIcon := if hIcon = NULL then env.wmGetIcon hwnd false else hIcon
  let hIcon := if hIcon = NULL then env.getClassLongPtr hwnd GCL_HICONSM else hIcon
  if hIcon = NULL then env.loadIcon else hIcon

end RemoteTaskbar
