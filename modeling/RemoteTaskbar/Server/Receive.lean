import RemoteTaskbar.Lib.Word
import RemoteTaskbar.Server.Global

/-!
# The receive thread

`iServerRecieveThread` is the loop of `IServer_RecieveThread` over what `recv`
returns, turn by turn; `serverRecv` is `Server_Recv`, the callback it runs after
each `recv`, which reads one request off the front of the receive buffer.

A `recv` stores its bytes over the front of the buffer and leaves the rest as it
was, so a byte past `recvBufferLength` is one of an earlier `recv`, or a zero of
`calloc`.
-/

namespace RemoteTaskbar

open Wire

def BUFFER_SIZE : Nat := 256

def SOCKET_ERROR : Int := -1

/-- The bytes of one `recv`: at least one, at most what the buffer holds. -/
structure Chunk where
  bytes : List Byte
  ne_nil : bytes ≠ []
  fits : bytes.length ≤ BUFFER_SIZE

/-- What `recv` returns. -/
inductive RecvResult where
  | data (chunk : Chunk)
  /-- orderly close by the client -/
  | closed
  | socketError

def RecvResult.retVal : RecvResult → Int
  | .data chunk => chunk.bytes.length
  | .closed => 0
  | .socketError => SOCKET_ERROR

/-- The bytes a `recv` stores. -/
def RecvResult.stored : RecvResult → List Byte
  | .data chunk => chunk.bytes
  | .closed => []
  | .socketError => []

theorem RecvResult.stored_length_le (r : RecvResult) : r.stored.length ≤ BUFFER_SIZE := by
  cases r with
  | data chunk => exact chunk.fits
  | closed => exact Nat.zero_le _
  | socketError => exact Nat.zero_le _

/-- The fields of `Server` that the receive thread uses. -/
structure Server where
  connected : Bool
  recvBuffer : List Byte
  recvBufferLength : Int
  size : recvBuffer.length = BUFFER_SIZE

namespace Server

/-- A server as `calloc` makes it, with the buffer of `Server_Start`. -/
def create : Server := ⟨false, List.replicate BUFFER_SIZE 0, 0, List.length_replicate⟩

/-- A server whose client was accepted. -/
def accepted : Server := { create with connected := true }

/-- `recv` into the receive buffer, and its result into `recvBufferLength`. -/
def recv (s : Server) (r : RecvResult) : Server where
  connected := s.connected
  recvBuffer := overlay r.stored s.recvBuffer
  recvBufferLength := r.retVal
  size := by rw [overlay_length _ _ (s.size ▸ r.stored_length_le), s.size]

@[simp] theorem recv_connected (s : Server) (r : RecvResult) : (s.recv r).connected = s.connected := rfl

end Server

/-! ## The callback -/

/-- What a request makes the server do. -/
inductive Action where
  /-- `refreshWindowTasksList` and `sendWindowTasksToClient` -/
  | activeTaskList
  | performWindowOpen (hwnd : HWND)
  | performWindowClose (hwnd : HWND)
deriving DecidableEq

/-- `Server_Recv`; an unsupported request type does nothing. -/
def serverRecv (s : Server) : Option Action :=
  let clientRequestType := byteSwap (loadWord s.recvBuffer 0)
  if clientRequestType = CLIENT_REQUEST_ACTIVE_TASK_LIST then
    some .activeTaskList
  else if clientRequestType = CLIENT_SIGNAL_WINDOW_OPEN then
    let ihwnd := byteSwap (loadWord s.recvBuffer 1)
    some (.performWindowOpen (Handle.ofInt ihwnd))
  else if clientRequestType = CLIENT_SIGNAL_WINDOW_CLOSE then
    let ihwnd := byteSwap (loadWord s.recvBuffer 1)
    some (.performWindowClose (Handle.ofInt ihwnd))
  else none

/-! ## The loop -/

/-- `IServer_RecieveThread` over what `recv` returns, with the callback registered:
the server after it and the actions executed, oldest first.  Past the last result
the thread waits in `recv`. -/
def iServerRecieveThread (onRecv : Server → Option Action) :
    List RecvResult → Server → Server × List Action
  | [], s => (s, [])
  | r :: rs, s =>
    if s.connected then
      let s := s.recv r
      if r.retVal = SOCKET_ERROR then (s, [])
      else if r.retVal = 0 then (s, (onRecv s).toList)
      else
        let (s', actions) := iServerRecieveThread onRecv rs s
        (s', (onRecv s).toList ++ actions)
    else (s, [])

section
variable (onRecv : Server → Option Action) (s : Server) (hs : s.connected = true) (rs : List RecvResult)
include hs

theorem recieve_data (chunk : Chunk) :
    (iServerRecieveThread onRecv (.data chunk :: rs) s).2 =
      (onRecv (s.recv (.data chunk))).toList ++
        (iServerRecieveThread onRecv rs (s.recv (.data chunk))).2 := by
  have hlen : 0 < chunk.bytes.length := List.length_pos_of_ne_nil chunk.ne_nil
  have herr : (RecvResult.data chunk).retVal ≠ SOCKET_ERROR := by
    show (chunk.bytes.length : Int) ≠ -1
    omega
  have hclosed : (RecvResult.data chunk).retVal ≠ 0 := by
    show (chunk.bytes.length : Int) ≠ 0
    omega
  rw [iServerRecieveThread, if_pos hs]
  simp only [if_neg herr, if_neg hclosed]

/-- The loop runs the callback once more when the client closes. -/
theorem recieve_closed :
    (iServerRecieveThread onRecv (.closed :: rs) s).2 = (onRecv (s.recv .closed)).toList := by
  rw [iServerRecieveThread, if_pos hs]
  rfl

theorem recieve_socketError : (iServerRecieveThread onRecv (.socketError :: rs) s).2 = [] := by
  rw [iServerRecieveThread, if_pos hs]
  rfl

end

/-- Each `recv` executes at most one action. -/
theorem recieve_length_le (onRecv : Server → Option Action) (rs : List RecvResult) (s : Server) :
    (iServerRecieveThread onRecv rs s).2.length ≤ rs.length := by
  induction rs generalizing s with
  | nil => exact Nat.le_refl 0
  | cons r rs ih =>
    have hone : ∀ a : Option Action, a.toList.length ≤ 1 := by
      rintro (_ | a)
      · exact Nat.zero_le 1
      · exact Nat.le_refl 1
    have hr := hone (onRecv (s.recv r))
    have hrs := ih (s.recv r)
    rw [iServerRecieveThread, List.length_cons]
    split
    · simp only []
      split
      · exact Nat.zero_le _
      · split
        · show (onRecv (s.recv r)).toList.length ≤ _
          omega
        · rw [List.length_append]
          omega
    · exact Nat.zero_le _

end RemoteTaskbar
