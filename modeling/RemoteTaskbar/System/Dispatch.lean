import RemoteTaskbar.Client.ClientThread
import RemoteTaskbar.Server.Receive

/-!
# From the client's requests to the server's actions

A `recv` whose bytes begin with a request executes that request
(`serverRecv_of_front`), and nothing else: the callback runs once for each `recv`
and reads the front of the buffer.  So a connection serves its requests as long
as each comes alone in one `recv` (`recieve_requests`).

What goes wrong otherwise: a request behind another in one `recv` is dropped, a
request cut in two is read together with stale bytes, and the close of the
connection, a `recv` of no bytes, executes the last request once more.
-/

namespace RemoteTaskbar

open Wire

/-! ## One request -/

namespace Request

/-- The action the client asks for. -/
def action : Request → Action
  | activeTaskList => .activeTaskList
  | windowOpen hwnd => .performWindowOpen (Handle.ofInt hwnd)
  | windowClose hwnd => .performWindowClose (Handle.ofInt hwnd)

/-- A request delivered whole by one `recv`. -/
def chunk (r : Request) : Chunk :=
  ⟨r.bytes, r.bytes_ne_nil, Nat.le_trans r.bytes_length_le (by decide)⟩

end Request

/-- Whatever lies behind it, the request at the front of the buffer is served. -/
theorem serverRecv_of_front (s : Server) (r : Request) (rest : List Byte)
    (h : s.recvBuffer = r.bytes ++ rest) : serverRecv s = some r.action := by
  unfold serverRecv
  rw [h]
  cases r with
  | activeTaskList =>
    have htype : byteSwap (loadWord (Request.activeTaskList.bytes ++ rest) 0) =
        CLIENT_REQUEST_ACTIVE_TASK_LIST := byteSwap_loadWord_beBytes _ _
    rw [if_pos htype]
    rfl
  | windowOpen hwnd =>
    have htype : byteSwap (loadWord ((Request.windowOpen hwnd).bytes ++ rest) 0) =
        CLIENT_SIGNAL_WINDOW_OPEN := byteSwap_loadWord_beBytes _ _
    have hhwnd : byteSwap (loadWord ((Request.windowOpen hwnd).bytes ++ rest) 1) = hwnd :=
      byteSwap_loadWord_one _ _ _
    rw [htype, hhwnd]
    rfl
  | windowClose hwnd =>
    have htype : byteSwap (loadWord ((Request.windowClose hwnd).bytes ++ rest) 0) =
        CLIENT_SIGNAL_WINDOW_CLOSE := byteSwap_loadWord_beBytes _ _
    have hhwnd : byteSwap (loadWord ((Request.windowClose hwnd).bytes ++ rest) 1) = hwnd :=
      byteSwap_loadWord_one _ _ _
    rw [htype, hhwnd]
    rfl

theorem serverRecv_chunk (s : Server) (r : Request) :
    serverRecv (s.recv (.data r.chunk)) = some r.action :=
  serverRecv_of_front _ r (s.recvBuffer.drop r.bytes.length) rfl

/-- A `recv` of no bytes leaves the buffer, and with it the request to serve. -/
theorem serverRecv_closed (s : Server) : serverRecv (s.recv .closed) = serverRecv s := rfl

/-! ## A connection -/

/-- The actions of a connection, given what its `recv` calls return. -/
def executed (rs : List RecvResult) : List Action :=
  (iServerRecieveThread serverRecv rs Server.accepted).2

/-- The server after requests that came each in a `recv` of its own. -/
def Server.recvAll (s : Server) (reqs : List Request) : Server :=
  reqs.foldl (fun s r => s.recv (.data r.chunk)) s

/-- Requests that come each in a `recv` of its own are served in order. -/
theorem recieve_requests (reqs : List Request) (rs : List RecvResult) (s : Server) (hs : s.connected = true) :
    (iServerRecieveThread serverRecv (reqs.map (.data ·.chunk) ++ rs) s).2 =
      reqs.map Request.action ++ (iServerRecieveThread serverRecv rs (s.recvAll reqs)).2 := by
  induction reqs generalizing s with
  | nil => rfl
  | cons r reqs ih =>
    rw [List.map_cons, List.cons_append, recieve_data serverRecv s hs, serverRecv_chunk,
      ih (s.recv (.data r.chunk)) hs]
    rfl

theorem executed_requests (reqs : List Request) :
    executed (reqs.map (.data ·.chunk)) = reqs.map Request.action := by
  have hrun := recieve_requests reqs [] Server.accepted rfl
  rw [List.append_nil] at hrun
  exact hrun.trans (List.append_nil _)

theorem recvAll_connected (reqs : List Request) (s : Server) :
    (s.recvAll reqs).connected = s.connected := by
  induction reqs generalizing s with
  | nil => rfl
  | cons r reqs ih => exact ih (s.recv (.data r.chunk))

/-! ## Segmentation -/

/-- The chunks are a segmentation of the stream the requests were written to. -/
def Segments (chunks : List Chunk) (reqs : List Request) : Prop :=
  chunks.flatMap (·.bytes) = reqs.flatMap Request.bytes

/-- Every chunk is made of whole requests. -/
def Unsplit (chunks : List Chunk) (reqs : List Request) : Prop :=
  ∃ groups : List (List Request), groups.flatten = reqs ∧
    chunks.map (·.bytes) = groups.map (·.flatMap Request.bytes)

theorem segments_chunk (reqs : List Request) : Segments (reqs.map Request.chunk) reqs := by
  unfold Segments
  rw [List.flatMap_map]
  rfl

theorem length_le_length_flatten {α : Type} (gs : List (List α)) (hne : ∀ g ∈ gs, g ≠ []) :
    gs.length ≤ gs.flatten.length := by
  induction gs with
  | nil => exact Nat.le_refl 0
  | cons g gs ih =>
    have hg : 0 < g.length := List.length_pos_of_ne_nil (hne g List.mem_cons_self)
    have hgs := ih fun g' hg' => hne g' (List.mem_cons_of_mem g hg')
    rw [List.flatten_cons, List.length_append, List.length_cons]
    omega

/-- Nonempty groups, no more elements than groups: each group is one element. -/
theorem flatten_eq_singletons {α : Type} (gs : List (List α)) (hne : ∀ g ∈ gs, g ≠ [])
    (hlen : gs.flatten.length ≤ gs.length) : gs = gs.flatten.map ([·]) := by
  induction gs with
  | nil => rfl
  | cons g gs ih =>
    have hgs : ∀ g' ∈ gs, g' ≠ [] := fun g' hg' => hne g' (List.mem_cons_of_mem g hg')
    have hg : 0 < g.length := List.length_pos_of_ne_nil (hne g List.mem_cons_self)
    have htail := length_le_length_flatten gs hgs
    rw [List.flatten_cons, List.length_append, List.length_cons] at hlen
    obtain ⟨x, rfl⟩ := List.length_eq_one_iff.mp (show g.length = 1 by omega)
    have hrest : gs.flatten.length ≤ gs.length := by
      rw [List.length_singleton] at hlen
      omega
    rw [List.flatten_cons, List.singleton_append, List.map_cons, ← ih hgs hrest]

theorem map_bytes_injective : Function.Injective (List.map Chunk.bytes) := by
  apply List.map_injective_iff.mpr
  rintro ⟨b, _, _⟩ ⟨b', _, _⟩ (rfl : b = b')
  rfl

/-- Chunks of whole requests, no fewer than the requests, are the requests one by one. -/
theorem eq_chunks_of_length {chunks : List Chunk} {reqs : List Request} (h : Unsplit chunks reqs)
    (hlen : reqs.length ≤ chunks.length) : chunks = reqs.map Request.chunk := by
  obtain ⟨groups, rfl, hg⟩ := h
  have hne : ∀ g ∈ groups, g ≠ [] := by
    rintro g hmem rfl
    have hnil : ([] : List Byte) ∈ chunks.map Chunk.bytes := by
      rw [hg]
      exact List.mem_map.mpr ⟨[], hmem, rfl⟩
    obtain ⟨c, -, hc⟩ := List.mem_map.mp hnil
    exact c.ne_nil hc
  have hcount : chunks.length = groups.length := by
    rw [← List.length_map Chunk.bytes, hg, List.length_map]
  have hone := flatten_eq_singletons groups hne (hcount ▸ hlen)
  apply map_bytes_injective
  rw [hg]
  conv_lhs => rw [hone]
  rw [List.map_map, List.map_map]
  refine List.map_congr_left fun r _ => ?_
  exact List.append_nil r.bytes

/-! ## Results -/

/-- **Requests and segments.**  If every `recv` returns exactly one whole request
then the server executes exactly the requests.  As long as no request is cut in
two, it executes them in no other case, and in no case with fewer `recv`s than
requests. -/
theorem executed_segments (chunks : List Chunk) (reqs : List Request) :
    (chunks = reqs.map Request.chunk →
      Segments chunks reqs ∧ executed (chunks.map .data) = reqs.map Request.action) ∧
    (executed (chunks.map .data) = reqs.map Request.action →
      reqs.length ≤ chunks.length ∧ (Unsplit chunks reqs → chunks = reqs.map Request.chunk)) := by
  constructor
  · rintro rfl
    refine ⟨segments_chunk reqs, ?_⟩
    rw [List.map_map]
    exact executed_requests reqs
  · intro he
    have hle := recieve_length_le serverRecv (chunks.map .data) Server.accepted
    rw [← executed, he, List.length_map, List.length_map] at hle
    exact ⟨hle, fun hu => eq_chunks_of_length hu hle⟩

/-- Two requests in one `recv`: the second is dropped.  One request in two `recv`s:
the handle is read before any byte of it has come. -/
theorem executed_segments_fails :
    let both : Chunk := ⟨requestActiveTaskList ++ signalWindowClose 7, by decide, by decide⟩
    let half : Chunk := ⟨(signalWindowOpen 7).take 4, by decide, by decide⟩
    let half' : Chunk := ⟨(signalWindowOpen 7).drop 4, by decide, by decide⟩
    Segments [both] [.activeTaskList, .windowClose 7] ∧
      executed [.data both] = [.activeTaskList] ∧
      executed [.data both] ≠ [Request.activeTaskList, .windowClose 7].map Request.action ∧
    Segments [half, half'] [.windowOpen 7] ∧
      executed [.data half, .data half'] = [.performWindowOpen NULL] ∧
      executed [.data half, .data half'] ≠ [Request.windowOpen 7].map Request.action := by
  refine ⟨rfl, by decide, by decide, rfl, by decide, by decide⟩

/-- A cut request may be served by the stale bytes of an earlier one. -/
example :
    let half : Chunk := ⟨(signalWindowClose 7).take 4, by decide, by decide⟩
    let half' : Chunk := ⟨(signalWindowClose 7).drop 4, by decide, by decide⟩
    executed ([(Request.windowOpen 7).chunk, half, half'].map .data) =
      [Request.windowOpen 7, .windowClose 7].map Request.action := by
  decide

/-- How a connection ends for the receive thread. -/
inductive ConnEnd where
  | closed
  | socketError
deriving DecidableEq

def ConnEnd.result : ConnEnd → RecvResult
  | closed => .closed
  | socketError => .socketError

/-- **Requests and the end of the stream.**  Requests that came each in its own
`recv` are all the server executes exactly when the connection ends with an
error, or had no request. -/
theorem executed_until_end (reqs : List Request) (e : ConnEnd) :
    executed (reqs.map (.data ·.chunk) ++ [e.result]) = reqs.map Request.action ↔
      e = .socketError ∨ reqs = [] := by
  rw [executed, recieve_requests reqs _ Server.accepted rfl, List.append_right_eq_self]
  have hconn : (Server.accepted.recvAll reqs).connected = true := recvAll_connected reqs _
  cases e with
  | socketError =>
    have hnone := recieve_socketError serverRecv _ hconn []
    exact ⟨fun _ => Or.inl rfl, fun _ => hnone⟩
  | closed =>
    rw [ConnEnd.result, recieve_closed serverRecv _ hconn, serverRecv_closed]
    rcases List.eq_nil_or_concat reqs with rfl | ⟨init, last, rfl⟩
    · exact ⟨fun _ => Or.inr rfl, fun _ => by decide⟩
    · -- the buffer still begins with the last request
      have hlast : serverRecv (Server.accepted.recvAll (init.concat last)) = some last.action := by
        unfold Server.recvAll
        rw [List.concat_eq_append, List.foldl_concat]
        exact serverRecv_chunk _ last
      rw [hlast]
      constructor
      · intro h
        exact absurd h (List.cons_ne_nil _ _)
      · rintro (h | h)
        · exact absurd h (by decide)
        · exact absurd h (by simp)

/-- A close request, then the orderly end: the window is closed twice. -/
theorem executed_until_end_fails :
    executed [.data (Request.windowClose 7).chunk, ConnEnd.closed.result] =
        [.performWindowClose (Handle.ofInt 7), .performWindowClose (Handle.ofInt 7)] ∧
      executed [.data (Request.windowClose 7).chunk, ConnEnd.closed.result] ≠
        [Request.windowClose 7].map Request.action := by
  constructor <;> decide

end RemoteTaskbar
