import RemoteTaskbar.System.Dispatch

/-!
# Bytes of earlier requests

`Server_Recv` reads the type word and, for an open or a close, the handle word at
fixed offsets, whatever the length of the last `recv`.  A type word that is not all
there is completed from earlier bytes, and so is a handle word.  The former needs a
beginning of a type word; the latter leaves the last byte of the handle to what was
in the buffer (`serverRecv_stale`).
-/

namespace RemoteTaskbar

open Wire

/-- The action of a `recv` does not depend on what the receive buffer held before. -/
def DependsOnChunk (c : Chunk) : Prop :=
  ∀ s s' : Server, serverRecv (s.recv (.data c)) = serverRecv (s'.recv (.data c))

/-- As far as there are bytes of it, the type word is the one of an open or a close. -/
def BeginsSignal (bytes : List Byte) : Prop :=
  bytes.take 4 <+: beBytes CLIENT_SIGNAL_WINDOW_OPEN ∨ bytes.take 4 <+: beBytes CLIENT_SIGNAL_WINDOW_CLOSE

/-! ## What a `recv` determines -/

theorem recv_recvBuffer (s : Server) (c : Chunk) :
    (s.recv (.data c)).recvBuffer = c.bytes ++ s.recvBuffer.drop c.bytes.length := rfl

/-- A request type read from the buffer begins with the bytes received. -/
theorem take_prefix_of_type {s : Server} {c : Chunk} {w : Word}
    (h : byteSwap (loadWord (s.recv (.data c)).recvBuffer 0) = w) : c.bytes.take 4 <+: beBytes w := by
  have hlen : 4 ≤ (s.recv (.data c)).recvBuffer.length := by
    rw [(s.recv (.data c)).size]
    decide
  rw [byteSwap_loadWord_eq_iff _ hlen, recv_recvBuffer] at h
  have htake : c.bytes.take 4 <+: c.bytes ++ s.recvBuffer.drop c.bytes.length :=
    (List.take_prefix 4 c.bytes).trans (List.prefix_append _ _)
  refine List.prefix_of_prefix_length_le htake h ?_
  rw [List.length_take, beBytes_length]
  exact Nat.min_le_left 4 _

theorem serverRecv_congr {s s' : Server} (htype : loadWord s.recvBuffer 0 = loadWord s'.recvBuffer 0)
    (hhwnd : loadWord s.recvBuffer 1 = loadWord s'.recvBuffer 1) : serverRecv s = serverRecv s' := by
  unfold serverRecv
  rw [htype, hhwnd]

theorem serverRecv_of_not_signal {s : Server}
    (hopen : byteSwap (loadWord s.recvBuffer 0) ≠ CLIENT_SIGNAL_WINDOW_OPEN)
    (hclose : byteSwap (loadWord s.recvBuffer 0) ≠ CLIENT_SIGNAL_WINDOW_CLOSE) :
    serverRecv s =
      if byteSwap (loadWord s.recvBuffer 0) = CLIENT_REQUEST_ACTIVE_TASK_LIST then some .activeTaskList
      else none := by
  unfold serverRecv
  simp only [if_neg hopen, if_neg hclose]

theorem dependsOnChunk_of_whole {c : Chunk} (h : 8 ≤ c.bytes.length) : DependsOnChunk c := by
  intro s s'
  apply serverRecv_congr
  · rw [recv_recvBuffer, recv_recvBuffer, loadWord_append _ _ _ (by omega), loadWord_append _ _ _ (by omega)]
  · rw [recv_recvBuffer, recv_recvBuffer, loadWord_append _ _ _ (by omega), loadWord_append _ _ _ (by omega)]

/-- Less than a type word of a list request begins an open as well. -/
theorem beginsSignal_of_short_list {c : Chunk} (hlen : c.bytes.length < 4)
    (h : c.bytes.take 4 <+: beBytes CLIENT_REQUEST_ACTIVE_TASK_LIST) : BeginsSignal c.bytes := by
  have hcommon : c.bytes.take 4 <+: [0, 0, 3] := by
    refine List.prefix_of_prefix_length_le h (show [0, 0, 3] <+: _ from ⟨[0xE9], rfl⟩) ?_
    rw [List.length_take]
    show min 4 c.bytes.length ≤ 3
    omega
  exact Or.inl (hcommon.trans ⟨[0xEA], rfl⟩)

theorem dependsOnChunk_of_not_begins {c : Chunk} (h : ¬ BeginsSignal c.bytes) : DependsOnChunk c := by
  have hopen : ∀ s : Server,
      byteSwap (loadWord (s.recv (.data c)).recvBuffer 0) ≠ CLIENT_SIGNAL_WINDOW_OPEN :=
    fun s ht => h (Or.inl (take_prefix_of_type ht))
  have hclose : ∀ s : Server,
      byteSwap (loadWord (s.recv (.data c)).recvBuffer 0) ≠ CLIENT_SIGNAL_WINDOW_CLOSE :=
    fun s ht => h (Or.inr (take_prefix_of_type ht))
  intro s s'
  rw [serverRecv_of_not_signal (hopen s) (hclose s), serverRecv_of_not_signal (hopen s') (hclose s')]
  by_cases hlen : 4 ≤ c.bytes.length
  · rw [recv_recvBuffer, recv_recvBuffer, loadWord_append _ _ _ (by omega),
      loadWord_append _ _ _ (by omega)]
  · have hlist : ∀ s : Server,
        byteSwap (loadWord (s.recv (.data c)).recvBuffer 0) ≠ CLIENT_REQUEST_ACTIVE_TASK_LIST :=
      fun s ht => h (beginsSignal_of_short_list (Nat.not_le.mp hlen) (take_prefix_of_type ht))
    rw [if_neg (hlist s), if_neg (hlist s')]

/-! ## What it leaves to earlier bytes -/

/-- Bytes that begin as `front` does go no further over it than behind its end. -/
theorem overlay_of_prefix {bytes front : List Byte} (h : bytes.take front.length <+: front)
    (old : List Byte) :
    overlay bytes (front ++ old) = front ++ overlay (bytes.drop front.length) old := by
  unfold overlay
  by_cases hlen : bytes.length ≤ front.length
  · rw [List.take_of_length_le hlen] at h
    obtain ⟨rest, rfl⟩ := h
    rw [List.drop_of_length_le hlen, List.append_assoc, List.drop_left]
    simp
  · have hfront : bytes.take front.length = front := by
      apply h.eq_of_length
      rw [List.length_take]
      omega
    have hbytes := List.take_append_drop front.length bytes
    rw [hfront] at hbytes
    rw [List.drop_append, List.drop_of_length_le (by omega), List.nil_append, List.length_drop,
      ← List.append_assoc, hbytes]

/-- The last byte of the handle word is not among those received. -/
theorem overlay_handle {bytes : List Byte} (h : bytes.length < 4) (rest : List Byte) :
    ∃ x y z, ∀ b, overlay bytes ([0, 0, 0, b] ++ rest) = [x, y, z, b] ++ rest := by
  match bytes, h with
  | [], _ => exact ⟨0, 0, 0, fun b => rfl⟩
  | [x], _ => exact ⟨x, 0, 0, fun b => rfl⟩
  | [x, y], _ => exact ⟨x, y, 0, fun b => rfl⟩
  | [x, y, z], _ => exact ⟨x, y, z, fun b => rfl⟩

section
variable {signal : Word → Request} {type : Word}
  (hbytes : ∀ w, (signal w).bytes = beBytes type ++ beBytes w)
include hbytes

/-- The buffer once a request of this type for the handle `b` was received. -/
theorem recvBuffer_of_signal (b : Byte) :
    (Server.accepted.recv (.data (signal (beWord 0 0 0 b)).chunk)).recvBuffer =
      beBytes type ++ ([0, 0, 0, b] ++ Server.accepted.recvBuffer.drop 8) := by
  have hbuffer : (Server.accepted.recv (.data (signal (beWord 0 0 0 b)).chunk)).recvBuffer =
      (signal (beWord 0 0 0 b)).bytes ++
        Server.accepted.recvBuffer.drop (signal (beWord 0 0 0 b)).bytes.length := rfl
  have hlen : (signal (beWord 0 0 0 b)).bytes.length = 8 := by
    rw [hbytes]
    rfl
  rw [hbuffer, hlen, hbytes, beBytes_beWord, List.append_assoc]

/-- With less than a whole request the handle served ends with the stale byte. -/
theorem serverRecv_stale {c : Chunk} (hc : c.bytes.take 4 <+: beBytes type) (hlen : c.bytes.length < 8) :
    ∃ x y z, ∀ b,
      serverRecv ((Server.accepted.recv (.data (signal (beWord 0 0 0 b)).chunk)).recv (.data c)) =
        some (signal (beWord x y z b)).action := by
  have hdrop : (c.bytes.drop 4).length < 4 := by
    rw [List.length_drop]
    omega
  obtain ⟨x, y, z, hxyz⟩ := overlay_handle hdrop (Server.accepted.recvBuffer.drop 8)
  refine ⟨x, y, z, fun b => serverRecv_of_front _ _ (Server.accepted.recvBuffer.drop 8) ?_⟩
  show overlay c.bytes (Server.accepted.recv (.data (signal (beWord 0 0 0 b)).chunk)).recvBuffer = _
  rw [recvBuffer_of_signal hbytes, overlay_of_prefix (by rwa [beBytes_length])]
  show beBytes type ++ overlay (c.bytes.drop 4) ([0, 0, 0, b] ++ _) = _
  rw [hxyz, hbytes, beBytes_beWord, List.append_assoc]

theorem not_dependsOnChunk (haction : ∀ v w, (signal v).action = (signal w).action → v = w) {c : Chunk}
    (hc : c.bytes.take 4 <+: beBytes type) (hlen : c.bytes.length < 8) : ¬ DependsOnChunk c := by
  intro hd
  obtain ⟨x, y, z, hstale⟩ := serverRecv_stale hbytes hc hlen
  have hsame := hd (Server.accepted.recv (.data (signal (beWord 0 0 0 0)).chunk))
    (Server.accepted.recv (.data (signal (beWord 0 0 0 1)).chunk))
  rw [hstale, hstale] at hsame
  have hword := congrArg beBytes (haction _ _ (Option.some.inj hsame))
  rw [beBytes_beWord, beBytes_beWord] at hword
  simp at hword

end

/-- **Stale bytes.**  The action depends only on the bytes received exactly if they are a
whole signal, or do not begin the type word of an open or a close. -/
theorem dependsOnChunk_iff (c : Chunk) :
    DependsOnChunk c ↔ 8 ≤ c.bytes.length ∨ ¬ BeginsSignal c.bytes := by
  constructor
  · intro hd
    by_contra h
    rw [not_or, not_not] at h
    obtain ⟨hlen, hbegins⟩ := h
    rcases hbegins with hc | hc
    · have hbytes : ∀ w, (Request.windowOpen w).bytes = beBytes CLIENT_SIGNAL_WINDOW_OPEN ++ beBytes w :=
        fun _ => rfl
      refine not_dependsOnChunk hbytes ?_ hc (by omega) hd
      intro v w h
      simpa [Request.action] using congrArg Handle.toInt (Action.performWindowOpen.inj h)
    · have hbytes : ∀ w, (Request.windowClose w).bytes = beBytes CLIENT_SIGNAL_WINDOW_CLOSE ++ beBytes w :=
        fun _ => rfl
      refine not_dependsOnChunk hbytes ?_ hc (by omega) hd
      intro v w h
      simpa [Request.action] using congrArg Handle.toInt (Action.performWindowClose.inj h)
  · rintro (h | h)
    · exact dependsOnChunk_of_whole h
    · exact dependsOnChunk_of_not_begins h

/-- The type word of an open alone opens the window of the last request. -/
theorem open_takes_stale_handle :
    let c : Chunk := ⟨beBytes CLIENT_SIGNAL_WINDOW_OPEN, List.cons_ne_nil _ _, by decide⟩
    let left : Word → Server := fun hwnd => Server.accepted.recv (.data (Request.windowClose hwnd).chunk)
    serverRecv ((left 7).recv (.data c)) = some (.performWindowOpen (Handle.ofInt 7)) ∧
      serverRecv ((left 8).recv (.data c)) = some (.performWindowOpen (Handle.ofInt 8)) ∧
      ¬ DependsOnChunk c := by
  intro c left
  have hleft : ∀ hwnd : Word,
      serverRecv ((left hwnd).recv (.data c)) = some (.performWindowOpen (Handle.ofInt hwnd)) :=
    fun hwnd => serverRecv_of_front _ (.windowOpen hwnd) _ rfl
  refine ⟨hleft 7, hleft 8, fun hd => ?_⟩
  have hsame := hd (left 7) (left 8)
  rw [hleft, hleft] at hsame
  exact absurd hsame (by decide)

end RemoteTaskbar
