import RemoteTaskbar.Server.Receive
import RemoteTaskbar.System.Icons

/-!
# What the icon cache records

`sendIconToClient` drops what `HIconToPNG` returns, `sendMessage` what `Server_Send`
returns, and both callers record the icon next.  So the cache holds the icons an
icon frame was handed to `sendMessage` for, whatever became of it; it holds the icons
the client was given exactly if none failed (`cachedGiven_iff`).  An icon that did
fail is not sent again before the next reset.
-/

namespace RemoteTaskbar

open Wire

/-- The window manager after any calls from its start. -/
def wmRun (calls : List ConnEvent) : Session := calls.foldl connStep Session.init

theorem iconsOnce_wmRun (calls : List ConnEvent) : IconsOnce (wmRun calls) :=
  iconsOnce_run calls _ iconsOnce_reset

/-! ## The property -/

/-- What `Server_Send` returns, given what `send` returned. -/
def serverSend (retVal : Int) : Int := if retVal = SOCKET_ERROR then 0 else 1

/-- The conversion gave a size, not -1, and the frame was sent.  A stream that is empty because
nothing was saved to it gives the size 0 and counts. -/
def IconDelivered (calls : PngCalls) (retVal : Int) : Prop :=
  (hIconToPNG calls PNG_MAX_FILESIZE 0).ret ≠ -1 ∧ serverSend retVal = 1

/-- Every icon in the cache was given to the client, if `send` returned `retVals k` for the
message number `k` since the last reset. -/
def CachedGiven (retVals : Nat → Int) (s : Session) : Prop :=
  ∀ hIcon ∈ s.wm.clientCachedIcons, ∃ (k : Nat) (calls : PngCalls),
    s.sent[k]? = some (.sendIcon hIcon calls) ∧ IconDelivered calls (retVals k)

/-- No icon frame since the last reset failed, in the conversion or on the socket. -/
def NoneFailed (retVals : Nat → Int) (s : Session) : Prop :=
  ∀ (k : Nat) (hIcon : HICON) (calls : PngCalls),
    s.sent[k]? = some (.sendIcon hIcon calls) → IconDelivered calls (retVals k)

/-! ## One frame for an icon -/

/-- If no value occurs twice, each comes from one position. -/
theorem position_unique {α β : Type} {f : α → Option β} {l : List α} (h : (l.filterMap f).Nodup)
    {j k : Nat} {a b : α} {c : β} (hj : l[j]? = some a) (hk : l[k]? = some b) (ha : f a = some c)
    (hb : f b = some c) : j = k := by
  induction l generalizing j k with
  | nil => exact absurd hj (by simp)
  | cons x l ih =>
    have htail : (l.filterMap f).Nodup := by
      rw [List.filterMap_cons] at h
      split at h
      · exact h
      · exact (List.nodup_cons.mp h).2
    have hhead : ∀ {i : Nat} {y : α}, l[i]? = some y → f x = some c → f y = some c → False := by
      intro i y hi hx hy
      rw [List.filterMap_cons, hx, List.nodup_cons] at h
      exact h.1 (List.mem_filterMap.mpr ⟨y, List.mem_of_getElem? hi, hy⟩)
    cases j with
    | zero =>
      obtain rfl : x = a := Option.some.inj hj
      cases k with
      | zero => rfl
      | succ k => exact (hhead hk ha hb).elim
    | succ j =>
      cases k with
      | zero =>
        obtain rfl : x = b := Option.some.inj hk
        exact (hhead hj hb ha).elim
      | succ k => exact congrArg Nat.succ (ih htail hj hk)

theorem mem_iconsSent_iff (sent : List Packet) (hIcon : HICON) :
    hIcon ∈ iconsSent sent ↔ ∃ (k : Nat) (calls : PngCalls), sent[k]? = some (.sendIcon hIcon calls) := by
  unfold iconsSent
  rw [List.mem_filterMap]
  constructor
  · rintro ⟨p, hp, hicon⟩
    obtain ⟨k, hk⟩ := List.mem_iff_getElem?.mp hp
    cases p with
    | sendIcon i calls =>
      obtain rfl : i = hIcon := Option.some.inj hicon
      exact ⟨k, calls, hk⟩
    | activeTaskList tasks => exact absurd hicon (by simp [Packet.iconSent])
    | addTask hwnd i title => exact absurd hicon (by simp [Packet.iconSent])
    | removeTask hwnd => exact absurd hicon (by simp [Packet.iconSent])
    | updateTask hwnd title => exact absurd hicon (by simp [Packet.iconSent])
  · rintro ⟨k, calls, hk⟩
    exact ⟨_, List.mem_of_getElem? hk, rfl⟩

/-- **Icons recorded.**  After any calls of the window manager, every cached icon was given to
the client exactly if no icon frame since the last reset failed.  An icon with a frame is
recorded, and has no second one. -/
theorem cachedGiven_iff (calls : List ConnEvent) (retVals : Nat → Int) :
    (CachedGiven retVals (wmRun calls) ↔ NoneFailed retVals (wmRun calls)) ∧
    ∀ (k : Nat) (hIcon : HICON) (png : PngCalls),
      (wmRun calls).sent[k]? = some (.sendIcon hIcon png) →
        hIcon ∈ (wmRun calls).wm.clientCachedIcons ∧
        ∀ (j : Nat) (png' : PngCalls), (wmRun calls).sent[j]? = some (.sendIcon hIcon png') → j = k := by
  have hinv := iconsOnce_wmRun calls
  have hone : ∀ {j k : Nat} {hIcon : HICON} {png png' : PngCalls},
      (wmRun calls).sent[j]? = some (.sendIcon hIcon png) →
        (wmRun calls).sent[k]? = some (.sendIcon hIcon png') → j = k :=
    fun hj hk => position_unique hinv.once hj hk rfl rfl
  have hcached : ∀ {k : Nat} {hIcon : HICON} {png : PngCalls},
      (wmRun calls).sent[k]? = some (.sendIcon hIcon png) →
        hIcon ∈ (wmRun calls).wm.clientCachedIcons :=
    fun hk => (hinv.cached _).mpr ((mem_iconsSent_iff _ _).mpr ⟨_, _, hk⟩)
  refine ⟨⟨?_, ?_⟩, fun k hIcon png hk => ⟨hcached hk, fun j png' hj => hone hj hk⟩⟩
  · intro hgiven k hIcon png hk
    obtain ⟨j, png', hj, hdelivered⟩ := hgiven hIcon (hcached hk)
    obtain rfl := hone hj hk
    obtain rfl : png' = png := by
      rw [hj] at hk
      exact (Packet.sendIcon.inj (Option.some.inj hk)).2
    exact hdelivered
  · intro hnone hIcon hmem
    obtain ⟨k, png, hk⟩ := (mem_iconsSent_iff _ _).mp ((hinv.cached hIcon).mp hmem)
    exact ⟨k, png, hk, hnone k hIcon png hk⟩

/-- A window whose icon could not be converted: its icon is recorded, and a refresh that finds
the window again sends nothing. -/
theorem failed_icon_recorded :
    let hwnd : HWND := Handle.ofInt 7
    let hIcon : HICON := Handle.ofInt 9
    let env : Env :=
      { (default : Env) with enumWindows := [hwnd], isWindowVisible := fun _ => true, loadIcon := hIcon }
    let s := wmRun [.handler (.create env hwnd)]
    (hIconToPNG (env.png hIcon) PNG_MAX_FILESIZE 0).ret = -1 ∧
      s.sent[0]? = some (.sendIcon hIcon (env.png hIcon)) ∧ hIcon ∈ s.wm.clientCachedIcons ∧
      (∀ retVals, ¬ CachedGiven retVals s) ∧
      (wmRun [.handler (.create env hwnd), .refreshWindowTasksList env]).sent = s.sent := by
  intro hwnd hIcon env s
  have hmem : hIcon ∈ s.wm.clientCachedIcons := by decide
  refine ⟨rfl, rfl, hmem, fun retVals h => ?_, by decide⟩
  obtain ⟨k, calls, hk, hdelivered, -⟩ := h hIcon hmem
  match k with
  | 0 =>
    obtain rfl : env.png hIcon = calls := (Packet.sendIcon.inj (Option.some.inj hk)).2
    exact hdelivered rfl
  | 1 => exact absurd (Option.some.inj hk) (by simp)
  | k + 2 =>
    have hlen : s.sent.length = 2 := rfl
    exact absurd (hk.symm.trans (List.getElem?_eq_none (by omega))) (by simp)

end RemoteTaskbar
