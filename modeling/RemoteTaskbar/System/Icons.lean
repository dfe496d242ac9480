import RemoteTaskbar.Server.WindowManager

/-!
# Icons: each sent once, and before its first use

`IconsOnce s` relates the icon cache to the messages of a session: a frame that
names an icon comes after the icon's own frame, no icon has two frames, and the
cache holds exactly the icons with a frame.  The check before a send and the
record after it keep this (`iconsOnce_sendMissingIcon`); a list request checks
the icon of every window it then lists (`cachedAt_sendMissingIcons`).
-/

namespace RemoteTaskbar

/-- The icon an icon frame brings. -/
def Packet.iconSent : Packet → Option HICON
  | .sendIcon hIcon _ => some hIcon
  | _ => none

/-- The icons a frame names. -/
def Packet.iconsUsed : Packet → List HICON
  | .activeTaskList tasks => tasks.map (·.hIcon)
  | .addTask _ hIcon _ => [hIcon]
  | _ => []

def iconsSent (sent : List Packet) : List HICON := sent.filterMap Packet.iconSent

structure IconsOnce (s : Session) : Prop where
  before : ∀ pre p post, s.sent = pre ++ p :: post → ∀ h ∈ p.iconsUsed, h ∈ iconsSent pre
  once : (iconsSent s.sent).Nodup
  cached : ∀ h, h ∈ s.wm.clientCachedIcons ↔ h ∈ iconsSent s.sent

/-- The icon recorded for a window is one the client was sent. -/
def CachedAt (s : Session) (k : HWND) : Prop :=
  ∀ v, s.wm.activeWindowTasks.lookup k = some v → v ∈ s.wm.clientCachedIcons

/-! ## One more frame -/

theorem iconsSent_append (sent : List Packet) (p : Packet) :
    iconsSent (sent ++ [p]) = iconsSent sent ++ p.iconSent.toList := by
  unfold iconsSent
  rw [List.filterMap_append]
  cases h : p.iconSent <;> simp [h]

/-- A frame may follow whose icons were all sent. -/
theorem before_append {sent : List Packet} {p : Packet}
    (h : ∀ pre q post, sent = pre ++ q :: post → ∀ i ∈ q.iconsUsed, i ∈ iconsSent pre)
    (hp : ∀ i ∈ p.iconsUsed, i ∈ iconsSent sent) :
    ∀ pre q post, sent ++ [p] = pre ++ q :: post → ∀ i ∈ q.iconsUsed, i ∈ iconsSent pre := by
  intro pre q post he i hi
  rcases List.eq_nil_or_concat post with rfl | ⟨post', r, rfl⟩
  · obtain ⟨rfl, hq⟩ := List.append_inj' he rfl
    obtain rfl : p = q := List.singleton_inj.mp hq
    exact hp i hi
  · have he' : sent ++ [p] = (pre ++ q :: post') ++ [r] := by
      rw [he, List.concat_eq_append, List.append_assoc]
      rfl
    exact h pre q post' (List.append_inj' he' rfl).1 i hi

/-- A frame that brings no icon. -/
theorem iconsOnce_sendMessage {s : Session} (h : IconsOnce s) (p : Packet) (hn : p.iconSent = none)
    (hu : ∀ i ∈ p.iconsUsed, i ∈ s.wm.clientCachedIcons) : IconsOnce (s.sendMessage p) := by
  have hi : iconsSent (s.sendMessage p).sent = iconsSent s.sent := by
    rw [Session.sendMessage_sent, iconsSent_append, hn]
    exact List.append_nil _
  refine ⟨before_append h.before fun i hi => (h.cached i).mp (hu i hi), ?_, fun i => ?_⟩
  · rw [hi]
    exact h.once
  · rw [hi]
    exact h.cached i

/-- Only the messages and the cache matter. -/
theorem IconsOnce.congr {s s' : Session} (h : IconsOnce s) (hs : s'.sent = s.sent)
    (hc : s'.wm.clientCachedIcons = s.wm.clientCachedIcons) : IconsOnce s' := by
  refine ⟨?_, ?_, ?_⟩
  · rw [hs]
    exact h.before
  · rw [hs]
    exact h.once
  · rw [hs, hc]
    exact h.cached

/-! ## The check before a send -/

section
variable (env : Env) (hIcon : HICON) (s : Session)

theorem mem_addIconToClientCache (wm : WindowManager) (i : HICON) :
    i ∈ (addIconToClientCache wm hIcon).clientCachedIcons ↔ i = hIcon ∨ i ∈ wm.clientCachedIcons :=
  mem_insertNew _ _ _ _

theorem iconsOnce_sendMissingIcon (h : IconsOnce s) : IconsOnce (sendMissingIcon env hIcon s) := by
  rcases sendMissingIcon_cases env s hIcon with ⟨-, he⟩ | ⟨hnew, he⟩
  · rw [he]
    exact h
  · have hsent : iconsSent (s.sent ++ [.sendIcon hIcon (env.png hIcon)]) =
        iconsSent s.sent ++ [hIcon] := iconsSent_append _ _
    rw [he]
    refine ⟨before_append h.before fun i hi => absurd hi List.not_mem_nil, ?_, fun i => ?_⟩
    · rw [hsent, List.nodup_append_comm, List.singleton_append, List.nodup_cons]
      exact ⟨fun hm => hnew ((h.cached hIcon).mpr hm), h.once⟩
    · rw [hsent, mem_addIconToClientCache, h.cached, List.mem_append, List.mem_singleton, or_comm]

/-- After the check the icon is in the cache, and nothing left it. -/
theorem mem_cache_sendMissingIcon (i : HICON) :
    i ∈ (sendMissingIcon env hIcon s).wm.clientCachedIcons ↔
      i = hIcon ∨ i ∈ s.wm.clientCachedIcons := by
  rcases sendMissingIcon_cases env s hIcon with ⟨hold, he⟩ | ⟨-, he⟩
  · rw [he]
    constructor
    · exact Or.inr
    · rintro (rfl | hi)
      · exact hold
      · exact hi
  · rw [he]
    exact mem_addIconToClientCache hIcon s.wm i

end

/-! ## List requests -/

section
variable (env : Env)

theorem iconsOnce_refreshTask (s : Session) (hwnd : HWND) (h : IconsOnce s) :
    IconsOnce (refreshTask env s hwnd) :=
  iconsOnce_sendMissingIcon env _ _ (h.congr rfl rfl)

/-- A turn of the loop caches the icon of its window and keeps those cached. -/
theorem cachedAt_refreshTask (s : Session) (hwnd k : HWND) (h : k = hwnd ∨ CachedAt s k) :
    CachedAt (refreshTask env s hwnd) k := by
  intro v hv
  rw [refreshTask_tasks] at hv
  unfold refreshTask
  rw [mem_cache_sendMissingIcon]
  by_cases hk : k = hwnd
  · subst hk
    rw [AList.lookup_insert] at hv
    exact Or.inl (Option.some.inj hv).symm
  · rw [AList.lookup_insert_ne hk] at hv
    rcases h with h | h
    · exact absurd h hk
    · exact Or.inr (h v hv)

theorem iconsOnce_foldl_refreshTask (ks : List HWND) (s : Session) (h : IconsOnce s) :
    IconsOnce (ks.foldl (refreshTask env) s) := by
  induction ks generalizing s with
  | nil => exact h
  | cons k ks ih => exact ih _ (iconsOnce_refreshTask env s k h)

theorem cachedAt_foldl_refreshTask (ks : List HWND) (s : Session) (k : HWND)
    (h : k ∈ ks ∨ CachedAt s k) : CachedAt (ks.foldl (refreshTask env) s) k := by
  induction ks generalizing s with
  | nil =>
    rcases h with h | h
    · exact absurd h List.not_mem_nil
    · exact h
  | cons k' ks ih =>
    apply ih
    rcases h with h | h
    · rcases List.mem_cons.mp h with rfl | h
      · exact Or.inr (cachedAt_refreshTask env s k k (Or.inl rfl))
      · exact Or.inl h
    · exact Or.inr (cachedAt_refreshTask env s k' k (Or.inr h))

/-- Every window listed has its icon cached once the loop is through. -/
theorem cachedAt_sendMissingIcons (s : Session) (k : HWND)
    (hk : k ∈ (sendMissingIcons env s).wm.activeWindowTasks) : CachedAt (sendMissingIcons env s) k := by
  rw [mem_sendMissingIcons] at hk
  exact cachedAt_foldl_refreshTask env _ s k
    (Or.inl ((env.order.perm s.keys).mem_iff.mpr (AList.mem_keys.mp hk)))

theorem iconsOnce_refreshWindowTasksList (s : Session) (h : IconsOnce s) :
    IconsOnce (refreshWindowTasksList env s) := by
  have henum := enumTasks_sent env (clearTasks s)
  exact iconsOnce_foldl_refreshTask env _ _ (h.congr henum.1 henum.2)

theorem iconsOnce_list (s : Session) (h : IconsOnce s) : IconsOnce (handle s (.list env)) := by
  refine iconsOnce_sendMessage (iconsOnce_refreshWindowTasksList env s h) _ rfl fun i hi => ?_
  -- each record's icon is the map's value for a listed window
  obtain ⟨r, hr, rfl⟩ := List.mem_map.mp hi
  obtain ⟨k, hk, rfl⟩ := List.mem_map.mp hr
  have hmem : k ∈ (refreshWindowTasksList env s).wm.activeWindowTasks :=
    AList.mem_keys.mpr ((env.order.perm _).mem_iff.mp hk)
  obtain ⟨v, hv⟩ := Option.isSome_iff_exists.mp (AList.lookup_isSome.mpr hmem)
  show (AList.lookup k (refreshWindowTasksList env s).wm.activeWindowTasks).getD NULL ∈ _
  rw [hv]
  exact cachedAt_sendMissingIcons env _ k hmem v hv

end

/-! ## Window events -/

theorem iconsOnce_create (env : Env) (hwnd : HWND) (s : Session) (h : IconsOnce s) :
    IconsOnce (addWindowTask env hwnd s) := by
  unfold addWindowTask
  split
  · exact h
  · have hins : IconsOnce (insertTask hwnd (getHICON env hwnd) s) := h.congr rfl rfl
    refine iconsOnce_sendMessage (iconsOnce_sendMissingIcon env _ _ hins) _ rfl fun i hi => ?_
    rw [mem_cache_sendMissingIcon]
    exact Or.inl (List.mem_singleton.mp hi)

theorem iconsOnce_handle (s : Session) (e : Event) (h : IconsOnce s) : IconsOnce (handle s e) := by
  cases e with
  | list env => exact iconsOnce_list env s h
  | create env hwnd => exact iconsOnce_create env hwnd s h
  | destroy hwnd =>
    show IconsOnce (removeWindowTask hwnd s)
    unfold removeWindowTask
    split
    · have herase : IconsOnce (eraseTask hwnd s) := h.congr rfl rfl
      exact iconsOnce_sendMessage herase (.removeTask hwnd) rfl fun i hi => absurd hi List.not_mem_nil
    · exact h
  | rename env hwnd =>
    show IconsOnce (updateWindowTaskTitle env hwnd s)
    unfold updateWindowTaskTitle
    split
    · exact iconsOnce_sendMessage h (.updateTask hwnd _) rfl fun i hi => absurd hi List.not_mem_nil
    · exact h

/-! ## Any run over any number of connections -/

/-- What happens to the window manager over several connections: a `reset`, a
handler, or the refresh of a list request by itself. -/
inductive ConnEvent where
  | reset
  | refreshWindowTasksList (env : Env)
  | handler (e : Event)

/-- `sent` starts anew at each `reset`. -/
def connStep (s : Session) : ConnEvent → Session
  | .reset => ⟨reset, []⟩
  | .refreshWindowTasksList env => refreshWindowTasksList env s
  | .handler e => handle s e

theorem iconsOnce_reset : IconsOnce ⟨reset, []⟩ := by
  refine ⟨fun pre p post he => ?_, List.nodup_nil, fun i => ?_⟩
  · exact absurd he.symm (List.append_ne_nil_of_right_ne_nil _ (List.cons_ne_nil _ _))
  · constructor
    · exact fun hi => absurd hi (AList.notMem_empty i)
    · exact fun hi => absurd hi List.not_mem_nil

theorem iconsOnce_run (es : List ConnEvent) (s : Session) (h : IconsOnce s) :
    IconsOnce (es.foldl connStep s) := by
  induction es generalizing s with
  | nil => exact h
  | cons e es ih =>
    apply ih
    cases e with
    | reset => exact iconsOnce_reset
    | refreshWindowTasksList env => exact iconsOnce_refreshWindowTasksList env s h
    | handler e => exact iconsOnce_handle s e h

/-- **Icons once.**  From the first `reset` on, whatever the window manager held
before it, icons are sent once per connection and before their first use. -/
theorem icons_once (s : Session) (es : List ConnEvent) :
    IconsOnce ((ConnEvent.reset :: es).foldl connStep s) :=
  iconsOnce_run es _ iconsOnce_reset

end RemoteTaskbar
