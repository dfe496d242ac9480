import RemoteTaskbar.Server.HookDll

/-!
# At most one hook, and only its owner removes it

The destination is set exactly while a hook is live, and the variable of that
hook's kind then holds its handle (`HookInv`).  The other variable may hold
anything that was stored there once: a handle of the other kind is of no hook
that is live, so an uninstall of the wrong kind gets past the check of the
destination and removes nothing.
-/

namespace RemoteTaskbar

namespace HookDLL

/-! ## Calls -/

/-- A window that hook messages can go to. -/
abbrev Destination : Type := { hwnd : HWND // hwnd ≠ NULL }

/-- A call of an exported function, with what the OS answers. -/
inductive HookCall (η : Type) where
  | installHook (msgDestination : Destination) (answer : Option η)
  | installEventHook (msgDestination : Destination) (answer : Option η)
  | uninstallHook (msgDestination : Destination) (willing : Bool)
  | uninstallEventHook (msgDestination : Destination) (willing : Bool)

variable {η : Type}

/-- An uninstall for hooks of this kind by this window. -/
def HookCall.Uninstalls (kind : HookKind) (msgDestination : HWND) : HookCall η → Prop
  | .uninstallHook d _ => kind = .windowsHook ∧ msgDestination = d
  | .uninstallEventHook d _ => kind = .winEventHook ∧ msgDestination = d
  | _ => False

variable [DecidableEq η]

def HookCall.run (s : HookState η) : HookCall η → Bool × HookState η
  | .installHook d answer => HookDLL.installHook d answer s
  | .installEventHook d answer => HookDLL.installEventHook d answer s
  | .uninstallHook d willing => HookDLL.uninstallHook d willing s
  | .uninstallEventHook d willing => HookDLL.uninstallEventHook d willing s

def hookRun (calls : List (HookCall η)) : HookState η :=
  calls.foldl (fun s call => (call.run s).2) HookState.init

/-! ## The property -/

/-- One owner at a time, and what the next call can change. -/
structure HookOwned (s : HookState η) : Prop where
  atMostOne : s.live.length ≤ 1
  locked : s.msgRedirectDestination ≠ NULL ↔ s.live.length = 1
  owner : ∀ hook ∈ s.live, hook.destination = s.msgRedirectDestination
  failed : ∀ call : HookCall η, (call.run s).1 = false →
    (call.run s).2.msgRedirectDestination = s.msgRedirectDestination ∧ (call.run s).2.live = s.live
  removed : ∀ call : HookCall η, ∀ hook ∈ s.live, hook ∉ (call.run s).2.live →
    call.Uninstalls hook.kind hook.destination
  ignored : ∀ (call : HookCall η) (kind : HookKind) (d : HWND), call.Uninstalls kind d →
    (∀ hook ∈ s.live, ¬ (hook.kind = kind ∧ hook.destination = d)) → call.run s = (false, s)
  repeated : ∀ (c : HookController) (willing willing' : Bool), (c.unhook willing s).1 = true →
    c.unhook willing' (c.unhook willing s).2 = (false, (c.unhook willing s).2)

/-! ## The invariant -/

def HookInv (s : HookState η) : Prop :=
  (s.live = [] ∧ s.msgRedirectDestination = NULL) ∨
  ∃ hook, s.live = [hook] ∧ s.msgRedirectDestination = hook.destination ∧ hook.destination ≠ NULL ∧
    s.handle hook.kind = some hook.handle

section
variable {s : HookState η} (h : HookInv s) (kind : HookKind)
include h

omit [DecidableEq η] in
/-- An install fails and changes nothing that counts, or it locks a free DLL. -/
theorem hookInv_install (d : Destination) (answer : Option η) :
    (∃ s', install kind d answer s = (false, s') ∧
      s'.msgRedirectDestination = s.msgRedirectDestination ∧ s'.live = s.live ∧ HookInv s') ∨
    (s.live = [] ∧ ∃ s', install kind d answer s = (true, s') ∧ HookInv s') := by
  rcases install_cases kind d s answer with ⟨s', hs', hdest, hlive, hsame⟩ |
    ⟨hfree, handle, s', hs', hdest, hlive, hhandle⟩
  · refine Or.inl ⟨s', hs', hdest, hlive, ?_⟩
    rcases h with ⟨hl, hd⟩ | ⟨hook, hl, hd, hne, hh⟩
    · exact Or.inl ⟨hlive.trans hl, hdest.trans hd⟩
    · rw [hsame (hd ▸ hne)]
      exact Or.inr ⟨hook, hl, hd, hne, hh⟩
  · have hl : s.live = [] := by
      rcases h with ⟨hl, -⟩ | ⟨hook, -, hd, hne, -⟩
      · exact hl
      · exact absurd (hd.symm.trans hfree) hne
    rw [hl] at hlive
    exact Or.inr ⟨hl, s', hs', Or.inr ⟨_, hlive, hdest, d.2, hhandle⟩⟩

/-- An uninstall does nothing, or its kind and window are those of the live hook. -/
theorem hookInv_uninstall (d : HWND) (willing : Bool) :
    uninstall kind d willing s = (false, s) ∨
    ∃ hook, s.live = [hook] ∧ hook.kind = kind ∧ hook.destination = d ∧
      uninstall kind d willing s = (true, ⟨NULL, s.hookHandle, s.hookEventHandle, []⟩) := by
  rcases uninstall_cases kind d s willing with hs | ⟨hdest, ⟨hook, hmem, hholds⟩, hs⟩
  · exact Or.inl hs
  · refine Or.inr ?_
    rcases h with ⟨hl, -⟩ | ⟨hook', hl, hd, -, -⟩
    · exact absurd (hl ▸ hmem) List.not_mem_nil
    · obtain rfl : hook = hook' := List.mem_singleton.mp (hl ▸ hmem)
      have hkind : hook.kind = kind := (of_decide_eq_true hholds).1
      refine ⟨hook, hl, hkind, hd.symm.trans hdest.symm, ?_⟩
      rw [hs, hl, List.filter_cons_of_neg (by rw [hholds]; decide), List.filter_nil]

end

/-- What a call does to a DLL that keeps the invariant. -/
theorem hookInv_run {s : HookState η} (h : HookInv s) (call : HookCall η) :
    HookInv (call.run s).2 := by
  have hinstall : ∀ kind (d : Destination) answer, HookInv (HookDLL.install kind d answer s).2 := by
    intro kind d answer
    rcases hookInv_install h kind d answer with ⟨s', hs', -, -, hinv⟩ | ⟨-, s', hs', hinv⟩
    · exact hs' ▸ hinv
    · exact hs' ▸ hinv
  have huninstall : ∀ kind d willing, HookInv (HookDLL.uninstall kind d willing s).2 := by
    intro kind d willing
    rcases hookInv_uninstall h kind d willing with hs | ⟨hook, -, -, -, hs⟩
    · exact hs ▸ h
    · exact hs ▸ Or.inl ⟨rfl, rfl⟩
  cases call with
  | installHook d answer => exact hinstall _ d answer
  | installEventHook d answer => exact hinstall _ d answer
  | uninstallHook d willing => exact huninstall _ d willing
  | uninstallEventHook d willing => exact huninstall _ d willing

theorem hookInv_hookRun (calls : List (HookCall η)) : HookInv (hookRun calls) := by
  have hrun : ∀ s : HookState η, HookInv s → HookInv (calls.foldl (fun s call => (call.run s).2) s) := by
    induction calls with
    | nil => exact fun s h => h
    | cons call calls ih => exact fun s h => ih _ (hookInv_run h call)
  exact hrun _ (Or.inl ⟨rfl, rfl⟩)

/-! ## From the invariant to the property -/

section
variable {s : HookState η} (h : HookInv s)
include h

omit [DecidableEq η] in
theorem hookInv_counts : s.live.length ≤ 1 ∧ (s.msgRedirectDestination ≠ NULL ↔ s.live.length = 1) ∧
    ∀ hook ∈ s.live, hook.destination = s.msgRedirectDestination := by
  rcases h with ⟨hl, hd⟩ | ⟨hook, hl, hd, hne, -⟩
  · rw [hl, hd]
    simp
  · rw [hl, hd]
    simp [hne]

omit [DecidableEq η] in
theorem hookInv_install_keeps (kind : HookKind) (d : Destination) (answer : Option η) :
    ((install kind d answer s).1 = false →
      (install kind d answer s).2.msgRedirectDestination = s.msgRedirectDestination ∧
        (install kind d answer s).2.live = s.live) ∧
    ∀ hook ∈ s.live, hook ∈ (install kind d answer s).2.live := by
  rcases hookInv_install h kind d answer with ⟨s', hs', hdest, hlive, -⟩ | ⟨hl, s', hs', -⟩
  · rw [hs']
    exact ⟨fun _ => ⟨hdest, hlive⟩, fun hook hmem => hlive ▸ hmem⟩
  · rw [hs', hl]
    exact ⟨fun hf => absurd hf (by simp), fun hook hmem => absurd hmem List.not_mem_nil⟩

theorem hookInv_uninstall_keeps (kind : HookKind) (d : HWND) (willing : Bool) :
    ((uninstall kind d willing s).1 = false → (uninstall kind d willing s).2 = s) ∧
    (∀ hook ∈ s.live, hook ∉ (uninstall kind d willing s).2.live →
      hook.kind = kind ∧ hook.destination = d) ∧
    ((∀ hook ∈ s.live, ¬ (hook.kind = kind ∧ hook.destination = d)) →
      uninstall kind d willing s = (false, s)) := by
  rcases hookInv_uninstall h kind d willing with hs | ⟨hook, hl, hkind, hd, hs⟩
  · rw [hs]
    exact ⟨fun _ => rfl, fun hook hmem hgone => absurd hmem hgone, fun _ => rfl⟩
  · rw [hs, hl]
    refine ⟨fun hf => absurd hf (by simp), fun hook' hmem _ => ?_, fun hno => ?_⟩
    · obtain rfl : hook' = hook := List.mem_singleton.mp hmem
      exact ⟨hkind, hd⟩
    · exact absurd ⟨hkind, hd⟩ (hno hook List.mem_cons_self)

/-- After an uninstall that returned TRUE there is no hook to remove. -/
theorem hookInv_uninstall_again (kind : HookKind) (d : HWND) (willing willing' : Bool)
    (htrue : (uninstall kind d willing s).1 = true) :
    uninstall kind d willing' (uninstall kind d willing s).2 =
      (false, (uninstall kind d willing s).2) := by
  rcases hookInv_uninstall h kind d willing with hs | ⟨hook, -, -, -, hs⟩
  · rw [hs] at htrue
    exact absurd htrue (by simp)
  · rw [hs]
    have hfree : HookInv (⟨NULL, s.hookHandle, s.hookEventHandle, []⟩ : HookState η) := Or.inl ⟨rfl, rfl⟩
    exact (hookInv_uninstall_keeps hfree kind d willing').2.2 fun hook hmem => absurd hmem List.not_mem_nil

theorem hookInv_owned : HookOwned s := by
  obtain ⟨hone, hlocked, howner⟩ := hookInv_counts h
  have huninstall : ∀ kind d willing, (uninstall kind d willing s).1 = false →
      (uninstall kind d willing s).2.msgRedirectDestination = s.msgRedirectDestination ∧
        (uninstall kind d willing s).2.live = s.live := by
    intro kind d willing hf
    rw [(hookInv_uninstall_keeps h kind d willing).1 hf]
    exact ⟨rfl, rfl⟩
  refine ⟨hone, hlocked, howner, ?_, ?_, ?_, ?_⟩
  · intro call hf
    cases call with
    | installHook d answer => exact (hookInv_install_keeps h _ d answer).1 hf
    | installEventHook d answer => exact (hookInv_install_keeps h _ d answer).1 hf
    | uninstallHook d willing => exact huninstall _ d willing hf
    | uninstallEventHook d willing => exact huninstall _ d willing hf
  · intro call hook hmem hgone
    cases call with
    | installHook d answer => exact absurd ((hookInv_install_keeps h _ d answer).2 hook hmem) hgone
    | installEventHook d answer => exact absurd ((hookInv_install_keeps h _ d answer).2 hook hmem) hgone
    | uninstallHook d willing => exact (hookInv_uninstall_keeps h _ d willing).2.1 hook hmem hgone
    | uninstallEventHook d willing => exact (hookInv_uninstall_keeps h _ d willing).2.1 hook hmem hgone
  · intro call kind d hcall hno
    cases call with
    | installHook d' answer => exact absurd hcall id
    | installEventHook d' answer => exact absurd hcall id
    | uninstallHook d' willing =>
      obtain ⟨rfl, rfl⟩ := hcall
      exact (hookInv_uninstall_keeps h _ _ willing).2.2 hno
    | uninstallEventHook d' willing =>
      obtain ⟨rfl, rfl⟩ := hcall
      exact (hookInv_uninstall_keeps h _ _ willing).2.2 hno
  · exact fun c willing willing' => hookInv_uninstall_again h _ _ willing willing'

end

/-- **Hook ownership.**  After any calls, whatever the OS answered, at most one hook is live, the
destination is its owner's, and of all further calls only an uninstall of its kind by its
owner can remove it. -/
theorem hook_owned (calls : List (HookCall η)) : HookOwned (hookRun calls) :=
  hookInv_owned (hookInv_hookRun calls)

end HookDLL

end RemoteTaskbar
