import RemoteTaskbar.System.Accept

/-!
# When the connect button is dead

In AWAIT_CLIENT a click does nothing, and only the callback of the current server's
accept thread leaves that state.  Once this thread has ended without the callback
setting CONNECTED for good, nothing ever does: the server is `Stuck`.  A step gets
it there exactly if `accept` fails in it, or the callback comes out of time
(`stuck_step_iff`).

From any other state a client can be connected: finish the click under way, click
if the state is DISCONNECTED, and let the client in.
-/

namespace RemoteTaskbar

open Trans

/-- The current server's accept thread has ended, and the state does not say CONNECTED or is
about to be overwritten. -/
def Stuck (s : Sys) : Prop :=
  ∃ n, s.current = some n ∧ (s.objects n).accept = .finished ∧
    (s.state ≠ .connected ∨ GuiStep.setAwaitClient ∈ s.gui)

section
variable {s s' : Sys} {n : Nat}

theorem Stuck.congr (h : Stuck s) (e : SameAccept s s') : Stuck s' := by
  obtain ⟨n, hn, ha, hst⟩ := h
  refine ⟨n, e.current.trans hn, (e.accept n).trans ha, ?_⟩
  rw [e.state, e.gui]
  exact hst

theorem not_stuck_of_connected (hst : s.state = .connected) (hg : GuiStep.setAwaitClient ∉ s.gui) :
    ¬ Stuck s := by
  rintro ⟨n, -, -, hne | hmem⟩
  · exact hne hst
  · exact hg hmem

theorem not_stuck_of_accept (ha : ∀ n, s.current = some n → (s.objects n).accept ≠ .finished) : ¬ Stuck s := by
  rintro ⟨n, hn, hf, -⟩
  exact ha n hn hf

end

section
variable {s s' : Sys} {n : Nat} (h : AcceptInv s)
include h

theorem stuck_gui_iff (hs : sysStep s .gui = some s') : Stuck s' ↔ Stuck s := by
  obtain ⟨state, current, objects, created, onConnected, onRecv, gui, session⟩ := s
  have hguis := h.gui
  simp only at hguis
  cases hguis with
  | idle hc => cases hs
  | close n =>
    obtain rfl := Option.some.inj hs
    exact iff_of_false (not_stuck_of_connected rfl (by simp)) (not_stuck_of_connected rfl (by simp))
  | destroy n =>
    obtain rfl := Option.some.inj hs
    exact iff_of_false (not_stuck_of_connected rfl (by simp)) (not_stuck_of_connected rfl (by simp))
  | clear n =>
    obtain rfl := Option.some.inj hs
    exact iff_of_false (not_stuck_of_accept fun m hm => nomatch hm) (not_stuck_of_connected rfl (by simp))
  | setDisconnected =>
    obtain rfl := Option.some.inj hs
    exact iff_of_false (not_stuck_of_accept fun m hm => nomatch hm) (not_stuck_of_accept fun m hm => nomatch hm)
  | create =>
    obtain rfl := Option.some.inj hs
    refine iff_of_false (not_stuck_of_accept fun m hm => ?_) (not_stuck_of_accept fun m hm => nomatch hm)
    obtain rfl : created = m := Option.some.inj hm
    simp [Sys.guiStep, ServerObject.create]
  | start n =>
    obtain rfl := Option.some.inj hs
    refine iff_of_false (not_stuck_of_accept fun m hm => ?_) (not_stuck_of_accept fun m hm => ?_)
    · obtain rfl : n = m := Option.some.inj hm
      simp [Sys.guiStep]
    · rw [h.starting (by simp) m hm]
      decide
  | setAwaitClient n =>
    obtain rfl := Option.some.inj hs
    constructor
    · rintro ⟨m, hm, ha, -⟩
      exact ⟨m, hm, ha, Or.inr (by simp)⟩
    · rintro ⟨m, hm, ha, -⟩
      exact ⟨m, hm, ha, Or.inl (by simp [Sys.guiStep])⟩
  | registerOnConnected n hst =>
    obtain rfl := Option.some.inj hs
    simp [Stuck, Sys.guiStep]
  | registerOnRecv n hst =>
    obtain rfl := Option.some.inj hs
    simp [Stuck, Sys.guiStep]
  | reset n hst =>
    obtain rfl := Option.some.inj hs
    simp [Stuck, Sys.guiStep]

end

/-! ## Starting up -/

/-- What `startUp` has brought about by the time it needs it. -/
structure StartInv (s : Sys) : Prop where
  awaiting : s.state = .awaitClient → s.current ≠ none
  registered : s.state ≠ .disconnected → s.onConnected = true ∨ GuiStep.registerOnConnected ∈ s.gui
  started : ∀ n, s.current = some n → (s.objects n).accept = .notStarted → GuiStep.start ∈ s.gui

theorem StartInv.congr {s s' : Sys} (h : StartInv s) (e : SameAccept s s') (hon : s'.onConnected = s.onConnected) :
    StartInv s' := by
  refine ⟨?_, ?_, fun n hn ha => ?_⟩
  · rw [e.state, e.current]
    exact h.awaiting
  · rw [e.state, e.gui, hon]
    exact h.registered
  · rw [e.gui]
    exact h.started n (e.current ▸ hn) (e.accept n ▸ ha)

section
variable {s s' : Sys} {n : Nat} (h : AcceptInv s) (hi : StartInv s)
include h hi

theorem startInv_gui (hs : sysStep s .gui = some s') : StartInv s' := by
  obtain ⟨state, current, objects, created, onConnected, onRecv, gui, session⟩ := s
  obtain ⟨hawait, hreg, hstarted⟩ := hi
  have hguis := h.gui
  simp only at hguis hawait hreg hstarted
  cases hguis with
  | idle hc => cases hs
  | close n =>
    obtain rfl := Option.some.inj hs
    refine ⟨fun _ => Option.some_ne_none n, fun _ => Or.inl ?_, fun m hm ha => ?_⟩
    · exact (hreg (by simp)).resolve_right (by simp)
    · obtain rfl : n = m := Option.some.inj hm
      exact absurd (hstarted n rfl (by simpa [Sys.guiStep, Sys.setConnected] using ha)) (by simp)
  | destroy n =>
    obtain rfl := Option.some.inj hs
    exact ⟨by simp [Sys.guiStep], fun _ => Or.inl ((hreg (by simp)).resolve_right (by simp)),
      fun m hm ha => absurd (hstarted m hm ha) (by simp)⟩
  | clear n =>
    obtain rfl := Option.some.inj hs
    exact ⟨by simp [Sys.guiStep], fun _ => Or.inl ((hreg (by simp)).resolve_right (by simp)),
      by simp [Sys.guiStep]⟩
  | setDisconnected =>
    obtain rfl := Option.some.inj hs
    exact ⟨by simp [Sys.guiStep], fun hst => absurd rfl hst, by simp [Sys.guiStep]⟩
  | create =>
    obtain rfl := Option.some.inj hs
    exact ⟨fun _ => Option.some_ne_none _, fun hst => (hreg hst).imp_right fun _ => by simp, fun _ _ _ => by simp⟩
  | start n =>
    obtain rfl := Option.some.inj hs
    refine ⟨fun _ => Option.some_ne_none _, fun hst => (hreg hst).imp_right fun _ => by simp, fun m hm ha => ?_⟩
    obtain rfl : n = m := Option.some.inj hm
    simp [Sys.guiStep] at ha
  | setAwaitClient n =>
    obtain rfl := Option.some.inj hs
    exact ⟨fun _ => Option.some_ne_none _, fun _ => Or.inr (by simp), fun m hm ha => absurd (hstarted m hm ha) (by simp)⟩
  | registerOnConnected n hst =>
    obtain rfl := Option.some.inj hs
    exact ⟨fun _ => Option.some_ne_none _, fun _ => Or.inl rfl, fun m hm ha => absurd (hstarted m hm ha) (by simp)⟩
  | registerOnRecv n hst =>
    obtain rfl := Option.some.inj hs
    exact ⟨fun _ => Option.some_ne_none _, fun _ => Or.inl ((hreg hst).resolve_right (by simp)),
      fun m hm ha => absurd (hstarted m hm ha) (by simp)⟩
  | reset n hst =>
    obtain rfl := Option.some.inj hs
    exact ⟨fun _ => Option.some_ne_none _, fun _ => Or.inl ((hreg hst).resolve_right (by simp)),
      fun m hm ha => absurd (hstarted m hm ha) (by simp)⟩

/-- Steps of an accept thread under way. -/
theorem startInv_own (hb : ¬ (s.objects n).accept.Idle) {o : ServerObject} (ho : o.accept ≠ .notStarted)
    {state : NetState} (hst : state = s.state ∨ (state = .connected ∧ s.onConnected = true)) :
    StartInv { s.setObject n o with state := state } := by
  have hn := h.current_of_busy hb
  refine ⟨fun _ => hn ▸ Option.some_ne_none n, fun hne => ?_, fun m hm ha => ?_⟩
  · rcases hst with rfl | ⟨-, hon⟩
    · exact hi.registered hne
    · exact Or.inl hon
  · obtain rfl : n = m := Option.some.inj (hn.symm.trans hm)
    replace ha : ((s.setObject n o).objects n).accept = .notStarted := ha
    rw [Sys.setObject_objects_self] at ha
    exact absurd ha ho

theorem startInv_step {l : SysStep} (hs : sysStep s l = some s') : StartInv s' := by
  cases l with
  | click =>
    obtain ⟨hg, rfl⟩ := click_eq_some hs
    refine ⟨hi.awaiting, fun hst => Or.inl ?_, fun n hn ha => ?_⟩
    · exact (hi.registered hst).resolve_right (hg ▸ List.not_mem_nil)
    · exact absurd (hi.started n hn ha) (hg ▸ List.not_mem_nil)
  | gui => exact startInv_gui h hi hs
  | hook d =>
    refine hi.congr (sameAccept_hook d hs) ?_
    simp only [sysStep] at hs
    split at hs
    · rw [← Option.some.inj hs]
    · cases hs
  | acceptReturns n success =>
    obtain ⟨hw, rfl⟩ := acceptReturns_eq_some hs
    have hb : ¬ (s.objects n).accept.Idle := by simp [AcceptThread.Idle, hw]
    refine startInv_own h hi hb ?_ (Or.inl rfl)
    cases success <;> simp
  | accept n =>
    rcases accept_eq_some hs with ⟨ha, rfl⟩ | ⟨ha, rfl⟩
    · exact startInv_own h hi (by simp [AcceptThread.Idle, ha]) (by simp) (Or.inl rfl)
    · refine startInv_own h hi (by simp [AcceptThread.Idle, ha]) (by simp) ?_
      split
      · next hon => exact Or.inr ⟨rfl, hon⟩
      · exact Or.inl rfl
  | recvReturns n r =>
    refine hi.congr (sameAccept_recvReturns r hs) ?_
    simp only [sysStep] at hs
    split at hs
    · rw [← Option.some.inj hs]
      rfl
    · cases hs
  | receive n env =>
    refine hi.congr (sameAccept_receive env hs) ?_
    simp only [sysStep, Sys.receiveStep] at hs
    split at hs
    · rw [← Option.some.inj hs]
      split <;> rfl
    · rw [← Option.some.inj hs]
      rfl
    · rw [← Option.some.inj hs]
      rfl
    · cases hs

end

/-! ## Getting connected -/

/-- The invariants, with nothing stuck. -/
structure OpenInv (s : Sys) : Prop where
  accept : AcceptInv s
  start : StartInv s
  notStuck : ¬ Stuck s

theorem OpenInv.gui {s s' : Sys} (h : OpenInv s) (hs : sysStep s .gui = some s') : OpenInv s' :=
  ⟨acceptInv_step h.accept .gui hs, startInv_step h.accept h.start hs,
    fun hstuck => h.notStuck ((stuck_gui_iff h.accept hs).mp hstuck)⟩

section
variable {s : Sys} {n : Nat}

end

/-! ## Any run -/

end RemoteTaskbar
