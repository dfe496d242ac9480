import Mathlib.Data.List.Basic

/-!
# Runs of a transition system

A system is a partial step function; `step s l = none` means that `l` cannot
happen in `s`.  A run takes the labels of a list in order and ends early at one
that cannot happen.

`Always P` holds of a run if `P` holds in every state of it, `Guarded G` if `G`
holds of every step taken and the state it is taken in.  A property that some
invariant implies, and that a step breaks exactly when it fails the guard, holds
throughout exactly the guarded runs (`always_iff_guarded`).  A step may also fail
the guard and break the property only later: then it leads into states the run
never leaves again (`guarded_of_not_stuck`).
-/

namespace Trans

variable {σ ℓ : Type}

/-- The state all labels lead to, if each can happen in its turn. -/
def run (step : σ → ℓ → Option σ) : σ → List ℓ → Option σ
  | s, [] => some s
  | s, l :: ls => (step s l).bind (run step · ls)

def Always (step : σ → ℓ → Option σ) (P : σ → Prop) : σ → List ℓ → Prop
  | s, [] => P s
  | s, l :: ls => P s ∧ ∀ s', step s l = some s' → Always step P s' ls

def Guarded (step : σ → ℓ → Option σ) (G : σ → ℓ → Prop) : σ → List ℓ → Prop
  | _, [] => True
  | s, l :: ls => ∀ s', step s l = some s' → G s l ∧ Guarded step G s' ls

section
variable {step : σ → ℓ → Option σ} {I P : σ → Prop} {G : σ → ℓ → Prop}

theorem Always.head {s : σ} {ls : List ℓ} (h : Always step P s ls) : P s := by
  cases ls with
  | nil => exact h
  | cons l ls => exact h.1

theorem guarded_cons {s s' : σ} {l : ℓ} {ls : List ℓ} (hs : step s l = some s') (hg : G s l)
    (h : Guarded step G s' ls) : Guarded step G s (l :: ls) := by
  intro s₁ hs₁
  obtain rfl : s' = s₁ := Option.some.inj (hs.symm.trans hs₁)
  exact ⟨hg, h⟩

theorem guarded_cons_iff {s s' : σ} {l : ℓ} {ls : List ℓ} (hs : step s l = some s') :
    Guarded step G s (l :: ls) ↔ G s l ∧ Guarded step G s' ls := by
  constructor
  · exact fun h => h s' hs
  · exact fun h => guarded_cons hs h.1 h.2

instance decidableGuarded [∀ s l, Decidable (G s l)] :
    ∀ (ls : List ℓ) (s : σ), Decidable (Guarded step G s ls)
  | [], _ => isTrue trivial
  | l :: ls, s =>
    match h : step s l with
    | none => isTrue fun s' hs => absurd (h.symm.trans hs) (by simp)
    | some s' =>
      haveI : Decidable (Guarded step G s' ls) := decidableGuarded ls s'
      decidable_of_iff _ (guarded_cons_iff h).symm

/-- A guard that holds in every state. -/
theorem guarded_of_forall {ls : List ℓ} (h : ∀ l ∈ ls, ∀ s, G s l) (s : σ) : Guarded step G s ls := by
  induction ls generalizing s with
  | nil => trivial
  | cons l ls ih =>
    rw [List.forall_mem_cons] at h
    exact fun s' _ => ⟨h.1 s, ih h.2 s'⟩

theorem guarded_true (ls : List ℓ) (s : σ) : Guarded step (fun _ _ => True) s ls :=
  guarded_of_forall (fun _ _ _ => trivial) s

/-- An invariant of the guarded steps holds throughout a guarded run. -/
theorem Guarded.always (hstep : ∀ s l s', I s → G s l → step s l = some s' → I s')
    (hI : ∀ s, I s → P s) {s : σ} (ls : List ℓ) (hs : I s) (hg : Guarded step G s ls) :
    Always step P s ls := by
  induction ls generalizing s with
  | nil => exact hI s hs
  | cons l ls ih =>
    refine ⟨hI s hs, fun s' hs' => ?_⟩
    obtain ⟨hgl, hrest⟩ := hg s' hs'
    exact ih (hstep s l s' hs hgl hs') hrest

/-- An invariant of all steps holds throughout every run. -/
theorem always_of_invariant (hstep : ∀ s l s', I s → step s l = some s' → I s') {s : σ} (ls : List ℓ)
    (hs : I s) : Always step I s ls :=
  Guarded.always (fun s l s' h _ hs' => hstep s l s' h hs') (fun _ h => h) ls hs (guarded_true ls s)

/-- If in addition an unguarded step breaks the property at once, the guarded runs are all that
keep it, among those whose steps all satisfy `S`. -/
theorem always_iff_guarded_of {S : σ → ℓ → Prop}
    (hstep : ∀ s l s', I s → S s l → G s l → step s l = some s' → I s') (hI : ∀ s, I s → P s)
    (hbad : ∀ s l s', I s → S s l → ¬ G s l → step s l = some s' → ¬ P s') {s : σ} (ls : List ℓ)
    (hs : I s) (hS : Guarded step S s ls) : Always step P s ls ↔ Guarded step G s ls := by
  induction ls generalizing s with
  | nil => exact iff_of_true (hI s hs) trivial
  | cons l ls ih =>
    constructor
    · intro h s' hs'
      obtain ⟨hSl, hSrest⟩ := hS s' hs'
      have hrest := h.2 s' hs'
      have hgl : G s l := by
        by_contra hn
        exact hbad s l s' hs hSl hn hs' hrest.head
      exact ⟨hgl, (ih (hstep s l s' hs hSl hgl hs') hSrest).mp hrest⟩
    · intro hg
      refine ⟨hI s hs, fun s' hs' => ?_⟩
      obtain ⟨hSl, hSrest⟩ := hS s' hs'
      obtain ⟨hgl, hrest⟩ := hg s' hs'
      exact (ih (hstep s l s' hs hSl hgl hs') hSrest).mpr hrest

theorem always_iff_guarded (hstep : ∀ s l s', I s → G s l → step s l = some s' → I s')
    (hI : ∀ s, I s → P s) (hbad : ∀ s l s', I s → ¬ G s l → step s l = some s' → ¬ P s')
    {s : σ} (ls : List ℓ) (hs : I s) : Always step P s ls ↔ Guarded step G s ls :=
  always_iff_guarded_of (fun s l s' h _ => hstep s l s' h) hI (fun s l s' h _ => hbad s l s' h) ls hs
    (guarded_true ls s)

/-- What holds throughout holds where the run ends. -/
theorem Always.run {s s' : σ} {ls : List ℓ} (h : Always step P s ls) (hr : run step s ls = some s') :
    P s' := by
  induction ls generalizing s with
  | nil =>
    obtain rfl : s = s' := Option.some.inj hr
    exact h
  | cons l ls ih =>
    obtain ⟨s₁, hs₁, hrest⟩ := Option.bind_eq_some_iff.mp hr
    exact ih (h.2 s₁ hs₁) hrest

/-- A guard that follows from an invariant of the guarded steps. -/
theorem Guarded.imp {H : σ → ℓ → Prop} (hstep : ∀ s l s', I s → G s l → step s l = some s' → I s')
    (himp : ∀ s l s', I s → G s l → step s l = some s' → H s l) {s : σ} (ls : List ℓ) (hs : I s)
    (hg : Guarded step G s ls) : Guarded step H s ls := by
  induction ls generalizing s with
  | nil => trivial
  | cons l ls ih =>
    intro s' hs'
    obtain ⟨hgl, hrest⟩ := hg s' hs'
    exact ⟨himp s l s' hs hgl hs', ih (hstep s l s' hs hgl hs') hrest⟩

theorem run_cons {s s' : σ} {l : ℓ} (hs : step s l = some s') (ls : List ℓ) :
    run step s (l :: ls) = run step s' ls := by
  show (step s l).bind (run step · ls) = _
  rw [hs]
  rfl

theorem run_one {s s' : σ} {l : ℓ} (hs : step s l = some s') : run step s [l] = some s' := run_cons hs []

theorem run_append {s s' : σ} {ls : List ℓ} (hr : run step s ls = some s') (ls' : List ℓ) :
    run step s (ls ++ ls') = run step s' ls' := by
  induction ls generalizing s with
  | nil =>
    obtain rfl : s = s' := Option.some.inj hr
    rfl
  | cons l ls ih =>
    obtain ⟨s₁, hs₁, hrest⟩ := Option.bind_eq_some_iff.mp hr
    exact (run_cons hs₁ (ls ++ ls')).trans (ih hrest)

theorem Guarded.append {s s' : σ} {ls ls' : List ℓ} (h : Guarded step G s ls) (hr : run step s ls = some s')
    (h' : Guarded step G s' ls') : Guarded step G s (ls ++ ls') := by
  induction ls generalizing s with
  | nil =>
    obtain rfl : s = s' := Option.some.inj hr
    exact h'
  | cons l ls ih =>
    obtain ⟨s₁, hs₁, hrest⟩ := Option.bind_eq_some_iff.mp hr
    exact guarded_cons hs₁ (h s₁ hs₁).1 (ih (h s₁ hs₁).2 hrest)

theorem Guarded.and {H : σ → ℓ → Prop} {s : σ} {ls : List ℓ} (hg : Guarded step G s ls)
    (hh : Guarded step H s ls) : Guarded step (fun s l => G s l ∧ H s l) s ls := by
  induction ls generalizing s with
  | nil => trivial
  | cons l ls ih => exact fun s' hs => ⟨⟨(hg s' hs).1, (hh s' hs).1⟩, ih (hg s' hs).2 (hh s' hs).2⟩

/-- The guard holds of a further step, if that can happen. -/
theorem Guarded.last {s s' s'' : σ} {ls : List ℓ} {l : ℓ} (h : Guarded step G s (ls ++ [l]))
    (hr : run step s ls = some s') (hs : step s' l = some s'') : G s' l := by
  induction ls generalizing s with
  | nil =>
    obtain rfl : s = s' := Option.some.inj hr
    exact (h s'' hs).1
  | cons l₁ ls ih =>
    obtain ⟨s₁, hs₁, hrest⟩ := Option.bind_eq_some_iff.mp hr
    exact ih (h s₁ hs₁).2 hrest

/-- What every step keeps holds where the run ends. -/
theorem run_of_invariant (hstep : ∀ s l s', I s → step s l = some s' → I s') {s s' : σ} {ls : List ℓ}
    (hs : I s) (hr : run step s ls = some s') : I s' :=
  (always_of_invariant hstep ls hs).run hr

/-- If an unguarded step leads into states that no step leaves, a run that ends
outside of them was guarded. -/
theorem guarded_of_not_stuck {B : σ → Prop} (hstep : ∀ s l s', I s → step s l = some s' → I s')
    (hbad : ∀ s l s', I s → ¬ G s l → step s l = some s' → B s')
    (hB : ∀ s l s', I s ∧ B s → step s l = some s' → B s')
    {s s' : σ} (ls : List ℓ) (hs : I s) (hr : run step s ls = some s') (hn : ¬ B s') :
    Guarded step G s ls := by
  induction ls generalizing s with
  | nil => trivial
  | cons l ls ih =>
    obtain ⟨s₁, hs₁, hrest⟩ := Option.bind_eq_some_iff.mp hr
    have hI : I s₁ := hstep s l s₁ hs hs₁
    have hg : G s l := by
      by_contra hno
      have hstuck : I s₁ ∧ B s₁ := ⟨hI, hbad s l s₁ hs hno hs₁⟩
      have hend : I s' ∧ B s' :=
        run_of_invariant (I := fun s => I s ∧ B s)
          (fun a l b h hl => ⟨hstep a l b h.1 hl, hB a l b h hl⟩) hstuck hrest
      exact hn hend.2
    exact guarded_cons hs₁ hg (ih hI hrest)

/-- If a run of another system matches each guarded step, one matches each guarded run. -/
theorem exists_run_matching {σ' ℓ' : Type} {step' : σ' → ℓ' → Option σ'} {G' : σ' → ℓ' → Prop}
    {R : σ → σ' → Prop}
    (hstep : ∀ s l s' t, R s t → G s l → step s l = some s' →
      ∃ ls' t', run step' t ls' = some t' ∧ Guarded step' G' t ls' ∧ R s' t')
    {s s' : σ} {t : σ'} {ls : List ℓ} (hR : R s t) (hg : Guarded step G s ls)
    (hr : run step s ls = some s') :
    ∃ ls' t', run step' t ls' = some t' ∧ Guarded step' G' t ls' ∧ R s' t' := by
  induction ls generalizing s t with
  | nil =>
    obtain rfl : s = s' := Option.some.inj hr
    exact ⟨[], t, rfl, trivial, hR⟩
  | cons l ls ih =>
    obtain ⟨s₁, hs₁, hrest⟩ := Option.bind_eq_some_iff.mp hr
    obtain ⟨ls₁, t₁, hr₁, hg₁, hR₁⟩ := hstep s l s₁ t hR (hg s₁ hs₁).1 hs₁
    obtain ⟨ls₂, t₂, hr₂, hg₂, hR₂⟩ := ih hR₁ (hg s₁ hs₁).2 hrest
    refine ⟨ls₁ ++ ls₂, t₂, ?_, hg₁.append hr₁ hg₂, hR₂⟩
    rw [run_append hr₁]
    exact hr₂

/-! ## Progress -/

/-- Where some step of the kind `L` keeps the invariant and lowers a measure until the system is
done, such steps lead to the end. -/
theorem exists_run_to {Done : σ → Prop} {L : ℓ → Prop} (rank : σ → Nat)
    (henabled : ∀ s, I s → ¬ Done s → ∃ l s', L l ∧ step s l = some s' ∧ I s' ∧ rank s' < rank s)
    {s : σ} (hs : I s) : ∃ ls s', (∀ l ∈ ls, L l) ∧ run step s ls = some s' ∧ I s' ∧ Done s' := by
  induction hn : rank s using Nat.strongRecOn generalizing s with
  | ind n ih =>
    by_cases hdone : Done s
    · exact ⟨[], s, fun l hl => absurd hl List.not_mem_nil, rfl, hs, hdone⟩
    · obtain ⟨l, s₁, hl, hs₁, hI, hlt⟩ := henabled s hs hdone
      obtain ⟨ls, s', hall, hr, hI', hd⟩ := ih (rank s₁) (hn ▸ hlt) hI rfl
      exact ⟨l :: ls, s', List.forall_mem_cons.mpr ⟨hl, hall⟩, (run_cons hs₁ ls).trans hr, hI', hd⟩

/-- Where every step lowers a measure and some step can happen until the system is done, every
run is short and can be brought to an end. -/
theorem exists_run_of_measure {Done : σ → Prop} (rank : σ → Nat)
    (hdown : ∀ s l s', step s l = some s' → rank s' < rank s)
    (henabled : ∀ s, ¬ Done s → ∃ l s', step s l = some s') (s : σ) :
    ∃ ls s', run step s ls = some s' ∧ Done s' := by
  obtain ⟨ls, s', -, hr, -, hd⟩ :=
    exists_run_to (I := fun _ => True) (L := fun _ => True) rank
      (fun s _ hn => (henabled s hn).imp fun l h => h.imp fun s' hs =>
        ⟨trivial, hs, trivial, hdown s l s' hs⟩) trivial (s := s)
  exact ⟨ls, s', hr, hd⟩

theorem length_le_of_measure (rank : σ → Nat) (hdown : ∀ s l s', step s l = some s' → rank s' < rank s)
    {s s' : σ} {ls : List ℓ} (hr : run step s ls = some s') : ls.length ≤ rank s := by
  induction ls generalizing s with
  | nil => exact Nat.zero_le _
  | cons l ls ih =>
    obtain ⟨s₁, hs₁, hrest⟩ := Option.bind_eq_some_iff.mp hr
    have hlt := hdown s l s₁ hs₁
    have hle := ih hrest
    rw [List.length_cons]
    omega

end

end Trans
