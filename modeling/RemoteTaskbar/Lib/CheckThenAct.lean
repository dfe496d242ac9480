import Mathlib.Data.Set.Card
import Mathlib.Logic.Function.Basic

/-!
# Check, then act, then record

Agents share a set of keys that are done.  An agent looks whether a key is done,
acts on it if not, and records it; these are three steps, and others come in
between.  `acts` lists the keys acted on, oldest first.

An agent that has recorded a key, or sees it recorded, never acts on it again, so
a key is acted on at most once by each (`Inv.count`).  An act is the first on its
key exactly if the key is neither recorded by now nor about to be (`Inv.fresh_iff`).
-/

namespace CheckThenAct

variable {α κ : Type}

/-- Where an agent is; an idle agent may look for any key. -/
inductive Pc (κ : Type) where
  | idle
  /-- the key was not done; the act is next -/
  | acting (k : κ)
  /-- the record is next -/
  | recording (k : κ)

structure State (α κ : Type) where
  done : Set κ
  acts : List κ
  pc : α → Pc κ

/-- The steps that change something; to find a key done does not. -/
inductive Step [DecidableEq α] : State α κ → State α κ → Prop where
  | pass {s : State α κ} {a : α} {k : κ} (hpc : s.pc a = .idle) (hk : k ∉ s.done) :
      Step s { s with pc := Function.update s.pc a (.acting k) }
  | act {s : State α κ} {a : α} {k : κ} (hpc : s.pc a = .acting k) :
      Step s { s with acts := s.acts ++ [k], pc := Function.update s.pc a (.recording k) }
  | record {s : State α κ} {a : α} {k : κ} (hpc : s.pc a = .recording k) :
      Step s { s with done := insert k s.done, pc := Function.update s.pc a .idle }

/-- The agent will not act on the key any more. -/
def Spent (s : State α κ) (k : κ) (a : α) : Prop :=
  s.pc a = .recording k ∨ (k ∈ s.done ∧ s.pc a ≠ .acting k)

/-- No agent has acted on the key. -/
def Fresh (s : State α κ) (k : κ) : Prop := k ∉ s.done ∧ ∀ a, s.pc a ≠ .recording k

structure Inv [DecidableEq κ] (s : State α κ) : Prop where
  mem_iff : ∀ k, k ∈ s.acts ↔ k ∈ s.done ∨ ∃ a, s.pc a = .recording k
  count_le : ∀ k, s.acts.count k ≤ {a | Spent s k a}.ncard

/-! ## One step -/

section
variable {s s' : State α κ}

/-- Once an agent is through with a key it stays so. -/
theorem Spent.step [DecidableEq α] {k : κ} {a : α} (h : Spent s k a) (hs : Step s s') : Spent s' k a := by
  cases hs with
  | @pass a₀ k₀ hpc hk =>
    by_cases ha : a = a₀
    · subst ha
      rcases h with h | ⟨hdone, -⟩
      · rw [hpc] at h
        cases h
      · refine Or.inr ⟨hdone, fun hacting => ?_⟩
        have hself : Function.update s.pc a (.acting k₀) a = .acting k₀ := Function.update_self ..
        obtain rfl : k₀ = k := Pc.acting.inj (hself.symm.trans hacting)
        exact hk hdone
    · simpa [Spent, Function.update_of_ne ha] using h
  | @act a₀ k₀ hpc =>
    by_cases ha : a = a₀
    · subst ha
      rcases h with h | ⟨hdone, -⟩
      · rw [hpc] at h
        cases h
      · exact Or.inr ⟨hdone, by simp⟩
    · simpa [Spent, Function.update_of_ne ha] using h
  | @record a₀ k₀ hpc =>
    by_cases ha : a = a₀
    · subst ha
      rcases h with h | ⟨hdone, -⟩
      · rw [hpc] at h
        cases h
        exact Or.inr ⟨Set.mem_insert k s.done, by simp⟩
      · exact Or.inr ⟨Set.mem_insert_of_mem k₀ hdone, by simp⟩
    · rcases h with h | ⟨hdone, hne⟩
      · exact Or.inl ((Function.update_of_ne ha ..).trans h)
      · refine Or.inr ⟨Set.mem_insert_of_mem k₀ hdone, ?_⟩
        show Function.update s.pc a₀ .idle a ≠ _
        rwa [Function.update_of_ne ha]

/-- Who is at a point once `a` has moved. -/
theorem exists_update_iff [DecidableEq α] {β : Type} (f : α → β) (a : α) (b x : β) :
    (∃ c, Function.update f a b c = x) ↔ b = x ∨ ∃ c, c ≠ a ∧ f c = x := by
  constructor
  · rintro ⟨c, hc⟩
    by_cases h : c = a
    · subst h
      exact Or.inl (by rwa [Function.update_self] at hc)
    · exact Or.inr ⟨c, h, by rwa [Function.update_of_ne h] at hc⟩
  · rintro (h | ⟨c, h, hc⟩)
    · exact ⟨a, by rwa [Function.update_self]⟩
    · exact ⟨c, by rwa [Function.update_of_ne h]⟩

theorem exists_iff_or_ne {β : Type} (f : α → β) (a : α) (x : β) :
    (∃ c, f c = x) ↔ f a = x ∨ ∃ c, c ≠ a ∧ f c = x := by
  constructor
  · rintro ⟨c, hc⟩
    by_cases h : c = a
    · exact Or.inl (h ▸ hc)
    · exact Or.inr ⟨c, h, hc⟩
  · rintro (h | ⟨c, -, hc⟩)
    · exact ⟨a, h⟩
    · exact ⟨c, hc⟩

theorem mem_iff_step [DecidableEq α] (h : ∀ k, k ∈ s.acts ↔ k ∈ s.done ∨ ∃ a, s.pc a = .recording k)
    (hs : Step s s') (k : κ) : k ∈ s'.acts ↔ k ∈ s'.done ∨ ∃ a, s'.pc a = .recording k := by
  have hk := h k
  cases hs with
  | @pass a k₀ hpc _ =>
    rw [exists_iff_or_ne s.pc a, hpc] at hk
    show k ∈ s.acts ↔ k ∈ s.done ∨ ∃ c, Function.update s.pc a (.acting k₀) c = .recording k
    rw [exists_update_iff, hk]
    simp
  | @act a k₀ hpc =>
    rw [exists_iff_or_ne s.pc a, hpc] at hk
    show k ∈ s.acts ++ [k₀] ↔ k ∈ s.done ∨ ∃ c, Function.update s.pc a (.recording k₀) c = .recording k
    rw [exists_update_iff, List.mem_append, hk, List.mem_singleton, Pc.recording.injEq, @eq_comm _ k₀ k]
    simp only [reduceCtorEq, false_or]
    exact or_assoc.trans (or_congr_right or_comm)
  | @record a k₀ hpc =>
    rw [exists_iff_or_ne s.pc a, hpc] at hk
    show k ∈ s.acts ↔ k ∈ insert k₀ s.done ∨ ∃ c, Function.update s.pc a .idle c = .recording k
    rw [exists_update_iff, hk, Set.mem_insert_iff, Pc.recording.injEq, @eq_comm _ k₀ k]
    simp only [reduceCtorEq, false_or]
    tauto

variable [DecidableEq κ] [Finite α]

/-- Each act uses up its agent. -/
theorem count_step [DecidableEq α] (h : ∀ k, s.acts.count k ≤ {a | Spent s k a}.ncard) (hs : Step s s')
    (k : κ) : s'.acts.count k ≤ {a | Spent s' k a}.ncard := by
  have hsub : {a | Spent s k a} ⊆ {a | Spent s' k a} := fun a ha => Spent.step ha hs
  have hmono := Set.ncard_le_ncard hsub (Set.toFinite _)
  cases hs with
  | pass hpc hk => exact (h k).trans hmono
  | record hpc => exact (h k).trans hmono
  | @act a k₀ hpc =>
    show (s.acts ++ [k₀]).count k ≤ _
    rw [List.count_append]
    by_cases hk : k₀ = k
    · subst hk
      -- the agent that acts was not among the spent ones before
      have hold : a ∉ {a | Spent s k₀ a} := by
        rintro (hrec | ⟨-, hne⟩)
        · rw [hpc] at hrec
          cases hrec
        · exact hne hpc
      have hnew := Function.update_self (f := s.pc) a (Pc.recording k₀)
      have hlt := Set.ncard_lt_ncard (hsub.ssubset_of_mem_notMem (Or.inl hnew) hold) (Set.toFinite _)
      have hle := h k₀
      rw [List.count_singleton_self]
      omega
    · rw [List.count_singleton, if_neg (by simpa using hk), Nat.add_zero]
      exact (h k).trans hmono

end

/-! ## The invariant -/

section
variable [DecidableEq κ]

theorem inv_start (pc : α → Pc κ) (h : ∀ a, pc a = .idle) : Inv ⟨∅, [], pc⟩ := by
  refine ⟨fun k => ?_, fun k => Nat.zero_le _⟩
  simp [h]

variable {s s' : State α κ}

theorem Inv.step [DecidableEq α] [Finite α] (h : Inv s) (hs : Step s s') : Inv s' :=
  ⟨mem_iff_step h.mem_iff hs, count_step h.count_le hs⟩

/-- Each agent acts on a key at most once. -/
theorem Inv.count [Finite α] (h : Inv s) (k : κ) : s.acts.count k ≤ Nat.card α :=
  (h.count_le k).trans (Set.ncard_le_card _)

theorem Inv.fresh_iff (h : Inv s) (k : κ) : Fresh s k ↔ k ∉ s.acts := by
  rw [h.mem_iff, not_or, not_exists]
  exact Iff.rfl

end

end CheckThenAct
