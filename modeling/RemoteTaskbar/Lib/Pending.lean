import Mathlib.Data.List.Perm.Basic

/-!
# A copy of a list, and a change it has not been told

`C` is a copy of a list `K` of distinct elements.  A change of `K` is announced
to the copy later, and at times the copy is replaced by a snapshot `S` of the
list, also taken earlier.  `Agree` says what is right of a copy while a change is
pending.

A snapshot may replace the copy while the change is pending if the change is
made after the snapshot (`agree_of_mayFollow`), and the change may be announced
while a snapshot is pending if it was made before (`perm_of_mayPass`).  In the
other cases the copy ends up wrong (`not_perm_of_not_mayFollow`,
`not_perm_of_not_mayPass`).
-/

/-- A change of a set that its copy has not been told. -/
inductive Pending (α : Type) where
  | none
  | add (a : α)
  | remove (a : α)

namespace Pending

variable {α : Type} [DecidableEq α]

/-- The copy `C` is the list `K` but for the change. -/
def Agree (C K : List α) : Pending α → Prop
  | none => C.Perm K
  | add a => a ∉ C ∧ K.Perm (a :: C)
  | remove a => a ∉ K ∧ (C.erase a).Perm K

/-- The copy once it is told. -/
def deliver (C : List α) : Pending α → List α
  | none => C
  | add a => C ++ [a]
  | remove a => C.erase a

/-- The change is not in the snapshot `S`, and is still in the list `K`. -/
def MayFollow (S K : List α) : Pending α → Prop
  | none => True
  | add a => a ∉ S ∧ a ∈ K
  | remove a => ¬ (a ∈ S ∧ a ∈ K)

/-- The snapshot `S` does not undo the change. -/
def MayPass (S K : List α) : Pending α → Prop
  | none => True
  | add a => a ∈ K → a ∈ S
  | remove a => a ∈ S → a ∈ K

theorem Agree.deliver {C K : List α} {p : Pending α} (h : p.Agree C K) : (p.deliver C).Perm K := by
  cases p with
  | none => exact h
  | add a => exact List.perm_append_comm.trans h.2.symm
  | remove a => exact h.2

theorem agree_add {C K : List α} {a : α} (h : C.Perm K) (ha : a ∉ K) : (add a).Agree C (a :: K) :=
  ⟨fun hc => ha (h.mem_iff.mp hc), h.symm.cons a⟩

theorem agree_remove {C K : List α} {a : α} (h : C.Perm K) (hK : K.Nodup) :
    (remove a).Agree C (K.erase a) :=
  ⟨hK.not_mem_erase, h.erase a⟩

/-- A copy replaced by the snapshot is as good as before if the change may follow it. -/
theorem agree_of_mayFollow {S K : List α} {p : Pending α} (h : K.Perm S ∨ p.Agree S K)
    (hp : p.MayFollow S K) : p.Agree S K := by
  rcases h with h | h
  · cases p with
    | none => exact h.symm
    | add a => exact absurd (h.mem_iff.mp hp.2) hp.1
    | remove a =>
      have hS : a ∉ S := fun ha => hp ⟨ha, h.mem_iff.mpr ha⟩
      refine ⟨fun ha => hS (h.mem_iff.mp ha), ?_⟩
      rw [List.erase_of_not_mem hS]
      exact h.symm
  · exact h

/-- A snapshot is right as it is if the change may pass it. -/
theorem perm_of_mayPass {S K : List α} {p : Pending α} (h : K.Perm S ∨ p.Agree S K)
    (hp : p.MayPass S K) : K.Perm S := by
  rcases h with h | h
  · exact h
  · cases p with
    | none => exact h.symm
    | add a => exact absurd (hp (h.2.mem_iff.mpr List.mem_cons_self)) h.1
    | remove a =>
      have hS : a ∉ S := fun ha => h.1 (hp ha)
      rw [← List.erase_of_not_mem hS]
      exact h.2.symm

/-- A change that follows out of order leaves the copy wrong. -/
theorem not_perm_of_not_mayFollow {S K : List α} {p : Pending α} (h : K.Perm S ∨ p.Agree S K)
    (hp : ¬ p.MayFollow S K) : ¬ (p.deliver S).Perm K := by
  cases p with
  | none => exact absurd trivial hp
  | add a =>
    have hKS : K.Perm S := by
      rcases h with h | h
      · exact h
      · exact absurd ⟨h.1, h.2.mem_iff.mpr List.mem_cons_self⟩ hp
    intro hd
    have hlen := (hd.trans hKS).length_eq
    simp only [deliver, List.length_append, List.length_singleton] at hlen
    omega
  | remove a =>
    obtain ⟨hS, hK⟩ := not_not.mp hp
    have hKS : K.Perm S := by
      rcases h with h | h
      · exact h
      · exact absurd hK h.1
    intro hd
    have hlen := (hd.trans hKS).length_eq
    have hpos : 0 < S.length := List.length_pos_of_mem hS
    rw [deliver, List.length_erase_of_mem hS] at hlen
    omega

omit [DecidableEq α] in
theorem not_perm_of_not_mayPass {S K : List α} {p : Pending α} (hp : ¬ p.MayPass S K) : ¬ S.Perm K := by
  intro h
  cases p with
  | none => exact hp trivial
  | add a => exact hp h.mem_iff.mpr
  | remove a => exact hp h.mem_iff.mp

end Pending
