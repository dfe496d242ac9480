import Mathlib.Data.Set.Insert
import Mathlib.Order.BooleanAlgebra.Set
import Mathlib.Data.List.Infix

/-!
# A set and the updates still queued for it

An update adds an element, removes one, or leaves the set alone; `outcome ops S`
is `S` after the updates of a queue in their order.

The last update of an element decides about it, whatever was there before
(`mem_outcome_of_remove`), and without one it stays (`mem_outcome_or`).  So the set
may be replaced by a copy of what the queue leads to while updates are still queued
(`outcome_subset_self`, `subset_outcome_self`).
-/

inductive SetUpdate (α : Type) where
  | add (a : α)
  | remove (a : α)
  | keep

namespace SetUpdate

variable {α ε : Type}

def act (S : Set α) : SetUpdate α → Set α
  | add a => insert a S
  | remove a => S \ {a}
  | keep => S

/-- `S` after the updates. -/
def outcome (ops : List (SetUpdate α)) (S : Set α) : Set α := ops.foldl act S

@[simp] theorem outcome_nil (S : Set α) : outcome [] S = S := rfl

@[simp] theorem outcome_cons (op : SetUpdate α) (ops : List (SetUpdate α)) (S : Set α) :
    outcome (op :: ops) S = outcome ops (op.act S) := rfl

theorem outcome_append (ops ops' : List (SetUpdate α)) (S : Set α) :
    outcome (ops ++ ops') S = outcome ops' (outcome ops S) :=
  List.foldl_append

/-! ## One element -/

section
variable {a : α} {S T : Set α}

/-- An update treats each element by itself. -/
theorem mem_act_congr (op : SetUpdate α) (h : a ∈ S ↔ a ∈ T) : a ∈ op.act S ↔ a ∈ op.act T := by
  cases op with
  | add b => exact or_congr_right h
  | remove b => exact and_congr_left fun _ => h
  | keep => exact h

theorem mem_outcome_congr (ops : List (SetUpdate α)) (h : a ∈ S ↔ a ∈ T) :
    a ∈ outcome ops S ↔ a ∈ outcome ops T := by
  induction ops generalizing S T with
  | nil => exact h
  | cons op ops ih => exact ih (mem_act_congr op h)

theorem act_mono (op : SetUpdate α) (h : S ⊆ T) : op.act S ⊆ op.act T := by
  cases op with
  | add b => exact Set.insert_subset_insert h
  | remove b => exact Set.sdiff_subset_sdiff_left h
  | keep => exact h

theorem outcome_mono (ops : List (SetUpdate α)) (h : S ⊆ T) : outcome ops S ⊆ outcome ops T := by
  induction ops generalizing S T with
  | nil => exact h
  | cons op ops ih => exact ih (act_mono op h)

/-- The updates other than of `a` do not matter to it. -/
theorem mem_act_of_ne {op : SetUpdate α} (hadd : op ≠ add a) (hremove : op ≠ remove a) :
    a ∈ op.act S ↔ a ∈ S := by
  cases op with
  | add b =>
    have hb : a ≠ b := by
      rintro rfl
      exact hadd rfl
    exact or_iff_right hb
  | remove b =>
    have hb : a ≠ b := by
      rintro rfl
      exact hremove rfl
    exact and_iff_left hb
  | keep => exact Iff.rfl

/-- Once an element is removed it does not matter whether it was there. -/
theorem mem_outcome_of_remove {ops : List (SetUpdate α)} (h : remove a ∈ ops) (S T : Set α) :
    a ∈ outcome ops S ↔ a ∈ outcome ops T := by
  induction ops generalizing S T with
  | nil => exact absurd h List.not_mem_nil
  | cons op ops ih =>
    rcases List.mem_cons.mp h with rfl | h
    · have hS : a ∉ (remove a : SetUpdate α).act S := fun hm => hm.2 rfl
      have hT : a ∉ (remove a : SetUpdate α).act T := fun hm => hm.2 rfl
      exact mem_outcome_congr ops (iff_of_false hS hT)
    · exact ih h _ _

/-- An element whose membership a queue does not decide keeps it. -/
theorem mem_outcome_or (ops : List (SetUpdate α)) (a : α) :
    (∀ S T : Set α, a ∈ outcome ops S ↔ a ∈ outcome ops T) ∨
      ∀ S : Set α, a ∈ outcome ops S ↔ a ∈ S := by
  induction ops with
  | nil => exact Or.inr fun S => Iff.rfl
  | cons op ops ih =>
    rcases ih with hconst | hkeep
    · exact Or.inl fun S T => hconst _ _
    · by_cases hadd : op = add a
      · subst hadd
        refine Or.inl fun S T => ?_
        rw [outcome_cons, outcome_cons, hkeep, hkeep]
        exact iff_of_true (Set.mem_insert a S) (Set.mem_insert a T)
      · by_cases hremove : op = remove a
        · subst hremove
          exact Or.inl fun S T => mem_outcome_of_remove List.mem_cons_self S T
        · refine Or.inr fun S => ?_
          rw [outcome_cons, hkeep, mem_act_of_ne hadd hremove]

end

/-! ## A copy of the finished set -/

/-- A queue that leads to at most `T` leads there from `T` itself. -/
theorem outcome_subset_self {ops : List (SetUpdate α)} {S T : Set α} (h : outcome ops S ⊆ T) :
    outcome ops T ⊆ T := by
  intro a ha
  rcases mem_outcome_or ops a with hconst | hkeep
  · exact h ((hconst T S).mp ha)
  · exact (hkeep T).mp ha

theorem subset_outcome_self {ops : List (SetUpdate α)} {S T : Set α} (h : T ⊆ outcome ops S) :
    T ⊆ outcome ops T := by
  intro a ha
  rcases mem_outcome_or ops a with hconst | hkeep
  · exact (hconst S T).mp (h ha)
  · exact (hkeep T).mpr ha

/-! ## A missing addition -/

theorem outcome_skip_add_subset (ops ops' : List (SetUpdate α)) (S : Set α) (a : α) :
    outcome (ops ++ ops') S ⊆ outcome (ops ++ add a :: ops') S := by
  rw [outcome_append, outcome_append, outcome_cons]
  exact outcome_mono ops' (Set.subset_insert a _)

/-- Nothing but that element is missing then. -/
theorem subset_outcome_skip_add {ops ops' : List (SetUpdate α)} {S T : Set α} {a : α}
    (h : T ⊆ outcome (ops ++ add a :: ops') S) (ha : a ∈ T → a ∈ outcome (ops ++ ops') S) :
    T ⊆ outcome (ops ++ ops') S := by
  intro b hb
  by_cases hba : b = a
  · subst hba
    exact ha hb
  · have hmem := h hb
    rw [outcome_append, outcome_cons] at hmem
    rw [outcome_append]
    exact (mem_outcome_congr ops' (or_iff_right hba)).mp hmem

/-! ## Updates read off other data -/

/-- Two readings of a queue agree about an element if each entry they differ on is
followed by its removal. -/
theorem mem_outcome_map_congr {f g : ε → SetUpdate α} {a : α} {es : List ε}
    (h : ∀ e rest, e :: rest <:+ es →
      (∀ S : Set α, a ∈ (f e).act S ↔ a ∈ (g e).act S) ∨ remove a ∈ rest.map g) (S : Set α) :
    a ∈ outcome (es.map f) S ↔ a ∈ outcome (es.map g) S := by
  induction es generalizing S with
  | nil => exact Iff.rfl
  | cons e es ih =>
    have htail := ih fun e' rest hs => h e' rest (hs.trans (List.suffix_cons e es))
    rw [List.map_cons, List.map_cons, outcome_cons, outcome_cons, htail]
    rcases h e es List.suffix_rfl with he | hremove
    · exact mem_outcome_congr _ (he S)
    · exact mem_outcome_of_remove hremove _ _

end SetUpdate
