import Mathlib.Data.Fin.Basic

/-!
# Counted loops with a break

`run n body s` is `for (int i = 0; i < n; i++)`: the body sees the index and the
state, and goes on (`yield`) or breaks (`done`).

    I 0 s, kept by every turn; a break and the end give P   ⟹   P (run n body s)

(`run_rule`).  Two loops come back in every program: the search for an index
(`run_search`) and the update of an array in place (`get_run_update`).
-/

namespace ForLoop

variable {σ α : Type}

def run : (n : Nat) → (Fin n → σ → ForInStep σ) → σ → σ
  | 0, _, s => s
  | n + 1, body, s =>
    match body 0 s with
    | .done s' => s'
    | .yield s' => run n (fun i => body i.succ) s'

/-- **The rule of the loop.**  `I i` holds before turn `i`; a turn that goes on keeps it,
and a break leads to `P` as the end does. -/
theorem run_rule {n : Nat} {body : Fin n → σ → ForInStep σ} (I : Nat → σ → Prop) (P : σ → Prop)
    {s : σ} (hstart : I 0 s) (hyield : ∀ (i : Fin n) s s', I i s → body i s = .yield s' → I (i + 1) s')
    (hdone : ∀ (i : Fin n) s s', I i s → body i s = .done s' → P s') (hend : ∀ s, I n s → P s) :
    P (run n body s) := by
  induction n generalizing I s with
  | zero => exact hend s hstart
  | succ n ih =>
    unfold run
    cases hb : body 0 s with
    | done s' => exact hdone 0 s s' hstart hb
    | yield s' =>
      -- the turns left, counted from 0 again
      refine ih (fun i => I (i + 1)) (hyield 0 s s' hstart hb) ?_ ?_ hend
      · intro i t t' ht
        exact hyield i.succ t t' ht
      · intro i t t' ht
        exact hdone i.succ t t' ht

/-! ## Searching -/

section
variable {n : Nat} (p : Fin n → Prop) [DecidablePred p]

/-- `if (p(i)) { found = true; break; }` -/
theorem run_search :
    run n (fun i found => if p i then .done true else .yield found) false = true ↔ ∃ i, p i := by
  refine run_rule (fun k found => found = false ∧ ∀ i : Fin n, i < k → ¬ p i)
    (fun found => found = true ↔ ∃ i, p i) ⟨rfl, fun i hi => absurd hi (Nat.not_lt_zero i)⟩ ?_ ?_ ?_
  · rintro i found found' ⟨hfound, hnone⟩ hb
    by_cases hp : p i
    · rw [if_pos hp] at hb
      cases hb
    · rw [if_neg hp] at hb
      cases hb
      refine ⟨hfound, fun j hj => ?_⟩
      rcases Nat.lt_succ_iff_lt_or_eq.mp hj with hlt | heq
      · exact hnone j hlt
      · rw [Fin.ext heq]
        exact hp
  · rintro i found found' - hb
    by_cases hp : p i
    · rw [if_pos hp] at hb
      cases hb
      exact iff_of_true rfl ⟨i, hp⟩
    · rw [if_neg hp] at hb
      cases hb
  · rintro found ⟨hfound, hnone⟩
    rw [hfound]
    exact iff_of_false Bool.false_ne_true fun ⟨i, hi⟩ => hnone i i.isLt hi

/-! ## Updating an array in place -/

/-- `v[i] = a;` -/
def store (v : Vector α n) (i : Fin n) (a : α) : Vector α n := v.set i a

theorem get_store_self (v : Vector α n) (i : Fin n) (a : α) : (store v i a).get i = a :=
  Vector.getElem_set_self i.isLt

theorem get_store_ne (v : Vector α n) {i j : Fin n} (a : α) (h : i ≠ j) : (store v i a).get j = v.get j :=
  Vector.getElem_set_ne i.isLt j.isLt fun e => h (Fin.ext e)

/-- `if (p(i)) v[i] = f(v[i]);` updates each element once, or not at all. -/
theorem get_run_update (f : α → α) (v : Vector α n) (j : Fin n) :
    (run n (fun i v => .yield (if p i then store v i (f (v.get i)) else v)) v).get j =
      if p j then f (v.get j) else v.get j := by
  refine run_rule
    (fun k (w : Vector α n) => ∀ j : Fin n, w.get j = if j < k ∧ p j then f (v.get j) else v.get j)
    (fun w => w.get j = if p j then f (v.get j) else v.get j) ?_ ?_ ?_ ?_
  · intro j
    rw [if_neg fun h => absurd h.1 (Nat.not_lt_zero j)]
  · intro i w w' hw hb j
    cases hb
    by_cases hji : i = j
    · subst hji
      have hold : w.get i = v.get i := by
        rw [hw i, if_neg fun h => Nat.lt_irrefl i h.1]
      by_cases hp : p i
      · rw [if_pos hp, if_pos ⟨Nat.lt_succ_self i, hp⟩, get_store_self, hold]
      · rw [if_neg hp, if_neg fun h => hp h.2, hold]
    · have hsame : (if p i then store w i (f (w.get i)) else w).get j = w.get j := by
        by_cases hp : p i
        · rw [if_pos hp, get_store_ne w _ hji]
        · rw [if_neg hp]
      have hne : (i : Nat) ≠ j := fun e => hji (Fin.ext e)
      have hlt : (j : Nat) < i + 1 ↔ (j : Nat) < i := by omega
      rw [hsame, hw j]
      simp only [hlt]
  · intro i w w' _ hb
    cases hb
  · intro w hw
    rw [hw j]
    simp only [j.isLt, true_and]

end

end ForLoop
