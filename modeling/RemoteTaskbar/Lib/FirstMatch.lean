import Mathlib.Data.List.Nodup
import Mathlib.Logic.Function.Basic

/-!
# Lists searched for the first match

`updateFirst p f` applies `f` to the first element that satisfies `p`, as a
search that stops at its first hit does; core's `eraseP` removes that element.
Where a key identifies the elements (`(l.map key).Nodup`) the first match is the
only one.
-/

namespace List

variable {α κ : Type} [DecidableEq κ]

def updateFirst (p : α → Bool) (f : α → α) : List α → List α
  | [] => []
  | a :: l => if p a then f a :: l else a :: updateFirst p f l

theorem map_updateFirst {γ : Type} (g : α → γ) (p : α → Bool) (f : α → α)
    (hf : ∀ a, g (f a) = g a) (l : List α) : (updateFirst p f l).map g = l.map g := by
  induction l with
  | nil => rfl
  | cons a l ih =>
    unfold updateFirst
    split
    · rw [map_cons, map_cons, hf]
    · rw [map_cons, map_cons, ih]

theorem updateFirst_eq_self (p : α → Bool) (f : α → α) (l : List α) (h : ∀ a ∈ l, p a = false) :
    updateFirst p f l = l := by
  induction l with
  | nil => rfl
  | cons a l ih =>
    unfold updateFirst
    rw [if_neg (by rw [h a mem_cons_self]; exact Bool.false_ne_true),
      ih fun b hb => h b (mem_cons_of_mem a hb)]

/-- The first match is found again, updated. -/
theorem find?_updateFirst {p : α → Bool} {f : α → α} (hf : ∀ a, p (f a) = p a) (l : List α) :
    (updateFirst p f l).find? p = (l.find? p).map f := by
  induction l with
  | nil => rfl
  | cons a l ih =>
    unfold updateFirst
    split
    · next ha => rw [find?_cons_of_pos ((hf a).trans ha), find?_cons_of_pos ha, Option.map_some]
    · next ha => rw [find?_cons_of_neg ha, find?_cons_of_neg ha, ih]

/-- Elements with another key are where they were. -/
theorem mem_of_mem_updateFirst_ne {key : α → κ} {f : α → α} {l : List α} {k : κ} {a : α}
    (hf : ∀ b, key (f b) = key b) (h : a ∈ updateFirst (key · == k) f l) (hk : key a ≠ k) :
    a ∈ l := by
  induction l with
  | nil => exact h
  | cons b l ih =>
    unfold updateFirst at h
    split at h
    · next hb =>
      rcases mem_cons.mp h with rfl | h
      · rw [hf] at hk
        exact absurd (eq_of_beq hb) hk
      · exact mem_cons_of_mem b h
    · rcases mem_cons.mp h with rfl | h
      · exact mem_cons_self
      · exact mem_cons_of_mem b (ih h)

/-- The element with the key is the updated one. -/
theorem exists_of_mem_updateFirst {key : α → κ} {f : α → α} {l : List α} {k : κ} {a : α}
    (hn : (l.map key).Nodup) (h : a ∈ updateFirst (key · == k) f l) (hk : key a = k) :
    ∃ b ∈ l, key b = k ∧ a = f b := by
  induction l with
  | nil => cases h
  | cons b l ih =>
    rw [map_cons, nodup_cons] at hn
    unfold updateFirst at h
    split at h
    · next hb =>
      rcases mem_cons.mp h with rfl | h
      · exact ⟨b, mem_cons_self, eq_of_beq hb, rfl⟩
      · -- a second element with the key of `b`
        exact absurd (mem_map.mpr ⟨a, h, hk.trans (eq_of_beq hb).symm⟩) hn.1
    · next hb =>
      rcases mem_cons.mp h with rfl | h
      · exact absurd (by simpa using hk) hb
      · obtain ⟨c, hc, hck, rfl⟩ := ih hn.2 h
        exact ⟨c, mem_cons_of_mem b hc, hck, rfl⟩

theorem map_eraseP_key (key : α → κ) (k : κ) (l : List α) :
    (l.eraseP (key · == k)).map key = (l.map key).erase k := by
  rw [erase_eq_eraseP', eraseP_map]
  rfl

/-! ## The first match itself -/

theorem eraseP_congr {p q : α → Bool} {l : List α} (h : ∀ a ∈ l, p a = q a) :
    l.eraseP p = l.eraseP q := by
  induction l with
  | nil => rfl
  | cons b l ih =>
    rw [eraseP_cons, eraseP_cons, h b mem_cons_self, ih fun a ha => h a (mem_cons_of_mem b ha)]

/-- Removing something else does not change what is found. -/
theorem find?_eraseP_of_disjoint {p q : α → Bool} (h : ∀ a, p a = true → q a = false) (l : List α) :
    (l.eraseP q).find? p = l.find? p := by
  induction l with
  | nil => rfl
  | cons b l ih =>
    by_cases hq : q b = true
    · have hp : ¬ p b = true := fun hp => absurd hq (by rw [h b hp]; decide)
      rw [eraseP_cons_of_pos hq, find?_cons_of_neg hp]
    · rw [eraseP_cons_of_neg hq, find?_cons, find?_cons, ih]

theorem notMem_eraseP_of_find? {p : α → Bool} {l : List α} {a : α} (hn : l.Nodup)
    (h : l.find? p = some a) : a ∉ l.eraseP p := by
  induction l with
  | nil => cases h
  | cons b l ih =>
    rw [nodup_cons] at hn
    by_cases hp : p b = true
    · rw [find?_cons_of_pos hp] at h
      obtain rfl : b = a := Option.some.inj h
      rw [eraseP_cons_of_pos hp]
      exact hn.1
    · rw [find?_cons_of_neg hp] at h
      rw [eraseP_cons_of_neg hp, mem_cons, not_or]
      refine ⟨?_, ih hn.2 h⟩
      rintro rfl
      exact hp (find?_some h)

theorem map_update_of_notMem {β : Type} [DecidableEq α] {f : α → β} {a : α} {b : β} {l : List α}
    (h : a ∉ l) : l.map (Function.update f a b) = l.map f := by
  refine map_congr_left fun c hc => Function.update_of_ne ?_ _ _
  rintro rfl
  exact h hc

/-- A value changed where the first match points is the first match changed. -/
theorem map_update_of_find? {β : Type} [DecidableEq α] {f : α → β} {p : β → Bool} (g : β → β)
    {l : List α} {a : α} (hn : l.Nodup) (h : l.find? (fun c => p (f c)) = some a) :
    l.map (Function.update f a (g (f a))) = updateFirst p g (l.map f) := by
  induction l with
  | nil => cases h
  | cons b l ih =>
    rw [nodup_cons] at hn
    unfold updateFirst
    rw [map_cons, map_cons]
    by_cases hp : p (f b) = true
    · rw [find?_cons_of_pos (p := fun c => p (f c)) hp] at h
      obtain rfl : b = a := Option.some.inj h
      rw [Function.update_self, map_update_of_notMem hn.1]
      simp only [hp, if_true]
    · rw [find?_cons_of_neg (p := fun c => p (f c)) hp] at h
      have hne : b ≠ a := by
        rintro rfl
        exact hn.1 (mem_of_find?_eq_some h)
      rw [Function.update_of_ne hne, ih hn.2 h]
      simp only [hp, if_false, Bool.false_eq_true]

end List
