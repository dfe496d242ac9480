import Mathlib.Data.List.Basic
import Mathlib.Data.List.Forall2

/-!
# Readers of a stream that act while they read

A reader consumes a prefix of a list of symbols `β`, performs effects `ε` as it
goes, and either returns a value with the rest of the list or stops (`none`:
the stream ended inside a value, or the value was refused).  The effects
performed before it stopped are kept.

* `Reads p input log a`: on `input` followed by anything, `p` returns `a`,
  performs `log` and leaves exactly what followed.
* `StopsShort p input log`: on the first `k` symbols of `input`, fewer than all, `p`
  performs `log k` and stops.
* `Consumes p`: every value `p` returns has used up at least one symbol.
* `Local p`: what `p` returns depends on the symbols it has used up and on no others.
* `Decodes p ok input log`: the values `p` returns are those with `ok`, each from its own
  `input`.
* `Online p`: where `p` stops, more symbols take nothing back.

`loop p` reads values until the reader stops.  A `Consumes` reader that `Reads`
each of a list of inputs reads their concatenation value by value, whatever
follows (`loop_of_reads`), and a `Local` one splits every stream in one way
(`loop_eq_iff`).
-/

def Reader (β ε α : Type) : Type := List β → List ε × Option (α × List β)

namespace Reader

variable {β ε α γ : Type}

def ret (a : α) : Reader β ε α := fun s => ([], some (a, s))

def andThen (p : Reader β ε α) (f : α → Reader β ε γ) : Reader β ε γ := fun s =>
  match p s with
  | (log, none) => (log, none)
  | (log, some (a, rest)) => (log ++ (f a rest).1, (f a rest).2)

instance : Monad (Reader β ε) where
  pure := ret
  bind := andThen

/-- Perform an effect. -/
def emit (e : ε) : Reader β ε Unit := fun s => ([e], some ((), s))

/-- Refuse the input. -/
def stop : Reader β ε α := fun _ => ([], none)

/-- The next `n` symbols. -/
def readFully (n : Nat) : Reader β ε (List β) := fun s =>
  if n ≤ s.length then ([], some (s.take n, s.drop n)) else ([], none)

/-- `n` values one after the other. -/
def readMany (p : Reader β ε α) : Nat → Reader β ε (List α)
  | 0 => pure []
  | n + 1 => do
    let a ← p
    let as ← readMany p n
    pure (a :: as)

/-! ## What a reader does on a given input -/

def Reads (p : Reader β ε α) (input : List β) (log : List ε) (a : α) : Prop :=
  ∀ rest, p (input ++ rest) = (log, some (a, rest))

theorem reads_pure (a : α) : Reads (pure a : Reader β ε α) [] [] a := fun _ => rfl

/-- `p` runs first; what follows its input is left to the rest. -/
theorem bind_of_reads {p : Reader β ε α} {i : List β} {l : List ε} {a : α} (hp : Reads p i l a)
    (f : α → Reader β ε γ) (s : List β) : (p >>= f) (i ++ s) = (l ++ (f a s).1, (f a s).2) := by
  show andThen p f _ = _
  unfold andThen
  rw [hp s]

theorem bind_of_reads_quiet {p : Reader β ε α} {i : List β} {a : α} (hp : Reads p i [] a)
    (f : α → Reader β ε γ) (s : List β) : (p >>= f) (i ++ s) = f a s := bind_of_reads hp f s

theorem emit_bind (e : ε) (f : Unit → Reader β ε γ) (s : List β) :
    (emit e >>= f) s = (e :: (f () s).1, (f () s).2) := rfl

theorem pure_apply (a : α) (s : List β) : (pure a : Reader β ε α) s = ([], some (a, s)) := rfl

theorem reads_bind {p : Reader β ε α} {f : α → Reader β ε γ} {i i' : List β} {l l' : List ε} {a : α}
    {c : γ} (hp : Reads p i l a) (hf : Reads (f a) i' l' c) : Reads (p >>= f) (i ++ i') (l ++ l') c := by
  intro rest
  rw [List.append_assoc, bind_of_reads hp, hf rest]

theorem reads_readFully (xs : List β) : Reads (readFully xs.length : Reader β ε (List β)) xs [] xs := by
  intro rest
  unfold readFully
  rw [if_pos (by simp)]
  simp

theorem reads_readMany {δ : Type} {p : Reader β ε α} (input : δ → List β) (log : δ → List ε)
    (val : δ → α) (ds : List δ) (h : ∀ d ∈ ds, Reads p (input d) (log d) (val d)) :
    Reads (readMany p ds.length) (ds.flatMap input) (ds.flatMap log) (ds.map val) := by
  induction ds with
  | nil => exact reads_pure []
  | cons d ds ih =>
    have hd := h d List.mem_cons_self
    have hds := ih fun d' h' => h d' (List.mem_cons_of_mem _ h')
    have htail : Reads (readMany p ds.length >>= fun as => pure (val d :: as))
        (ds.flatMap input ++ []) (ds.flatMap log ++ []) (val d :: ds.map val) :=
      reads_bind hds (reads_pure _)
    have := reads_bind (f := fun a => readMany p ds.length >>= fun as => pure (a :: as)) hd htail
    simpa [readMany] using this

/-! ## What it does on less -/

def StopsShort (p : Reader β ε α) (input : List β) (log : Nat → List ε) : Prop :=
  ∀ k < input.length, p (input.take k) = (log k, none)

/-- Nothing is performed before all of the input was there. -/
def StopsQuiet (p : Reader β ε α) (input : List β) : Prop := StopsShort p input fun _ => []

theorem StopsShort.congr {p : Reader β ε α} {i : List β} {log log' : Nat → List ε}
    (h : StopsShort p i log) (he : ∀ k < i.length, log k = log' k) : StopsShort p i log' := by
  intro k hk
  rw [h k hk, he k hk]

/-- Where `p` stops, what would follow it is not reached. -/
theorem stopsShort_then {p : Reader β ε α} {i : List β} {log : Nat → List ε} (hp : StopsShort p i log)
    (f : α → Reader β ε γ) : StopsShort (p >>= f) i log := by
  intro k hk
  show andThen p f _ = _
  unfold andThen
  rw [hp k hk]

/-- A cut behind the input of `p` is a cut in that of the rest. -/
theorem stopsShort_bind {p : Reader β ε α} {f : α → Reader β ε γ} {i i' : List β} {l : List ε} {a : α}
    {log log' : Nat → List ε} (hr : Reads p i l a) (hp : StopsShort p i log)
    (hf : StopsShort (f a) i' log') :
    StopsShort (p >>= f) (i ++ i') fun k => if k < i.length then log k else l ++ log' (k - i.length) := by
  intro k hk
  show (p >>= f) ((i ++ i').take k) = (if k < i.length then log k else l ++ log' (k - i.length), none)
  by_cases hki : k < i.length
  · have htake : (i ++ i').take k = i.take k := List.take_append_of_le_length (Nat.le_of_lt hki)
    rw [htake, if_pos hki]
    exact stopsShort_then hp f k hki
  · rw [List.length_append] at hk
    have htake : (i ++ i').take k = i ++ i'.take (k - i.length) := by
      rw [List.take_append, List.take_of_length_le (Nat.not_lt.mp hki)]
    rw [htake, if_neg hki, bind_of_reads hr, hf _ (by omega)]

theorem stopsQuiet_bind {p : Reader β ε α} {f : α → Reader β ε γ} {i i' : List β} {a : α}
    (hr : Reads p i [] a) (hp : StopsQuiet p i) (hf : StopsQuiet (f a) i') :
    StopsQuiet (p >>= f) (i ++ i') :=
  (stopsShort_bind hr hp hf).congr fun k _ => by simp

theorem stopsShort_emit_bind {f : Unit → Reader β ε γ} {i : List β} {log : Nat → List ε} (e : ε)
    (hf : StopsShort (f ()) i log) : StopsShort (emit e >>= f) i fun k => e :: log k := by
  intro k hk
  rw [emit_bind, hf k hk]

theorem stopsQuiet_readFully (xs : List β) :
    StopsQuiet (readFully xs.length : Reader β ε (List β)) xs := by
  intro k hk
  unfold readFully
  rw [if_neg (by rw [List.length_take]; omega)]

/-- The values whose inputs, one behind the other, lie within the first `k` symbols. -/
def wholes {δ : Type} (input : δ → List β) : List δ → Nat → List δ
  | [], _ => []
  | d :: ds, k =>
    if (input d).length ≤ k then d :: wholes input ds (k - (input d).length) else []

theorem stopsShort_readMany {δ : Type} {p : Reader β ε α} (input : δ → List β) (log : δ → List ε)
    (val : δ → α) (ds : List δ) (h : ∀ d ∈ ds, Reads p (input d) (log d) (val d))
    (hs : ∀ d ∈ ds, StopsQuiet p (input d)) :
    StopsShort (readMany p ds.length) (ds.flatMap input) fun k => (wholes input ds k).flatMap log := by
  induction ds with
  | nil => exact fun k hk => absurd hk (Nat.not_lt_zero _)
  | cons d ds ih =>
    have hd := h d List.mem_cons_self
    have htail := ih (fun d' h' => h d' (List.mem_cons_of_mem _ h'))
      fun d' h' => hs d' (List.mem_cons_of_mem _ h')
    have hrest : StopsShort (readMany p ds.length >>= fun as => pure (val d :: as)) (ds.flatMap input)
        fun k => (wholes input ds k).flatMap log := stopsShort_then htail _
    refine (stopsShort_bind hd (hs d List.mem_cons_self) hrest).congr fun k _ => ?_
    show _ = (if (input d).length ≤ k then d :: wholes input ds (k - (input d).length) else []).flatMap log
    by_cases hk : k < (input d).length
    · rw [if_pos hk, if_neg (Nat.not_le.mpr hk), List.flatMap_nil]
    · rw [if_neg hk, if_pos (Nat.not_lt.mp hk), List.flatMap_cons]

/-! ## Progress -/

/-- A returned value never leaves more than there was. -/
def Shrinks (p : Reader β ε α) : Prop :=
  ∀ s log a rest, p s = (log, some (a, rest)) → rest.length ≤ s.length

def Consumes (p : Reader β ε α) : Prop :=
  ∀ s log a rest, p s = (log, some (a, rest)) → rest.length < s.length

theorem Consumes.shrinks {p : Reader β ε α} (h : Consumes p) : Shrinks p :=
  fun s log a rest e => Nat.le_of_lt (h s log a rest e)

theorem shrinks_pure (a : α) : Shrinks (pure a : Reader β ε α) := by
  intro s log b rest h
  cases h
  exact Nat.le_refl _

theorem shrinks_emit (e : ε) : Shrinks (emit e : Reader β ε Unit) := by
  intro s log a rest h
  cases h
  exact Nat.le_refl _

theorem shrinks_stop : Shrinks (stop : Reader β ε α) := by
  intro s log a rest h
  cases h

theorem shrinks_readFully (n : Nat) : Shrinks (readFully n : Reader β ε (List β)) := by
  intro s log a rest h
  unfold readFully at h
  split at h
  · cases h
    simp
  · cases h

/-- A successful sequence is a success of each part. -/
theorem bind_eq_some {p : Reader β ε α} {f : α → Reader β ε γ} {s : List β} {log : List ε} {c : γ}
    {rest : List β} (h : (p >>= f) s = (log, some (c, rest))) :
    ∃ l a mid l', p s = (l, some (a, mid)) ∧ f a mid = (l', some (c, rest)) := by
  change andThen p f s = _ at h
  unfold andThen at h
  match hp : p s with
  | (l, none) =>
    rw [hp] at h
    cases h
  | (l, some (a, mid)) =>
    rw [hp] at h
    simp only [Prod.mk.injEq] at h
    exact ⟨l, a, mid, (f a mid).1, rfl, Prod.ext rfl h.2⟩

theorem shrinks_bind {p : Reader β ε α} {f : α → Reader β ε γ} (hp : Shrinks p)
    (hf : ∀ a, Shrinks (f a)) : Shrinks (p >>= f) := by
  intro s log c rest h
  obtain ⟨l, a, mid, l', h1, h2⟩ := bind_eq_some h
  exact Nat.le_trans (hf a _ _ _ _ h2) (hp _ _ _ _ h1)

theorem consumes_bind {p : Reader β ε α} {f : α → Reader β ε γ} (hp : Consumes p)
    (hf : ∀ a, Shrinks (f a)) : Consumes (p >>= f) := by
  intro s log c rest h
  obtain ⟨l, a, mid, l', h1, h2⟩ := bind_eq_some h
  exact Nat.lt_of_le_of_lt (hf a _ _ _ _ h2) (hp _ _ _ _ h1)

theorem shrinks_readMany {p : Reader β ε α} (hp : Shrinks p) : ∀ n, Shrinks (readMany p n)
  | 0 => shrinks_pure []
  | n + 1 => shrinks_bind hp fun _ => shrinks_bind (shrinks_readMany hp n) fun _ => shrinks_pure _

/-! ## Reading until the reader stops -/

/-- What a loop performed, what it returned, and what it left unread. -/
structure Run (β ε α : Type) where
  log : List ε
  vals : List α
  rest : List β
deriving DecidableEq

/-- `p` at most `n` times. -/
def loopN (p : Reader β ε α) : Nat → List β → Run β ε α
  | 0, s => ⟨[], [], s⟩
  | n + 1, s =>
    match p s with
    | (log, none) => ⟨log, [], s⟩
    | (log, some (a, rest)) =>
      let r := loopN p n rest
      ⟨log ++ r.log, a :: r.vals, r.rest⟩

/-- `p` until it stops.  One turn more than there are symbols is enough for a
reader that `Consumes` (`loopN_eq_loop`). -/
def loop (p : Reader β ε α) (s : List β) : Run β ε α := loopN p (s.length + 1) s

theorem loopN_eq_of_lt {p : Reader β ε α} (hp : Consumes p) (n m : Nat) (s : List β)
    (hn : s.length < n) (hm : s.length < m) : loopN p n s = loopN p m s := by
  induction n generalizing m s with
  | zero => omega
  | succ n ih =>
    cases m with
    | zero => omega
    | succ m =>
      unfold loopN
      match h : p s with
      | (log, none) => rfl
      | (log, some (a, rest)) =>
        have hlt := hp s log a rest h
        have e : loopN p n rest = loopN p m rest := ih m rest (by omega) (by omega)
        simp only [e]

/-- More turns than symbols change nothing: the loop stops by itself. -/
theorem loopN_eq_loop {p : Reader β ε α} (hp : Consumes p) (n : Nat) (s : List β) (hn : s.length < n) :
    loopN p n s = loop p s :=
  loopN_eq_of_lt hp n (s.length + 1) s hn (Nat.lt_succ_self _)

theorem loop_cons {p : Reader β ε α} (hp : Consumes p) {i : List β} {l : List ε} {a : α}
    (h : Reads p i l a) (rest : List β) :
    loop p (i ++ rest) = ⟨l ++ (loop p rest).log, a :: (loop p rest).vals, (loop p rest).rest⟩ := by
  have hlt := hp _ _ _ _ (h rest)
  have e : loop p (i ++ rest) = loopN p ((i ++ rest).length + 1) (i ++ rest) := rfl
  rw [e]
  unfold loopN
  rw [h rest]
  simp only [loopN_eq_loop hp _ rest hlt]

/-- A loop ends where its reader stops. -/
theorem loop_of_stops {p : Reader β ε α} {s : List β} {log : List ε} (h : p s = (log, none)) :
    loop p s = ⟨log, [], s⟩ := by
  unfold loop loopN
  rw [h]

/-- **Frames one after the other.** -/
theorem loop_of_reads {δ : Type} {p : Reader β ε α} (hp : Consumes p) (input : δ → List β)
    (log : δ → List ε) (val : δ → α) (ds : List δ)
    (h : ∀ d ∈ ds, Reads p (input d) (log d) (val d)) (rest : List β) :
    loop p (ds.flatMap input ++ rest) =
      ⟨ds.flatMap log ++ (loop p rest).log, ds.map val ++ (loop p rest).vals, (loop p rest).rest⟩ := by
  induction ds with
  | nil => rfl
  | cons d ds ih =>
    have hd := h d List.mem_cons_self
    have hds := ih fun d' h' => h d' (List.mem_cons_of_mem _ h')
    rw [List.flatMap_cons, List.append_assoc, loop_cons hp hd, hds]
    simp

/-! ## The language of a reader -/

/-- What is returned was read from the symbols used up, whatever follows them. -/
def Local (p : Reader β ε α) : Prop :=
  ∀ s log a rest, p s = (log, some (a, rest)) → ∃ input, s = input ++ rest ∧ Reads p input log a

theorem local_pure (a : α) : Local (pure a : Reader β ε α) := by
  intro s log b rest h
  cases h
  exact ⟨[], rfl, reads_pure a⟩

theorem local_emit (e : ε) : Local (emit e : Reader β ε Unit) := by
  intro s log a rest h
  cases h
  exact ⟨[], rfl, fun _ => rfl⟩

theorem local_stop : Local (stop : Reader β ε α) := by
  intro s log a rest h
  cases h

theorem local_readFully (n : Nat) : Local (readFully n : Reader β ε (List β)) := by
  intro s log xs rest h
  unfold readFully at h
  split at h
  · next hn =>
    cases h
    have hxs := reads_readFully (ε := ε) (s.take n)
    rw [List.length_take_of_le hn] at hxs
    exact ⟨s.take n, (List.take_append_drop n s).symm, hxs⟩
  · cases h

theorem local_bind {p : Reader β ε α} {f : α → Reader β ε γ} (hp : Local p) (hf : ∀ a, Local (f a)) :
    Local (p >>= f) := by
  intro s log c rest h
  obtain ⟨l, a, mid, l', h1, h2⟩ := bind_eq_some h
  obtain ⟨i, rfl, hi⟩ := hp s l a mid h1
  obtain ⟨j, rfl, hj⟩ := hf a mid l' c rest h2
  have hlog : log = l ++ l' := by
    rw [bind_of_reads hi, h2] at h
    exact (Prod.mk.inj h).1.symm
  subst hlog
  exact ⟨i ++ j, (List.append_assoc i j rest).symm, reads_bind hi hj⟩

theorem local_readMany {p : Reader β ε α} (hp : Local p) : ∀ n, Local (readMany p n)
  | 0 => local_pure []
  | n + 1 => local_bind hp fun _ => local_bind (local_readMany hp n) fun _ => local_pure _

/-- The inputs of a sequence are those of its parts, one behind the other. -/
theorem reads_bind_iff {p : Reader β ε α} {f : α → Reader β ε γ} (hp : Local p) (hf : ∀ a, Local (f a))
    {input : List β} {log : List ε} {c : γ} :
    Reads (p >>= f) input log c ↔ ∃ i j l l' a, input = i ++ j ∧ log = l ++ l' ∧ Reads p i l a ∧
      Reads (f a) j l' c := by
  constructor
  · intro h
    have h0 := h []
    obtain ⟨l, a, mid, l', h1, h2⟩ := bind_eq_some h0
    obtain ⟨i, hi, hri⟩ := hp _ l a mid h1
    obtain ⟨j, hj, hrj⟩ := hf a mid l' c [] h2
    rw [List.append_nil] at hi hj
    subst hj
    subst hi
    refine ⟨i, mid, l, l', a, rfl, ?_, hri, hrj⟩
    have hboth := reads_bind hri hrj []
    rw [h []] at hboth
    exact (Prod.mk.inj hboth).1
  · rintro ⟨i, j, l, l', a, rfl, rfl, hi, hj⟩
    exact reads_bind hi hj

theorem reads_pure_iff {a b : α} {input : List β} {log : List ε} :
    Reads (pure a : Reader β ε α) input log b ↔ input = [] ∧ log = [] ∧ b = a := by
  constructor
  · intro h
    have h0 := h []
    rw [List.append_nil, pure_apply] at h0
    simp only [Prod.mk.injEq, Option.some.injEq] at h0
    exact ⟨h0.2.2, h0.1.symm, h0.2.1.symm⟩
  · rintro ⟨rfl, rfl, rfl⟩
    exact reads_pure b

theorem reads_emit_iff {e : ε} {u : Unit} {input : List β} {log : List ε} :
    Reads (emit e : Reader β ε Unit) input log u ↔ input = [] ∧ log = [e] := by
  constructor
  · intro h
    have h0 := h []
    rw [List.append_nil, emit] at h0
    simp only [Prod.mk.injEq, Option.some.injEq] at h0
    exact ⟨h0.2.2, h0.1.symm⟩
  · rintro ⟨rfl, rfl⟩
    exact fun _ => rfl

/-- A local reader stops where none of its inputs begins. -/
theorem stops_iff {p : Reader β ε α} (hp : Local p) {s : List β} :
    (p s).2 = none ↔ ∀ i l a, Reads p i l a → ¬ i <+: s := by
  constructor
  · rintro hnone i l a hi ⟨rest, rfl⟩
    rw [hi rest] at hnone
    cases hnone
  · intro hno
    match hs : p s with
    | (log, none) => rfl
    | (log, some (a, rest)) =>
      obtain ⟨i, rfl, hi⟩ := hp s log a rest hs
      exact absurd (List.prefix_append i rest) (hno i log a hi)

/-- `p` reads the values that are `ok`, each from the input that `input` writes for it. -/
structure Decodes (p : Reader β ε α) (ok : α → Prop) (input : α → List β) (log : α → List ε) :
    Prop where
  isLocal : Local p
  reads_iff : ∀ {i l a}, Reads p i l a ↔ ok a ∧ i = input a ∧ l = log a

theorem decodes_emit (e : ε) :
    Decodes (emit e : Reader β ε Unit) (fun _ => True) (fun _ => []) fun _ => [e] :=
  ⟨local_emit e, by simp [reads_emit_iff]⟩

section
variable {p : Reader β ε α} {ok : α → Prop} {input : α → List β} {log : α → List ε}

theorem Decodes.reads (hp : Decodes p ok input log) {a : α} (h : ok a) : Reads p (input a) (log a) a :=
  hp.reads_iff.mpr ⟨h, rfl, rfl⟩

/-- A value of `p` comes first, then what the rest reads. -/
theorem Decodes.bind_iff (hp : Decodes p ok input log) {f : α → Reader β ε γ} (hf : ∀ a, Local (f a))
    {i : List β} {l : List ε} {c : γ} :
    Reads (p >>= f) i l c ↔ ∃ a j l', ok a ∧ i = input a ++ j ∧ l = log a ++ l' ∧ Reads (f a) j l' c := by
  rw [reads_bind_iff hp.isLocal hf]
  constructor
  · rintro ⟨i₁, j, l₁, l', a, rfl, rfl, ha, hj⟩
    obtain ⟨hok, rfl, rfl⟩ := hp.reads_iff.mp ha
    exact ⟨a, j, l', hok, rfl, rfl, hj⟩
  · rintro ⟨a, j, l', hok, rfl, rfl, hj⟩
    exact ⟨input a, j, log a, l', a, rfl, rfl, hp.reads hok, hj⟩

end

theorem decodes_readMany {p : Reader β ε α} {ok : α → Prop} {input : α → List β} {log : α → List ε}
    (hp : Decodes p ok input log) (n : Nat) :
    Decodes (readMany p n) (fun as => as.length = n ∧ ∀ a ∈ as, ok a) (List.flatMap input)
      (List.flatMap log) := by
  refine ⟨local_readMany hp.isLocal n, ?_⟩
  intro i l as
  constructor
  · intro h
    induction n generalizing i l as with
    | zero =>
      obtain ⟨rfl, rfl, rfl⟩ := reads_pure_iff.mp h
      exact ⟨⟨rfl, fun a ha => absurd ha List.not_mem_nil⟩, rfl, rfl⟩
    | succ n ih =>
      have hrest : ∀ a, Local (readMany p n >>= fun as => (pure (a :: as) : Reader β ε (List α))) :=
        fun a => local_bind (local_readMany hp.isLocal n) fun _ => local_pure _
      obtain ⟨i₁, i₂, l₁, l₂, a, rfl, rfl, ha, htail⟩ := (reads_bind_iff hp.isLocal hrest).mp h
      obtain ⟨i₃, i₄, l₃, l₄, as', rfl, rfl, has, hend⟩ :=
        (reads_bind_iff (local_readMany hp.isLocal n) fun _ => local_pure _).mp htail
      obtain ⟨rfl, rfl, rfl⟩ := reads_pure_iff.mp hend
      obtain ⟨hok, rfl, rfl⟩ := hp.reads_iff.mp ha
      obtain ⟨⟨rfl, hoks⟩, rfl, rfl⟩ := ih has
      rw [List.append_nil, List.append_nil]
      exact ⟨⟨rfl, List.forall_mem_cons.mpr ⟨hok, hoks⟩⟩, rfl, rfl⟩
  · rintro ⟨⟨rfl, hok⟩, rfl, rfl⟩
    have h := reads_readMany input log id as fun a ha => hp.reads_iff.mpr ⟨hok a ha, rfl, rfl⟩
    rwa [List.map_id] at h

/-! ## Where a reader stops -/

/-- A sequence stops in its first part or in its second. -/
theorem bind_eq_none_iff {p : Reader β ε α} {f : α → Reader β ε γ} {s : List β} {log : List ε} :
    (p >>= f) s = (log, none) ↔ p s = (log, none) ∨
      ∃ l a mid l', p s = (l, some (a, mid)) ∧ f a mid = (l', none) ∧ log = l ++ l' := by
  show andThen p f s = _ ↔ _
  unfold andThen
  match hp : p s with
  | (l, none) => simp
  | (l, some (a, mid)) =>
    simp only [Prod.mk.injEq, reduceCtorEq, and_false, false_or, Option.some.injEq]
    constructor
    · rintro ⟨rfl, hf⟩
      exact ⟨l, a, mid, (f a mid).1, ⟨rfl, rfl, rfl⟩, Prod.ext rfl hf, rfl⟩
    · rintro ⟨_, _, _, l', ⟨rfl, rfl, rfl⟩, hf, rfl⟩
      rw [hf]
      exact ⟨rfl, rfl⟩

/-- Nothing is performed before `p` stops. -/
def Quiet (p : Reader β ε α) : Prop := ∀ s log, p s = (log, none) → log = []

/-- Nothing is performed on the way to a value. -/
def Silent (p : Reader β ε α) : Prop := ∀ s log v, p s = (log, some v) → log = []

theorem quiet_bind {p : Reader β ε α} {f : α → Reader β ε γ} (hp : Quiet p) (hs : Silent p)
    (hf : ∀ a, Quiet (f a)) : Quiet (p >>= f) := by
  intro s log h
  rcases bind_eq_none_iff.mp h with h | ⟨l, a, mid, l', h1, h2, rfl⟩
  · exact hp s log h
  · rw [hs s l _ h1, hf a mid l' h2, List.append_nil]

/-- What never stops may perform what it likes. -/
theorem quiet_bind_total {p : Reader β ε α} {f : α → Reader β ε γ} (hp : Quiet p)
    (hf : ∀ a s, (f a s).2 ≠ none) : Quiet (p >>= f) := by
  intro s log h
  rcases bind_eq_none_iff.mp h with h | ⟨l, a, mid, l', -, h2, -⟩
  · exact hp s log h
  · exact absurd (congrArg Prod.snd h2) (hf a mid)

/-- `n` values stop in the first that is not there. -/
theorem readMany_eq_none {p : Reader β ε α} {ok : α → Prop} {input : α → List β} {log : α → List ε}
    (hp : Decodes p ok input log) {n : Nat} {s : List β} {l : List ε} :
    readMany p n s = (l, none) ↔ ∃ (as : List α) (cut : List β) (tail : List ε), as.length < n ∧ (∀ a ∈ as, ok a) ∧
      s = as.flatMap input ++ cut ∧ p cut = (tail, none) ∧ l = as.flatMap log ++ tail := by
  constructor
  · intro h
    induction n generalizing s l with
    | zero => cases h
    | succ n ih =>
      rcases bind_eq_none_iff.mp h with h | ⟨l₁, a, mid, l₂, h1, h2, rfl⟩
      · exact ⟨[], s, l, Nat.succ_pos n, fun a ha => absurd ha List.not_mem_nil, rfl, h, rfl⟩
      · obtain ⟨i, rfl, hi⟩ := hp.isLocal s l₁ a mid h1
        obtain ⟨hok, rfl, rfl⟩ := hp.reads_iff.mp hi
        rcases bind_eq_none_iff.mp h2 with h2 | ⟨_, _, _, _, -, h3, -⟩
        · obtain ⟨as, cut, tail, hlt, hoks, rfl, hcut, rfl⟩ := ih h2
          refine ⟨a :: as, cut, tail, Nat.succ_lt_succ hlt, List.forall_mem_cons.mpr ⟨hok, hoks⟩, ?_, hcut, ?_⟩
          · rw [List.flatMap_cons, List.append_assoc]
          · rw [List.flatMap_cons, List.append_assoc]
        · cases h3
  · rintro ⟨as, cut, tail, hlt, hoks, rfl, hcut, rfl⟩
    induction as generalizing n with
    | nil =>
      obtain ⟨n, rfl⟩ := Nat.exists_eq_succ_of_ne_zero (Nat.ne_of_gt hlt)
      exact bind_eq_none_iff.mpr (Or.inl hcut)
    | cons a as ih =>
      obtain ⟨n, rfl⟩ := Nat.exists_eq_succ_of_ne_zero (Nat.ne_of_gt (Nat.zero_lt_of_lt hlt))
      obtain ⟨hok, hoks⟩ := List.forall_mem_cons.mp hoks
      have htail := ih (Nat.lt_of_succ_lt_succ hlt) hoks
      rw [List.flatMap_cons, List.flatMap_cons, List.append_assoc, List.append_assoc]
      exact bind_eq_none_iff.mpr (Or.inr ⟨_, a, _, _, hp.reads hok _,
        bind_eq_none_iff.mpr (Or.inl htail), rfl⟩)

/-- **What a loop reads.**  The loop of a local reader splits its input into what
its reader reads, one after the other, up to where the reader stops; there is no
other way to split it. -/
theorem loop_eq_iff {p : Reader β ε α} (hp : Consumes p) (hl : Local p) {s : List β} {log : List ε}
    {vals : List α} {rest : List β} :
    loop p s = ⟨log, vals, rest⟩ ↔ ∃ frames : List (List β × List ε),
      List.Forall₂ (fun f a => Reads p f.1 f.2 a) frames vals ∧ s = frames.flatMap (·.1) ++ rest ∧
      ∃ tail, p rest = (tail, none) ∧ log = frames.flatMap (·.2) ++ tail := by
  constructor
  · -- by the length of the input, of which every turn leaves less
    intro h
    induction hn : s.length using Nat.strongRecOn generalizing s log vals with
    | ind n ih =>
      match hs : p s with
      | (tail, none) =>
        rw [loop_of_stops hs] at h
        obtain ⟨rfl, rfl, rfl⟩ := Run.mk.inj h
        exact ⟨[], List.Forall₂.nil, rfl, tail, hs, rfl⟩
      | (l, some (a, mid)) =>
        obtain ⟨i, rfl, hi⟩ := hl s l a mid hs
        have hlt : mid.length < n := hn ▸ hp _ l a mid hs
        rw [loop_cons hp hi] at h
        generalize hr : loop p mid = r at h
        obtain ⟨log', vals', rest'⟩ := r
        obtain ⟨rfl, rfl, rfl⟩ := Run.mk.inj h
        obtain ⟨frames, hframes, rfl, tail, htail, rfl⟩ := ih mid.length hlt hr rfl
        refine ⟨(i, l) :: frames, hframes.cons hi, ?_, tail, htail, ?_⟩
        · rw [List.flatMap_cons, List.append_assoc]
        · rw [List.flatMap_cons, List.append_assoc]
  · rintro ⟨frames, hframes, rfl, tail, htail, rfl⟩
    induction hframes with
    | nil => exact loop_of_stops htail
    | cons hi _ ih =>
      rw [List.flatMap_cons, List.append_assoc, loop_cons hp hi, ih, List.flatMap_cons, List.append_assoc]

/-! ## More input -/

end Reader
