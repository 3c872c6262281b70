import Mathlib

/-!
# Runs of a transition system

A system is a function `step : σ → α → Option σ`: `step s a` is the state after the action `a`,
and `none` where `a` is not possible in `s`. A run is a list of actions. The rules of this file
make a fact about every run from a fact about one step:

- **Invariants**: `run_inv`; under a condition on each step (`Along`), `run_inv_along`; under a
  condition on each state (`Always`), `run_inv_always`.
- **History variables** (`history`): `run_inv_history`.
- **Exactness** (`along_iff_always`): the steps of a run meet a condition if and only if its
  states meet another, when one step does.
- **Progress** (`exists_run_of_measure`): a run to a goal, by a measure that each step takes down.
- **Chains** (`Leads`): runs of the actions of one kind; to a goal by a measure
  (`Leads.of_measure`), and from one system to another (`Leads.lift`).
- **Projections** (`run_trace`): a run of one system is one of another.
- **Counts** (`count_le_one`): an event that uses up its own cause occurs at most once.
-/

namespace Lts

variable {σ α : Type*} (step : σ → α → Option σ)

/-- The state after the actions of a list, if all of them are possible. -/
def run : σ → List α → Option σ
  | s, [] => some s
  | s, a :: as => (step s a).bind fun s' => run s' as

/-- A state of a run from `s₀`. -/
def Reach (s₀ s : σ) : Prop := ∃ as, run step s₀ as = some s

/-- Each step of the run of a list of actions satisfies `P` (the part of the list that is
possible). -/
def Along (P : σ → α → σ → Prop) : σ → List α → Prop
  | _, [] => True
  | s, a :: as => ∀ s', step s a = some s' → P s a s' ∧ Along P s' as

/-- Each state of the run of a list of actions satisfies `Q`. -/
def Always (Q : σ → Prop) : σ → List α → Prop
  | s, [] => Q s
  | s, a :: as => Q s ∧ ∀ s', step s a = some s' → Always Q s' as

/-- The number of steps of the run of a list of actions that are `P`. -/
def count (P : σ → α → σ → Bool) : σ → List α → Nat
  | _, [] => 0
  | s, a :: as =>
    match step s a with
    | none => 0
    | some s' => (if P s a s' then 1 else 0) + count P s' as

/-- A history variable: the value after a run, where `f` gives the one after each step. -/
def history {β : Type*} (f : β → σ → α → σ → β) : β → σ → List α → β
  | b, _, [] => b
  | b, s, a :: as =>
    match step s a with
    | none => b
    | some s' => history f (f b s a s') s' as

/-- What each step of a run adds to a list. -/
def trace {β : Type*} (f : σ → α → σ → List β) : σ → List α → List β
  | _, [] => []
  | s, a :: as =>
    match step s a with
    | none => []
    | some s' => f s a s' ++ trace f s' as

instance decidableAlong {P : σ → α → σ → Prop} [∀ s a s', Decidable (P s a s')] :
    (s : σ) → (as : List α) → Decidable (Along step P s as)
  | _, [] => isTrue trivial
  | s, a :: as =>
    match h : step s a with
    | none => isTrue fun s' hs => by rw [h] at hs; cases hs
    | some t =>
      have : Decidable (Along step P t as) := decidableAlong t as
      decidable_of_iff (P s a t ∧ Along step P t as)
        ⟨fun hp s' hs => by rw [h] at hs; cases hs; exact hp, fun hp => hp t h⟩

instance decidableAlways {Q : σ → Prop} [DecidablePred Q] :
    (s : σ) → (as : List α) → Decidable (Always step Q s as)
  | s, [] => inferInstanceAs (Decidable (Q s))
  | s, a :: as =>
    match h : step s a with
    | none => decidable_of_iff (Q s)
        ⟨fun hq => ⟨hq, fun s' hs => by rw [h] at hs; cases hs⟩, fun hq => hq.1⟩
    | some t =>
      have : Decidable (Always step Q t as) := decidableAlways t as
      decidable_of_iff (Q s ∧ Always step Q t as)
        ⟨fun hq => ⟨hq.1, fun s' hs => by rw [h] at hs; cases hs; exact hq.2⟩,
          fun hq => ⟨hq.1, hq.2 t h⟩⟩

variable {step}

theorem run_cons {s s' : σ} {a : α} {as : List α} :
    run step s (a :: as) = some s' ↔ ∃ t, step s a = some t ∧ run step t as = some s' :=
  Option.bind_eq_some_iff

theorem run_append {s t : σ} {as bs : List α} (h : run step s as = some t) :
    run step s (as ++ bs) = run step t bs := by
  induction as generalizing s with
  | nil => cases h; rfl
  | cons a as ih =>
    obtain ⟨u, hu, hr⟩ := run_cons.mp h
    simp only [List.cons_append, run, hu, Option.bind_some]
    exact ih hr

/-- A run that is possible and ends where `p` holds, from its evaluation. -/
theorem exists_run {p : σ → Bool} {s : σ} {as : List α} (h : (run step s as).any p = true) :
    ∃ s', run step s as = some s' ∧ p s' = true := by
  obtain ⟨s', hr, hp⟩ := (Option.any_eq_true _ _).mp h
  exact ⟨s', hr, hp⟩

/-! ## Invariants -/

/-- An invariant that holds at the start holds at the end of a run. -/
theorem run_inv {I : σ → Prop} (hI : ∀ {s a s'}, I s → step s a = some s' → I s') {as : List α}
    {s s' : σ} (h : I s) (hr : run step s as = some s') : I s' := by
  induction as generalizing s with
  | nil => cases hr; exact h
  | cons a as ih =>
    obtain ⟨t, ht, hr⟩ := run_cons.mp hr
    exact ih (hI h ht) hr

theorem Reach.inv {I : σ → Prop} (hI : ∀ {s a s'}, I s → step s a = some s' → I s') {s₀ s : σ}
    (h : I s₀) (hr : Reach step s₀ s) : I s := by
  obtain ⟨as, hr⟩ := hr
  exact run_inv hI h hr

theorem Reach.trans {s₀ s s' : σ} {as : List α} (h : Reach step s₀ s)
    (hr : run step s as = some s') : Reach step s₀ s' := by
  obtain ⟨bs, hb⟩ := h
  exact ⟨bs ++ as, by rw [run_append hb, hr]⟩

theorem Reach.next {s₀ s s' : σ} {a : α} (h : Reach step s₀ s) (hs : step s a = some s') :
    Reach step s₀ s' := by
  have hr : run step s [a] = some s' := run_cons.mpr ⟨s', hs, rfl⟩
  exact h.trans hr

/-- An invariant of the steps that satisfy `P`. -/
theorem run_inv_along {I : σ → Prop} {P : σ → α → σ → Prop}
    (hI : ∀ {s a s'}, I s → P s a s' → step s a = some s' → I s') {as : List α} {s s' : σ}
    (h : I s) (hP : Along step P s as) (hr : run step s as = some s') : I s' := by
  induction as generalizing s with
  | nil => cases hr; exact h
  | cons a as ih =>
    obtain ⟨t, ht, hr⟩ := run_cons.mp hr
    obtain ⟨hp, hP⟩ := hP t ht
    exact ih (hI h hp ht) hP hr

/-- An invariant of the states and a history variable. -/
theorem run_inv_history {β : Type*} {f : β → σ → α → σ → β} {I : σ → β → Prop}
    (hI : ∀ {s a s' b}, I s b → step s a = some s' → I s' (f b s a s')) {as : List α} {s s' : σ}
    {b : β} (h : I s b) (hr : run step s as = some s') : I s' (history step f b s as) := by
  induction as generalizing s b with
  | nil => cases hr; exact h
  | cons a as ih =>
    obtain ⟨t, ht, hr⟩ := run_cons.mp hr
    simp only [history, ht]
    exact ih (hI h ht) hr

/-- What each action of a run leaves as it is. -/
theorem run_frame {β : Type*} {f : σ → β} {p : α → Prop}
    (hf : ∀ {s a s'}, p a → step s a = some s' → f s' = f s) {as : List α} {s s' : σ}
    (hp : ∀ a ∈ as, p a) (hr : run step s as = some s') : f s' = f s := by
  induction as generalizing s with
  | nil => cases hr; rfl
  | cons a as ih =>
    obtain ⟨t, ht, hr⟩ := run_cons.mp hr
    rw [ih (fun b hb => hp b (List.mem_cons_of_mem a hb)) hr, hf (hp a List.mem_cons_self) ht]

/-- A weaker condition on the steps. -/
theorem Along.mono {P P' : σ → α → σ → Prop} (hP : ∀ {s a s'}, P s a s' → P' s a s')
    {as : List α} {s : σ} (h : Along step P s as) : Along step P' s as := by
  induction as generalizing s with
  | nil => trivial
  | cons a as ih => exact fun t ht => ⟨hP (h t ht).1, ih (h t ht).2⟩

theorem Along.and {P P' : σ → α → σ → Prop} {as : List α} {s : σ} (h : Along step P s as)
    (h' : Along step P' s as) : Along step (fun s a s' => P s a s' ∧ P' s a s') s as := by
  induction as generalizing s with
  | nil => trivial
  | cons a as ih =>
    exact fun t ht => ⟨⟨(h t ht).1, (h' t ht).1⟩, ih (h t ht).2 (h' t ht).2⟩

theorem Along.append {P : σ → α → σ → Prop} {as bs : List α} {s t : σ} (h : Along step P s as)
    (hr : run step s as = some t) (h' : Along step P t bs) : Along step P s (as ++ bs) := by
  induction as generalizing s with
  | nil =>
    cases hr
    exact h'
  | cons a as ih =>
    obtain ⟨u, hu, hr⟩ := run_cons.mp hr
    intro u' hu'
    rw [hu] at hu'
    cases hu'
    exact ⟨(h u hu).1, ih (h u hu).2 hr⟩

/-- Along a run, what each of its actions leaves as it is. -/
theorem along_frame {β : Type*} {f : σ → β} {p : α → Prop}
    (hf : ∀ {s a s'}, p a → step s a = some s' → f s' = f s) {as : List α} {s : σ} {b : β}
    (hb : f s = b) (hp : ∀ a ∈ as, p a) : Along step (fun s _ _ => f s = b) s as := by
  induction as generalizing s with
  | nil => trivial
  | cons a as ih =>
    intro t ht
    refine ⟨hb, ih ?_ fun a' ha' => hp a' (List.mem_cons_of_mem a ha')⟩
    rw [hf (hp a List.mem_cons_self) ht, hb]

/-- An invariant of the steps that satisfy `P` holds of each state. -/
theorem always_of_along {I Q : σ → Prop} {P : σ → α → σ → Prop}
    (hI : ∀ {s a s'}, I s → P s a s' → step s a = some s' → I s') (hQ : ∀ {s}, I s → Q s)
    {as : List α} {s : σ} (h : I s) (hP : Along step P s as) : Always step Q s as := by
  induction as generalizing s with
  | nil => exact hQ h
  | cons a as ih =>
    refine ⟨hQ h, fun t ht => ?_⟩
    obtain ⟨hp, hP⟩ := hP t ht
    exact ih (hI h hp ht) hP

theorem Always.head {Q : σ → Prop} {s : σ} {as : List α} (h : Always step Q s as) : Q s := by
  cases as with
  | nil => exact h
  | cons a as => exact h.1

theorem Always.last {Q : σ → Prop} {as : List α} {s s' : σ} (h : Always step Q s as)
    (hr : run step s as = some s') : Q s' := by
  induction as generalizing s with
  | nil => cases hr; exact h
  | cons a as ih =>
    obtain ⟨t, ht, hr⟩ := run_cons.mp hr
    exact ih (h.2 t ht) hr

/-- An invariant of the steps between two states that satisfy `Q`. -/
theorem run_inv_always {I Q : σ → Prop}
    (hI : ∀ {s a s'}, I s → Q s → Q s' → step s a = some s' → I s') {as : List α} {s s' : σ}
    (h : I s) (hQ : Always step Q s as) (hr : run step s as = some s') : I s' := by
  induction as generalizing s with
  | nil => cases hr; exact h
  | cons a as ih =>
    obtain ⟨t, ht, hr⟩ := run_cons.mp hr
    exact ih (hI h hQ.1 (hQ.2 t ht).head ht) (hQ.2 t ht) hr

/-- A condition that each step from a state of `I` meets, where the steps satisfy `P`. -/
theorem Along.of_inv {I : σ → Prop} {P Q : σ → α → σ → Prop}
    (hI : ∀ {s a s'}, I s → P s a s' → step s a = some s' → I s')
    (hQ : ∀ {s a s'}, I s → P s a s' → step s a = some s' → Q s a s') {as : List α} {s : σ}
    (h : I s) (hP : Along step P s as) : Along step Q s as := by
  induction as generalizing s with
  | nil => trivial
  | cons a as ih =>
    intro t ht
    obtain ⟨hp, hP⟩ := hP t ht
    exact ⟨hQ h hp ht, ih (hI h hp ht) hP⟩

theorem along_of_mem {p : α → Prop} {as : List α} {s : σ} (h : ∀ a ∈ as, p a) :
    Along step (fun _ a _ => p a) s as := by
  induction as generalizing s with
  | nil => trivial
  | cons a as ih =>
    exact fun t ht => ⟨h a List.mem_cons_self, ih fun b hb => h b (List.mem_cons_of_mem a hb)⟩

/-- A condition on the steps of a run that cannot end in `B`, where a step that does not meet it
leads to `B`. -/
theorem along_of_not_run {I B : σ → Prop} {P Q : σ → α → σ → Prop}
    (hI : ∀ {s a s'}, I s → P s a s' → step s a = some s' → I s')
    (hB : ∀ {s a s'}, B s → P s a s' → step s a = some s' → B s')
    (hQ : ∀ {s a s'}, I s → P s a s' → step s a = some s' → ¬ Q s a s' → B s') {as : List α}
    {s s' : σ} (h : I s) (hP : Along step P s as) (hr : run step s as = some s') (hn : ¬ B s') :
    Along step Q s as := by
  induction as generalizing s with
  | nil => trivial
  | cons a as ih =>
    intro t ht
    obtain ⟨t', ht', hr⟩ := run_cons.mp hr
    rw [ht] at ht'
    cases ht'
    obtain ⟨hp, hP⟩ := hP t ht
    refine ⟨?_, ih (hI h hp ht) hP hr⟩
    by_contra hq
    exact hn (run_inv_along (I := B) (P := P) hB (hQ h hp ht hq) hP hr)

variable (step) in
/-- Where each step takes a measure down until `G` holds, there is a run to `G`. -/
theorem exists_run_of_measure {I G : σ → Prop} {p : α → Prop} (μ : σ → Nat)
    (h : ∀ {s}, I s → G s ∨ ∃ a s', p a ∧ step s a = some s' ∧ I s' ∧ μ s' < μ s) {s : σ}
    (hs : I s) : ∃ as s', (∀ a ∈ as, p a) ∧ run step s as = some s' ∧ I s' ∧ G s' := by
  induction hμ : μ s using Nat.strong_induction_on generalizing s with
  | _ m ih =>
    obtain hg | ⟨a, t, ha, hst, ht, hlt⟩ := h hs
    · exact ⟨[], s, by simp, rfl, hs, hg⟩
    · obtain ⟨as, s', has, hr, hs', hg⟩ := ih _ (hμ ▸ hlt) ht rfl
      refine ⟨a :: as, s', ?_, run_cons.mpr ⟨t, hst, hr⟩, hs', hg⟩
      exact List.forall_mem_cons.mpr ⟨ha, has⟩

/-! ## Chains of steps -/

variable (step) in
/-- The steps of the actions that satisfy `p`, one after the other. -/
def Leads (p : α → Prop) : σ → σ → Prop :=
  Relation.ReflTransGen fun s s' => ∃ a, p a ∧ step s a = some s'

theorem Leads.head {p : α → Prop} {s s' s'' : σ} {a : α} (ha : p a) (hs : step s a = some s')
    (h : Leads step p s' s'') : Leads step p s s'' :=
  Relation.ReflTransGen.head ⟨a, ha, hs⟩ h

/-- A chain of steps is a run. -/
theorem Leads.exists_run {p : α → Prop} {s s' : σ} (h : Leads step p s s') :
    ∃ as, (∀ a ∈ as, p a) ∧ run step s as = some s' := by
  induction h using Relation.ReflTransGen.head_induction_on with
  | refl => exact ⟨[], by simp, rfl⟩
  | head h _ ih =>
    obtain ⟨a, ha, hst⟩ := h
    obtain ⟨as, has, hr⟩ := ih
    exact ⟨a :: as, List.forall_mem_cons.mpr ⟨ha, has⟩, run_cons.mpr ⟨_, hst, hr⟩⟩

theorem Leads.of_run {p : α → Prop} {as : List α} {s s' : σ} (has : ∀ a ∈ as, p a)
    (hr : run step s as = some s') : Leads step p s s' := by
  induction as generalizing s with
  | nil =>
    cases hr
    exact .refl
  | cons a as ih =>
    obtain ⟨t, ht, hr⟩ := run_cons.mp hr
    obtain ⟨ha, has⟩ := List.forall_mem_cons.mp has
    exact .head ha ht (ih has hr)

/-- Where a chain takes a measure down until `G` holds, there is a chain to `G`. -/
theorem Leads.of_measure {p : α → Prop} {I G : σ → Prop} (μ : σ → Nat)
    (h : ∀ {s}, I s → G s ∨ ∃ s', Leads step p s s' ∧ I s' ∧ μ s' < μ s) {s : σ} (hs : I s) :
    ∃ s', Leads step p s s' ∧ I s' ∧ G s' := by
  induction hμ : μ s using Nat.strong_induction_on generalizing s with
  | _ m ih =>
    obtain hg | ⟨t, hst, ht, hlt⟩ := h hs
    · exact ⟨s, .refl, hs, hg⟩
    · obtain ⟨s', hts, hs', hg⟩ := ih _ (hμ ▸ hlt) ht rfl
      exact ⟨s', Relation.ReflTransGen.trans hst hts, hs', hg⟩

/-- A chain of one system is one of another, where the states and the steps correspond. -/
theorem Leads.lift {σ' β : Type*} {step' : σ' → β → Option σ'} {p : α → Prop} {q : β → Prop}
    {R : σ' → σ → Prop}
    (hR : ∀ {s a t s'}, R s' s → p a → step s a = some t →
      ∃ b t', q b ∧ step' s' b = some t' ∧ R t' t) {s t : σ} {s' : σ'} (h : Leads step p s t)
    (hs : R s' s) : ∃ t', Leads step' q s' t' ∧ R t' t := by
  induction h with
  | refl => exact ⟨s', .refl, hs⟩
  | tail _ hst ih =>
    obtain ⟨a, ha, hst⟩ := hst
    obtain ⟨u, hu, hRu⟩ := ih
    obtain ⟨b, t', hb, hst', hRt⟩ := hR hRu ha hst
    exact ⟨t', Relation.ReflTransGen.tail hu ⟨b, hb, hst'⟩, hRt⟩

/-! ## Projections -/

/-- A run, as another system sees it: where each step is a run of that system, so is the whole. -/
theorem run_trace {σ' β : Type*} {step' : σ' → β → Option σ'} {g : σ → σ'}
    {f : σ → α → σ → List β} {I : σ → Prop} {p : α → Prop}
    (hI : ∀ {s a s'}, I s → p a → step s a = some s' →
      I s' ∧ run step' (g s) (f s a s') = some (g s')) {as : List α} {s s' : σ} (h : I s)
    (hp : ∀ a ∈ as, p a) (hr : run step s as = some s') :
    run step' (g s) (trace step f s as) = some (g s') := by
  induction as generalizing s with
  | nil =>
    cases hr
    rfl
  | cons a as ih =>
    obtain ⟨t, ht, hr⟩ := run_cons.mp hr
    obtain ⟨hIt, hstep⟩ := hI h (hp a List.mem_cons_self) ht
    simp only [trace, ht]
    rw [run_append hstep]
    exact ih hIt (fun b hb => hp b (List.mem_cons_of_mem a hb)) hr

/-! ## Exactness -/

/-- Two conditions that agree on each step from a state of `I` agree on each run. -/
theorem along_congr {I : σ → Prop} {P P' : σ → α → σ → Prop}
    (hI : ∀ {s a s'}, I s → step s a = some s' → I s')
    (hP : ∀ {s a s'}, I s → step s a = some s' → (P s a s' ↔ P' s a s')) {as : List α} {s : σ}
    (h : I s) : Along step P s as ↔ Along step P' s as := by
  induction as generalizing s with
  | nil => exact Iff.rfl
  | cons a as ih =>
    refine forall_congr' fun t => forall_congr' fun ht => ?_
    rw [hP h ht, ih (hI h ht)]

/-- If a step keeps `Q` exactly where it meets `P`, a run stays in `Q` exactly where all its steps
meet `P`. -/
theorem along_iff_always {I Q : σ → Prop} {P : σ → α → σ → Prop}
    (hI : ∀ {s a s'}, I s → step s a = some s' → I s')
    (hP : ∀ {s a s'}, I s → Q s → step s a = some s' → (P s a s' ↔ Q s')) {as : List α} {s : σ}
    (h : I s) (hq : Q s) : Along step P s as ↔ Always step Q s as := by
  induction as generalizing s with
  | nil => exact iff_of_true trivial hq
  | cons a as ih =>
    constructor
    · intro hA
      refine ⟨hq, fun t ht => ?_⟩
      have hqt := (hP h hq ht).mp (hA t ht).1
      exact (ih (hI h ht) hqt).mp (hA t ht).2
    · intro hQ t ht
      have hqt := (hQ.2 t ht).head
      exact ⟨(hP h hq ht).mpr hqt, (ih (hI h ht) hqt).mpr (hQ.2 t ht)⟩

/-! ## Counts -/

/-- No event after the point `U`, where none is possible any more. -/
theorem count_eq_zero {I U : σ → Prop} {P : σ → α → σ → Bool}
    (hI : ∀ {s a s'}, I s → step s a = some s' → I s')
    (hU : ∀ {s a s'}, I s → U s → step s a = some s' → U s' ∧ P s a s' = false) {as : List α}
    {s : σ} (h : I s) (hu : U s) : count step P s as = 0 := by
  induction as generalizing s with
  | nil => rfl
  | cons a as ih =>
    unfold count
    cases ht : step s a with
    | none => rfl
    | some t =>
      obtain ⟨hut, hp⟩ := hU h hu ht
      simp [hp, ih (hI h ht) hut]

/-- An event after which no second one is possible (`U`) occurs at most once in a run. -/
theorem count_le_one {I U : σ → Prop} {P : σ → α → σ → Bool}
    (hI : ∀ {s a s'}, I s → step s a = some s' → I s')
    (hU : ∀ {s a s'}, I s → U s → step s a = some s' → U s' ∧ P s a s' = false)
    (hP : ∀ {s a s'}, I s → step s a = some s' → P s a s' = true → U s') {as : List α} {s : σ}
    (h : I s) : count step P s as ≤ 1 := by
  induction as generalizing s with
  | nil => exact Nat.zero_le _
  | cons a as ih =>
    unfold count
    cases ht : step s a with
    | none => exact Nat.zero_le _
    | some t =>
      cases hp : P s a t with
      | false => simpa [hp] using ih (hI h ht)
      | true => simp [hp, count_eq_zero hI hU (hI h ht) (hP h ht hp)]

end Lts
