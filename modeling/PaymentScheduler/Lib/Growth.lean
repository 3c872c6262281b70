import PaymentScheduler.Lib.Lts

/-!
# What only grows

A preorder that every step respects holds between any two states of a run (`run_rel`): nothing is
asked of the first one. Rows that are kept, each in a relation to what it was, with new ones behind
them, are such a preorder (`Grown`).
-/

/-- `as` are kept, in order, each up to `R`, and new ones come behind. -/
def Grown {α : Type*} (R : α → α → Prop) (as bs : List α) : Prop :=
  ∃ kept new, bs = kept ++ new ∧ List.Forall₂ R as kept

theorem List.Forall₂.comp {α : Type*} {R : α → α → Prop} {as bs cs : List α}
    (h : Forall₂ R as bs) (hR : ∀ {a b c}, R a b → R b c → R a c) (h' : Forall₂ R bs cs) :
    Forall₂ R as cs := by
  induction h generalizing cs with
  | nil => exact h'
  | cons hab _ ih =>
    cases h' with
    | cons hbc h' => exact .cons (hR hab hbc) (ih h')

namespace Grown

variable {α : Type*} {R : α → α → Prop} {as bs cs : List α}

theorem refl (hR : ∀ a, R a a) (as : List α) : Grown R as as :=
  ⟨as, [], (List.append_nil as).symm, List.forall₂_same.mpr fun a _ => hR a⟩

theorem trans (hR : ∀ {a b c}, R a b → R b c → R a c) (h : Grown R as bs) (h' : Grown R bs cs) :
    Grown R as cs := by
  obtain ⟨kept, new, rfl, hk⟩ := h
  obtain ⟨kept', new', rfl, hk'⟩ := h'
  -- What was new in the middle is behind what was there at the start.
  have htake := List.forall₂_take kept.length hk'
  rw [List.take_left] at htake
  refine ⟨kept'.take kept.length, kept'.drop kept.length ++ new', ?_, hk.comp hR htake⟩
  rw [← List.append_assoc, List.take_append_drop]

theorem exists_mem (h : Grown R as bs) {a : α} (ha : a ∈ as) : ∃ b ∈ bs, R a b := by
  obtain ⟨kept, new, rfl, hk⟩ := h
  induction hk with
  | nil => cases ha
  | @cons a₀ b₀ as kept hab _ ih =>
    obtain rfl | ha := List.mem_cons.mp ha
    · exact ⟨b₀, List.mem_cons_self, hab⟩
    · obtain ⟨b, hb, hR⟩ := ih ha
      exact ⟨b, List.mem_cons_of_mem _ hb, hR⟩

/-- The rows of a table that an update has gone over, before an insertion. -/
theorem of_map {f : α → α} (hf : ∀ a ∈ as, R a (f a)) (new : List α) :
    Grown R as (as.map f ++ new) :=
  ⟨as.map f, new, rfl, by
    rw [List.forall₂_map_right_iff]
    exact List.forall₂_same.mpr hf⟩

end Grown

namespace Lts

variable {σ α : Type*} {step : σ → α → Option σ} {R : σ → σ → Prop}

/-- The first and the last state of a run are in every preorder of the steps. -/
theorem run_rel (hrefl : ∀ s, R s s) (htrans : ∀ {s t u}, R s t → R t u → R s u)
    (hstep : ∀ {s a t}, step s a = some t → R s t) {as : List α} {s t : σ}
    (h : run step s as = some t) : R s t := by
  induction as generalizing s with
  | nil =>
    cases h
    exact hrefl _
  | cons a as ih =>
    obtain ⟨u, hu, h⟩ := run_cons.mp h
    exact htrans (hstep hu) (ih h)

end Lts
