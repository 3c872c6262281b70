import Mathlib

/-!
# Fencing tokens

Terms begin one after the other, and each gets its token some time later: a list of `Option`s, that
grows at its end by `none`, and in which `none` becomes the next token. The tokens are distinct
(`Distinct`). They increase with the terms (`Increasing`) as long as no term gets its token after a
later one (`Increasing.set_iff`).
-/

namespace Fencing

variable {α : Type*} {l : List (Option α)} {n : Nat} {e : α}

/-- No two terms have one token. -/
def Distinct (l : List (Option α)) : Prop := l.Pairwise fun a b => ∀ d ∈ a, ∀ e ∈ b, d ≠ e

theorem Distinct.append_none (h : Distinct l) : Distinct (l ++ [none]) := by
  refine List.pairwise_append.mpr ⟨h, List.pairwise_singleton .., fun a _ b hb d _ e he => ?_⟩
  rw [List.mem_singleton.mp hb] at he
  cases he

variable [Preorder α]

/-- A later term has a greater token. -/
def Increasing (l : List (Option α)) : Prop := l.Pairwise fun a b => ∀ d ∈ a, ∀ e ∈ b, d < e

/-- Each token given so far is below `e`. -/
def Below (l : List (Option α)) (e : α) : Prop := ∀ a ∈ l, ∀ d ∈ a, d < e

theorem Increasing.append_none (h : Increasing l) : Increasing (l ++ [none]) := by
  refine List.pairwise_append.mpr ⟨h, List.pairwise_singleton .., fun a _ b hb d _ e he => ?_⟩
  rw [List.mem_singleton.mp hb] at he
  cases he

theorem Below.append_none (h : Below l e) : Below (l ++ [none]) e := by
  intro a ha d hd
  rcases List.mem_append.mp ha with ha | ha
  · exact h a ha d hd
  · rw [List.mem_singleton.mp ha] at hd
    cases hd

theorem Below.set {f : α} (h : Below l e) (he : e < f) : Below (l.set n (some e)) f := by
  intro a ha d hd
  rcases List.mem_or_eq_of_mem_set ha with ha | rfl
  · exact (h a ha d hd).trans he
  · cases hd
    exact he

/-- A new token is not one that was given before. -/
theorem Distinct.set (h : Distinct l) (hb : Below l e) : Distinct (l.set n (some e)) := by
  rw [Distinct, List.pairwise_iff_getElem] at h ⊢
  intro i j hi hj hij d hd f hf
  rw [List.length_set] at hi hj
  rw [List.getElem_set] at hd hf
  split at hd
  · cases hd
    rw [if_neg (by omega)] at hf
    exact (hb _ (List.getElem_mem hj) f hf).ne'
  · split at hf
    · cases hf
      exact (hb _ (List.getElem_mem hi) d hd).ne
    · exact h i j hi hj hij d hd f hf

/-- The tokens stay increasing if and only if no later term has its token already. -/
theorem Increasing.set_iff (h : Increasing l) (hb : Below l e) :
    Increasing (l.set n (some e)) ↔ ∀ m a, n < m → l[m]? = some a → a = none := by
  constructor
  · intro hs m a hnm ha
    obtain ⟨hm, rfl⟩ := List.getElem?_eq_some_iff.mp ha
    rw [Increasing, List.pairwise_iff_getElem] at hs
    rw [Option.eq_none_iff_forall_not_mem]
    intro d hd
    have hlt := hs n m (by rw [List.length_set]; omega) (by rwa [List.length_set]) hnm e (by simp) d
      (by rwa [List.getElem_set_ne (by omega)])
    exact lt_asymm hlt (hb _ (List.getElem_mem hm) d hd)
  · intro hn
    rw [Increasing, List.pairwise_iff_getElem] at h ⊢
    intro i j hi hj hij d hd f hf
    rw [List.length_set] at hi hj
    rw [List.getElem_set] at hd hf
    split at hf
    · cases hf
      rw [if_neg (by omega)] at hd
      exact hb _ (List.getElem_mem hi) d hd
    · split at hd
      · rename_i hni
        rw [hn j _ (by omega) (List.getElem?_eq_getElem hj)] at hf
        cases hf
      · exact h i j hi hj hij d hd f hf

end Fencing
