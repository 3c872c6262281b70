import Mathlib

/-!
# Tables of a relational database

A table is the list of its rows; `key` gives the primary key of a row. An `UPDATE` keeps the keys
and the number of the rows, and an `INSERT` adds a row at the end, so every fact about a table is
a fact about its lookups (`get?`): `get?_updateWhere` and `get?_append_single`.

`select` is `SELECT … WHERE … ORDER BY … LIMIT`: the rows of equal sort keys come in any order, so
the order of the rows is an argument (`order`), which `select` checks. A `LIMIT` that leaves out a
row leaves out all later ones (`select_le`).
-/

namespace Table

variable {ρ ι κ : Type*} [DecidableEq ι] (key : ρ → ι)

/-- The row with key `i`. -/
def get? (t : List ρ) (i : ι) : Option ρ := t.find? fun r => decide (key r = i)

/-- `UPDATE … SET f WHERE p`. -/
def updateWhere (p : ρ → Bool) (f : ρ → ρ) (t : List ρ) : List ρ :=
  t.map fun r => if p r then f r else r

/-- The keys of the rows differ (a primary key, or a unique constraint). -/
def Unique (t : List ρ) : Prop := (t.map key).Nodup

instance (t : List ρ) : Decidable (Unique key t) := inferInstanceAs (Decidable (t.map key).Nodup)

/-- `SELECT … WHERE p ORDER BY k LIMIT n`, for the keys of the selected rows in the order
`order`. -/
def select [LinearOrder κ] (p : ρ → Bool) (k : ρ → κ) (n : Nat) (order : List ι) (t : List ρ) :
    Option (List ρ) :=
  let rows := order.filterMap (get? key t)
  if order.Perm ((t.filter p).map key) ∧ rows.Pairwise (fun a b => k a ≤ k b) then
    some (rows.take n)
  else none

variable {key} {t : List ρ} {r : ρ} {i : ι}

/-! ## Lookups -/

theorem get?_mem (h : get? key t i = some r) : r ∈ t := List.mem_of_find?_eq_some h

theorem get?_key (h : get? key t i = some r) : key r = i := by
  simpa using List.find?_some h

theorem get?_none : get? key t i = none ↔ ∀ r ∈ t, key r ≠ i := by
  simp [get?]

variable (key) in
theorem exists_get? (h : r ∈ t) : ∃ r', get? key t (key r) = some r' := by
  rw [← Option.ne_none_iff_exists']
  exact fun hn => get?_none.mp hn r h rfl

/-- With a unique key, a row of the table is the one that its key finds. -/
theorem get?_of_mem (hu : Unique key t) (h : r ∈ t) : get? key t (key r) = some r := by
  obtain ⟨r', hr'⟩ := exists_get? key h
  rw [hr', List.inj_on_of_nodup_map hu (get?_mem hr') h (get?_key hr')]

theorem mem_iff_get? (hu : Unique key t) : r ∈ t ↔ get? key t (key r) = some r :=
  ⟨get?_of_mem hu, get?_mem⟩

/-! ## Updates -/

theorem mem_updateWhere {p : ρ → Bool} {f : ρ → ρ} :
    r ∈ updateWhere p f t ↔ ∃ r₀ ∈ t, r = if p r₀ then f r₀ else r₀ := by
  simp only [updateWhere, List.mem_map, eq_comm]

theorem map_updateWhere {β : Type*} {g : ρ → β} {p : ρ → Bool} {f : ρ → ρ}
    (hf : ∀ r, g (f r) = g r) : (updateWhere p f t).map g = t.map g := by
  unfold updateWhere
  rw [List.map_map]
  refine List.map_congr_left fun r _ => ?_
  by_cases hp : p r <;> simp [hp, hf]

/-- An update, seen through a map of the rows. -/
theorem map_updateWhere_comm {σ : Type*} {g : ρ → σ} {p : ρ → Bool} {f : ρ → ρ} {q : σ → Bool}
    {f' : σ → σ} (hp : ∀ r, q (g r) = p r) (hf : ∀ r, g (f r) = f' (g r)) :
    (updateWhere p f t).map g = updateWhere q f' (t.map g) := by
  unfold updateWhere
  rw [List.map_map, List.map_map]
  refine List.map_congr_left fun r _ => ?_
  simp only [Function.comp_apply, hp]
  split
  · exact hf r
  · rfl

/-- An update of no row. -/
theorem updateWhere_of_forall {p : ρ → Bool} {f : ρ → ρ} (h : ∀ r ∈ t, p r = false) :
    updateWhere p f t = t := by
  unfold updateWhere
  conv_rhs => rw [← List.map_id t]
  refine List.map_congr_left fun r hr => ?_
  simp [h r hr]

/-- Two updates of the same rows. -/
theorem updateWhere_updateWhere {p : ρ → Bool} {f f' : ρ → ρ} (hf : ∀ r, p (f r) = p r) :
    updateWhere p f' (updateWhere p f t) = updateWhere p (fun r => f' (f r)) t := by
  unfold updateWhere
  rw [List.map_map]
  refine List.map_congr_left fun r _ => ?_
  by_cases hp : p r <;> simp [hp, hf]

/-- An update of rows that do not satisfy `q`, neither before nor after it. -/
theorem filter_updateWhere {p q : ρ → Bool} {f : ρ → ρ}
    (h : ∀ r, p r = true → q r = false ∧ q (f r) = false) :
    (updateWhere p f t).filter q = t.filter q := by
  unfold updateWhere
  induction t with
  | nil => rfl
  | cons r t ih =>
    rw [List.map_cons]
    by_cases hp : p r = true
    · rw [if_pos hp, List.filter_cons_of_neg (by simp [(h r hp).2]),
        List.filter_cons_of_neg (by simp [(h r hp).1]), ih]
    · rw [if_neg hp, List.filter_cons, List.filter_cons, ih]

/-- An update, on a part of the table. -/
theorem filter_updateWhere_comm {p q : ρ → Bool} {f : ρ → ρ} (hf : ∀ r, q (f r) = q r) :
    (updateWhere p f t).filter q = updateWhere p f (t.filter q) := by
  unfold updateWhere
  rw [List.filter_map]
  congr 2
  funext r
  simp only [Function.comp_apply]
  split
  · exact hf r
  · rfl

/-- A lookup, seen through a map that keeps the keys. -/
theorem get?_map {g : ρ → ρ} (hg : ∀ r, key (g r) = key r) :
    get? key (t.map g) i = (get? key t i).map g := by
  unfold get?
  rw [List.find?_map]
  congr 2
  funext r
  simp [hg]

/-- An update that keeps the keys changes the rows that a lookup finds. -/
theorem get?_updateWhere {p : ρ → Bool} {f : ρ → ρ} (hf : ∀ r, key (f r) = key r) :
    get? key (updateWhere p f t) i = (get? key t i).map fun r => if p r then f r else r := by
  unfold get? updateWhere
  rw [List.find?_map]
  congr 2
  funext r
  by_cases hp : p r <;> simp [hp, hf]

/-- An update of the row with key `i`. -/
theorem get?_updateKey {i' : ι} {f : ρ → ρ} (hf : ∀ r, key (f r) = key r) :
    get? key (updateWhere (fun r => key r = i') f t) i =
      if i = i' then (get? key t i).map f else get? key t i := by
  rw [get?_updateWhere hf]
  cases hr : get? key t i with
  | none => simp
  | some r =>
    have hk : key r = i := get?_key hr
    subst hk
    by_cases hi : key r = i' <;> simp [hi]

/-- An update of one row, which takes it out of the selected ones. -/
theorem length_filter_updateKey {q : ρ → Bool} {f : ρ → ρ} (hu : Unique key t)
    (hr : get? key t i = some r) (hq : q r = true) (hf : q (f r) = false) :
    ((updateWhere (fun r => key r = i) f t).filter q).length + 1 = (t.filter q).length := by
  induction t with
  | nil => cases hr
  | cons a t ih =>
    obtain ⟨ha, hu⟩ := List.nodup_cons.mp hu
    by_cases hk : key a = i
    · have hra : a = r := by simpa [get?, List.find?_cons, hk] using hr
      -- No later row has the key.
      have hrest : updateWhere (fun r => key r = i) f t = t := by
        refine updateWhere_of_forall fun b hb => decide_eq_false fun hbi => ha ?_
        rw [hk, ← hbi]
        exact List.mem_map_of_mem hb
      have hcons : updateWhere (fun r => key r = i) f (a :: t) = f a :: t := by
        conv_rhs => rw [← hrest]
        simp [updateWhere, hk]
      subst hra
      rw [hcons, List.filter_cons_of_neg (by simp [hf]), List.filter_cons_of_pos hq,
        List.length_cons]
    · have hr' : get? key t i = some r := by simpa [get?, List.find?_cons, hk] using hr
      have hcons : updateWhere (fun r => key r = i) f (a :: t) =
          a :: updateWhere (fun r => key r = i) f t := by simp [updateWhere, hk]
      rw [hcons, List.filter_cons, List.filter_cons]
      split
      · rw [List.length_cons, List.length_cons, ih hu hr']
      · exact ih hu hr'

/-- An update of one row leaves the rows before it and behind it as they are. -/
theorem exists_updateKey (hu : Unique key t) (hr : get? key t i = some r) :
    ∃ l₁ l₂, t = l₁ ++ r :: l₂ ∧
      ∀ f : ρ → ρ, updateWhere (fun r => key r = i) f t = l₁ ++ f r :: l₂ := by
  obtain ⟨l₁, l₂, rfl⟩ := List.append_of_mem (get?_mem hr)
  have hk := get?_key hr
  have hother : ∀ a ∈ l₁ ++ l₂, decide (key a = i) = false := by
    intro a ha
    refine decide_eq_false fun hai => ?_
    unfold Unique at hu
    rw [List.map_append, List.map_cons, List.nodup_middle, List.nodup_cons, ← List.map_append] at hu
    exact hu.1 (List.mem_map.mpr ⟨a, ha, by rw [hai, hk]⟩)
  have h₁ := fun f : ρ → ρ => updateWhere_of_forall (f := f)
    fun a (ha : a ∈ l₁) => hother a (List.mem_append_left _ ha)
  have h₂ := fun f : ρ → ρ => updateWhere_of_forall (f := f)
    fun a (ha : a ∈ l₂) => hother a (List.mem_append_right _ ha)
  refine ⟨l₁, l₂, rfl, fun f => ?_⟩
  conv_rhs => rw [← h₁ f, ← h₂ f]
  simp [updateWhere, hk]

/-- A sum over the rows after an update of one row. -/
theorem sum_updateKey (w : ρ → Nat) (f : ρ → ρ) (hu : Unique key t)
    (hr : get? key t i = some r) :
    ((updateWhere (fun r => key r = i) f t).map w).sum + w r = (t.map w).sum + w (f r) := by
  obtain ⟨l₁, l₂, rfl, hf⟩ := exists_updateKey hu hr
  rw [hf]
  simp only [List.map_append, List.map_cons, List.sum_append, List.sum_cons]
  omega

omit [DecidableEq ι] in
theorem Unique.updateWhere {p : ρ → Bool} {f : ρ → ρ} (hu : Unique key t)
    (hf : ∀ r, key (f r) = key r) : Unique key (updateWhere p f t) := by
  unfold Unique
  rwa [map_updateWhere hf]

/-! ## Insertions -/

theorem get?_append {u : List ρ} : get? key (t ++ u) i = (get? key t i).or (get? key u i) :=
  List.find?_append

theorem get?_append_single :
    get? key (t ++ [r]) i = (get? key t i).or (if key r = i then some r else none) := by
  rw [get?_append]
  congr 1
  by_cases h : key r = i <;> simp [get?, h]

/-- An insertion keeps the rows that were there. -/
theorem get?_append_of_some {u : List ρ} (h : get? key t i = some r) :
    get? key (t ++ u) i = some r := by rw [get?_append, h]; rfl

/-- An insertion, on a part of the table. -/
theorem filter_append_pos {q : ρ → Bool} (h : q r = true) :
    (t ++ [r]).filter q = t.filter q ++ [r] := by
  rw [List.filter_append, List.filter_singleton, h]
  rfl

theorem filter_append_neg {q : ρ → Bool} (h : ¬ q r = true) :
    (t ++ [r]).filter q = t.filter q := by
  rw [List.filter_append, List.filter_singleton, Bool.eq_false_iff.mpr h]
  exact List.append_nil _

/-- A lookup in a part of the table. -/
theorem get?_filter_of_none {q : ρ → Bool} (h : get? key t i = none) :
    get? key (t.filter q) i = none :=
  get?_none.mpr fun r hr => get?_none.mp h r (List.mem_filter.mp hr).1

theorem get?_filter_of_some {q : ρ → Bool} (h : get? key t i = some r) (hq : q r = true) :
    get? key (t.filter q) i = some r := by
  induction t with
  | nil => cases h
  | cons x t ih =>
    unfold get? at h ih ⊢
    rw [List.find?_cons] at h
    by_cases hx : key x = i
    · simp only [hx, decide_true, Option.some.injEq] at h
      rw [h, List.filter_cons_of_pos hq, List.find?_cons_of_pos (by rw [← h]; simpa using hx)]
    · rw [decide_eq_false hx] at h
      rw [List.filter_cons]
      split
      · rw [List.find?_cons_of_neg (by simpa using hx)]
        exact ih h
      · exact ih h

theorem Unique.append_single (hu : Unique key t) (hr : get? key t (key r) = none) :
    Unique key (t ++ [r]) := by
  unfold Unique at *
  rw [List.map_append, List.map_singleton, List.nodup_append]
  refine ⟨hu, List.nodup_singleton _, fun x hx y hy => ?_⟩
  obtain ⟨r₀, hr₀, rfl⟩ := List.mem_map.mp hx
  rw [List.mem_singleton.mp hy]
  exact get?_none.mp hr r₀ hr₀

/-! ## Selections -/

theorem mem_select [LinearOrder κ] {p : ρ → Bool} {k : ρ → κ} {n : Nat} {order : List ι}
    {rows : List ρ} (hu : Unique key t) (h : select key p k n order t = some rows)
    (hr : r ∈ rows) : r ∈ t ∧ p r = true := by
  unfold select at h
  dsimp only at h
  split at h
  · rename_i hc
    cases h
    obtain ⟨i, hi, hg⟩ := List.mem_filterMap.mp (List.mem_of_mem_take hr)
    obtain ⟨r', hr', hk⟩ := List.mem_map.mp (hc.1.mem_iff.mp hi)
    obtain ⟨hr', hp⟩ := List.mem_filter.mp hr'
    rw [← hk, get?_of_mem hu hr'] at hg
    cases hg
    exact ⟨hr', hp⟩
  · cases h

theorem sublist_rows (order : List ι) :
    ((order.filterMap (get? key t)).map key).Sublist order := by
  induction order with
  | nil => exact .slnil
  | cons i is ih =>
    cases hr : get? key t i with
    | none =>
      rw [List.filterMap_cons_none hr]
      exact ih.cons i
    | some r =>
      rw [List.filterMap_cons_some hr, List.map_cons, get?_key hr]
      exact ih.cons_cons i

/-- The selected rows differ. -/
theorem nodup_select [LinearOrder κ] {p : ρ → Bool} {k : ρ → κ} {n : Nat} {order : List ι}
    {rows : List ρ} (hu : Unique key t) (h : select key p k n order t = some rows) :
    (rows.map key).Nodup := by
  unfold select at h
  dsimp only at h
  split at h
  · rename_i hc
    cases h
    have horder : order.Nodup := hc.1.nodup_iff.mpr (hu.sublist (List.filter_sublist.map key))
    exact (horder.sublist (sublist_rows order)).sublist ((List.take_sublist _ _).map key)
  · cases h

/-- The rows that `select` takes the first `n` of: those that satisfy `p`, sorted. -/
theorem select_take [LinearOrder κ] {p : ρ → Bool} {k : ρ → κ} {n : Nat} {order : List ι}
    {rows : List ρ} (hu : Unique key t) (h : select key p k n order t = some rows) :
    ∃ all : List ρ, rows = all.take n ∧ all.Pairwise (fun a b => k a ≤ k b) ∧
      ∀ r, r ∈ all ↔ r ∈ t ∧ p r = true := by
  unfold select at h
  dsimp only at h
  split at h
  · rename_i hc
    cases h
    refine ⟨_, rfl, hc.2, fun r => ?_⟩
    rw [List.mem_filterMap, ← List.mem_filter]
    constructor
    · rintro ⟨i, hi, hr⟩
      obtain ⟨r', hr', rfl⟩ := List.mem_map.mp (hc.1.mem_iff.mp hi)
      rw [get?_of_mem hu (List.mem_filter.mp hr').1] at hr
      cases hr
      exact hr'
    · intro hr
      exact ⟨key r, hc.1.mem_iff.mpr (List.mem_map_of_mem hr),
        get?_of_mem hu (List.mem_filter.mp hr).1⟩
  · cases h

/-- Every sorted list of the rows that satisfy `p` is an order that `select` accepts. -/
theorem select_sorted [LinearOrder κ] {p : ρ → Bool} {k : ρ → κ} {n : Nat} {all : List ρ}
    (hu : Unique key t) (hperm : all.Perm (t.filter p))
    (hsorted : all.Pairwise fun a b => k a ≤ k b) :
    select key p k n (all.map key) t = some (all.take n) := by
  have hrows : (all.map key).filterMap (get? key t) = all := by
    rw [List.filterMap_map]
    conv_rhs => rw [← List.filterMap_some (l := all)]
    refine List.filterMap_congr fun r hr => ?_
    exact get?_of_mem hu (List.mem_filter.mp (hperm.mem_iff.mp hr)).1
  unfold select
  dsimp only
  rw [hrows, if_pos ⟨hperm.map key, hsorted⟩]

theorem length_select_le [LinearOrder κ] {p : ρ → Bool} {k : ρ → κ} {n : Nat} {order : List ι}
    {rows : List ρ} (h : select key p k n order t = some rows) : rows.length ≤ n := by
  unfold select at h
  dsimp only at h
  split at h
  · cases h
    exact List.length_take_le _ _
  · cases h

/-- The order puts the rows up to `x` first: all of them are selected, or nothing else is. -/
theorem select_le [LinearOrder κ] {p : ρ → Bool} {k : ρ → κ} {n : Nat} {order : List ι}
    {rows : List ρ} (hu : Unique key t) (h : select key p k n order t = some rows) (x : κ) :
    (∀ r ∈ t, p r = true → k r ≤ x → r ∈ rows) ∨ rows.length = n ∧ ∀ r ∈ rows, k r ≤ x := by
  obtain ⟨all, rfl, hsorted, hmem⟩ := select_take hu h
  rw [or_iff_not_imp_left]
  intro hleft
  push Not at hleft
  obtain ⟨r, hr, hp, hx, hnot⟩ := hleft
  have hall : r ∈ all.take n ++ all.drop n := by
    rw [List.take_append_drop]
    exact (hmem r).mpr ⟨hr, hp⟩
  have hdrop : r ∈ all.drop n := (List.mem_append.mp hall).resolve_left hnot
  constructor
  · have hlt := List.length_pos_of_mem hdrop
    rw [List.length_drop] at hlt
    rw [List.length_take]
    omega
  · intro r' hr'
    rw [← List.take_append_drop n all, List.pairwise_append] at hsorted
    exact (hsorted.2.2 r' hr' r hdrop).trans hx

end Table
