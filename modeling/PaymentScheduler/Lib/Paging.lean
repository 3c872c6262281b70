import PaymentScheduler.Lib.Table

/-!
# Paging through a table that grows

`page` is `SELECT … ORDER BY k DESC LIMIT limit OFFSET offset`. A client asks for one page after the
other, each of them at a later state of the table. As long as the rows stay (`Kept`), the number of
rows before a given one does not drop (`rank_le`): the row can only move to pages that the client
has not seen yet. So a client that stops at the first short page has seen every row of the
beginning, maybe twice (`pages_cover`).

Rows of equal sort keys come in any order, another one in each query: nothing is said of these.
-/

namespace Table

variable {ρ ι κ : Type*} [DecidableEq ι] [LinearOrder κ] (key : ρ → ι) (p : ρ → Bool) (k : ρ → κ)

/-- `SELECT … WHERE p ORDER BY k DESC LIMIT limit OFFSET offset`: a negative bound is an error. -/
def page (limit offset : Int) (order : List ι) (t : List ρ) : Option (List ρ) :=
  if 0 ≤ limit ∧ 0 ≤ offset then
    (select key p (fun r => OrderDual.toDual (k r)) (offset.toNat + limit.toNat) order t).map
      fun rows => rows.drop offset.toNat
  else none

/-- The number of rows that come before the sort key `c`. -/
def rank (t : List ρ) (c : κ) : Nat := t.countP fun r => p r ∧ c < k r

/-- The rows of `t` are still in `t'`, with their sort keys. -/
def Kept (t t' : List ρ) : Prop :=
  ∀ r ∈ t, p r = true → ∃ r' ∈ t', key r' = key r ∧ p r' = true ∧ k r' = k r

variable {key p k} {t t' t'' : List ρ} {r : ρ} {limit offset : Nat} {order : List ι}
  {rows : List ρ}

omit [DecidableEq ι] [LinearOrder κ] in
theorem Kept.trans (h : Kept key p k t t') (h' : Kept key p k t' t'') : Kept key p k t t'' := by
  intro r hr hp
  obtain ⟨r', hr', hid, hp', hk⟩ := h r hr hp
  obtain ⟨r'', hr'', hid', hp'', hk'⟩ := h' r' hr' hp'
  exact ⟨r'', hr'', hid'.trans hid, hp'', hk'.trans hk⟩

omit [DecidableEq ι] [LinearOrder κ] in
theorem Kept.of_le {T : Nat → List ρ} (hkeep : ∀ i, Kept key p k (T i) (T (i + 1))) {i j : Nat}
    (h : i ≤ j) : Kept key p k (T i) (T j) := by
  induction j, h using Nat.le_induction with
  | base => exact fun r hr hp => ⟨r, hr, rfl, hp, rfl⟩
  | succ j _ ih => exact ih.trans (hkeep j)

omit [DecidableEq ι] in
/-- No row that is before another one goes away. -/
theorem Kept.rank_le (h : Kept key p k t t') (hu : Unique key t) (c : κ) :
    rank p k t c ≤ rank p k t' c := by
  have hsub : (t.filter fun r => p r ∧ c < k r).map key ⊆
      (t'.filter fun r => p r ∧ c < k r).map key := by
    intro x hx
    obtain ⟨r, hr, rfl⟩ := List.mem_map.mp hx
    obtain ⟨hr, hc⟩ := List.mem_filter.mp hr
    obtain ⟨hp, hlt⟩ := of_decide_eq_true hc
    obtain ⟨r', hr', hid, hp', hk⟩ := h r hr hp
    refine List.mem_map.mpr ⟨r', List.mem_filter.mpr ⟨hr', decide_eq_true ⟨hp', ?_⟩⟩, hid⟩
    rwa [hk]
  have hnodup : ((t.filter fun r => p r ∧ c < k r).map key).Nodup :=
    hu.sublist (List.filter_sublist.map key)
  have hle := (hnodup.subperm hsub).length_le
  rwa [List.length_map, List.length_map, ← List.countP_eq_length_filter,
    ← List.countP_eq_length_filter] at hle

/-- The rows before a row that is selected, and the row itself. -/
theorem rank_lt (hr : r ∈ t) (hp : p r = true) : rank p k t (k r) < t.countP p := by
  have hself : ∃ x ∈ t.filter p, ¬ (decide (k r < k x)) = true :=
    ⟨r, List.mem_filter.mpr ⟨hr, hp⟩, by simp⟩
  have hlt := List.length_filter_lt_length_iff_exists.mpr hself
  rw [← List.countP_eq_length_filter, ← List.countP_eq_length_filter, List.countP_filter] at hlt
  refine lt_of_eq_of_lt (List.countP_congr fun x _ => ?_) hlt
  simp [and_comm]

/-- The sorted rows that `select` takes the first `n` of. -/
theorem select_perm {n : Nat} (hu : Unique key t) (h : select key p k n order t = some rows) :
    ∃ all : List ρ, rows = all.take n ∧ all.Pairwise (fun a b => k a ≤ k b) ∧
      all.Perm (t.filter p) := by
  unfold select at h
  dsimp only at h
  split at h
  · rename_i hc
    cases h
    refine ⟨_, rfl, hc.2, ?_⟩
    -- The lookups of the keys give the rows back.
    have hrows : ((t.filter p).map key).filterMap (get? key t) = t.filter p := by
      rw [List.filterMap_map]
      conv_rhs => rw [← List.filterMap_some (l := t.filter p)]
      refine List.filterMap_congr fun r hr => ?_
      exact get?_of_mem hu (List.mem_filter.mp hr).1
    rw [← hrows]
    exact hc.1.filterMap _
  · cases h

/-- A selection has an answer. -/
theorem exists_select (hu : Unique key t) (n : Nat) :
    ∃ rows order, select key p k n order t = some rows :=
  ⟨_, _, select_sorted hu (List.perm_insertionSort (fun a b => k a ≤ k b) _)
    (List.pairwise_insertionSort _ _)⟩

/-- A selection of at least one row has an answer with a first row. -/
theorem exists_select_cons {n : Nat} {r : ρ} (hu : Unique key t) (hn : 0 < n) (hr : r ∈ t)
    (hp : p r = true) :
    ∃ r' rows order, select key p k n order t = some (r' :: rows) ∧ r' ∈ t ∧ p r' = true := by
  obtain ⟨rows, order, h⟩ := exists_select (p := p) (k := k) hu n
  obtain ⟨all, rfl, -, hperm⟩ := select_perm hu h
  obtain ⟨r', rest, hall⟩ := List.exists_cons_of_ne_nil
    (List.ne_nil_of_mem (hperm.mem_iff.mpr (List.mem_filter.mpr ⟨hr, hp⟩)))
  obtain ⟨m, rfl⟩ := Nat.exists_eq_add_of_lt hn
  have hmem : r' ∈ t.filter p := by
    rw [← hperm.mem_iff, hall]
    exact List.mem_cons_self
  refine ⟨r', rest.take m, order, ?_, List.mem_filter.mp hmem⟩
  rw [h, hall]
  simp

/-- Where the selected rows have different sort keys, it has only one. -/
theorem select_unique {n : Nat} {order' : List ι} {rows' : List ρ} (hu : Unique key t)
    (hk : ∀ r ∈ t, p r = true → ∀ r' ∈ t, p r' = true → k r = k r' → r = r')
    (h : select key p k n order t = some rows) (h' : select key p k n order' t = some rows') :
    rows = rows' := by
  obtain ⟨all, rfl, hsorted, hperm⟩ := select_perm hu h
  obtain ⟨all', rfl, hsorted', hperm'⟩ := select_perm hu h'
  rw [(hperm.trans hperm'.symm).eq_of_pairwise (fun a b ha hb hab hba => ?_) hsorted hsorted']
  obtain ⟨hat, hap⟩ := List.mem_filter.mp (hperm.mem_iff.mp ha)
  obtain ⟨hbt, hbp⟩ := List.mem_filter.mp (hperm'.mem_iff.mp hb)
  exact hk a hat hap b hbt hbp (le_antisymm hab hba)

/-- The sorted rows that a page is cut out of. -/
theorem page_cases (hu : Unique key t) (h : page key p k limit offset order t = some rows) :
    ∃ all : List ρ, rows = (all.drop offset).take limit ∧
      all.Pairwise (fun a b => k b ≤ k a) ∧ all.Perm (t.filter p) := by
  rw [page, if_pos ⟨Int.natCast_nonneg _, Int.natCast_nonneg _⟩] at h
  obtain ⟨taken, htaken, rfl⟩ := Option.map_eq_some_iff.mp h
  obtain ⟨all, rfl, hsorted, hperm⟩ := select_perm hu htaken
  refine ⟨all, ?_, hsorted, hperm⟩
  rw [List.drop_take, Int.toNat_natCast, Int.toNat_natCast, Nat.add_sub_cancel_left]

/-- A page has the rows of its ranks, where no other row has the same sort key. -/
theorem mem_page (hu : Unique key t) (h : page key p k limit offset order t = some rows)
    (hr : r ∈ t) (hp : p r = true)
    (hone : ∀ r' ∈ t, p r' = true → k r' = k r → r' = r) (hlo : offset ≤ rank p k t (k r))
    (hhi : rank p k t (k r) < offset + limit) : r ∈ rows := by
  obtain ⟨all, rfl, hsorted, hperm⟩ := page_cases hu h
  obtain ⟨l₁, l₂, rfl⟩ := List.append_of_mem (hperm.mem_iff.mpr (List.mem_filter.mpr ⟨hr, hp⟩))
  -- The rank of the row is its place among the sorted rows.
  obtain ⟨-, hafter, hbefore⟩ := List.pairwise_append.mp hsorted
  have hnodup : (l₁ ++ r :: l₂).Nodup :=
    hperm.nodup_iff.mpr ((List.Nodup.of_map _ hu).filter _)
  have hgt : ∀ x ∈ l₁, decide (k r < k x) = true := by
    intro x hx
    refine decide_eq_true (lt_of_le_of_ne (hbefore x hx r List.mem_cons_self) fun he => ?_)
    obtain ⟨hxt, hxp⟩ := List.mem_filter.mp (hperm.mem_iff.mp (List.mem_append_left _ hx))
    obtain rfl := hone x hxt hxp he.symm
    exact (List.nodup_append.mp hnodup).2.2 x hx x List.mem_cons_self rfl
  have hle : ∀ x ∈ l₂, ¬ decide (k r < k x) = true := by
    intro x hx
    rw [decide_eq_true_eq, not_lt]
    exact (List.pairwise_cons.mp hafter).1 x hx
  have hrank : rank p k t (k r) = l₁.length := by
    have hcount : rank p k t (k r) = (l₁ ++ r :: l₂).countP fun x => k r < k x := by
      rw [hperm.countP_eq, List.countP_filter]
      exact List.countP_congr fun x _ => by simp [and_comm]
    rw [hcount, List.countP_append, List.countP_eq_length.mpr hgt,
      List.countP_cons_of_neg (by simp), List.countP_eq_zero.mpr hle, Nat.add_zero]
  rw [hrank] at hlo hhi
  rw [List.drop_append_of_le_length hlo, List.take_append, List.mem_append]
  right
  rw [List.length_drop]
  obtain ⟨n, hn⟩ : ∃ n, limit - (l₁.length - offset) = n + 1 :=
    ⟨limit - (l₁.length - offset) - 1, by omega⟩
  rw [hn, List.take_succ_cons]
  exact List.mem_cons_self

/-- A page that is not full is the last one. -/
theorem countP_le_of_page (hu : Unique key t)
    (h : page key p k limit offset order t = some rows) (hshort : rows.length < limit) :
    t.countP p ≤ offset + rows.length := by
  obtain ⟨all, rfl, -, hperm⟩ := page_cases hu h
  have hlen : all.length = t.countP p := by rw [hperm.length_eq, List.countP_eq_length_filter]
  rw [List.length_take, List.length_drop] at hshort ⊢
  omega

/-- A client that asks for the pages `0, limit, 2 * limit, …`, each at a later state of the table,
and stops at the first page that is not full, has seen every row of the first state, unless another
row has the same sort key. -/
theorem pages_cover {T : Nat → List ρ} {ids order : Nat → List ι} {m : Nat}
    (hu : ∀ i, Unique key (T i)) (hkeep : ∀ i, Kept key p k (T i) (T (i + 1)))
    (hpage : ∀ i ≤ m, (page key p k limit (limit * i : Nat) (order i) (T i)).map
      (fun rows => rows.map key) = some (ids i))
    (hshort : (ids m).length < limit) (hr : r ∈ T 0) (hp : p r = true)
    (hone : ∀ r' ∈ T m, p r' = true → k r' = k r → key r' = key r) :
    ∃ i ≤ m, key r ∈ ids i := by
  by_contra hnot
  push Not at hnot
  -- The row, as it is in the state `i`.
  have hrow : ∀ i ≤ m, ∃ r' ∈ T i, key r' = key r ∧ p r' = true ∧ k r' = k r ∧
      ∀ x ∈ T i, p x = true → k x = k r' → x = r' := by
    intro i hi
    obtain ⟨r', hr', hid, hp', hk⟩ := Kept.of_le hkeep (Nat.zero_le i) r hr hp
    refine ⟨r', hr', hid, hp', hk, fun x hx hxp hxk => ?_⟩
    obtain ⟨x', hx', hid', hp'', hk'⟩ := Kept.of_le hkeep hi x hx hxp
    have hsame := hone x' hx' hp'' ((hk'.trans hxk).trans hk)
    exact List.inj_on_of_nodup_map (hu i) hx hr' (by rw [← hid', hsame, hid])
  -- As long as the client has not seen it, it is behind all pages of before.
  have hpass : ∀ i ≤ m, limit * i ≤ rank p k (T i) (k r) →
      limit * (i + 1) ≤ rank p k (T i) (k r) := by
    intro i hi hstart
    obtain ⟨r', hr', hid, hp', hk, hone'⟩ := hrow i hi
    by_contra hlt
    rw [← hk] at hstart hlt
    obtain ⟨rows, hrows, hids⟩ := Option.map_eq_some_iff.mp (hpage i hi)
    have hin : r' ∈ rows := by
      refine mem_page (hu i) hrows hr' hp' hone' hstart ?_
      rw [Nat.mul_succ] at hlt
      exact Nat.lt_of_not_le hlt
    refine hnot i hi ?_
    rw [← hid, ← hids]
    exact List.mem_map_of_mem hin
  have hbehind : ∀ i ≤ m, limit * (i + 1) ≤ rank p k (T i) (k r) := by
    intro i hi
    induction i with
    | zero => exact hpass 0 hi (Nat.zero_le _)
    | succ i ih =>
      exact hpass _ hi ((ih (Nat.le_of_succ_le hi)).trans ((hkeep i).rank_le (hu i) _))
  obtain ⟨r', hr', -, hp', hk, -⟩ := hrow m le_rfl
  have hlt : rank p k (T m) (k r) < (T m).countP p := hk ▸ rank_lt hr' hp'
  obtain ⟨rows, hrows, hids⟩ := Option.map_eq_some_iff.mp (hpage m le_rfl)
  rw [← hids, List.length_map] at hshort
  have hcount := countP_le_of_page (hu m) hrows hshort
  have hlast := hbehind m le_rfl
  rw [Nat.mul_succ] at hlast
  omega

end Table
