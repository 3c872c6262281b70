import Mathlib

/-!
# A cursor over occurrences

A timetable is a set of occurrences. A cursor points to the occurrence that is served next (`due`).
It is advanced in two steps: first its next position is computed from the clock (`prepare`), later
the occurrence is served and the cursor moves (`commit`). The next position is the first occurrence
after the clock, not after `due`: what lies between `due` and the clock is never served.

- `Complete.step`: all occurrences are served, as long as nothing lies between at a `prepare`.
- `Lost.step`: an occurrence that lies between at one `prepare` is lost.
-/

variable {T : Type*} [LinearOrder T]

/-- `o` is the first occurrence after `s`. -/
def IsNext (occ : Set T) (s o : T) : Prop := IsLeast {x | x ∈ occ ∧ s < x} o

namespace IsNext

variable {occ : Set T} {s t o o' : T}

theorem lt (h : IsNext occ s o) : s < o := h.1.2

theorem le (h : IsNext occ s o) (ho : o' ∈ occ) (hs : s < o') : o ≤ o' := h.2 ⟨ho, hs⟩

/-- No occurrence lies between. -/
theorem gap (h : IsNext occ s o) (ho : o' ∈ occ) (hlt : o' < o) : o' ≤ s := by
  by_contra hs
  exact absurd (h.le ho (not_le.mp hs)) (not_le.mpr hlt)

theorem mono (h : IsNext occ s o) (h' : IsNext occ t o') (hst : s ≤ t) : o ≤ o' :=
  h.le h'.1.1 (hst.trans_lt h'.lt)

end IsNext

/-- A cursor: what it has served, where it is, the time, and the position that has been computed
for it. -/
structure Cursor (T : Type*) where
  served : Set T
  due : T
  now : T
  prepared : Option T := none

namespace Cursor

/-- What happens to a cursor. -/
inductive Event where
  | wait
  | prepare
  /-- The occurrence is served, and the cursor does not move. -/
  | serve
  | commit

inductive Step (occ : Set T) : Cursor T → Event → Cursor T → Prop
  | wait {c t} (h : c.now ≤ t) : Step occ c .wait { c with now := t }
  | prepare {c next} (h : ∀ o, next = some o → IsNext occ c.now o) :
    Step occ c .prepare { c with prepared := next }
  | serve {c} : Step occ c .serve { c with served := insert c.due c.served }
  | commit {c o} (h : c.prepared = some o) :
    Step occ c .commit
      { c with served := insert c.due c.served, due := o, prepared := none }

variable {occ : Set T} {c c' : Cursor T} {e : Event} {s h o : T}

/-- The cursor was set to the first occurrence after a time of before, and has served nothing beyond
itself. -/
structure Wf (occ : Set T) (c : Cursor T) : Prop where
  due : ∃ t ≤ c.now, IsNext occ t c.due
  served : ∀ o ∈ c.served, o ≤ c.due
  prepared : ∀ o, c.prepared = some o → c.due ≤ o ∧ ∃ t ≤ c.now, IsNext occ t o

/-- A cursor never moves back. -/
theorem Wf.due_le (hw : Wf occ c) (hs : Step occ c e c') : c.due ≤ c'.due := by
  cases hs with
  | commit hp => exact (hw.prepared _ hp).1
  | _ => exact le_rfl

theorem Wf.step (hw : Wf occ c) (hs : Step occ c e c') : Wf occ c' := by
  obtain ⟨t₀, ht₀, hdue⟩ := hw.due
  cases hs with
  | wait ht =>
    refine ⟨⟨t₀, ht₀.trans ht, hdue⟩, hw.served, fun o ho => ?_⟩
    obtain ⟨hle, t, ht', hn⟩ := hw.prepared o ho
    exact ⟨hle, t, ht'.trans ht, hn⟩
  | prepare hn =>
    refine ⟨⟨t₀, ht₀, hdue⟩, hw.served, fun o ho => ?_⟩
    exact ⟨hdue.mono (hn o ho) ht₀, c.now, le_rfl, hn o ho⟩
  | serve =>
    refine ⟨⟨t₀, ht₀, hdue⟩, fun o ho => ?_, hw.prepared⟩
    rcases ho with rfl | ho
    · exact le_rfl
    · exact hw.served o ho
  | commit hp =>
    obtain ⟨hle, hn⟩ := hw.prepared _ hp
    refine ⟨hn, fun o ho => ?_, nofun⟩
    rcases ho with rfl | ho
    · exact hle
    · exact (hw.served o ho).trans hle

/-! ## Served occurrences -/

/-- No occurrence up to `h` lies after `due` and not after the clock. -/
def Punctual (occ : Set T) (h : T) (c : Cursor T) : Prop :=
  ∀ o ∈ occ, c.due < o → o ≤ c.now → h < o

/-- All occurrences after `s` and up to `h` that the cursor has behind it are served, and it skips
none with its next move. -/
structure Complete (occ : Set T) (s h : T) (c : Cursor T) : Prop where
  served : ∀ o ∈ occ, s < o → o < c.due → o ≤ h → o ∈ c.served
  prepared : ∀ o', c.prepared = some o' → ∀ o ∈ occ, c.due < o → o < o' → h < o

theorem Complete.step (hc : Complete occ s h c) (hs : Step occ c e c')
    (hp : e = .prepare → Punctual occ h c) : Complete occ s h c' := by
  cases hs with
  | wait => exact ⟨hc.served, hc.prepared⟩
  | prepare hn =>
    refine ⟨hc.served, fun o' ho' o ho hlt hlt' => ?_⟩
    exact hp rfl o ho hlt ((hn o' ho').gap ho hlt')
  | serve =>
    exact ⟨fun o ho hso hlt hle => .inr (hc.served o ho hso hlt hle), hc.prepared⟩
  | commit hpre =>
    refine ⟨fun o ho hso hlt hle => ?_, nofun⟩
    rcases lt_trichotomy o c.due with hd | rfl | hd
    · exact .inr (hc.served o ho hso hd hle)
    · exact .inl rfl
    · exact absurd (hc.prepared _ hpre o ho hd hlt) (not_lt.mpr hle)

/-! ## Lost occurrences -/

/-- The occurrence is not served, and the cursor is behind it, or moves from before it to behind it
next. -/
structure Lost (o : T) (c : Cursor T) : Prop where
  unserved : o ∉ c.served
  behind : o < c.due ∨ c.due < o ∧ o ≤ c.now ∧ ∀ o', c.prepared = some o' → o < o'

theorem Lost.step (hl : Lost o c) (hw : Wf occ c) (hs : Step occ c e c') : Lost o c' := by
  have hne : o ≠ c.due := by
    rintro rfl
    rcases hl.behind with h | ⟨h, -⟩ <;> exact lt_irrefl _ h
  have hins : o ∉ insert c.due c.served := by
    rintro (he | hmem)
    · exact hne he
    · exact hl.unserved hmem
  cases hs with
  | wait ht =>
    refine ⟨hl.unserved, hl.behind.imp_right ?_⟩
    exact fun ⟨hlt, hle, hp⟩ => ⟨hlt, hle.trans ht, hp⟩
  | prepare hn =>
    refine ⟨hl.unserved, hl.behind.imp_right ?_⟩
    exact fun ⟨hlt, hle, _⟩ => ⟨hlt, hle, fun o' ho' => hle.trans_lt (hn o' ho').lt⟩
  | serve => exact ⟨hins, hl.behind⟩
  | commit hp =>
    refine ⟨hins, .inl ?_⟩
    rcases hl.behind with hlt | ⟨-, -, hpre⟩
    · exact hlt.trans_le (hw.prepared _ hp).1
    · exact hpre _ hp

/-- What lies between when the next position is computed is lost. -/
theorem Lost.of_prepare (hw : Wf occ c) (hs : Step occ c .prepare c') (hlt : c.due < o)
    (hle : o ≤ c.now) : Lost o c' := by
  cases hs with
  | prepare hn =>
    refine ⟨fun ho => absurd (hw.served o ho) (not_le.mpr hlt), .inr ⟨hlt, hle, ?_⟩⟩
    exact fun o' ho' => hle.trans_lt (hn o' ho').lt

end Cursor
