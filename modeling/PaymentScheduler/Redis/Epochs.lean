import Mathlib
import PaymentScheduler.Redis.Locking
import PaymentScheduler.Lib.Fencing

/-!
# The epochs of the terms

`try_acquire` wins the key in one round trip and increments the counter in another. The epochs are
distinct, but they follow the order of the wins only as long as no `INCR` runs after that of a later
term: the key can expire between the two round trips.
-/

namespace PaymentScheduler.Redis

/-- The epochs of the terms, in the order in which the key was won. -/
def Store.epochs (s : Store) : List (Option Nat) := s.terms.map (·.epoch)

namespace Cluster

variable {dep : Deployment} {s s' : Cluster} {a : Action}

/-- The `INCR` of a step runs while no later term has its epoch. -/
def InTurn (s : Cluster) (a : Action) (_ : Cluster) : Prop :=
  ∀ i n, s.executed a = some (i, .incr n) → ∀ m e, n < m → s.store.epochs[m]? = some e → e = none

/-- What a step can do to the epochs, and to the counter from which they come. -/
inductive Numbering (s : Cluster) (a : Action) : List (Option Nat) → Nat → Prop where
  | keep (hn : ∀ i n, s.executed a ≠ some (i, .incr n)) :
    Numbering s a s.store.epochs s.store.leaderEpoch
  | win (hn : ∀ i n, s.executed a ≠ some (i, .incr n)) :
    Numbering s a (s.store.epochs ++ [none]) s.store.leaderEpoch
  | incr {i n : Nat} (h : s.executed a = some (i, .incr n)) :
    Numbering s a (s.store.epochs.set n (some (s.store.leaderEpoch + 1))) (s.store.leaderEpoch + 1)

theorem epochs_incr {i n : Nat} {st : Store} : (st.exec dep i (.incr n)).1.epochs =
    st.epochs.set n (some (st.leaderEpoch + 1)) := by
  apply List.ext_getElem?
  intro m
  by_cases hnm : n = m
  · subst hnm
    rcases ht : st.terms[n]? with _ | t <;> simp [Store.exec, Store.epochs, List.getElem?_set', ht]
  · simp [Store.exec, Store.epochs, hnm]

theorem step_epochs (h : s.step dep a = some s') :
    Numbering s a s'.store.epochs s'.store.leaderEpoch := by
  rcases step_store h with ⟨t, rfl, ht⟩ | ⟨i, c, hx, hs⟩ | ⟨hx, hs⟩
  · rw [Store.advance_eq ht]
    exact .keep fun _ _ => by simp [executed]
  · have hne (hc : ∀ n, c ≠ .incr n) (j n : Nat) : s.executed a ≠ some (j, .incr n) := by
      rw [hx]
      simpa using fun _ => hc n
    rw [hs]
    cases c with
    | set =>
      rcases Store.exec_set dep i s.store with ⟨-, -, hset⟩ | ⟨-, hset⟩ <;> rw [hset]
      · exact .keep (hne (by simp))
      · simpa [Store.epochs] using Numbering.win (hne (by simp))
    | incr n =>
      rw [epochs_incr]
      exact .incr hx
    | get =>
      rw [Store.exec_get]
      exact .keep (hne (by simp))
    | renew | delete =>
      simp only [Store.exec]
      split <;> exact .keep (hne (by simp))
  · rw [hs]
    exact .keep fun _ _ => by simp [hx]

/-- The counter is above all epochs that it gave, and these are distinct. -/
structure Numbered (s : Cluster) : Prop where
  below : Fencing.Below s.store.epochs (s.store.leaderEpoch + 1)
  distinct : Fencing.Distinct s.store.epochs

theorem Numbered.init : Numbered init := ⟨nofun, .nil⟩

theorem Numbered.step (hI : Numbered s) (h : s.step dep a = some s') : Numbered s' := by
  obtain ⟨hb, hd⟩ := hI
  have hT := step_epochs h
  suffices H : ∀ es n, Numbering s a es n → Fencing.Below es (n + 1) ∧ Fencing.Distinct es from
    ⟨(H _ _ hT).1, (H _ _ hT).2⟩
  intro es n hT
  cases hT with
  | keep => exact ⟨hb, hd⟩
  | win => exact ⟨hb.append_none, hd.append_none⟩
  | incr => exact ⟨hb.set (Nat.lt_succ_self _), hd.set hb⟩

/-- A step keeps the epochs in the order of the wins if and only if its `INCR` runs in turn. -/
theorem Numbered.inTurn_iff (hI : Numbered s) (ho : Fencing.Increasing s.store.epochs)
    (h : s.step dep a = some s') : InTurn s a s' ↔ Fencing.Increasing s'.store.epochs := by
  have hT := step_epochs h
  generalize s'.store.epochs = es, s'.store.leaderEpoch = n at hT
  cases hT with
  | keep hn => exact iff_of_true (fun i n hx => absurd hx (hn i n)) ho
  | win hn => exact iff_of_true (fun i n hx => absurd hx (hn i n)) ho.append_none
  | @incr i n hx =>
    rw [ho.set_iff hI.below]
    constructor
    · exact fun hturn => hturn i n hx
    · intro hm j k hx'
      rw [hx] at hx'
      cases hx'
      exact hm

/-- In every run of any number of instances the epochs are distinct, and they increase in the order
in which the key was won if and only if each `INCR` runs while no later term has its epoch. -/
theorem epochs_follow_wins (dep : Deployment) (as : List Action) :
    Lts.Always (step dep) (fun s => Fencing.Distinct s.store.epochs) init as ∧
    (Lts.Along (step dep) InTurn init as ↔
      Lts.Always (step dep) (fun s => Fencing.Increasing s.store.epochs) init as) := by
  constructor
  · refine Lts.always_of_along (I := Numbered) (P := fun _ _ _ => True) ?_ ?_ Numbered.init ?_
    · exact fun hI _ hs => hI.step hs
    · exact fun hI => hI.distinct
    · exact Lts.along_of_mem fun _ _ => trivial
  · refine Lts.along_iff_always (I := Numbered) ?_ ?_ Numbered.init ?_
    · exact fun hI hs => hI.step hs
    · exact fun hI ho hs => hI.inTurn_iff ho hs
    · exact List.Pairwise.nil

end Cluster

namespace Demo

open Cluster

/-- Instance 0 wins the key, and the key expires before its `INCR`; instance 1 wins the key and gets
its epoch first. -/
def overtaken : List Action :=
  [.tryAcquire 0 0, .exec 0 (.call 0), .resume 0 0, .advance 15001] ++ acquire 1 ++
    [.exec 0 (.call 0), .resume 0 0]

/-- The epoch of the first term is greater than that of the second, and both are leaders. -/
theorem overtaken_epochs : ∃ s, Lts.run (step dep) init overtaken = some s ∧
    s.store.terms = [{ holder := 0, epoch := some 2 }, { holder := 1, epoch := some 1 }] ∧
    (s.instances 0).isLeader = true ∧ (s.instances 1).isLeader = true ∧
    ¬ Fencing.Increasing s.store.epochs := by
  obtain ⟨s, hs, hp⟩ := Lts.exists_run
    (p := fun s : Cluster => decide (s.store.terms = [⟨0, some 2⟩, ⟨1, some 1⟩] ∧
      (s.instances 0).isLeader = true ∧ (s.instances 1).isLeader = true))
    (show (Lts.run (step dep) init overtaken).any _ = true by decide +kernel)
  obtain ⟨ht, h₀, h₁⟩ := of_decide_eq_true hp
  refine ⟨s, hs, ht, h₀, h₁, ?_⟩
  rw [Store.epochs, ht, Fencing.Increasing]
  simp

end Demo

end PaymentScheduler.Redis
