import PaymentScheduler.Redis.Locking

/-!
# The terms of an instance

An instance of which one call at a time is `try_acquire` (`Led`): as long as it is the leader, or
one of its checks answers True, its epoch is that of the last term that it won. The key belongs to
the instance of the last term of all (`Keyed`), so an instance that reads its token has won the key
last (`Led.last_of_get`).

A command whose call has ended can reach Redis late. A late `SET` gives an instance a term that it
knows nothing of, so `Led` needs that there is none (`late?`).
-/

namespace PaymentScheduler.Redis

/-- `n` is the last term of the instance `k`; it has the epoch `o`. -/
def LastWin (ts : List Term) (k n : Nat) (o : Option Nat) : Prop :=
  ts[n]? = some ⟨k, o⟩ ∧ ∀ m t, n < m → ts[m]? = some t → t.holder ≠ k

namespace LastWin

variable {ts : List Term} {k i n m : Nat} {o : Option Nat}

theorem append (h : LastWin ts k n o) (hi : i ≠ k) : LastWin (ts ++ [⟨i, none⟩]) k n o := by
  obtain ⟨hn, hlast⟩ := h
  have hlt := (List.getElem?_eq_some_iff.mp hn).1
  refine ⟨by rwa [List.getElem?_append_left hlt], fun m t hm ht => ?_⟩
  rcases Nat.lt_or_ge m ts.length with hml | hml
  · rw [List.getElem?_append_left hml] at ht
    exact hlast m t hm ht
  · rw [List.getElem?_append_right hml, List.getElem?_singleton] at ht
    split at ht <;> cases ht
    exact hi

theorem append_self (ts : List Term) (k : Nat) :
    LastWin (ts ++ [⟨k, none⟩]) k ts.length none := by
  refine ⟨by simp, fun m t hm ht => ?_⟩
  rw [List.getElem?_eq_none (by simp; omega)] at ht
  cases ht

theorem modify (h : LastWin ts k n o) (hm : m ≠ n) (e : Nat) :
    LastWin (ts.modify m fun t => { t with epoch := some e }) k n o := by
  obtain ⟨hn, hlast⟩ := h
  refine ⟨by simp [hm, hn], fun j t hj ht => ?_⟩
  rw [List.getElem?_modify] at ht
  obtain ⟨u, hu, rfl⟩ := Option.map_eq_some_iff.mp ht
  split
  · exact hlast j u hj hu
  · exact hlast j u hj hu

theorem modify_self (h : LastWin ts k n o) (e : Nat) :
    LastWin (ts.modify n fun t => { t with epoch := some e }) k n (some e) := by
  obtain ⟨hn, hlast⟩ := h
  refine ⟨by simp [hn], fun j t hj ht => ?_⟩
  have hne : n ≠ j := by omega
  exact hlast j t hj (by simpa [hne] using ht)

end LastWin

/-- `try_acquire` has not returned. -/
def Call.trying : Call → Bool
  | sent .set | sent (.incr _) | replied .set _ | replied (.incr _) _ => true
  | _ => false

/-- `try_acquire` has won the term `n`, and its `INCR` has not run. -/
def Call.carries (n : Nat) : Call → Bool
  | sent (.incr m) | replied .set (.ok m) => m = n
  | _ => false

/-- The call has found the flag set, or it has returned True. -/
def Call.sure : Call → Bool
  | sent .get | replied .get _ | ended (some true) => true
  | _ => false

namespace Cluster

variable {dep : Deployment} {s s' : Cluster} {a : Action} {k : Nat}

/-- What a step does to an instance, with its state `x` before and `y` after it. Of the calls that
have nothing to do with the terms it tells only that they are neither `trying` nor `sure`. -/
inductive Turn (dep : Deployment) (s : Cluster) (a : Action) (k : Nat) (x y : Instance) : Prop where
  | quiet (hc : y.calls = x.calls) (he : y.epoch = x.epoch)
    (hL : y.isLeader = true → x.isLeader = true)
    (hs : ∀ n, .incr n ∈ y.stray → .incr n ∈ x.stray) (hx : ∀ j, a ≠ .exec k (.call j))
  | plain {j c} (hc : y.calls = Function.update x.calls j c) (ht : c.trying = false)
    (hsure : c.sure = false) (he : y.epoch = x.epoch) (hL : y.isLeader = true → x.isLeader = true)
    (hs : ∀ n, .incr n ∈ y.stray → .incr n ∈ x.stray) (hx : s.executed a = none)
  | failed {j c} (hj : x.calls j = .sent c) (hy : y = { x with
      calls := Function.update x.calls j .raised
      stray := x.stray ++ [c] }) (hx : s.executed a = none)
  | leader {j} (ha : a = .tryAcquire k j) (hL : x.isLeader = true)
    (hy : y = { x with calls := Function.update x.calls j (.ended (some true)) })
    (hx : s.executed a = none)
  | compete {j} (ha : a = .tryAcquire k j) (hL : x.isLeader = false)
    (hy : y = { x with calls := Function.update x.calls j (.sent .set) })
  | verify {j} (hL : x.isLeader = true)
    (hy : y = { x with calls := Function.update x.calls j (.sent .get) }) (hx : s.executed a = none)
  | exec {j c} (ha : a = .exec k (.call j)) (hj : x.calls j = .sent c)
    (hy : y = { x with calls := Function.update x.calls j (.replied c (s.store.exec dep k c).2) })
  | won {j n} (hj : x.calls j = .replied .set (.ok n))
    (hy : y = { x with calls := Function.update x.calls j (.sent (.incr n)) })
    (hx : s.executed a = none)
  | lead {j n e} (hj : x.calls j = .replied (.incr n) (.int e)) (hc : y.calls =
      Function.update x.calls j (.ended (some true))) (he : y.epoch = e) (hs : y.stray = x.stray)
    (hx : s.executed a = none)
  | confirmed {j} (hj : x.calls j = .replied .get (.bulk (dep.token k)))
    (hy : y = { x with calls := Function.update x.calls j (.ended (some true)) })
    (hx : s.executed a = none)

theorem cancelHeartbeat_calls (x : Instance) : x.cancelHeartbeat.calls = x.calls := by
  unfold Instance.cancelHeartbeat
  split <;> rfl

theorem cancelHeartbeat_epoch (x : Instance) : x.cancelHeartbeat.epoch = x.epoch := by
  unfold Instance.cancelHeartbeat
  split <;> rfl

theorem cancelHeartbeat_isLeader (x : Instance) : x.cancelHeartbeat.isLeader = x.isLeader := by
  unfold Instance.cancelHeartbeat
  split <;> rfl

/-- The script of a cancelled heartbeat can be left behind. -/
theorem mem_cancelHeartbeat_stray {x : Instance} {c : Command}
    (h : c ∈ x.cancelHeartbeat.stray) : c ∈ x.stray ∨ c = .renew := by
  unfold Instance.cancelHeartbeat at h
  split at h
  · exact .inl h
  · exact .inl h
  · rcases List.mem_append.mp h with h | h
    · exact .inl h
    · unfold Heartbeat.unanswered at h
      split at h
      · exact .inr (List.mem_singleton.mp h)
      · cases h

theorem release_turn {x : Instance} {j : Nat} (hx : s.executed a = none) :
    Turn dep s a k x
      { x.release.1 with calls := Function.update x.release.1.calls j x.release.2 } := by
  unfold Instance.release
  split
  · split
    · exact .plain rfl rfl rfl rfl id (fun _ => id) hx
    · exact .plain rfl rfl rfl rfl id (fun _ => id) hx
    · refine .plain (j := j) (c := .stopping (x.heartbeats.length - 1)) ?_ rfl rfl
        (cancelHeartbeat_epoch x) ?_ ?_ hx
      · exact congrArg (Function.update · j _) (cancelHeartbeat_calls x)
      · exact fun hL => (cancelHeartbeat_isLeader x).symm.trans hL
      · exact fun n hn => (mem_cancelHeartbeat_stray hn).resolve_right nofun
  · exact .plain rfl rfl rfl rfl id (fun _ => id) hx

theorem resume_turn {x y : Instance} {j : Nat} {c : Call}
    (h : x.resume (dep.token k) (x.calls j) = some (y, c)) (hx : s.executed a = none) :
    Turn dep s a k x { y with calls := Function.update y.calls j c } := by
  unfold Instance.resume at h
  split at h
  · rename_i n hj
    cases h
    exact .won hj rfl hx
  · cases h
    exact .plain (c := .ended (some false)) rfl rfl rfl rfl id (fun _ => id) hx
  · rename_i n e hj
    cases h
    exact .lead hj rfl rfl rfl hx
  · rename_i r hj
    split at h <;> cases h
    · rename_i hr
      cases of_decide_eq_true hr
      exact .confirmed hj rfl hx
    · refine .plain (j := j) (c := .ended (some false)) ?_ rfl rfl (cancelHeartbeat_epoch x)
        nofun ?_ hx
      · exact congrArg (Function.update · j _) (cancelHeartbeat_calls x)
      · exact fun n hn => (mem_cancelHeartbeat_stray hn).resolve_right nofun
  · cases h
    exact .plain (c := .ended none) rfl rfl rfl rfl nofun (fun _ => id) hx
  · split at h <;> cases h
    exact .plain rfl rfl rfl rfl id (fun _ => id) hx
  · cases h

theorem beat_quiet {x y : Instance} {n : Nat} (h : x.beat n = some y) :
    y.calls = x.calls ∧ y.epoch = x.epoch ∧ y.stray = x.stray ∧
      (y.isLeader = true → x.isLeader = true) := by
  unfold Instance.beat at h
  split at h
  · cases h
    exact ⟨rfl, rfl, rfl, id⟩
  · cases h
    exact ⟨rfl, rfl, rfl, id⟩
  · split at h <;> cases h
    · exact ⟨rfl, rfl, rfl, id⟩
    · exact ⟨rfl, rfl, rfl, nofun⟩
  · cases h
    exact ⟨rfl, rfl, rfl, id⟩
  · cases h

theorem error_turn {x y : Instance} {p : Place} (h : x.error p = some y)
    (hx : s.executed a = none) (ha : ∀ j, a ≠ .exec k (.call j)) : Turn dep s a k x y := by
  unfold Instance.error at h
  split at h
  · rename_i j
    split at h
    · rename_i c hj
      cases h
      exact .failed hj rfl hx
    · cases h
      exact .plain (c := .raised) rfl rfl rfl rfl id (fun _ => id) hx
    · cases h
  · split at h
    · cases h
      exact .quiet rfl rfl id (fun n hn => by simpa using hn) ha
    · cases h
      exact .quiet rfl rfl id (fun _ => id) ha
    · cases h
  · cases h

theorem step_turn (k : Nat) (h : s.step dep a = some s') :
    Turn dep s a k (s.instances k) (s'.instances k) := by
  have hA := step_acts k h
  generalize s.instances k = x, s'.instances k = y at hA
  cases hA with
  | other ha =>
    refine .quiet rfl rfl id (fun _ => id) ?_
    rintro j rfl
    exact ha rfl
  | tryAcquire =>
    by_cases hL : x.isLeader = true
    · rw [if_pos hL]
      exact .leader rfl hL rfl rfl
    · rw [if_neg hL]
      exact .compete rfl ((Bool.not_eq_true _).mp hL) rfl
  | @verifyStillLeader j =>
    by_cases hL : x.isLeader = true
    · rw [if_pos hL]
      exact .verify (j := j) hL rfl rfl
    · rw [if_neg hL]
      exact .plain (c := .ended (some false)) rfl rfl rfl rfl id (fun _ => id) rfl
  | release => exact release_turn rfl
  | @exec p c hc =>
    cases p with
    | call j =>
      refine .exec rfl ?_ rfl
      simp only [Instance.pending] at hc
      split at hc <;> cases hc
      assumption
    | beat n => exact .quiet rfl rfl id (fun _ => id) nofun
    | stray n => exact .quiet rfl rfl id (fun _ => List.mem_of_mem_eraseIdx) nofun
  | resume hr => exact resume_turn hr rfl
  | beat hb =>
    obtain ⟨hc, he, hs, hL⟩ := beat_quiet hb
    exact .quiet hc he hL (fun n hn => hs ▸ hn) nofun
  | error he => exact error_turn he rfl nofun

/-! ## What holds of all instances -/

/-- The instance whose `SET` Redis runs after the call has ended. -/
def late? (s : Cluster) : Action → Option Nat
  | .exec i (.stray n) => if (s.instances i).stray[n]? = some .set then some i else none
  | _ => none

/-- The key belongs to the instance of the last term. -/
def Keyed (dep : Deployment) (s : Cluster) : Prop :=
  ∀ v e, s.store.leader = some (v, e) → ∃ i n, v = dep.token i ∧ n + 1 = s.store.terms.length ∧
    (s.store.terms[n]?.map (·.holder)) = some i

/-- Each `INCR` that is still to run is for a term of its instance. -/
structure Carried (s : Cluster) : Prop where
  call : ∀ {i j n}, ((s.instances i).calls j).carries n = true →
    (s.store.terms[n]?.map (·.holder)) = some i
  stray : ∀ {i n}, .incr n ∈ (s.instances i).stray →
    (s.store.terms[n]?.map (·.holder)) = some i

/-- What a step does to the terms. -/
inductive Growth (s : Cluster) (a : Action) : List Term → Prop where
  | keep (hw : ∀ i, ¬ s.Wins a i) (hn : ∀ i n, s.executed a ≠ some (i, .incr n)) :
    Growth s a s.store.terms
  | win {i : Nat} (hw : s.Wins a i) : Growth s a (s.store.terms ++ [⟨i, none⟩])
  | incr {i n : Nat} (hx : s.executed a = some (i, .incr n)) :
    Growth s a (s.store.terms.modify n fun t => { t with epoch := some (s.store.leaderEpoch + 1) })

theorem step_terms (h : s.step dep a = some s') : Growth s a s'.store.terms := by
  rcases step_store h with ⟨t, rfl, ht⟩ | ⟨i, c, hx, hs⟩ | ⟨hx, hs⟩
  · rw [Store.advance_eq ht]
    exact .keep (fun _ hw => by cases hw.1) fun _ _ hx => by cases hx
  · rw [hs]
    have hkeep (hset : c ≠ .set) (hincr : ∀ n, c ≠ .incr n) : Growth s a s.store.terms := by
      refine .keep (fun j hw => ?_) fun j n hj => ?_
      · cases hx.symm.trans hw.1
        exact hset rfl
      · cases hx.symm.trans hj
        exact hincr n rfl
    cases c with
    | set =>
      rcases Store.exec_set dep i s.store with ⟨x, hl, hset⟩ | ⟨hl, hset⟩ <;> rw [hset]
      · refine .keep (fun j hw => ?_) fun j n hj => ?_
        · rw [hw.2] at hl
          cases hl
        · cases hx.symm.trans hj
      · exact .win ⟨hx, hl⟩
    | incr n => exact .incr hx
    | get =>
      rw [Store.exec_get]
      exact hkeep (fun hc => by cases hc) fun _ hc => by cases hc
    | renew | delete =>
      simp only [Store.exec]
      split <;> exact hkeep (fun hc => by cases hc) fun _ hc => by cases hc
  · rw [hs]
    exact .keep (fun i hw => by cases hx.symm.trans hw.1) fun i n hj => by cases hx.symm.trans hj

/-- A term keeps its holder. -/
theorem step_holder (h : s.step dep a = some s') {n i : Nat}
    (hn : (s.store.terms[n]?.map (·.holder)) = some i) :
    (s'.store.terms[n]?.map (·.holder)) = some i := by
  have hT := step_terms h
  generalize s'.store.terms = ts at hT
  obtain ⟨t, ht, rfl⟩ := Option.map_eq_some_iff.mp hn
  cases hT with
  | keep => exact hn
  | win => rw [List.getElem?_append_left (List.getElem?_eq_some_iff.mp ht).1, ht]; rfl
  | @incr i m =>
    rw [List.getElem?_modify, ht]
    simp only [Option.map_eq_map, Option.map_some, Option.some.injEq]
    split <;> rfl

theorem Keyed.init : Keyed dep init := nofun

theorem Keyed.step (hI : Keyed dep s) (h : s.step dep a = some s') : Keyed dep s' := by
  have hkeep {v : String} {e : Nat} (hl : s.store.leader = some (v, e)) : ∃ i n, v = dep.token i ∧
      n + 1 = s'.store.terms.length ∧ (s'.store.terms[n]?.map (·.holder)) = some i := by
    obtain ⟨i, n, hv, hn, hi⟩ := hI v e hl
    refine ⟨i, n, hv, ?_, step_holder h hi⟩
    have hG := step_terms h
    generalize s'.store.terms = ts at hG
    cases hG with
    | keep => exact hn
    | win hw =>
      rw [hw.2] at hl
      cases hl
    | incr => rwa [List.length_modify]
  intro v e hl
  have hT := step_leader h
  rw [hl] at hT
  generalize hg : some (v, e) = l at hT
  cases hT with
  | keep => exact hkeep hg.symm
  | renew _ hl₀ =>
    cases hg
    exact hkeep hl₀
  | @win i hw =>
    cases hg
    have hG := step_terms h
    generalize s'.store.terms = ts at hG
    cases hG with
    | keep hw' => exact absurd hw (hw' i)
    | @win j hw' =>
      cases hw.1.symm.trans hw'.1
      exact ⟨i, s.store.terms.length, rfl, by simp, by simp⟩
    | incr hx => cases hw.1.symm.trans hx
  | _ => cases hg

theorem executed_cases {i : Nat} {c : Command} (h : s.executed a = some (i, c)) :
    (∃ j, a = .exec i (.call j) ∧ (s.instances i).calls j = .sent c) ∨ c = .renew ∨
      ∃ n, a = .exec i (.stray n) ∧ (s.instances i).stray[n]? = some c := by
  unfold executed at h
  split at h
  · rename_i p
    obtain ⟨c', hc, he⟩ := Option.map_eq_some_iff.mp h
    cases he
    cases p with
    | call j =>
      simp only [Instance.pending] at hc
      split at hc <;> cases hc
      exact .inl ⟨j, rfl, by assumption⟩
    | beat n =>
      simp only [Instance.pending] at hc
      split at hc <;> cases hc
      exact .inr (.inl rfl)
    | stray n => exact .inr (.inr ⟨n, rfl, hc⟩)
  · cases h

/-- The `INCR` that runs is for a term of its instance. -/
theorem Carried.executed (hC : Carried s) {i n : Nat} (h : s.executed a = some (i, .incr n)) :
    (s.store.terms[n]?.map (·.holder)) = some i := by
  rcases executed_cases h with ⟨j, -, hj⟩ | hr | ⟨m, -, hm⟩
  · exact hC.call (j := j) (by simp [hj, Call.carries])
  · cases hr
  · exact hC.stray (List.mem_of_getElem? hm)

/-- A step keeps the last term of an instance that neither wins the key nor numbers this term. -/
theorem LastWin.step (hC : Carried s) (h : s.step dep a = some s') {n : Nat} {o : Option Nat}
    (hn : LastWin s.store.terms k n o) (hw : ¬ s.Wins a k)
    (hx : s.executed a ≠ some (k, .incr n)) : LastWin s'.store.terms k n o := by
  have hG := step_terms h
  generalize s'.store.terms = ts at hG
  cases hG with
  | keep => exact hn
  | @win i hwi =>
    refine hn.append ?_
    rintro rfl
    exact hw hwi
  | @incr i m hxi =>
    refine hn.modify ?_ _
    rintro rfl
    have hi := hC.executed hxi
    rw [hn.1] at hi
    cases hi
    exact hx hxi

theorem trying_of_carries {c : Call} {n : Nat} (h : c.carries n = true) : c.trying = true := by
  unfold Call.carries at h
  split at h
  · rfl
  · rfl
  · cases h

/-- What holds of a call after one call has changed held of it before. -/
theorem of_update {calls : Nat → Call} {m j : Nat} {c : Call} {p : Call → Bool}
    (h : p (Function.update calls m c j) = true) (hc : p c = false) : p (calls j) = true := by
  by_cases hj : j = m
  · subst hj
    rw [Function.update_self, hc] at h
    cases h
  · rwa [Function.update_of_ne hj] at h

theorem carries_of_not_trying {c : Call} {n : Nat} (h : c.trying = false) :
    c.carries n = false := by
  by_contra hc
  rw [trying_of_carries ((Bool.not_eq_false _).mp hc)] at h
  cases h

/-- The call whose `SET` begins the term `n`. -/
theorem exec_carries {i n : Nat} {c : Command}
    (h : Call.carries n (.replied c (s.store.exec dep i c).2) = true) :
    c = .set ∧ s.store.leader = none ∧ n = s.store.terms.length := by
  cases c with
  | set =>
    rcases Store.exec_set dep i s.store with ⟨x, -, hset⟩ | ⟨hl, hset⟩ <;> rw [hset] at h
    · cases h
    · exact ⟨rfl, hl, (of_decide_eq_true h).symm⟩
  | _ => cases h

/-- The term that a `SET` begins. -/
theorem Wins.terms {i : Nat} (hw : s.Wins a i) (h : s.step dep a = some s') :
    s'.store.terms = s.store.terms ++ [⟨i, none⟩] := by
  have hG := step_terms h
  generalize s'.store.terms = ts at hG
  cases hG with
  | keep hw' => exact absurd hw (hw' i)
  | win hw' =>
    cases hw.1.symm.trans hw'.1
    rfl
  | incr hx => cases hw.1.symm.trans hx

/-- The term that an `INCR` numbers. -/
theorem incr_terms {i n : Nat} (hx : s.executed a = some (i, .incr n))
    (h : s.step dep a = some s') : s'.store.terms =
      s.store.terms.modify n fun t => { t with epoch := some (s.store.leaderEpoch + 1) } := by
  have hG := step_terms h
  generalize s'.store.terms = ts at hG
  cases hG with
  | keep _ hn => exact absurd hx (hn i n)
  | win hw => cases hx.symm.trans hw.1
  | incr hx' =>
    cases hx.symm.trans hx'
    rfl

theorem executed_call {i j : Nat} {c : Command} (h : (s.instances i).calls j = .sent c) :
    s.executed (.exec i (.call j)) = some (i, c) := by
  simp [executed, Instance.pending, h]

theorem Carried.init : Carried init where
  call h := by cases h
  stray h := by cases h

theorem Carried.step (hC : Carried s) (h : s.step dep a = some s') : Carried s' := by
  constructor
  · intro i j n hc
    have hold (hc : ((s.instances i).calls j).carries n = true) := step_holder h (hC.call hc)
    cases step_turn i h with
    | quiet hy => exact hold (hy ▸ hc)
    | plain hy ht =>
      rw [hy] at hc
      exact hold (of_update hc (carries_of_not_trying ht))
    | lead hm hy =>
      rw [hy] at hc
      exact hold (of_update hc rfl)
    | failed hm hy | leader ha hL hy | compete ha hL hy | verify hL hy | confirmed hm hy =>
      rw [hy] at hc
      exact hold (of_update hc rfl)
    | @exec m c ha hm hy =>
      rw [hy] at hc
      by_cases hr : Call.carries n (.replied c (s.store.exec dep i c).2) = true
      · obtain ⟨rfl, hl, rfl⟩ := exec_carries hr
        subst ha
        rw [Wins.terms ⟨executed_call hm, hl⟩ h]
        simp
      · exact hold (of_update hc ((Bool.not_eq_true _).mp hr))
    | @won m n' hm hy =>
      rw [hy] at hc
      dsimp only at hc
      by_cases hjm : j = m
      · subst hjm
        rw [Function.update_self] at hc
        exact hold (by rw [hm]; exact hc)
      · exact hold (by rwa [Function.update_of_ne hjm] at hc)
  · intro i n hn
    have hold (hn : .incr n ∈ (s.instances i).stray) := step_holder h (hC.stray hn)
    cases step_turn i h with
    | quiet _ _ _ hs => exact hold (hs n hn)
    | plain _ _ _ _ _ hs => exact hold (hs n hn)
    | lead _ _ _ hs => exact hold (hs ▸ hn)
    | @failed m c hm hy =>
      rw [hy] at hn
      rcases List.mem_append.mp hn with hn | hn
      · exact hold hn
      · cases List.mem_singleton.mp hn
        exact step_holder h (hC.call (j := m) (by simp [hm, Call.carries]))
    | leader ha hL hy | compete ha hL hy | verify hL hy | exec ha hm hy | won hm hy
    | confirmed hm hy =>
      rw [hy] at hn
      exact hold hn

/-! ## An instance with one `try_acquire` at a time -/

/-- `n` is the last term of the instance `k`, with the epoch `o`, and no `INCR` for it is left
behind. -/
structure Owns (ts : List Term) (k : Nat) (x : Instance) (n : Nat) (o : Option Nat) : Prop where
  last : LastWin ts k n o
  numbered : .incr n ∉ x.stray

/-- The instance `k`, where its call 0 only is `try_acquire`. -/
structure Led (ts : List Term) (k : Nat) (x : Instance) : Prop where
  single : ∀ j, j ≠ 0 → (x.calls j).trying = false
  quiet : (x.calls 0).trying = true → x.isLeader = false
  carried : ∀ n, (x.calls 0).carries n = true → ∃ o, Owns ts k x n o
  given : ∀ n r, x.calls 0 = .replied (.incr n) r → ∃ e, r = .int e ∧ Owns ts k x n (some e)
  /-- The epoch of a leader is that of its last term. -/
  sure : x.isLeader = true ∨ (x.calls 0).sure = true → ∃ n, Owns ts k x n (some x.epoch)

/-- A step that neither wins the key for the instance nor numbers its last term. -/
theorem Owns.step (hC : Carried s) (h : s.step dep a = some s') {n : Nat} {o : Option Nat}
    (ho : Owns s.store.terms k (s.instances k) n o) (hlate : s.late? a ≠ some k)
    (ht : ∀ j, a = .exec k (.call j) → ((s.instances k).calls j).trying = false)
    (hs : .incr n ∉ (s'.instances k).stray) :
    Owns s'.store.terms k (s'.instances k) n o := by
  refine ⟨LastWin.step hC h ho.last ?_ ?_, hs⟩
  · rintro ⟨hx, -⟩
    rcases executed_cases hx with ⟨j, ha, hj⟩ | hr | ⟨m, ha, hm⟩
    · cases hj ▸ ht j ha
    · cases hr
    · exact hlate (by simp [late?, ha, hm])
  · intro hx
    rcases executed_cases hx with ⟨j, ha, hj⟩ | hr | ⟨m, ha, hm⟩
    · cases hj ▸ ht j ha
    · cases hr
    · exact ho.numbered (List.mem_of_getElem? hm)

/-- A step in which Redis runs no command. -/
theorem Owns.of_not_executed (hC : Carried s) (h : s.step dep a = some s')
    (hx : s.executed a = none) {n : Nat} {o : Option Nat}
    (ho : Owns s.store.terms k (s.instances k) n o) (hs : .incr n ∉ (s'.instances k).stray) :
    Owns s'.store.terms k (s'.instances k) n o :=
  ⟨LastWin.step hC h ho.last (fun hw => by cases hx.symm.trans hw.1) (by simp [hx]), hs⟩

namespace Led

variable {ts ts' : List Term} {x y : Instance}

theorem init : Led [] k {} where
  single _ _ := rfl
  quiet := nofun
  carried := nofun
  given := nofun
  sure := by rintro (h | h) <;> cases h

theorem calls_update {calls : Nat → Call} {j : Nat} {c : Call}
    (hc : calls = Function.update x.calls j c) (ht : c.trying = false)
    (hs : c.sure = true → x.isLeader = true ∨ (x.calls j).sure = true) (i : Nat) :
    calls i = x.calls i ∨ (calls i).trying = false ∧
      ((calls i).sure = true → x.isLeader = true ∨ (x.calls i).sure = true) := by
  by_cases hi : i = j
  · subst hi
    rw [hc, Function.update_self]
    exact .inr ⟨ht, hs⟩
  · rw [hc, Function.update_of_ne hi]
    exact .inl rfl

/-- The call in which `try_acquire` is in progress. -/
theorem eq_zero (hI : Led ts k x) {j : Nat} (ht : (x.calls j).trying = true) : j = 0 := by
  by_contra hj
  rw [hI.single j hj] at ht
  cases ht

theorem single_update (hI : Led ts k x) (c : Call) (j : Nat) (hj : j ≠ 0) :
    (Function.update x.calls 0 c j).trying = false := by
  rw [Function.update_of_ne hj]
  exact hI.single j hj

/-- What changes nothing of the terms: each call stays as it is, or goes on with one that is not
`trying`, and not `sure` either unless it was or the flag is set. -/
theorem keep (hI : Led ts k x) (he : y.epoch = x.epoch)
    (hL : y.isLeader = true → x.isLeader = true)
    (hc : ∀ j, y.calls j = x.calls j ∨ (y.calls j).trying = false ∧
      ((y.calls j).sure = true → x.isLeader = true ∨ (x.calls j).sure = true))
    (hkeep : ∀ n o, x.isLeader = true ∨ (x.calls 0).sure = true ∨ y.calls 0 = x.calls 0 →
      Owns ts k x n o → Owns ts' k y n o) : Led ts' k y where
  single j hj := by
    rcases hc j with h | h
    · rw [h]
      exact hI.single j hj
    · exact h.1
  quiet ht := by
    rcases hc 0 with h | h
    · rw [h] at ht
      refine Bool.eq_false_iff.mpr fun hy => ?_
      rw [hI.quiet ht] at hL
      cases hL hy
    · rw [h.1] at ht
      cases ht
  carried n hn := by
    rcases hc 0 with h | h
    · rw [h] at hn
      obtain ⟨o, ho⟩ := hI.carried n hn
      exact ⟨o, hkeep n o (.inr (.inr h)) ho⟩
    · rw [carries_of_not_trying h.1] at hn
      cases hn
  given n r hr := by
    rcases hc 0 with h | h
    · rw [h] at hr
      obtain ⟨e, hre, ho⟩ := hI.given n r hr
      exact ⟨e, hre, hkeep n _ (.inr (.inr h)) ho⟩
    · rw [hr] at h
      cases h.1
  sure hs := by
    have hx : x.isLeader = true ∨ (x.calls 0).sure = true := by
      rcases hs with hs | hs
      · exact .inl (hL hs)
      · rcases hc 0 with h | h
        · exact .inr (h ▸ hs)
        · exact h.2 hs
    obtain ⟨n, ho⟩ := hI.sure hx
    rw [he]
    exact ⟨n, hkeep n _ (hx.imp_right .inl) ho⟩

/-- `try_acquire` begins or goes on with the call `c`, where the flag is not set. -/
theorem trying (hI : Led ts k x) (hL : x.isLeader = false) {c : Call} (hs : c.sure = false)
    (hcarried : ∀ n, c.carries n = true → ∃ o, Owns ts' k x n o)
    (hgiven : ∀ n r, c = .replied (.incr n) r → ∃ e, r = .int e ∧ Owns ts' k x n (some e)) :
    Led ts' k { x with calls := Function.update x.calls 0 c } where
  single := hI.single_update c
  quiet _ := hL
  carried n hn := by
    simp only [Function.update_self] at hn
    obtain ⟨o, ho⟩ := hcarried n hn
    exact ⟨o, ho.last, ho.numbered⟩
  given n r hr := by
    simp only [Function.update_self] at hr
    obtain ⟨e, hre, ho⟩ := hgiven n r hr
    exact ⟨e, hre, ho.last, ho.numbered⟩
  sure := by simp [hL, hs]

end Led

/-- A call of the instance fails; it leaves behind no `INCR` for a term that is kept. -/
theorem Led.failed (hI : Led s.store.terms k (s.instances k)) (hC : Carried s)
    (h : s.step dep a = some s') (hx : s.executed a = none) {j : Nat} {c : Command}
    (hj : (s.instances k).calls j = .sent c)
    (hy : s'.instances k = { s.instances k with
      calls := Function.update (s.instances k).calls j .raised
      stray := (s.instances k).stray ++ [c] }) :
    Led s'.store.terms k (s'.instances k) := by
  refine hI.keep (by rw [hy]) (by simp [hy])
    (Led.calls_update (j := j) (c := .raised) (by rw [hy]) rfl nofun) fun n o hk ho => ?_
  refine ho.of_not_executed hC h hx fun hn => ?_
  -- A `try_acquire` that fails has no term to keep: the flag was not set.
  have hne : c = .incr n → False := by
    rintro rfl
    cases hI.eq_zero (j := j) (by rw [hj]; rfl)
    rcases hk with hk | hk | hk
    · have := hI.quiet (by rw [hj]; rfl)
      rw [hk] at this
      cases this
    · rw [hj] at hk
      cases hk
    · rw [hy, hj] at hk
      simp at hk
  rw [hy] at hn
  rcases List.mem_append.mp hn with hn | hn
  · exact ho.numbered hn
  · exact hne (List.mem_singleton.mp hn).symm

/-- Redis runs the command of a call of the instance. -/
theorem Led.exec (hI : Led s.store.terms k (s.instances k)) (hC : Carried s) {j : Nat}
    {c : Command} (h : s.step dep (.exec k (.call j)) = some s')
    (hj : (s.instances k).calls j = .sent c)
    (hy : s'.instances k = { s.instances k with
      calls := Function.update (s.instances k).calls j (.replied c (s.store.exec dep k c).2) })
    (hlate : s.late? (.exec k (.call j)) ≠ some k) :
    Led s'.store.terms k (s'.instances k) := by
  have hx := executed_call hj
  cases c with
  | set =>
    cases hI.eq_zero (j := j) (by rw [hj]; rfl)
    rw [hy]
    refine hI.trying (hI.quiet (by rw [hj]; rfl)) rfl (fun n hn => ?_) nofun
    obtain ⟨-, hl, rfl⟩ := exec_carries hn
    rw [Wins.terms ⟨hx, hl⟩ h]
    refine ⟨none, LastWin.append_self .., fun hn => ?_⟩
    have := hC.stray hn
    rw [List.getElem?_eq_none (Nat.le_refl _)] at this
    cases this
  | incr m =>
    cases hI.eq_zero (j := j) (by rw [hj]; rfl)
    obtain ⟨o, ho⟩ := hI.carried m (by simp [hj, Call.carries])
    rw [hy]
    refine hI.trying (hI.quiet (by rw [hj]; rfl)) rfl nofun fun n r hr => ?_
    cases hr
    refine ⟨_, rfl, ?_, ho.numbered⟩
    rw [incr_terms hx h]
    exact ho.last.modify_self _
  | get | renew | delete =>
    have ht (i : Nat) (hi : Action.exec k (.call j) = .exec k (.call i)) :
        ((s.instances k).calls i).trying = false := by
      cases hi
      rw [hj]
      rfl
    refine hI.keep (by rw [hy]) (by simp [hy])
      (Led.calls_update (by rw [hy]) rfl fun hs => .inr (by rw [hj]; exact hs)) fun n o _ ho => ?_
    exact ho.step hC h hlate ht (by rw [hy]; exact ho.numbered)

theorem Led.step (hI : Led s.store.terms k (s.instances k)) (hC : Carried s)
    (h : s.step dep a = some s') (hone : ∀ j, a = .tryAcquire k j → j = 0)
    (hlate : s.late? a ≠ some k) : Led s'.store.terms k (s'.instances k) := by
  have hT := step_turn k h
  cases hT with
  | quiet hc he hL hs hx =>
    refine hI.keep he hL (fun j => .inl (by rw [hc])) fun n o _ ho => ?_
    exact ho.step hC h hlate (fun j ha => absurd ha (hx j)) fun hn => ho.numbered (hs n hn)
  | plain hc ht hsure he hL hs hx =>
    refine hI.keep he hL (Led.calls_update hc ht (by simp [hsure])) fun n o _ ho => ?_
    exact ho.of_not_executed hC h hx fun hn => ho.numbered (hs n hn)
  | failed hj hy hx => exact hI.failed hC h hx hj hy
  | leader _ hL hy hx | verify hL hy hx =>
    refine hI.keep (by rw [hy]) (by simp [hy]) (Led.calls_update (by rw [hy]) rfl fun _ => .inl hL)
      fun n o _ ho => ?_
    exact ho.of_not_executed hC h hx (by rw [hy]; exact ho.numbered)
  | @confirmed j hj hy hx =>
    refine hI.keep (by rw [hy]) (by simp [hy])
      (Led.calls_update (by rw [hy]) rfl fun _ => .inr (by rw [hj]; rfl)) fun n o _ ho => ?_
    exact ho.of_not_executed hC h hx (by rw [hy]; exact ho.numbered)
  | @compete j ha hL hy =>
    cases hone j ha
    rw [hy]
    exact hI.trying hL rfl nofun nofun
  | exec ha hj hy =>
    subst ha
    exact hI.exec hC h hj hy hlate
  | @won j n hj hy hx =>
    cases hI.eq_zero (j := j) (by rw [hj]; rfl)
    obtain ⟨o, ho⟩ := hI.carried n (by simp [hj, Call.carries])
    have ho' := ho.of_not_executed hC h hx (by rw [hy]; exact ho.numbered)
    rw [hy]
    refine hI.trying (hI.quiet (by rw [hj]; rfl)) rfl (fun m hm => ?_) nofun
    cases of_decide_eq_true hm
    exact ⟨o, ho'.last, ho.numbered⟩
  | @lead j n e hj hc he hs hx =>
    cases hI.eq_zero (j := j) (by rw [hj]; rfl)
    obtain ⟨e', heq, ho⟩ := hI.given n _ hj
    cases heq
    have ho' := ho.of_not_executed hC h hx (by rw [hs]; exact ho.numbered)
    exact
      { single := by rw [hc]; exact hI.single_update _
        quiet := fun ht => by rw [hc, Function.update_self] at ht; cases ht
        carried := fun m hm => by rw [hc, Function.update_self] at hm; cases hm
        given := fun m r hr => by rw [hc, Function.update_self] at hr; cases hr
        sure := fun _ => ⟨n, by rw [he]; exact ho'⟩ }

/-- Where `try_acquire` is not in progress, and is not called, the epoch and the last term stay. -/
theorem Led.rest (hI : Led s.store.terms k (s.instances k)) (hC : Carried s)
    (h : s.step dep a = some s') (ht : ((s.instances k).calls 0).trying = false)
    (ha : ∀ j, a ≠ .tryAcquire k j) :
    (s'.instances k).epoch = (s.instances k).epoch ∧ ((s'.instances k).calls 0).trying = false ∧
      (s.late? a ≠ some k → ∀ n o, Owns s.store.terms k (s.instances k) n o →
        Owns s'.store.terms k (s'.instances k) n o) := by
  have hall (j : Nat) : ((s.instances k).calls j).trying = false := by
    by_cases hj : j = 0
    · rwa [hj]
    · exact hI.single j hj
  have hkeep (hs : ∀ n, .incr n ∈ (s'.instances k).stray → .incr n ∈ (s.instances k).stray) :
      s.late? a ≠ some k → ∀ n o, Owns s.store.terms k (s.instances k) n o →
        Owns s'.store.terms k (s'.instances k) n o :=
    fun hlate n o ho => ho.step hC h hlate (fun j _ => hall j) fun hn => ho.numbered (hs n hn)
  have hupd {j : Nat} {c : Call} (hc : c.trying = false) :
      (Function.update (s.instances k).calls j c 0).trying = false := by
    by_contra hn
    have := of_update ((Bool.not_eq_false _).mp hn) hc
    rw [ht] at this
    cases this
  cases step_turn k h with
  | quiet hc he hL hs => exact ⟨he, by rwa [hc], hkeep hs⟩
  | plain hc hnt hsure he hL hs => exact ⟨he, by rw [hc]; exact hupd hnt, hkeep hs⟩
  | @failed j c hj hy =>
    refine ⟨by rw [hy], by rw [hy]; exact hupd rfl, hkeep fun n hn => ?_⟩
    rw [hy] at hn
    rcases List.mem_append.mp hn with hn | hn
    · exact hn
    · cases List.mem_singleton.mp hn
      cases hj ▸ hall j
  | leader ha' => exact absurd ha' (ha _)
  | compete ha' => exact absurd ha' (ha _)
  | verify hL hy | confirmed hj hy =>
    exact ⟨by rw [hy], by rw [hy]; exact hupd rfl, hkeep (by rw [hy]; exact fun _ => id)⟩
  | @exec j c ha' hj hy =>
    refine ⟨by rw [hy], ?_, hkeep (by rw [hy]; exact fun _ => id)⟩
    have hc : (Call.sent c).trying = false := hj ▸ hall j
    rw [hy]
    exact hupd (by cases c <;> first | rfl | cases hc)
  | @won j n hj => cases hj ▸ hall j
  | @lead j n e hj => cases hj ▸ hall j

/-- A check that answers True did so before, or this is the moment at which Redis runs its `GET`. -/
theorem Led.checked (hI : Led s.store.terms k (s.instances k)) (h : s.step dep a = some s')
    (ht : ((s.instances k).calls 0).trying = false) (ha : ∀ j, a ≠ .tryAcquire k j)
    (hc : (s'.instances k).calls 0 = .replied .get (.bulk (dep.token k)) ∨
      (s'.instances k).calls 0 = .ended (some true)) :
    (a ≠ .exec k (.call 0) ∧ ((s.instances k).calls 0 = .replied .get (.bulk (dep.token k)) ∨
      (s.instances k).calls 0 = .ended (some true))) ∨
    (a = .exec k (.call 0) ∧ (s.instances k).calls 0 = .sent .get ∧
      s.store.heldBy (dep.token k) = true) := by
  have hne (hx : s.executed a = none) : a ≠ .exec k (.call 0) := by
    rintro rfl
    obtain ⟨c, hp, -⟩ := Option.map_eq_some_iff.mp h
    simp [executed, hp] at hx
  -- A call that goes on with something else is not the call 0.
  have hold {j : Nat} {c : Call} (hy : (s'.instances k).calls =
      Function.update (s.instances k).calls j c)
      (hn : ¬ (c = .replied .get (.bulk (dep.token k)) ∨ c = .ended (some true))) :
      (s.instances k).calls 0 = .replied .get (.bulk (dep.token k)) ∨
        (s.instances k).calls 0 = .ended (some true) := by
    rw [hy] at hc
    by_cases hj : 0 = j
    · subst hj
      rw [Function.update_self] at hc
      exact absurd hc hn
    · rwa [Function.update_of_ne hj] at hc
  cases step_turn k h with
  | quiet hy _ _ _ hx =>
    rw [hy] at hc
    exact .inl ⟨hx 0, hc⟩
  | plain hy _ hsure _ _ _ hx =>
    refine .inl ⟨hne hx, hold hy ?_⟩
    rintro (rfl | rfl) <;> cases hsure
  | @failed j _ _ hy hx => exact .inl ⟨hne hx, hold (j := j) (c := .raised) (by rw [hy]) (by simp)⟩
  | leader ha' => exact absurd ha' (ha _)
  | compete ha' => exact absurd ha' (ha _)
  | @verify j _ hy hx => exact .inl ⟨hne hx, hold (j := j) (c := .sent .get) (by rw [hy]) (by simp)⟩
  | @exec j c ha' hj hy =>
    rw [hy] at hc
    by_cases hj0 : 0 = j
    · subst hj0
      simp only [Function.update_self, Call.replied.injEq, reduceCtorEq, or_false] at hc
      obtain ⟨rfl, hr⟩ := hc
      exact .inr ⟨ha', hj, Store.exec_get_bulk.mp hr⟩
    · simp only [Function.update_of_ne hj0] at hc
      refine .inl ⟨fun he => hj0 ?_, hc⟩
      rw [ha'] at he
      cases he
      rfl
  | @won j n hj =>
    cases hI.eq_zero (j := j) (by rw [hj]; rfl)
    cases hj ▸ ht
  | @lead j n e hj =>
    cases hI.eq_zero (j := j) (by rw [hj]; rfl)
    cases hj ▸ ht
  | @confirmed j hj hy hx =>
    refine .inl ⟨hne hx, ?_⟩
    by_cases hj0 : 0 = j
    · subst hj0
      exact .inl hj
    · rw [hy] at hc
      simpa only [Function.update_of_ne hj0] using hc

/-- An instance that reads its own token has won the key last, and with its epoch. -/
theorem Led.last_of_get (hI : Led s.store.terms k (s.instances k))
    (htok : Function.Injective dep.token) (hK : Keyed dep s)
    (hs : ((s.instances k).calls 0).sure = true)
    (hh : s.store.heldBy (dep.token k) = true) :
    ∃ n, n + 1 = s.store.terms.length ∧
      Owns s.store.terms k (s.instances k) n (some (s.instances k).epoch) := by
  obtain ⟨e, he⟩ := Store.heldBy_iff.mp hh
  obtain ⟨i, n, hi, hn, hh⟩ := hK _ _ he
  cases htok hi
  obtain ⟨t, ht, hk⟩ := Option.map_eq_some_iff.mp hh
  obtain ⟨m, ho⟩ := hI.sure (.inr hs)
  refine ⟨n, hn, ?_⟩
  have hlt := (List.getElem?_eq_some_iff.mp ho.last.1).1
  have hmn : m = n := by
    by_contra hne
    exact ho.last.2 n t (by omega) ht hk
  exact hmn ▸ ho

end Cluster

end PaymentScheduler.Redis
