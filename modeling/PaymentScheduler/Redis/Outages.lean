import PaymentScheduler.Redis.Terms

/-!
# Redis errors

An exception in `_renew` ends the heartbeat task, and one in `_release_if_owner` ends `release`;
neither touches `is_leader`. An exception in `try_acquire` after the `SET` leaves the key to expire.

- `Kept`: a leader has a running heartbeat task, or a `release` is in progress. `kept_iff`: exactly
  as long as errors spare both.
- `Alone`: an instance with one call at a time has the key only as a leader, or in `try_acquire`.
- `steps_down`: what holds of a leader in every run of any number of instances.
-/

namespace PaymentScheduler.Redis

/-- The task has neither ended nor been cancelled. -/
def Heartbeat.running : Heartbeat → Bool
  | cancelling | done => false
  | _ => true

/-- `release` has cancelled the heartbeat task and has not returned. -/
def Call.releasing : Call → Bool
  | stopping _ | sent .delete | replied .delete _ => true
  | _ => false

/-- The `SET` of `try_acquire` has won the key, and `try_acquire` has not returned. -/
def Call.hasWon : Call → Bool
  | replied .set (.ok _) | sent (.incr _) | replied (.incr _) _ => true
  | _ => false

namespace Instance

/-- `_heartbeat_task` is running. -/
def heartbeatRuns (x : Instance) : Bool := x.heartbeats.getLast?.any (·.running)

/-- None of the methods is in progress. -/
def AtRest (x : Instance) : Prop := ∀ j, (x.calls j).isOver = true

/-- A leader has a running heartbeat task, or a `release` is in progress. -/
def Kept (x : Instance) : Prop :=
  x.isLeader = true → x.heartbeatRuns = true ∨ ∃ j, (x.calls j).releasing = true

/-- An exception at `p` leaves no leader without a heartbeat task: it ends neither the task, unless
a `release` is in progress, nor the only `release` that is, once the task does not run. -/
def Spares (x : Instance) : Place → Prop
  | .beat h => h + 1 = x.heartbeats.length → x.isLeader = true →
      ∃ j, (x.calls j).releasing = true
  | .call j => (x.calls j).releasing = true → x.isLeader = true →
      x.heartbeatRuns = true ∨ ∃ k, k ≠ j ∧ (x.calls k).releasing = true
  | .stray _ => True

end Instance

/-! ## The heartbeat task of a leader -/

theorem Call.over_cases {c : Call} (h : c.isOver = true) : (∃ r, c = .ended r) ∨ c = .raised := by
  cases c with
  | ended r => exact .inl ⟨r, rfl⟩
  | raised => exact .inr rfl
  | _ => cases h

theorem Call.not_releasing {c : Call} (h : c.isOver = true) : c.releasing = false := by
  obtain ⟨r, rfl⟩ | rfl := over_cases h <;> rfl

theorem Call.not_hasWon {c : Call} (h : c.isOver = true) : c.hasWon = false := by
  obtain ⟨r, rfl⟩ | rfl := over_cases h <;> rfl

namespace Instance

variable {x y : Instance}

theorem heartbeatRuns_set {h : Nat} {b b' : Heartbeat} (hb : x.heartbeats[h]? = some b) :
    ({ x with heartbeats := x.heartbeats.set h b' } : Instance).heartbeatRuns =
      if h + 1 = x.heartbeats.length then b'.running else x.heartbeatRuns := by
  have hlt := (List.getElem?_eq_some_iff.mp hb).1
  simp only [heartbeatRuns, List.getLast?_eq_getElem?, List.length_set, List.getElem?_set]
  by_cases hl : h + 1 = x.heartbeats.length
  · rw [if_pos hl, if_pos (by omega), if_pos hlt, Option.any_some]
  · rw [if_neg hl, if_neg (by omega)]

theorem heartbeatRuns_of_last {h : Nat} {b : Heartbeat} (hb : x.heartbeats[h]? = some b)
    (hl : h + 1 = x.heartbeats.length) : x.heartbeatRuns = b.running := by
  rw [heartbeatRuns, List.getLast?_eq_getElem?, ← hl, Nat.add_sub_cancel, hb, Option.any_some]

namespace Kept

theorem of_not_leader (h : x.isLeader = false) : x.Kept := by
  intro hL
  rw [h] at hL
  cases hL

/-- A task goes on, or has been cancelled. -/
theorem set (hK : x.Kept) {h : Nat} {b b' : Heartbeat} (hb : x.heartbeats[h]? = some b)
    (hr : x.isLeader = true → b.running = true → b'.running = true) :
    ({ x with heartbeats := x.heartbeats.set h b' } : Instance).Kept := by
  intro hL
  refine (hK hL).imp_left fun hruns => ?_
  rw [heartbeatRuns_set hb]
  split
  · rename_i hl
    rw [heartbeatRuns_of_last hb hl] at hruns
    exact hr hL hruns
  · exact hruns

/-- A call goes on, or is no `release`. -/
theorem update (hK : x.Kept) {j : Nat} {c : Call}
    (hc : (x.calls j).releasing = true → c.releasing = true) :
    ({ x with calls := Function.update x.calls j c } : Instance).Kept := by
  intro hL
  refine (hK hL).imp_right ?_
  rintro ⟨k, hk⟩
  refine ⟨k, ?_⟩
  by_cases hkj : k = j
  · subst hkj
    simpa using hc hk
  · simpa [hkj] using hk

theorem release (hK : x.Kept) {j : Nat} (ho : (x.calls j).isOver = true) :
    ({ x.release.1 with calls := Function.update x.release.1.calls j x.release.2 } :
      Instance).Kept := by
  have hnot := Call.not_releasing ho
  unfold Instance.release
  split
  · split
    · exact fun _ => .inr ⟨j, by simp [Call.releasing]⟩
    · exact fun _ => .inr ⟨j, by simp [Call.releasing]⟩
    · exact fun _ => .inr ⟨j, by simp [Call.releasing]⟩
  · exact hK.update (by simp [hnot])

theorem answered (hK : x.Kept) {p : Place} {c : Command} (r : Reply) (hc : x.pending p = some c) :
    (x.answered c r p).Kept := by
  cases p with
  | call j =>
    simp only [pending] at hc
    split at hc <;> cases hc
    rename_i hj
    refine hK.update fun h => ?_
    rw [hj] at h
    cases c <;> first | rfl | cases h
  | beat h =>
    simp only [pending] at hc
    split at hc <;> cases hc
    rename_i hb
    exact hK.set hb fun _ _ => rfl
  | stray n => exact hK

theorem resume (hK : x.Kept) {token : String} {j : Nat} {c : Call}
    (h : x.resume token (x.calls j) = some (y, c)) :
    ({ y with calls := Function.update y.calls j c } : Instance).Kept := by
  unfold Instance.resume at h
  split at h
  · rename_i hj
    cases h
    exact hK.update (by simp [hj, Call.releasing])
  · rename_i hj
    cases h
    exact hK.update (by simp [hj, Call.releasing])
  · cases h
    exact fun _ => .inl (by simp [heartbeatRuns, Heartbeat.running])
  · rename_i hj
    split at h <;> cases h
    · exact hK.update (by simp [hj, Call.releasing])
    · exact .of_not_leader rfl
  · cases h
    exact .of_not_leader rfl
  · split at h <;> cases h
    exact hK.update fun _ => rfl
  · cases h

theorem beat (hK : x.Kept) {h : Nat} (hb : x.beat h = some y) : y.Kept := by
  have hgo {b : Heartbeat} {b' : Heartbeat} (hbeat : x.heartbeats[h]? = some b)
      (hrun : b'.running = true) :
      ({ x with heartbeats := x.heartbeats.set h (if x.isLeader then b' else .done) } :
        Instance).Kept :=
    hK.set hbeat fun hL _ => by rw [hL, if_pos rfl, hrun]
  unfold Instance.beat at hb
  split at hb
  · cases hb
    exact hgo ‹_› rfl
  · cases hb
    exact hgo ‹_› rfl
  · split at hb <;> cases hb
    · exact hgo ‹_› rfl
    · exact .of_not_leader rfl
  · cases hb
    exact hK.set ‹_› fun _ h => by cases h
  · cases hb

theorem raise_iff (hK : x.Kept) {j : Nat} : x.Spares (.call j) ↔
    ({ x with calls := Function.update x.calls j .raised } : Instance).Kept := by
  have hraised : (∃ k, (Function.update x.calls j .raised k).releasing = true) ↔
      ∃ k, k ≠ j ∧ (x.calls k).releasing = true := by
    refine exists_congr fun k => ?_
    by_cases hk : k = j
    · subst hk
      simp [Call.releasing]
    · simp [hk]
  simp only [Spares, Kept, hraised]
  constructor
  · intro h hL
    by_cases hj : (x.calls j).releasing = true
    · exact h hj hL
    · refine (hK hL).imp_right ?_
      rintro ⟨k, hk⟩
      exact ⟨k, fun he => hj (he ▸ hk), hk⟩
  · exact fun h _ hL => h hL

theorem end_iff (hK : x.Kept) {h : Nat} {b : Heartbeat} (hb : x.heartbeats[h]? = some b) :
    x.Spares (.beat h) ↔
      ({ x with heartbeats := x.heartbeats.set h .done } : Instance).Kept := by
  unfold Spares Kept
  rw [heartbeatRuns_set hb]
  by_cases hl : h + 1 = x.heartbeats.length
  · simp [hl, Heartbeat.running]
  · simp only [hl, if_false, false_imp_iff, true_iff]
    exact hK

/-- An exception keeps the heartbeat task of a leader exactly if it spares it. -/
theorem error_iff (hK : x.Kept) {p : Place} (he : x.error p = some y) : x.Spares p ↔ y.Kept := by
  unfold Instance.error at he
  split at he
  · split at he <;> cases he
    · exact hK.raise_iff
    · exact hK.raise_iff
  · split at he <;> cases he
    · exact hK.end_iff ‹_›
    · exact hK.end_iff ‹_›
  · cases he

end Kept

end Instance

namespace Cluster

variable {dep : Deployment} {s s' : Cluster} {a : Action} {i : Nat}

/-- The exceptions of the instance `i` leave no leader without a heartbeat task. -/
def SparesLeader (i : Nat) (s : Cluster) (a : Action) (_ : Cluster) : Prop :=
  ∀ p, a = .error i p → (s.instances i).Spares p

theorem sparesLeader_iff (hK : (s.instances i).Kept) (h : s.step dep a = some s') :
    SparesLeader i s a s' ↔ (s'.instances i).Kept := by
  have hT := step_acts i h
  generalize s'.instances i = y at hT ⊢
  unfold SparesLeader
  generalize s.instances i = x at *
  cases hT with
  | other ha =>
    refine iff_of_true (fun p hp => ?_) hK
    rw [hp] at ha
    exact absurd rfl ha
  | tryAcquire ho =>
    refine iff_of_true nofun (hK.update ?_)
    simp [Call.not_releasing ho]
  | verifyStillLeader ho =>
    refine iff_of_true nofun (hK.update ?_)
    simp [Call.not_releasing ho]
  | release ho => exact iff_of_true nofun (hK.release ho)
  | exec hc => exact iff_of_true nofun (hK.answered _ hc)
  | resume hr => exact iff_of_true nofun (hK.resume hr)
  | beat hb => exact iff_of_true nofun (hK.beat hb)
  | error he =>
    constructor
    · exact fun hs => (hK.error_iff he).mp (hs _ rfl)
    · intro hy p hp
      cases hp
      exact (hK.error_iff he).mpr hy

end Cluster

/-! ## The key of an instance with one call at a time -/

namespace Instance

/-- No heartbeat task is running. -/
def Silent (x : Instance) : Prop :=
  ∀ (h : Nat) (b : Heartbeat), x.heartbeats[h]? = some b → b.running = false

/-- An instance of which call 0 only is in progress; `own` says whether the key has its token. -/
structure Alone (x : Instance) (token : String) (own : Bool) : Prop where
  single : ∀ j, j ≠ 0 → (x.calls j).isOver = true
  trying : (x.calls 0).trying = true → x.isLeader = false
  live : ∀ {h : Nat} {b : Heartbeat}, x.heartbeats[h]? = some b → b.running = true →
    h + 1 = x.heartbeats.length ∧ x.isLeader = true ∧ (x.calls 0).releasing = false
  key : own = true → x.isLeader = true ∨ (x.calls 0).hasWon = true
  read : ∀ r, x.calls 0 = .replied .get r → stillLeader token r = false → own = false
  deleted : ∀ r, x.calls 0 = .replied .delete r → own = false
  renewed : ∀ {h : Nat} {r : Reply}, x.heartbeats[h]? = some (.replied r) → r.truthy = false →
    own = false

variable {x y : Instance} {token : String} {own : Bool}

theorem cancelHeartbeat_silent
    (hl : ∀ {h : Nat} {b : Heartbeat}, x.heartbeats[h]? = some b → b.running = true →
      h + 1 = x.heartbeats.length) :
    x.cancelHeartbeat.Silent := by
  intro h b hb
  by_contra hr
  rw [Bool.not_eq_false] at hr
  unfold cancelHeartbeat at hb
  split at hb
  · rename_i hnone
    rw [List.getLast?_eq_none_iff.mp hnone] at hb
    cases hb
  · rename_i hdone
    rw [List.getLast?_eq_getElem?, ← hl hb hr, Nat.add_sub_cancel, hb] at hdone
    cases hdone
    cases hr
  · simp only [List.getElem?_set] at hb
    split at hb
    · split at hb <;> cases hb
      cases hr
    · have := hl hb hr
      omega

namespace Alone

theorem init : Alone {} token false where
  single _ _ := rfl
  trying := nofun
  live := nofun
  key := nofun
  read := nofun
  deleted := nofun
  renewed := nofun

/-- The key expires, or is deleted. -/
theorem mono (hA : Alone x token own) {own' : Bool} (h : own' = true → own = true) :
    Alone x token own' := by
  have hfalse (hown : own = false) : own' = false := by
    by_contra hne
    rw [h ((Bool.not_eq_false _).mp hne)] at hown
    cases hown
  exact
    { hA with
      key := fun hown => hA.key (h hown)
      read := fun r hr hs => hfalse (hA.read r hr hs)
      deleted := fun r hr => hfalse (hA.deleted r hr)
      renewed := fun hb hr => hfalse (hA.renewed hb hr) }

/-- Call 0 goes on with `c`. -/
theorem call (hA : Alone x token own) {c : Call} (htry : c.trying = true → x.isLeader = false)
    (hrel : c.releasing = true → x.Silent)
    (hkey : own = true → x.isLeader = true ∨ c.hasWon = true)
    (hread : ∀ r, c = .replied .get r → stillLeader token r = false → own = false)
    (hdel : ∀ r, c = .replied .delete r → own = false) :
    Alone { x with calls := Function.update x.calls 0 c } token own where
  single j hj := by simpa [hj] using hA.single j hj
  trying := by simpa using htry
  live {h b} hb hr := by
    obtain ⟨hl, hL, -⟩ := hA.live hb hr
    refine ⟨hl, hL, ?_⟩
    simp only [Function.update_self]
    by_contra hc
    have := hrel ((Bool.not_eq_false _).mp hc) h b hb
    rw [hr] at this
    cases this
  key := by simpa using hkey
  read := by simpa using hread
  deleted := by simpa using hdel
  renewed hb hr := hA.renewed hb hr

/-- A heartbeat task goes on with `c`. -/
theorem setBeat (hA : Alone x token own) {h : Nat} {b c : Heartbeat}
    (hb : x.heartbeats[h]? = some b) (hr : c.running = true → b.running = true)
    (hren : ∀ r, c = .replied r → r.truthy = false → own = false) :
    Alone { x with heartbeats := x.heartbeats.set h c } token own where
  single := hA.single
  trying := hA.trying
  live {k d} hk hrun := by
    simp only [List.getElem?_set, List.length_set] at hk ⊢
    split at hk
    · rename_i he
      subst he
      split at hk <;> cases hk
      exact hA.live hb (hr hrun)
    · exact hA.live hk hrun
  key := hA.key
  read := hA.read
  deleted := hA.deleted
  renewed {k r} hk hfalse := by
    simp only [List.getElem?_set] at hk
    split at hk
    · split at hk <;> cases hk
      exact hren r rfl hfalse
    · exact hA.renewed hk hfalse

/-- Without running tasks. -/
theorem of_silent (hs : x.Silent) (single : ∀ j, j ≠ 0 → (x.calls j).isOver = true)
    (trying : (x.calls 0).trying = true → x.isLeader = false)
    (key : own = true → x.isLeader = true ∨ (x.calls 0).hasWon = true)
    (read : ∀ r, x.calls 0 = .replied .get r → stillLeader token r = false → own = false)
    (deleted : ∀ r, x.calls 0 = .replied .delete r → own = false) : Alone x token own where
  single := single
  trying := trying
  live hb hr := by
    rw [hs _ _ hb] at hr
    cases hr
  key := key
  read := read
  deleted := deleted
  renewed hb _ := by cases hs _ _ hb

/-- Call 0 returns or raises, or sends a command that is not of `try_acquire` or `release`. -/
theorem settle (hA : Alone x token own) {c : Call} (hwon : (x.calls 0).hasWon = false)
    (hc : c.isOver = true ∨ c = .sent .get) :
    Alone { x with calls := Function.update x.calls 0 c } token own := by
  have hkey : own = true → x.isLeader = true ∨ c.hasWon = true := fun hown =>
    .inl ((hA.key hown).resolve_right (by simp [hwon]))
  cases c with
  | ended result => exact hA.call nofun nofun hkey nofun nofun
  | raised => exact hA.call nofun nofun hkey nofun nofun
  | sent c =>
    obtain hc | hc := hc <;> cases hc
    exact hA.call nofun nofun hkey nofun nofun
  | replied c r => obtain hc | hc := hc <;> cases hc
  | stopping h => obtain hc | hc := hc <;> cases hc

/-- A task runs only while the flag is set and no `release` is in progress. -/
theorem silent (hA : Alone x token own)
    (h : x.isLeader = false ∨ (x.calls 0).releasing = true) : x.Silent := by
  intro k b hb
  by_contra hr
  obtain ⟨-, hL, hrel⟩ := hA.live hb ((Bool.not_eq_false _).mp hr)
  obtain h | h := h
  · rw [h] at hL
    cases hL
  · rw [h] at hrel
    cases hrel

/-- After the cancel of `_heartbeat_task`, and with `c` as call 0. -/
theorem cancel (hA : Alone x token own) {l : Bool} {c : Call} (htry : c.trying = false)
    (hkey : own = true → l = true)
    (hread : ∀ r, c ≠ .replied .get r) (hdel : ∀ r, c ≠ .replied .delete r) :
    Alone { x.cancelHeartbeat with
      isLeader := l
      calls := Function.update x.cancelHeartbeat.calls 0 c } token own := by
  refine of_silent (cancelHeartbeat_silent fun hb hr => (hA.live hb hr).1) (fun j hj => ?_) ?_ ?_
    ?_ ?_
  · simp only [Function.update_of_ne hj]
    rw [Cluster.cancelHeartbeat_calls]
    exact hA.single j hj
  · simp [htry]
  · exact fun hown => .inl (hkey hown)
  · intro r hr
    simp only [Function.update_self] at hr
    exact absurd hr (hread r)
  · intro r hr
    simp only [Function.update_self] at hr
    exact absurd hr (hdel r)

theorem release (hA : Alone x token own) (ho : (x.calls 0).isOver = true) :
    Alone { x.release.1 with calls := Function.update x.release.1.calls 0 x.release.2 }
      token own := by
  have hwon := Call.not_hasWon ho
  unfold Instance.release
  cases hL : x.isLeader with
  | false => exact hA.settle hwon (.inl rfl)
  | true =>
    simp only [if_true]
    have hsilent (h : x.heartbeats.getLast? = none ∨ x.heartbeats.getLast? = some .done) :
        x.Silent := by
      intro k b hb
      by_contra hr
      rw [Bool.not_eq_false] at hr
      rw [List.getLast?_eq_getElem?, ← (hA.live hb hr).1, Nat.add_sub_cancel, hb] at h
      obtain h | h := h <;> cases h
      cases hr
    split
    · rename_i h
      exact hA.call nofun (fun _ => hsilent (.inl h)) (fun _ => .inl hL) nofun nofun
    · rename_i h
      exact hA.call nofun (fun _ => hsilent (.inr h)) (fun _ => .inl hL) nofun nofun
    · have := hA.cancel (l := true) (c := .stopping (x.heartbeats.length - 1)) rfl
        (fun _ => rfl) nofun nofun
      rwa [← hL, ← Cluster.cancelHeartbeat_isLeader x] at this

theorem resume (hA : Alone x token own) {c : Call}
    (h : x.resume token (x.calls 0) = some (y, c)) :
    Alone { y with calls := Function.update y.calls 0 c } token own := by
  unfold Instance.resume at h
  split at h
  · rename_i n hc
    cases h
    exact hA.call (fun _ => hA.trying (by rw [hc]; rfl)) nofun (fun _ => .inr rfl) nofun nofun
  · rename_i r hne hc
    cases h
    refine hA.settle ?_ (.inl rfl)
    rw [hc]
    cases r <;> first | rfl | exact absurd rfl (hne _)
  · rename_i n e hc
    cases h
    have hsilent := hA.silent (.inl (hA.trying (by rw [hc]; rfl)))
    -- The new task is the only one that runs.
    have hnew {k : Nat} {b : Heartbeat} (hb : (x.heartbeats ++ [.created])[k]? = some b)
        (hr : b.running = true) : k = x.heartbeats.length ∧ b = .created := by
      rw [List.getElem?_append] at hb
      split at hb
      · rw [hsilent k b hb] at hr
        cases hr
      · rw [List.getElem?_singleton] at hb
        split at hb <;> cases hb
        exact ⟨by omega, rfl⟩
    exact
      { single := fun j hj => by simpa [hj] using hA.single j hj
        trying := fun h => by simp [Call.trying] at h
        live := fun hb hr => ⟨by simp [(hnew hb hr).1], rfl, by simp [Call.releasing]⟩
        key := fun _ => .inl rfl
        read := fun r h => by simp at h
        deleted := fun r h => by simp at h
        renewed := fun hb _ => by cases (hnew hb rfl).2 }
  · rename_i r hc
    split at h <;> cases h
    · exact hA.settle (by rw [hc]; rfl) (.inl rfl)
    · rename_i hstill
      have hown := hA.read r hc (by simpa using hstill)
      exact hA.cancel rfl (by simp [hown]) nofun nofun
  · rename_i r hc
    cases h
    have hown := hA.deleted r hc
    exact of_silent (hA.silent (.inr (by rw [hc]; rfl)))
      (fun j hj => by simpa [hj] using hA.single j hj) (by simp [Call.trying]) (by simp [hown])
      (by simp) (by simp)
  · rename_i k hc
    split at h <;> cases h
    exact hA.call nofun (fun _ => hA.silent (.inr (by rw [hc]; rfl)))
      (fun hown => .inl ((hA.key hown).resolve_right (by rw [hc]; exact Bool.false_ne_true)))
      nofun nofun
  · cases h

theorem beat (hA : Alone x token own) {h : Nat} (hb : x.beat h = some y) : Alone y token own := by
  have hgo {b b' : Heartbeat} (hbeat : x.heartbeats[h]? = some b) (hrun : b.running = true)
      (hrep : ∀ r, b' ≠ .replied r) :
      Alone { x with heartbeats := x.heartbeats.set h (if x.isLeader then b' else .done) }
        token own := by
    refine hA.setBeat hbeat (fun _ => hrun) fun r hr => ?_
    split at hr
    · exact absurd hr (hrep r)
    · cases hr
  unfold Instance.beat at hb
  split at hb
  · cases hb
    exact hgo ‹_› rfl nofun
  · cases hb
    exact hgo ‹_› rfl nofun
  · rename_i r hbeat
    split at hb <;> cases hb
    · exact hgo hbeat rfl nofun
    · rename_i hfalse
      have hown := hA.renewed hbeat (by simpa using hfalse)
      have hlast := hA.live hbeat rfl
      refine of_silent (fun k b hk => ?_) hA.single (fun _ => rfl) (by simp [hown]) hA.read
        hA.deleted
      by_contra hr
      simp only [List.getElem?_set] at hk
      split at hk
      · split at hk <;> cases hk
        exact hr rfl
      · have := (hA.live hk ((Bool.not_eq_false _).mp hr)).1
        have := hlast.1
        omega
  · cases hb
    exact hA.setBeat ‹_› nofun nofun
  · cases hb

theorem error (hA : Alone x token own) {p : Place} (he : x.error p = some y)
    (hwon : ∀ j, p = .call j → (x.calls j).hasWon = false) : Alone y token own := by
  have hraise {j : Nat} (ho : (x.calls j).isOver = false) (hp : p = .call j) :
      Alone { x with calls := Function.update x.calls j .raised } token own := by
    have hj : j = 0 := by
      by_contra hj
      rw [hA.single j hj] at ho
      cases ho
    subst hj
    exact hA.settle (hwon 0 hp) (.inl rfl)
  unfold Instance.error at he
  split at he
  · rename_i j
    split at he <;> cases he
    · rename_i hc
      have hr := hraise (by rw [hc]; rfl) rfl
      exact { hr with live := hr.live, renewed := hr.renewed }
    · rename_i hc
      exact hraise (by rw [hc]; rfl) rfl
  · split at he <;> cases he
    · have hr := hA.setBeat (c := .done) ‹_› nofun nofun
      exact { hr with live := hr.live, renewed := hr.renewed }
    · exact hA.setBeat ‹_› nofun nofun
  · cases he

end Alone

end Instance

namespace Store

variable {dep : Deployment} {i : Nat} {s : Store}

theorem heldBy_of_exec {c : Command} (hc : c ≠ .set)
    (h : (s.exec dep i c).1.heldBy (dep.token i) = true) : s.heldBy (dep.token i) = true := by
  cases c with
  | set => exact absurd rfl hc
  | incr n => exact h
  | get => rwa [exec_get] at h
  | renew | delete =>
    by_contra hn
    simp only [exec, hn] at h
    exact hn h

theorem exec_delete_heldBy : (s.exec dep i .delete).1.heldBy (dep.token i) = false := by
  simp only [exec]
  split
  · rfl
  · rename_i hn
    exact (Bool.not_eq_true _).mp hn

end Store

namespace Cluster

variable {dep : Deployment} {s s' : Cluster} {a : Action} {i : Nat}

/-- The calls of the instance `i` come one after the other (call 0), no exception reaches
`try_acquire` once it has won the key, and no `SET` of a call that has raised reaches Redis. -/
structure SparesKey (i : Nat) (s : Cluster) (a : Action) (_ : Cluster) : Prop where
  alone : ∀ j, a = .tryAcquire i j ∨ a = .verifyStillLeader i j ∨ a = .release i j → j = 0
  won : ∀ j, a = .error i (.call j) → ((s.instances i).calls j).hasWon = false
  late : s.late? a ≠ some i

/-- The instance `i` has the key only as a leader, or in `try_acquire`. -/
abbrev HoldsAlone (dep : Deployment) (i : Nat) (s : Cluster) : Prop :=
  (s.instances i).Alone (dep.token i) (s.store.heldBy (dep.token i))

theorem answered_alone {x : Instance} (hA : x.Alone (dep.token i) (s.store.heldBy (dep.token i)))
    {p : Place} {c : Command} (hc : x.pending p = some c) (hlate : ∀ n, p = .stray n → c ≠ .set) :
    (x.answered c (s.store.exec dep i c).2 p).Alone (dep.token i)
      ((s.store.exec dep i c).1.heldBy (dep.token i)) := by
  have hmono (hne : c ≠ .set) :
      x.Alone (dep.token i) ((s.store.exec dep i c).1.heldBy (dep.token i)) :=
    hA.mono (Store.heldBy_of_exec hne)
  cases p with
  | call j =>
    simp only [Instance.pending] at hc
    split at hc <;> cases hc
    rename_i hj
    have hj0 : j = 0 := by
      by_contra hne
      have := hA.single j hne
      rw [hj] at this
      cases this
    subst hj0
    have hwon (hc' : (x.calls 0).hasWon = false) {own : Bool}
        (hA' : x.Alone (dep.token i) own) {c' : Call} (hown : own = true) :
        x.isLeader = true ∨ c'.hasWon = true :=
      .inl ((hA'.key hown).resolve_right (by simp [hc']))
    cases c with
    | set =>
      have hL := hA.trying (by rw [hj]; rfl)
      rcases Store.exec_set dep i s.store with ⟨-, -, hset⟩ | ⟨-, hset⟩ <;> rw [hset]
      · exact hA.call (fun _ => hL) (by rintro ⟨⟩) (hwon (by rw [hj]; rfl) hA) (by rintro r ⟨⟩)
          (by rintro r ⟨⟩)
      · refine .of_silent (hA.silent (.inl hL)) (fun k hk => ?_) (fun _ => hL)
          (fun _ => .inr (by simp [Instance.answered, Call.hasWon]))
          (by simp [Instance.answered]) (by simp [Instance.answered])
        simpa [Instance.answered, hk] using hA.single k hk
    | incr n =>
      exact (hmono (by rintro ⟨⟩)).call (fun _ => hA.trying (by rw [hj]; rfl)) (by rintro ⟨⟩)
        (fun _ => .inr rfl) (by rintro r ⟨⟩) (by rintro r ⟨⟩)
    | get =>
      refine (hmono (by rintro ⟨⟩)).call (by rintro ⟨⟩) (by rintro ⟨⟩)
        (hwon (by rw [hj]; rfl) (hmono (by rintro ⟨⟩))) (fun r hr hstill => ?_) (by rintro r ⟨⟩)
      cases hr
      rw [Store.exec_get]
      by_contra hheld
      rw [Store.exec_get_bulk.mpr ((Bool.not_eq_false _).mp hheld)] at hstill
      simp [stillLeader] at hstill
    | renew =>
      exact (hmono (by rintro ⟨⟩)).call (by rintro ⟨⟩) (by rintro ⟨⟩)
        (hwon (by rw [hj]; rfl) (hmono (by rintro ⟨⟩))) (by rintro r ⟨⟩) (by rintro r ⟨⟩)
    | delete =>
      exact (hmono (by rintro ⟨⟩)).call (by rintro ⟨⟩)
        (fun _ => hA.silent (.inr (by rw [hj]; rfl)))
        (hwon (by rw [hj]; rfl) (hmono (by rintro ⟨⟩))) (by rintro r ⟨⟩)
        (fun _ _ => Store.exec_delete_heldBy)
  | beat h =>
    simp only [Instance.pending] at hc
    split at hc <;> cases hc
    rename_i hb
    refine (hmono (by rintro ⟨⟩)).setBeat hb (fun _ => rfl) fun r hr hfalse => ?_
    cases hr
    rw [Store.exec_renew_truthy] at hfalse
    by_contra hheld
    rw [Store.heldBy_of_exec (c := .renew) (by rintro ⟨⟩)
      ((Bool.not_eq_false _).mp hheld)] at hfalse
    cases hfalse
  | stray n =>
    have hA' := hmono (hlate n rfl)
    exact { hA' with live := hA'.live, renewed := hA'.renewed }

theorem HoldsAlone.step (hA : HoldsAlone dep i s) (htok : Function.Injective dep.token)
    (hs : SparesKey i s a s') (h : s.step dep a = some s') : HoldsAlone dep i s' := by
  by_cases hexec : ∃ p, a = .exec i p
  · obtain ⟨p, rfl⟩ := hexec
    obtain ⟨c, hc, rfl⟩ := Option.map_eq_some_iff.mp h
    unfold HoldsAlone
    simp only [Function.update_self]
    refine answered_alone hA hc fun n hp hset => hs.late ?_
    subst hp hset
    exact if_pos hc
  -- Without a `SET` of the instance, the key does not become its own.
  have hwins : ¬ s.Wins a i := by
    rintro ⟨hx, -⟩
    rcases executed_cases hx with ⟨j, ha, -⟩ | hc | ⟨n, ha, -⟩
    · exact hexec ⟨_, ha⟩
    · cases hc
    · exact hexec ⟨_, ha⟩
  have hown : s'.store.heldBy (dep.token i) = true → s.store.heldBy (dep.token i) = true := by
    intro hheld
    by_contra hn
    rw [not_heldBy_step htok h ((Bool.not_eq_true _).mp hn) hwins] at hheld
    cases hheld
  have hA' := Instance.Alone.mono hA hown
  obtain ⟨halone, hwon, -⟩ := hs
  have hT := step_acts i h
  unfold HoldsAlone
  generalize s'.store.heldBy (dep.token i) = own at hA' ⊢
  generalize s'.instances i = y at hT ⊢
  generalize s.instances i = x at hT hA' hwon
  cases hT with
  | other => exact hA'
  | @tryAcquire j ho =>
    obtain rfl := halone j (.inl rfl)
    have hnot := Call.not_hasWon ho
    by_cases hL : x.isLeader = true
    · rw [if_pos hL]
      exact hA'.settle hnot (.inl rfl)
    · rw [if_neg hL]
      exact hA'.call (fun _ => (Bool.not_eq_true _).mp hL) nofun
        (fun hown => .inl ((hA'.key hown).resolve_right (by simp [hnot]))) nofun nofun
  | @verifyStillLeader j ho =>
    obtain rfl := halone j (.inr (.inl rfl))
    have hnot := Call.not_hasWon ho
    split
    · exact hA'.settle hnot (.inr rfl)
    · exact hA'.settle hnot (.inl rfl)
  | @release j ho =>
    obtain rfl := halone j (.inr (.inr rfl))
    exact hA'.release ho
  | exec => exact absurd ⟨_, rfl⟩ hexec
  | @resume j y c hr =>
    obtain rfl : j = 0 := by
      by_contra hj
      obtain ⟨r, hc⟩ | hc := Call.over_cases (hA'.single j hj) <;> (rw [hc] at hr; cases hr)
    exact hA'.resume hr
  | beat hb => exact hA'.beat hb
  | error he => exact hA'.error he fun j hp => hwon j (by rw [hp])

/-- A leader has a running heartbeat task whenever no call is in progress. -/
def Beats (i : Nat) (s : Cluster) : Prop :=
  (s.instances i).AtRest → (s.instances i).isLeader = true → (s.instances i).heartbeatRuns = true

/-- Where `try_acquire` of the instance `i` raises, the key does not have its token. -/
def LeavesNoKey (dep : Deployment) (i : Nat) (s : Cluster) (a : Action) (s' : Cluster) : Prop :=
  ∀ j, a = .error i (.call j) → ((s.instances i).calls j).trying = true →
    s'.store.heldBy (dep.token i) = false

theorem beats_of_kept (hK : (s.instances i).Kept) : Beats i s := by
  intro hrest hL
  refine (hK hL).resolve_right ?_
  rintro ⟨j, hj⟩
  rw [Call.not_releasing (hrest j)] at hj
  cases hj

theorem HoldsAlone.leavesNoKey (hA : HoldsAlone dep i s) (hs : SparesKey i s a s')
    (h : s.step dep a = some s') : LeavesNoKey dep i s a s' := by
  rintro j rfl htry
  obtain ⟨y, -, rfl⟩ := Option.map_eq_some_iff.mp h
  obtain rfl : j = 0 := by
    by_contra hj
    obtain ⟨r, hc⟩ | hc := Call.over_cases (hA.single j hj) <;> (rw [hc] at htry; cases htry)
  by_contra hheld
  obtain hL | hwon := hA.key ((Bool.not_eq_false _).mp hheld)
  · rw [hA.trying htry] at hL
    cases hL
  · rw [hs.won 0 rfl] at hwon
    cases hwon

/-- In every run of any number of instances, a leader is kept by a heartbeat task or a `release`
exactly if the exceptions spare both. -/
theorem kept_iff (dep : Deployment) (i : Nat) (as : List Action) :
    Lts.Along (step dep) (SparesLeader i) init as ↔
      Lts.Always (step dep) (fun s => (s.instances i).Kept) init as := by
  refine Lts.along_iff_always (I := fun _ => True) (fun _ _ => trivial) (fun _ hK h => ?_) trivial
    (.of_not_leader rfl)
  exact sparesLeader_iff hK h

/-- In every run of any number of instances: where the exceptions of an instance spare its heartbeat
task and its `release`, it has a running heartbeat task whenever it is the leader and no call is in
progress; and where they spare `try_acquire` once it has won the key, and its calls come one after
the other, a `try_acquire` that raises leaves no key with its token. -/
theorem steps_down (dep : Deployment) (htok : Function.Injective dep.token) (i : Nat)
    (as : List Action) :
    (Lts.Along (step dep) (SparesLeader i) init as → Lts.Always (step dep) (Beats i) init as) ∧
    (Lts.Along (step dep) (SparesKey i) init as →
      Lts.Along (step dep) (LeavesNoKey dep i) init as) := by
  constructor
  · intro h
    exact Lts.always_of_along (I := fun s => (s.instances i).Kept) (P := SparesLeader i)
      (fun hK hs h => (sparesLeader_iff hK h).mp hs) beats_of_kept (.of_not_leader rfl) h
  · have hinit : HoldsAlone dep i init := Instance.Alone.init
    exact Lts.Along.of_inv (fun hA hs h => hA.step htok hs h)
      (fun hA hs h => hA.leavesNoKey hs h) hinit

end Cluster

namespace Demo

open Cluster

/-- Instance 0 is the leader, and the connection fails in a read; instance 1 cannot send its
`SET`. -/
def glitches : List Action :=
  acquire 0 ++ [.beat 0 0, .verifyStillLeader 0 0, .exec 0 (.call 0), .error 0 (.call 0),
    .tryAcquire 1 0, .error 1 (.call 0)]

/-- The conditions on an action alone: the instance `i` uses call 0. -/
def UsesCall0 (i : Nat) (a : Action) : Prop :=
  (∀ j, a = .tryAcquire i j ∨ a = .verifyStillLeader i j ∨ a = .release i j → j = 0) ∧
    ∀ j, a = .error i (.call j) → j = 0

/-- The conditions on the state, where the instance `i` uses call 0. -/
theorem sparesKey_of (i : Nat) (as : List Action) (h₀ : ∀ a ∈ as, UsesCall0 i a)
    (h : Lts.Along (step dep) (fun s a _ => s.late? a ≠ some i ∧
      (a = .error i (.call 0) → ((s.instances i).calls 0).hasWon = false)) init as) :
    Lts.Along (step dep) (SparesKey i) init as := by
  refine ((Lts.along_of_mem h₀).and h).mono ?_
  rintro s a s' ⟨⟨halone, hcall⟩, hlate, hwon⟩
  refine ⟨halone, fun j ha => ?_, hlate⟩
  obtain rfl := hcall j ha
  exact hwon ha

theorem glitches_survived :
    Lts.Always (step dep) (Beats 0) init glitches ∧
      Lts.Along (step dep) (LeavesNoKey dep 1) init glitches := by
  obtain ⟨hbeats, -⟩ := steps_down dep token_injective 0 glitches
  obtain ⟨-, hkey⟩ := steps_down dep token_injective 1 glitches
  refine ⟨hbeats ?_, hkey (sparesKey_of 1 glitches ?_ (by decide +kernel))⟩
  · have hplaces : ∀ a ∈ glitches, ∀ p, a = .error 0 p → p = .call 0 := by
      simp [glitches, acquire]
    have hread : Lts.Along (step dep) (fun s a _ => a = .error 0 (.call 0) →
        ((s.instances 0).calls 0).releasing = false) init glitches := by decide +kernel
    refine ((Lts.along_of_mem hplaces).and hread).mono ?_
    rintro s a s' ⟨hp, hread⟩ p ha
    obtain rfl := hp p ha
    intro hrel
    rw [hread ha] at hrel
    cases hrel
  · simp [glitches, acquire, UsesCall0]

/-- The connection fails in the renewal of instance 0. -/
def lostRenewal : List Action := acquire 0 ++ [.beat 0 0, .beat 0 0, .error 0 (.beat 0)]

/-- The connection fails in the reply to the `SET` of instance 0. -/
def lostReply : List Action := [.tryAcquire 0 0, .exec 0 (.call 0), .error 0 (.call 0)]

/-- A leader goes on without a heartbeat task, and a key is left without an owner. -/
theorem not_stepped_down :
    (¬ ∀ (dep : Deployment), Function.Injective dep.token → ∀ i as,
      Lts.Always (step dep) (Beats i) init as) ∧
    ¬ ∀ (dep : Deployment), Function.Injective dep.token → ∀ i as,
      Lts.Along (step dep) (LeavesNoKey dep i) init as := by
  constructor
  · intro h
    have heval : ((Lts.run (step dep) init lostRenewal).any fun s =>
        (s.instances 0).isLeader && !(s.instances 0).heartbeatRuns &&
          ((s.instances 0).calls 0).isOver) = true := by decide +kernel
    obtain ⟨s, hr, hp⟩ := Lts.exists_run heval
    simp only [Bool.and_eq_true, Bool.not_eq_true'] at hp
    obtain ⟨⟨hL, hruns⟩, hover⟩ := hp
    have hspares : Lts.Along (step dep) (SparesKey 0) init lostRenewal :=
      sparesKey_of 0 _ (by simp [lostRenewal, acquire, UsesCall0]) (by decide +kernel)
    have hinit : HoldsAlone dep 0 init := Instance.Alone.init
    have hstep {s a s'} (hA : HoldsAlone dep 0 s) (hs : SparesKey 0 s a s')
        (h : step dep s a = some s') : HoldsAlone dep 0 s' := hA.step token_injective hs h
    have halone : HoldsAlone dep 0 s :=
      Lts.run_inv_along (P := SparesKey 0) (fun hA hs h => hstep hA hs h) hinit hspares hr
    have hbeats := (h dep token_injective 0 lostRenewal).last hr
    rw [hbeats (fun j => ?_) hL] at hruns
    · cases hruns
    · by_cases hj : j = 0
      · rw [hj]
        exact hover
      · exact halone.single j hj
  · intro h
    have hreply : Lts.Along (step dep) (fun s a s' => a = .error 0 (.call 0) →
        ((s.instances 0).calls 0).trying = true → s'.store.heldBy (dep.token 0) = false) init
        lostReply := (h dep token_injective 0 lostReply).mono fun hleaves => hleaves 0
    exact absurd hreply (by decide +kernel)

end Demo

end PaymentScheduler.Redis
