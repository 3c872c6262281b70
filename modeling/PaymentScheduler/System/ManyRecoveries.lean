import PaymentScheduler.Db.Alike
import PaymentScheduler.System.Basic

/-!
# Recovery on many nodes

Any number of recovery workers go through the same stuck runs (`Sys.RecoverAll`). Each run is taken
by one of them only, since the compare-and-set of the others finds it FAILED or DEAD, and is routed
by the worker that has taken it. What has become of the rows depends on the sets of the runs that
are taken and routed (`Db.Recovered`), and not on the workers or on the order.

- `Progress.reclaim`, `Progress.route`: the two transactions of a recovery.
- `RecoverAll.recovered`: the rows at the end.
- `RecoverAll.alike`: two ways of recovering the same runs end in the same rows, up to fresh uuids
  and timestamps.
-/

namespace PaymentScheduler

/-- An action of one of the recovery workers `W` on its stuck runs, or of the clock. -/
def Action.recovers (W : List Nat) : Action → Bool
  | .advance _ => true
  | .recover v .reclaim => v ∈ W
  | .recover v (.route _) => v ∈ W
  | _ => false

/-- A worker looks at its next stuck run. -/
theorem Recovery.step_reclaim {db : Db} {now : Time} {st st' : Recovery.State} {t : Option Txn}
    (h : Recovery.step db now st .reclaim = some (st', t)) :
    ∃ x rest, st.stuck = x :: rest ∧ st.phase = .idle ∧
      st' = { st with
        stuck := rest
        phase := (recoverSingleRunById db st.now x).1 } ∧
      t = (recoverSingleRunById db st.now x).2 := by
  simp only [Recovery.step] at h
  split at h
  · rename_i x rest hstuck hidle
    cases h
    exact ⟨x, rest, hstuck, hidle, rfl, rfl⟩
  · cases h

/-- A worker routes the run that it has taken. -/
theorem Recovery.step_route {db : Db} {now : Time} {st st' : Recovery.State} {newId : UUID}
    {t : Option Txn} (h : Recovery.step db now st (.route newId) = some (st', t)) :
    ∃ x job n b, st.phase = .claimed x job n b ∧ st' = { st with phase := .idle } ∧
      t = some (route now x job n b newId) := by
  simp only [Recovery.step] at h
  split at h
  · rename_i x job n b hp
    cases h
    exact ⟨x, job, n, b, hp, rfl, rfl⟩
  · cases h

/-- The clock moves on. -/
theorem Sys.step_advance {env : Env} {s s' : Sys} {t : Time}
    (h : s.step env (.advance t) = some s') : s'.db = s.db ∧ s'.recoveries = s.recoveries := by
  simp only [Sys.step, Sys.plan, Option.bind_eq_some_iff] at h
  obtain ⟨⟨s₁, t'⟩, hp, hc⟩ := h
  split at hp <;> cases hp
  cases hc
  exact ⟨rfl, rfl⟩

namespace Sys

variable {env : Env} {s s' : Sys} {W : List Nat} {R : List UUID}

/-- The recovery workers `W` process the runs `R` to completion, each of them all of them, and
nobody else is at work. -/
structure RecoverAll (env : Env) (W : List Nat) (R : List UUID) (s : Sys) (as : List Action)
    (s' : Sys) : Prop where
  workers : W ≠ []
  ready : ∀ v ∈ W, (s.recoveries v).phase = .idle ∧ ∀ x, x ∈ (s.recoveries v).stuck ↔ x ∈ R
  /-- The runs are RUNNING, and their locks expired before the worker's `now`. -/
  expired : ∀ v ∈ W, ∀ x ∈ R, ∃ r, s.db.run? x = some r ∧
    Recovery.isStuck (s.recoveries v).now r = true
  only : ∀ a ∈ as, a.recovers W = true
  run : Lts.run (step env) s as = some s'
  finished : ∀ v ∈ W, (s'.recoveries v).phase = .idle ∧ (s'.recoveries v).stuck = []

/-- What a worker knows of a run that it has taken. -/
structure Knows (old : Db) (x job : UUID) (n : Int) (b : Subscription) (r : JobRun)
    (b₀ : Subscription) : Prop where
  run : old.run? x = some r
  owner : old.owner? r = some b₀
  job : job = r.jobId
  attempt : n = r.attempt
  id : b.id = b₀.id
  policy : b.retryPolicy = b₀.retryPolicy
  config : b.paymentConfig = b₀.paymentConfig

/-- A worker that goes through the runs `R`, where the runs `taken` are taken and the runs `done`
are routed. -/
structure Worker (old : Db) (R taken done : List UUID) (st : Recovery.State) : Prop where
  claimed : ∀ {x job n b}, st.phase = .claimed x job n b →
    x ∈ taken ∧ x ∉ done ∧ ∃ r b₀, Knows old x job n b r b₀
  todo : ∀ x ∈ R, x ∈ taken ∨ x ∈ st.stuck
  stuck : ∀ x ∈ st.stuck, x ∈ R
  expired : ∀ x ∈ R, ∃ r, old.run? x = some r ∧ Recovery.isStuck st.now r = true

/-- The workers have taken the runs `taken`, and routed the runs `done` of them. -/
structure Progress (old : Db) (W : List Nat) (R taken done : List UUID) (s : Sys) : Prop where
  rows : Db.Recovered old taken done s.db
  sub : ∀ x ∈ taken, x ∈ R
  routed : ∀ x ∈ done, x ∈ taken
  nodup : done.Nodup
  worker : ∀ v ∈ W, Worker old R taken done (s.recoveries v)
  exclusive : ∀ v ∈ W, ∀ v' ∈ W, ∀ {x}, (s.recoveries v).phase.run? = some x →
    (s.recoveries v').phase.run? = some x → v = v'
  carried : ∀ x ∈ taken, x ∉ done → ∃ v ∈ W, (s.recoveries v).phase.run? = some x

variable {old : Db} {taken done : List UUID} {x : UUID} {st : Recovery.State}

/-- Another worker takes a run. -/
theorem Worker.take (h : Worker old R taken done st) (x : UUID) :
    Worker old R (taken ++ [x]) done st where
  claimed hp := by
    obtain ⟨ht, hd, hk⟩ := h.claimed hp
    exact ⟨List.mem_append_left _ ht, hd, hk⟩
  todo y hy := (h.todo y hy).imp_left (List.mem_append_left _)
  stuck := h.stuck
  expired := h.expired

/-- A worker comes to a run that is taken, or takes it. -/
theorem Worker.next (h : Worker old R taken done st) {rest taken' : List UUID}
    (hst : st.stuck = x :: rest) (hsub : ∀ y ∈ taken, y ∈ taken') (hx : x ∈ taken')
    {p : Recovery.Phase} (hclaimed : ∀ {y job n b}, p = .claimed y job n b →
      y ∈ taken' ∧ y ∉ done ∧ ∃ r b₀, Knows old y job n b r b₀) :
    Worker old R taken' done { st with stuck := rest, phase := p } where
  claimed := hclaimed
  todo y hy := by
    have hy' : y ∈ taken ∨ y = x ∨ y ∈ rest := by simpa [hst] using h.todo y hy
    obtain hy | rfl | hy := hy'
    · exact .inl (hsub y hy)
    · exact .inl hx
    · exact .inr hy
  stuck y hy := h.stuck y (by simp [hst, hy])
  expired := h.expired

/-- Another worker routes a run. -/
theorem Worker.settle (h : Worker old R taken done st) (hx : st.phase.run? ≠ some x) :
    Worker old R taken (done ++ [x]) st where
  claimed hp := by
    obtain ⟨ht, hd, hk⟩ := h.claimed hp
    refine ⟨ht, fun hm => ?_, hk⟩
    rcases List.mem_append.mp hm with hm | hm
    · exact hd hm
    · rw [List.mem_singleton.mp hm] at hp
      exact hx (by rw [hp]; rfl)
  todo := h.todo
  stuck := h.stuck
  expired := h.expired

/-- The compare-and-set of a run wins where nobody has taken it. -/
theorem Progress.isStuck_iff (h : Progress old W R taken done s) {r₀ r : JobRun} {t : Time}
    (hr₀ : old.run? x = some r₀) (hst : Recovery.isStuck t r₀ = true)
    (hr : s.db.run? x = some r) : Recovery.isStuck t r = true ↔ x ∉ taken := by
  have hid : r₀.id = x := Db.run?_id hr₀
  obtain ⟨r', hr', he⟩ := h.rows.run? hr₀
  rw [hr] at hr'
  cases hr'
  by_cases hx : x ∈ taken
  · refine iff_of_false (fun hs => ?_) (not_not_intro hx)
    have hrunning : r.timeless.status = .running := by
      simp only [Recovery.isStuck, decide_eq_true_eq] at hs
      exact hs.1
    rw [he, Db.staged] at hrunning
    split at hrunning
    · cases hrunning
    · rw [if_pos (by simpa [hid] using hx)] at hrunning
      cases hrunning
  · have hd : x ∉ done := fun hd => hx (h.routed x hd)
    have hsame : r.timeless = r₀.timeless := by
      rw [he, Db.staged, if_neg (by simp [hid, hd]), if_neg (by simpa [hid] using hx)]
    have hstuck : Recovery.isStuck t r.timeless = true := by
      rw [hsame]
      exact hst
    exact iff_of_true hstuck hx

/-- The worker `v` goes on to `st`, and the others stay where they are. -/
theorem Progress.update (h : Progress old W R taken done s) {v : Nat} (hv : v ∈ W) {db : Db}
    {taken' done' : List UUID} (hrows : Db.Recovered old taken' done' db)
    (hsub : ∀ x ∈ taken', x ∈ R) (hrouted : ∀ x ∈ done', x ∈ taken') (hnodup : done'.Nodup)
    (hself : Worker old R taken' done' st)
    (hother : ∀ v' ∈ W, v' ≠ v → Worker old R taken' done' (s.recoveries v'))
    (hex : ∀ v' ∈ W, v' ≠ v → ∀ x, st.phase.run? = some x →
      (s.recoveries v').phase.run? ≠ some x)
    (hcarried : ∀ x ∈ taken', x ∉ done' → st.phase.run? = some x ∨
      ∃ v' ∈ W, v' ≠ v ∧ (s.recoveries v').phase.run? = some x) :
    Progress old W R taken' done'
      { s with db := db, recoveries := Function.update s.recoveries v st } where
  rows := hrows
  sub := hsub
  routed := hrouted
  nodup := hnodup
  worker v' hv' := by
    by_cases he : v' = v
    · subst he
      simpa using hself
    · simpa [he] using hother v' hv' he
  exclusive v₁ hv₁ v₂ hv₂ x h₁ h₂ := by
    by_cases he₁ : v₁ = v <;> by_cases he₂ : v₂ = v
    · rw [he₁, he₂]
    · subst he₁
      simp only [Function.update_self, Function.update_of_ne he₂] at h₁ h₂
      exact absurd h₂ (hex v₂ hv₂ he₂ x h₁)
    · subst he₂
      simp only [Function.update_self, Function.update_of_ne he₁] at h₁ h₂
      exact absurd h₁ (hex v₁ hv₁ he₁ x h₂)
    · simp only [Function.update_of_ne he₁, Function.update_of_ne he₂] at h₁ h₂
      exact h.exclusive v₁ hv₁ v₂ hv₂ h₁ h₂
  carried x hx hd := by
    obtain hp | ⟨v', hv', hne, hp⟩ := hcarried x hx hd
    · exact ⟨v, hv, by simpa using hp⟩
    · exact ⟨v', hv', by simpa [hne] using hp⟩

/-- What the first transaction of a recovery reads. -/
theorem Progress.knows (h : Progress old W R taken done s) (hw : old.Wf) {r₀ r : JobRun}
    (hr₀ : old.run? x = some r₀) (hr : s.db.run? x = some r) :
    ∃ j b b₀, s.db.job? r.jobId = some j ∧ s.db.sub? j.subscriptionId = some b ∧
      Knows old x r.jobId r.attempt b r₀ b₀ := by
  obtain ⟨r', hr', he⟩ := h.rows.run? hr₀
  rw [hr] at hr'
  cases hr'
  obtain ⟨hj, ha⟩ := Db.staged_frame old taken done r₀.timeless
  rw [← he] at hj ha
  have hjob : r.jobId = r₀.jobId := hj
  obtain ⟨j, hj₀⟩ := hw.runJob r₀ (Table.get?_mem hr₀)
  obtain ⟨b₀, hb₀⟩ := hw.jobSub j (Table.get?_mem hj₀)
  obtain ⟨b, hb, hid, hp, hc⟩ := h.rows.sub? hb₀
  have howner : old.owner? r₀ = some b₀ := by simp [Db.owner?, hj₀, hb₀]
  refine ⟨j, b, b₀, ?_, hb, hr₀, howner, hjob, ha, hid, hp, hc⟩
  rw [Db.job?, h.rows.scheduledJobs, hjob]
  exact hj₀

/-- A worker that holds no run does not carry one. -/
theorem Progress.carried_of_idle (h : Progress old W R taken done s) {v : Nat}
    (hidle : (s.recoveries v).phase = .idle) (hx : x ∈ taken) (hd : x ∉ done) :
    ∃ v' ∈ W, v' ≠ v ∧ (s.recoveries v').phase.run? = some x := by
  obtain ⟨v', hv', hp⟩ := h.carried x hx hd
  refine ⟨v', hv', ?_, hp⟩
  rintro rfl
  rw [hidle] at hp
  cases hp

/-- Nobody holds a run that is not taken. -/
theorem Progress.not_held (h : Progress old W R taken done s) {v : Nat} (hv : v ∈ W)
    (hx : x ∉ taken) : (s.recoveries v).phase.run? ≠ some x := by
  intro hp
  cases hphase : (s.recoveries v).phase with
  | claimed y job n b =>
    rw [hphase] at hp
    cases hp
    exact hx ((h.worker v hv).claimed hphase).1
  | _ =>
    rw [hphase] at hp
    cases hp

/-- The compare-and-set loses: the worker goes on to its next run. -/
theorem Progress.lose (h : Progress old W R taken done s) {v : Nat} (hv : v ∈ W)
    {rest : List UUID} (hstuck : (s.recoveries v).stuck = x :: rest)
    (hidle : (s.recoveries v).phase = .idle) (hx : x ∈ taken) :
    Progress old W R taken done { s with
      recoveries := Function.update s.recoveries v
        { (s.recoveries v) with stuck := rest, phase := .idle } } :=
  h.update hv h.rows h.sub h.routed h.nodup
    ((h.worker v hv).next hstuck (fun _ => id) hx nofun) (fun v' hv' _ => h.worker v' hv')
    (fun _ _ _ _ => nofun) fun _ hy hd => .inr (h.carried_of_idle hidle hy hd)

/-- The compare-and-set wins: the worker holds the run. -/
theorem Progress.win (h : Progress old W R taken done s) {v : Nat} (hv : v ∈ W)
    {rest : List UUID} (hstuck : (s.recoveries v).stuck = x :: rest)
    (hidle : (s.recoveries v).phase = .idle) (hx : x ∉ taken) {r₀ : JobRun} {job : UUID} {n : Int}
    {b b₀ : Subscription} (hk : Knows old x job n b r₀ b₀) :
    Progress old W R (taken ++ [x]) done { s with
      db := s.db.reclaim x (s.recoveries v).now
      recoveries := Function.update s.recoveries v
        { (s.recoveries v) with stuck := rest, phase := .claimed x job n b } } := by
  have hworker := h.worker v hv
  have hxd : x ∉ done := fun hd => hx (h.routed x hd)
  have hself : Worker old R (taken ++ [x]) done
      { (s.recoveries v) with stuck := rest, phase := .claimed x job n b } := by
    refine hworker.next hstuck (fun _ => List.mem_append_left _) (by simp) fun hp => ?_
    cases hp
    exact ⟨by simp, hxd, r₀, b₀, hk⟩
  refine h.update hv (h.rows.reclaim hk.run hx hxd _) ?_ ?_ h.nodup hself ?_ ?_ ?_
  · intro y hy
    rcases List.mem_append.mp hy with hy | hy
    · exact h.sub y hy
    · rw [List.mem_singleton.mp hy]
      exact hworker.stuck x (by simp [hstuck])
  · exact fun y hy => List.mem_append_left _ (h.routed y hy)
  · exact fun v' hv' _ => (h.worker v' hv').take x
  · intro v' hv' _ y hy
    cases hy
    exact h.not_held hv' hx
  · intro y hy hd
    rcases List.mem_append.mp hy with hy | hy
    · exact .inr (h.carried_of_idle hidle hy hd)
    · rw [List.mem_singleton.mp hy]
      exact .inl rfl

/-- A run is taken, or it is found taken. -/
theorem Progress.reclaim (h : Progress old W R taken done s) (hw : old.Wf) {v : Nat} (hv : v ∈ W)
    (hs : s.step env (.recover v .reclaim) = some s') :
    ∃ taken', Progress old W R taken' done s' := by
  obtain ⟨st, t, db', hst, -, hc, rfl⟩ := step_recover hs
  obtain ⟨x, rest, hstuck, hidle, rfl, rfl⟩ := Recovery.step_reclaim hst
  obtain ⟨r₀, hr₀, hexp⟩ := (h.worker v hv).expired x ((h.worker v hv).stuck x (by simp [hstuck]))
  obtain ⟨r, hr, -⟩ := h.rows.run? hr₀
  have hiff := h.isStuck_iff hr₀ hexp hr
  by_cases hx : x ∈ taken
  · have hlost : Recovery.isStuck (s.recoveries v).now r = false := by
      simpa [hx] using hiff
    have hrec : Recovery.recoverSingleRunById s.db (s.recoveries v).now x = (.idle, none) := by
      simp [Recovery.recoverSingleRunById, hr, hlost]
    rw [hrec] at hc ⊢
    cases hc
    exact ⟨taken, h.lose hv hstuck hidle hx⟩
  · have hwon : Recovery.isStuck (s.recoveries v).now r = true := hiff.mpr hx
    obtain ⟨j, b, b₀, hj, hb, hk⟩ := h.knows hw hr₀ hr
    have hrec : Recovery.recoverSingleRunById s.db (s.recoveries v).now x =
        (.claimed x r.jobId r.attempt b, some (.reclaim x (s.recoveries v).now)) := by
      simp [Recovery.recoverSingleRunById, hr, hwon, hj, hb]
    rw [hrec] at hc ⊢
    cases hc
    exact ⟨taken ++ [x], h.win hv hstuck hidle hx hk⟩

/-- The second transaction of a recovery, from what the first one has read. -/
theorem Knows.route {db db' : Db} {job : UUID} {n : Int} {b b₀ : Subscription} {r₀ : JobRun}
    (hk : Knows old x job n b r₀ b₀) (h : Db.Recovered old taken done db) (hw : old.Wf)
    (hx : x ∈ taken) (hxd : x ∉ done) {now : Time} {newId : UUID}
    (hc : db.Commits (some (Recovery.route now x job n b newId)) db') :
    Db.Recovered old taken (done ++ [x]) db' := by
  have hdoomed : old.doomed x = (RetryPolicy.fromDict b.retryPolicy).isExhausted n := by
    simp [Db.doomed, hk.run, hk.owner, hk.policy, hk.attempt]
  unfold Recovery.route at hc
  split at hc
  · rename_i hdead
    rw [hdead] at hdoomed
    refine h.die hw hk.run hx hxd ?_ hc
    simp [Db.letter?, hk.run, hk.owner, hdoomed, DeadLetterEntry.nameless, hk.job, hk.attempt,
      hk.id, hk.config, Db.exhausted]
  · rename_i hlive
    have hlive : old.doomed x = false := by
      rw [hdoomed]
      simpa using hlive
    rw [hk.job, hk.attempt] at hc
    exact h.retry hw hk.run hxd hlive hc

/-- A run that was taken is routed. -/
theorem Progress.route (h : Progress old W R taken done s) (hw : old.Wf) {v : Nat} (hv : v ∈ W)
    {newId : UUID} (hs : s.step env (.recover v (.route newId)) = some s') :
    ∃ done', Progress old W R taken done' s' := by
  obtain ⟨st, t, db', hst, -, hc, rfl⟩ := step_recover hs
  obtain ⟨x, job, n, b, hp, rfl, rfl⟩ := Recovery.step_route hst
  have hworker := h.worker v hv
  obtain ⟨hx, hxd, r₀, b₀, hk⟩ := hworker.claimed hp
  have hrun : (s.recoveries v).phase.run? = some x := by
    rw [hp]
    rfl
  have hrows : Db.Recovered old taken (done ++ [x]) db' := hk.route h.rows hw hx hxd hc
  have hself : Worker old R taken (done ++ [x]) { (s.recoveries v) with phase := .idle } :=
    { claimed := nofun, todo := hworker.todo, stuck := hworker.stuck, expired := hworker.expired }
  have hothers : ∀ v' ∈ W, v' ≠ v → (s.recoveries v').phase.run? ≠ some x :=
    fun v' hv' hne hp' => hne (h.exclusive v' hv' v hv hp' hrun)
  refine ⟨done ++ [x], h.update hv hrows h.sub ?_ ?_ hself ?_ ?_ ?_⟩
  · intro y hy
    rcases List.mem_append.mp hy with hy | hy
    · exact h.routed y hy
    · rw [List.mem_singleton.mp hy]
      exact hx
  · rw [List.nodup_append]
    refine ⟨h.nodup, List.nodup_singleton x, fun y hy z hz he => hxd ?_⟩
    rw [← List.mem_singleton.mp hz, ← he]
    exact hy
  · exact fun v' hv' hne => (h.worker v' hv').settle (hothers v' hv' hne)
  · exact fun _ _ _ _ => nofun
  · intro y hy hd
    rw [List.mem_append, not_or] at hd
    obtain ⟨v', hv', hp'⟩ := h.carried y hy hd.1
    refine .inr ⟨v', hv', ?_, hp'⟩
    rintro rfl
    rw [hrun] at hp'
    cases hp'
    exact hd.2 (List.mem_singleton_self x)

/-- A step of the workers. -/
theorem Progress.step (h : ∃ taken done, Progress old W R taken done s) (hw : old.Wf) {a : Action}
    (ha : a.recovers W = true) (hs : s.step env a = some s') :
    ∃ taken done, Progress old W R taken done s' := by
  obtain ⟨taken, done, h⟩ := h
  cases a with
  | advance t =>
    obtain ⟨hdb, hrec⟩ := step_advance hs
    refine ⟨taken, done, by rw [hdb]; exact h.rows, h.sub, h.routed, h.nodup, ?_, ?_, ?_⟩
    · rw [hrec]; exact h.worker
    · rw [hrec]; exact h.exclusive
    · rw [hrec]; exact h.carried
  | recover v b =>
    cases b with
    | reclaim =>
      obtain ⟨taken', h'⟩ := h.reclaim hw (by simpa [Action.recovers] using ha) hs
      exact ⟨taken', done, h'⟩
    | route newId =>
      obtain ⟨done', h'⟩ := h.route hw (by simpa [Action.recovers] using ha) hs
      exact ⟨taken, done', h'⟩
    | _ => cases ha
  | _ => cases ha

/-- The rows at the end: all the runs are taken and routed. -/
theorem RecoverAll.recovered {as : List Action} (h : RecoverAll env W R s as s') (hw : s.db.Wf) :
    ∃ taken done, Db.Recovered s.db taken done s'.db ∧ (∀ x, x ∈ taken ↔ x ∈ R) ∧
      done.Nodup ∧ ∀ x, x ∈ done ↔ x ∈ R := by
  have hinit : Progress s.db W R [] [] s :=
    { rows := .init hw
      sub := nofun
      routed := nofun
      nodup := List.nodup_nil
      worker := fun v hv =>
        { claimed := fun hp => by
            rw [(h.ready v hv).1] at hp
            cases hp
          todo := fun x hx => .inr (((h.ready v hv).2 x).mpr hx)
          stuck := fun x hx => ((h.ready v hv).2 x).mp hx
          expired := h.expired v hv }
      exclusive := fun v hv v' hv' x hp => by
        rw [(h.ready v hv).1] at hp
        cases hp
      carried := nofun }
  obtain ⟨taken, done, hend⟩ := Lts.run_inv_along
    (I := fun s' => ∃ taken done, Progress s.db W R taken done s')
    (P := fun _ a _ => a.recovers W = true) (fun hI ha hs => Progress.step hI hw ha hs)
    ⟨[], [], hinit⟩ (Lts.along_of_mem h.only) h.run
  have htaken : ∀ x, x ∈ taken ↔ x ∈ R := by
    refine fun x => ⟨hend.sub x, fun hx => ?_⟩
    obtain ⟨v, hv⟩ := List.exists_mem_of_ne_nil W h.workers
    rcases (hend.worker v hv).todo x hx with hx | hx
    · exact hx
    · rw [(h.finished v hv).2] at hx
      cases hx
  refine ⟨taken, done, hend.rows, htaken, hend.nodup, fun x => ?_⟩
  rw [← htaken x]
  refine ⟨hend.routed x, fun hx => ?_⟩
  by_contra hd
  obtain ⟨v, hv, hp⟩ := hend.carried x hx hd
  rw [(h.finished v hv).1] at hp
  cases hp

/-- The rows at the end depend on the runs only: not on the number of the workers, not on the order
of their transactions. -/
theorem RecoverAll.alike {W' : List Nat} {t t' : Sys} {as bs : List Action}
    (h : RecoverAll env W R s as s') (h' : RecoverAll env W' R t bs t') (hw : s.db.Wf)
    (hdb : t.db = s.db) : Db.Alike s.db s'.db t'.db := by
  obtain ⟨taken, done, hrows, htaken, hnodup, hdone⟩ := h.recovered hw
  obtain ⟨taken', done', hrows', htaken', hnodup', hdone'⟩ := h'.recovered (by rwa [hdb])
  rw [hdb] at hrows'
  have hperm : done.Perm done' :=
    (List.perm_ext_iff_of_nodup hnodup hnodup').mpr fun x => (hdone x).trans (hdone' x).symm
  exact hrows.alike hrows' (fun x => (htaken x).trans (htaken' x).symm) hperm

/-- Any number of recovery workers end where a single one does. -/
theorem recovery_on_many_nodes {k : Nat} {t t' : Sys} {as bs : List Action} (hw : s.db.Wf)
    (hdb : t.db = s.db) (h : RecoverAll env W R s as s') (h' : RecoverAll env [k] R t bs t') :
    Db.Alike s.db s'.db t'.db :=
  h.alike h' hw hdb

end Sys

namespace Demo

/-- Two runs of a subscription that are stuck, one of them with its last attempt. -/
def stuckDb : Db where
  subscriptions :=
    [{ id := subId
       name := "Rent"
       description := none
       cronExpression := "* * * * *"
       timezone := "UTC"
       nextFireAt := none
       paymentConfig := []
       retryPolicy := { maxAttempts := some 2 }
       consecutiveFailures := 2
       createdAt := 0 }]
  scheduledJobs :=
    [{ id := 1
       subscriptionId := subId
       scheduledFor := 0
       fingerprint := "first"
       createdAt := 0 },
     { id := 2
       subscriptionId := subId
       scheduledFor := seconds 60
       fingerprint := "second"
       createdAt := 0 }]
  jobRuns :=
    [{ id := 11
       jobId := 1
       attempt := 2
       lockExpiresAt := some 0
       status := .running
       createdAt := 0 },
     { id := 12
       jobId := 2
       lockExpiresAt := some 0
       status := .running
       createdAt := 0 }]

/-- Recovery workers 0 and 1 have selected both. -/
def stuckSys : Sys where
  db := stuckDb
  clock := start
  recoveries v := if v < 2 then { now := start, stuck := [11, 12] } else {}

/-- Each of the workers takes one run, and routes it when both are taken. -/
def together : List Action :=
  [.recover 0 .reclaim,
    .recover 1 .reclaim,
    .recover 1 .reclaim,
    .advance (start + seconds 1),
    .recover 1 (.route 22),
    .recover 0 (.route 21),
    .recover 0 .reclaim]

/-- Worker 0 takes and routes one run after the other. -/
def alone : List Action :=
  [.recover 0 .reclaim,
    .recover 0 (.route 31),
    .recover 0 .reclaim,
    .recover 0 (.route 32)]

theorem stuckDb_wf : stuckDb.Wf where
  subIds := by decide
  jobIds := by decide
  runIds := by decide
  attempts := by decide
  keyAttempts := by decide
  jobSub := by simp [stuckDb, Db.sub?, Table.get?]
  runJob := by simp [stuckDb, Db.job?, Table.get?]
  keyRun := nofun
  entryRun := nofun

/-- The last attempt is the third failure in a row, and the other run is retried. -/
theorem together_alike : ∃ s t, Lts.run (Sys.step env) stuckSys together = some s ∧
    Lts.run (Sys.step env) stuckSys alone = some t ∧ Db.Alike stuckDb s.db t.db ∧
    (s.db.subscriptions.map (·.status)) = [.paused] ∧
    s.db.deadLetterQueue.map (·.jobRunId) = [11] := by
  have hready : ∀ v < 2, (stuckSys.recoveries v).phase = .idle ∧
      (∀ x, x ∈ (stuckSys.recoveries v).stuck ↔ x ∈ ([11, 12] : List UUID)) ∧
      ∀ x ∈ ([11, 12] : List UUID), ∃ r, stuckSys.db.run? x = some r ∧
        Recovery.isStuck (stuckSys.recoveries v).now r = true := by
    intro v hv
    have hst : stuckSys.recoveries v = { now := start, stuck := [11, 12] } := if_pos hv
    rw [hst]
    refine ⟨rfl, fun x => Iff.rfl, ?_⟩
    simp [stuckSys, stuckDb, Db.run?, Table.get?, Recovery.isStuck]
    decide
  have htogether : (Lts.run (Sys.step env) stuckSys together).any (fun s =>
      ((s.recoveries 0).phase.job? = none ∧ (s.recoveries 0).stuck = []) ∧
      ((s.recoveries 1).phase.job? = none ∧ (s.recoveries 1).stuck = []) ∧
      s.db.subscriptions.map (·.status) = [.paused] ∧
      s.db.deadLetterQueue.map (·.jobRunId) = [11]) = true := by
    decide +kernel
  have halone : (Lts.run (Sys.step env) stuckSys alone).any (fun s =>
      (s.recoveries 0).phase.job? = none ∧ (s.recoveries 0).stuck = []) = true := by
    decide +kernel
  obtain ⟨s, hs, hp⟩ := Lts.exists_run htogether
  obtain ⟨t, ht, hq⟩ := Lts.exists_run halone
  simp only [decide_eq_true_eq] at hp hq
  obtain ⟨h₀, h₁, hsubs, hdlq⟩ := hp
  have hidle : ∀ {p : Recovery.Phase}, p.job? = none → p = .idle := by
    intro p hp
    cases p <;> first | rfl | cases hp
  have hall : Sys.RecoverAll env [0, 1] [11, 12] stuckSys together s := by
    refine ⟨List.cons_ne_nil _ _, fun v hv => ?_, fun v hv => ?_, by decide, hs, fun v hv => ?_⟩
    · have hlt : v < 2 := by simp at hv; omega
      exact ⟨(hready v hlt).1, (hready v hlt).2.1⟩
    · have hlt : v < 2 := by simp at hv; omega
      exact (hready v hlt).2.2
    · obtain rfl | rfl : v = 0 ∨ v = 1 := by simpa using hv
      · exact ⟨hidle h₀.1, h₀.2⟩
      · exact ⟨hidle h₁.1, h₁.2⟩
  have hone : Sys.RecoverAll env [0] [11, 12] stuckSys alone t := by
    refine ⟨List.cons_ne_nil _ _, fun v hv => ?_, fun v hv => ?_, by decide, ht, fun v hv => ?_⟩
    · rw [List.mem_singleton.mp hv]
      exact ⟨(hready 0 (by decide)).1, (hready 0 (by decide)).2.1⟩
    · rw [List.mem_singleton.mp hv]
      exact (hready 0 (by decide)).2.2
    · rw [List.mem_singleton.mp hv]
      exact ⟨hidle hq.1, hq.2⟩
  exact ⟨s, t, hs, ht, Sys.recovery_on_many_nodes stuckDb_wf rfl hall hone, hsubs, hdlq⟩

end Demo

end PaymentScheduler
