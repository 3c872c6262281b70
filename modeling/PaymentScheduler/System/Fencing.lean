import PaymentScheduler.System.Windows
import PaymentScheduler.Redis.Epochs
import PaymentScheduler.Redis.Roles
import PaymentScheduler.Redis.Terms

/-!
# Fencing of the jobs

The schedulers with their elections: `SchedulerWorker.tick` is a step of `Sys` (what it does to the
database) and a step of `Redis.Cluster` (what it does to its election), in the order of the code.
Scheduler `k` has the instance `k`, and its call 0.

The second check is before the inserts, and the commit is later. So the epochs of the jobs are in
the order of the commits as long as nobody wins the key between the `GET` of that check and the
commit (`epochs_sorted`).
-/

namespace PaymentScheduler

open Redis (Cluster Deployment Role)
open Redis.Cluster (Owns Led)

/-- Where a scheduler is in `tick`. -/
inductive Tick where
  | idle
  /-- In `try_acquire`. -/
  | acquiring
  /-- In the first `verify_still_leader`. -/
  | verifying (epoch : Nat)
  /-- The transaction is open. -/
  | selected (epoch : Nat)
  /-- In the second `verify_still_leader`; `read` is how often the key had been won when Redis ran
  its `GET`. -/
  | rechecking (epoch : Nat) (read : Option Nat)
  /-- The second check has answered True. -/
  | writing (epoch read : Nat)
  deriving DecidableEq

/-- The argument of `_schedule_due_subscriptions`. -/
def Tick.epoch? : Tick → Option Nat
  | verifying e | selected e | rechecking e _ | writing e _ => some e
  | _ => none

/-- The system, the election, and the ticks of the schedulers. -/
structure Fenced where
  sys : Sys := {}
  cluster : Cluster := {}
  ticks : Nat → Tick := fun _ => .idle

namespace Fenced

inductive Action where
  /-- A step of anything but a scheduler or another producer. -/
  | system (a : PaymentScheduler.Action)
  /-- A step of Redis, of a heartbeat, of `stop` or of a recovery worker, or the next step of a
  call of a tick. -/
  | election (a : Redis.Action)
  | acquire (k : Nat)
  | verify (k : Nat)
  | select (k : Nat) (order skip : List UUID)
  | recheck (k : Nat)
  | process (k : Nat) (jobId runId : UUID)
  | commit (k : Nat)
  | abort (k : Nat)

variable (env : Env) (dep : Deployment) (role : Nat → Role)

/-- The check, or `try_acquire`, of a tick has returned True. -/
def passed (s : Fenced) (k : Nat) : Bool := (s.cluster.instances k).calls 0 = .ended (some true)

/-- The election steps that are not the tick's to take: a scheduler calls `try_acquire` and
`verify_still_leader` in its ticks only, and `release` in `stop`. -/
def free : Redis.Action → Bool
  | .tryAcquire i _ | .verifyStillLeader i _ => role i ≠ .scheduler
  | .release i j => role i ≠ .scheduler ∨ j ≠ 0
  | _ => true

/-- The ticks after a step of Redis: the `GET` of a second check takes note of the wins. -/
def noted (s : Fenced) : Redis.Action → Nat → Tick
  | .exec k (.call 0) =>
    match s.ticks k with
    | .rechecking e _ =>
      Function.update s.ticks k (.rechecking e (some s.cluster.store.terms.length))
    | _ => s.ticks
  | _ => s.ticks

/-- What an action does: a step of the system, a step of the election, and the next ticks. -/
def plan (s : Fenced) : Action →
    Option (Option PaymentScheduler.Action × Option Redis.Action × (Nat → Tick))
  | .system a =>
    if a.scheduler?.isNone ∧ a.produces = false then some (some a, none, s.ticks) else none
  | .election b => if free role b then some (none, some b, s.noted b) else none
  | .acquire k =>
    if role k = .scheduler ∧ s.ticks k = .idle then
      some (none, some (.tryAcquire k 0), Function.update s.ticks k .acquiring)
    else none
  | .verify k =>
    if s.ticks k = .acquiring ∧ s.passed k then
      some (some (.schedule k .start), some (.verifyStillLeader k 0),
        Function.update s.ticks k (.verifying (s.cluster.instances k).epoch))
    else none
  | .select k order skip =>
    match s.ticks k with
    | .verifying e =>
      if s.passed k then
        some (some (.schedule k (.select e order skip)), none,
          Function.update s.ticks k (.selected e))
      else none
    | _ => none
  | .recheck k =>
    match s.ticks k with
    | .selected e =>
      some (none, some (.verifyStillLeader k 0), Function.update s.ticks k (.rechecking e none))
    | _ => none
  | .process k jobId runId =>
    match s.ticks k with
    | .rechecking e (some n) =>
      if s.passed k then
        some (some (.schedule k (.process jobId runId)), none,
          Function.update s.ticks k (.writing e n))
      else none
    | .writing e n =>
      some (some (.schedule k (.process jobId runId)), none,
        Function.update s.ticks k (.writing e n))
    | _ => none
  | .commit k =>
    match s.ticks k with
    | .writing _ _ => some (some (.schedule k .commit), none, Function.update s.ticks k .idle)
    | _ => none
  | .abort k =>
    if ((s.cluster.instances k).calls 0).isOver then
      some (some (.schedule k .abort), none, Function.update s.ticks k .idle)
    else none

def step (s : Fenced) (a : Action) : Option Fenced :=
  (s.plan role a).bind fun (a?, b?, ticks) =>
    (a?.elim (some s.sys) (s.sys.step env)).bind fun sys =>
      (b?.elim (some s.cluster) (s.cluster.step dep)).map fun cluster =>
        { sys := sys, cluster := cluster, ticks := ticks }

/-- No worker is at work. -/
def init : Fenced := {}

/-- The `created_by_epoch` of the jobs, in the order of their commits. -/
def epochs (s : Fenced) : List Nat := s.sys.db.scheduledJobs.map (·.createdByEpoch)

/-- Of a commit: how often the key had been won at the `GET` of the tick's second check. -/
def seen? (s : Fenced) : Action → Option Nat
  | .commit k =>
    match s.ticks k with
    | .writing _ n => some n
    | _ => none
  | _ => none

/-- The instance of which a `SET` reaches Redis after its `try_acquire` has raised. -/
def late? (s : Fenced) : Action → Option Nat
  | .election b => s.cluster.late? b
  | _ => none

/-- Where a tick commits, nobody has won the key since the `GET` of its second check. -/
def Undisturbed (s : Fenced) (a : Action) (_ : Fenced) : Prop :=
  ∀ n ∈ s.seen? a, s.cluster.store.terms.length = n

/-- No `SET` of a scheduler reaches Redis after its `try_acquire` has raised. -/
def InTime (s : Fenced) (a : Action) (_ : Fenced) : Prop :=
  ∀ k ∈ s.late? a, role k ≠ .scheduler

instance {s s' : Fenced} {a : Action} : Decidable (Undisturbed s a s') :=
  inferInstanceAs (Decidable (∀ n ∈ s.seen? a, _))

instance {role : Nat → Role} {s s' : Fenced} {a : Action} : Decidable (InTime role s a s') :=
  inferInstanceAs (Decidable (∀ k ∈ s.late? a, _))

variable {env dep role} {s s' : Fenced} {a : Action}

theorem step_cases (h : step env dep role s a = some s') :
    ∃ a? b?, s.plan role a = some (a?, b?, s'.ticks) ∧
      a?.elim (some s.sys) (s.sys.step env) = some s'.sys ∧
      b?.elim (some s.cluster) (s.cluster.step dep) = some s'.cluster := by
  obtain ⟨⟨a?, b?, ticks⟩, hp, h⟩ := Option.bind_eq_some_iff.mp h
  obtain ⟨sys, hsys, h⟩ := Option.bind_eq_some_iff.mp h
  obtain ⟨cluster, hcl, rfl⟩ := Option.map_eq_some_iff.mp h
  exact ⟨a?, b?, hp, hsys, hcl⟩

/-- The steps, one constructor for each. -/
inductive Move (env : Env) (dep : Deployment) (role : Nat → Role) (s : Fenced) :
    Action → Fenced → Prop where
  | system {a sys} (hs : a.scheduler? = none) (hp : a.produces = false)
    (h : s.sys.step env a = some sys) : Move env dep role s (.system a) { s with sys := sys }
  | election {b c} (hf : free role b = true) (h : s.cluster.step dep b = some c) :
    Move env dep role s (.election b) { s with cluster := c, ticks := s.noted b }
  | acquire {k c} (hr : role k = .scheduler) (ht : s.ticks k = .idle)
    (h : s.cluster.step dep (.tryAcquire k 0) = some c) :
    Move env dep role s (.acquire k)
      { s with cluster := c, ticks := Function.update s.ticks k .acquiring }
  | verify {k sys c} (ht : s.ticks k = .acquiring)
    (hp : (s.cluster.instances k).calls 0 = .ended (some true))
    (hs : s.sys.step env (.schedule k .start) = some sys)
    (hc : s.cluster.step dep (.verifyStillLeader k 0) = some c) :
    Move env dep role s (.verify k)
      { sys := sys
        cluster := c
        ticks := Function.update s.ticks k (.verifying (s.cluster.instances k).epoch) }
  | select {k e order skip sys} (ht : s.ticks k = .verifying e)
    (hs : s.sys.step env (.schedule k (.select e order skip)) = some sys) :
    Move env dep role s (.select k order skip)
      { s with sys := sys, ticks := Function.update s.ticks k (.selected e) }
  | recheck {k e c} (ht : s.ticks k = .selected e)
    (hc : s.cluster.step dep (.verifyStillLeader k 0) = some c) :
    Move env dep role s (.recheck k)
      { s with cluster := c, ticks := Function.update s.ticks k (.rechecking e none) }
  | process {k e n jobId runId sys} (ht : s.ticks k = .writing e n ∨
      s.ticks k = .rechecking e (some n) ∧
        (s.cluster.instances k).calls 0 = .ended (some true))
    (hs : s.sys.step env (.schedule k (.process jobId runId)) = some sys) :
    Move env dep role s (.process k jobId runId)
      { s with sys := sys, ticks := Function.update s.ticks k (.writing e n) }
  | commit {k e n sys} (ht : s.ticks k = .writing e n)
    (hs : s.sys.step env (.schedule k .commit) = some sys) :
    Move env dep role s (.commit k)
      { s with sys := sys, ticks := Function.update s.ticks k .idle }
  | abort {k sys} (hs : s.sys.step env (.schedule k .abort) = some sys) :
    Move env dep role s (.abort k)
      { s with sys := sys, ticks := Function.update s.ticks k .idle }

theorem step_move (h : step env dep role s a = some s') : Move env dep role s a s' := by
  obtain ⟨a?, b?, hp, hs, hc⟩ := step_cases h
  obtain ⟨sys, cluster, ticks⟩ := s'
  dsimp only at hp hs hc
  unfold plan at hp
  split at hp
  · split at hp <;> cases hp
    rename_i hg
    cases hc
    exact .system (Option.isNone_iff_eq_none.mp hg.1) hg.2 hs
  · split at hp <;> cases hp
    cases hs
    exact .election (by assumption) hc
  · split at hp <;> cases hp
    rename_i hg
    cases hs
    exact .acquire hg.1 hg.2 hc
  · split at hp <;> cases hp
    rename_i hg
    exact .verify hg.1 (of_decide_eq_true hg.2) hs hc
  · split at hp
    · split at hp <;> cases hp
      cases hc
      exact .select (by assumption) hs
    · cases hp
  · split at hp <;> cases hp
    cases hs
    exact .recheck (by assumption) hc
  · split at hp
    · split at hp <;> cases hp
      rename_i hp
      cases hc
      exact .process (.inr ⟨by assumption, of_decide_eq_true hp⟩) hs
    · cases hp
      cases hc
      exact .process (.inl (by assumption)) hs
    · cases hp
  · split at hp <;> cases hp
    cases hc
    exact .commit (by assumption) hs
  · split at hp <;> cases hp
    cases hc
    exact .abort hs

/-! ## The elections -/

/-- What holds of Redis and the elections: the schedulers call `try_acquire` one at a time. -/
structure Elected (dep : Deployment) (role : Nat → Role) (c : Cluster) : Prop where
  keyed : c.Keyed dep
  carried : c.Carried
  numbered : c.Numbered
  led : ∀ k, role k = .scheduler → Led c.store.terms k (c.instances k)

theorem Elected.init : Elected dep role Cluster.init where
  keyed := Cluster.Keyed.init
  carried := Cluster.Carried.init
  numbered := Cluster.Numbered.init
  led _ _ := Led.init

theorem Elected.step {c c' : Cluster} {b : Redis.Action} (hI : Elected dep role c)
    (h : c.step dep b = some c')
    (hone : ∀ k j, b = .tryAcquire k j → role k = .scheduler → j = 0)
    (hlate : ∀ k, role k = .scheduler → c.late? b ≠ some k) : Elected dep role c' where
  keyed := hI.keyed.step h
  carried := hI.carried.step h
  numbered := hI.numbered.step h
  led k hk := (hI.led k hk).step hI.carried h (fun j hb => hone k j hb hk) (hlate k hk)

/-- The election in a step of the whole. -/
theorem Move.elected (hI : Elected dep role s.cluster) (h : Move env dep role s a s')
    (hlate : InTime role s a s') : Elected dep role s'.cluster := by
  cases h with
  | system | select | process | commit | abort => exact hI
  | @election b c hf h =>
    refine hI.step h (fun k j hb hk => ?_) fun k hk hb => hlate k hb hk
    subst hb
    simp [free, hk] at hf
  | acquire hr ht h =>
    refine hI.step h (fun k j hb _ => ?_) fun k _ => nofun
    cases hb
    rfl
  | verify ht hp hs hc => exact hI.step hc nofun fun k _ => nofun
  | recheck ht hc => exact hI.step hc nofun fun k _ => nofun

/-! ## The ticks -/

theorem noted_of_ne {b : Redis.Action} {k : Nat} (h : b ≠ .exec k (.call 0)) :
    s.noted b k = s.ticks k := by
  unfold noted
  split
  · rename_i i
    have hki : k ≠ i := by
      rintro rfl
      exact h rfl
    cases s.ticks i with
    | rechecking => exact Function.update_of_ne hki ..
    | _ => rfl
  · rfl

theorem noted_self {k e : Nat} {o : Option Nat} (h : s.ticks k = .rechecking e o) :
    s.noted (.exec k (.call 0)) k = .rechecking e (some s.cluster.store.terms.length) := by
  simp [noted, h]

/-- A note changes a tick in its second check only. -/
theorem noted_cases (b : Redis.Action) (k : Nat) : s.noted b k = s.ticks k ∨
    ∃ e o, s.ticks k = .rechecking e o ∧
      s.noted b k = .rechecking e (some s.cluster.store.terms.length) := by
  by_cases hb : b = .exec k (.call 0)
  · subst hb
    cases ht : s.ticks k with
    | rechecking e o => exact .inr ⟨e, o, rfl, noted_self ht⟩
    | _ => exact .inl (by simp [noted, ht])
  · exact .inl (noted_of_ne hb)

theorem noted_epoch? (b : Redis.Action) (k : Nat) :
    (s.noted b k).epoch? = (s.ticks k).epoch? := by
  rcases s.noted_cases b k with h | ⟨e, o, ht, h⟩
  · rw [h]
  · rw [h, ht]
    rfl

/-- A call of one instance leaves Redis and the other instances as they are. -/
theorem start_frame {c c' : Cluster} {k j : Nat} {m : Redis.Instance → Redis.Instance × Redis.Call}
    (h : c.start k j m = some c') :
    c'.store = c.store ∧ ∀ i, i ≠ k → c'.instances i = c.instances i := by
  obtain ⟨-, rfl⟩ := Cluster.start_eq h
  exact ⟨rfl, fun i hi => Function.update_of_ne hi ..⟩

/-- What a step of a scheduler does to the open transactions. -/
theorem schedule_opened {sys sys' : Sys} {k : Nat} {b : Scheduler.Action}
    (h : sys.step env (.schedule k b) = some sys') :
    (∀ i, i ≠ k → sys'.schedulers i = sys.schedulers i) ∧
    ∀ e since todo ws, sys'.schedulers k = .opened e since todo ws →
      (∃ order skip, b = .select e order skip ∧ ws = []) ∨
      ∃ jobId runId since' todo' ws', b = .process jobId runId ∧
        sys.schedulers k = .opened e since' todo' ws' ∧ ∀ w ∈ ws, w ∈ ws' ∨ w.epoch = e := by
  obtain ⟨st, t, db', hst, -, -, -, rfl⟩ := Sys.step_schedule h
  refine ⟨fun i hi => Function.update_of_ne hi .., fun e since todo ws hp => ?_⟩
  simp only [Function.update_self] at hp
  have hm := Scheduler.step_move hst
  generalize hq : sys.schedulers k = q at hm
  rw [hp] at hm
  cases hm with
  | select => exact .inl ⟨_, _, rfl, rfl⟩
  | @process _ _ b' _ ws' jobId runId =>
    refine .inr ⟨jobId, runId, _, _, ws', rfl, rfl, fun w hw => ?_⟩
    rcases List.mem_append.mp hw with hw | hw
    · exact .inl hw
    · obtain ⟨f, -, rfl⟩ := Option.map_eq_some_iff.mp (Option.mem_toList.mp hw)
      exact .inr rfl

/-- The answer of the second check that lets a tick go on. -/
def Answered (dep : Deployment) (s : Fenced) (k : Nat) : Prop :=
  (s.cluster.instances k).calls 0 = .replied .get (.bulk (dep.token k)) ∨
    (s.cluster.instances k).calls 0 = .ended (some true)

/-- What holds of the ticks. -/
structure Ticking (dep : Deployment) (role : Nat → Role) (s : Fenced) : Prop where
  scheduler : ∀ k, s.ticks k ≠ .idle → role k = .scheduler
  /-- The epoch of a tick is that of its election, which stays as it is until the tick ends. -/
  epoch : ∀ k e, (s.ticks k).epoch? = some e → e = (s.cluster.instances k).epoch ∧
    ((s.cluster.instances k).calls 0).trying = false
  /-- The last of the wins that the second check has seen is that of the tick's epoch. -/
  checked : ∀ k e n, s.ticks k = .rechecking e (some n) ∧ s.Answered dep k ∨
    s.ticks k = .writing e n →
      ∃ m, m + 1 = n ∧ Owns s.cluster.store.terms k (s.cluster.instances k) m (some e)
  opened : ∀ k e since todo ws, s.sys.schedulers k = .opened e since todo ws →
    (s.ticks k).epoch? = some e ∧ ∀ w ∈ ws, w.epoch = e

theorem Ticking.init : Ticking dep role init where
  scheduler k h := absurd rfl h
  epoch := nofun
  checked k e n h := by rcases h with ⟨h, -⟩ | h <;> cases h
  opened := nofun

/-- The tick of the scheduler `k` goes on to `t`, without a step of its election. -/
theorem Ticking.advance (hI : Ticking dep role s) {sys : Sys} {k : Nat} {t : Tick}
    (hidle : t ≠ .idle → s.ticks k ≠ .idle)
    (hepoch : ∀ e, t.epoch? = some e → (s.ticks k).epoch? = some e)
    (hre : ∀ e o, t ≠ .rechecking e o)
    (hwrite : ∀ e n, t = .writing e n →
      s.ticks k = .rechecking e (some n) ∧ s.Answered dep k ∨ s.ticks k = .writing e n)
    (hother : ∀ i, i ≠ k → sys.schedulers i = s.sys.schedulers i)
    (hopen : ∀ e since todo ws, sys.schedulers k = .opened e since todo ws →
      t.epoch? = some e ∧ ∀ w ∈ ws, w.epoch = e) :
    Ticking dep role { s with sys := sys, ticks := Function.update s.ticks k t } where
  scheduler i hi := by
    by_cases hik : i = k
    · subst hik
      simp only [Function.update_self] at hi
      exact hI.scheduler i (hidle hi)
    · simp only [Function.update_of_ne hik] at hi
      exact hI.scheduler i hi
  epoch i e hi := by
    by_cases hik : i = k
    · subst hik
      simp only [Function.update_self] at hi
      exact hI.epoch i e (hepoch e hi)
    · simp only [Function.update_of_ne hik] at hi
      exact hI.epoch i e hi
  checked i e n hi := by
    by_cases hik : i = k
    · subst hik
      simp only [Function.update_self] at hi
      rcases hi with ⟨hi, -⟩ | hi
      · exact absurd hi (hre e _)
      · exact hI.checked i e n (hwrite e n hi)
    · simp only [Function.update_of_ne hik] at hi
      exact hI.checked i e n hi
  opened i e since todo ws hi := by
    by_cases hik : i = k
    · subst hik
      simp only [Function.update_self]
      exact hopen e since todo ws hi
    · simp only [Function.update_of_ne hik]
      exact hI.opened i e since todo ws ((hother i hik).symm.trans hi)

/-- The tick of the scheduler `k` calls a method of its election. -/
theorem Ticking.call (hI : Ticking dep role s) {sys : Sys} {c : Cluster} {k : Nat} {t : Tick}
    {m : Redis.Instance → Redis.Instance × Redis.Call} (hc : s.cluster.start k 0 m = some c)
    (hk : role k = .scheduler)
    (hepoch : ∀ e, t.epoch? = some e →
      e = (c.instances k).epoch ∧ ((c.instances k).calls 0).trying = false)
    (hcheck : ∀ e n, t ≠ .rechecking e (some n) ∧ t ≠ .writing e n)
    (hother : ∀ i, i ≠ k → sys.schedulers i = s.sys.schedulers i)
    (hopen : ∀ e since todo ws, sys.schedulers k = .opened e since todo ws →
      t.epoch? = some e ∧ ∀ w ∈ ws, w.epoch = e) :
    Ticking dep role { sys := sys, cluster := c, ticks := Function.update s.ticks k t } := by
  obtain ⟨hstore, hinst⟩ := start_frame hc
  refine ⟨fun i hi => ?_, fun i e hi => ?_, fun i e n hi => ?_, fun i e since todo ws hi => ?_⟩
  · by_cases hik : i = k
    · rwa [hik]
    · simp only [Function.update_of_ne hik] at hi
      exact hI.scheduler i hi
  · by_cases hik : i = k
    · subst hik
      simp only [Function.update_self] at hi
      exact hepoch e hi
    · simp only [Function.update_of_ne hik] at hi
      rw [show c.instances i = _ from hinst i hik]
      exact hI.epoch i e hi
  · by_cases hik : i = k
    · subst hik
      simp only [Function.update_self] at hi
      rcases hi with ⟨hi, -⟩ | hi
      · exact absurd hi (hcheck e n).1
      · exact absurd hi (hcheck e n).2
    · simp only [Function.update_of_ne hik, Answered, hinst i hik] at hi
      simp only [hstore, hinst i hik]
      exact hI.checked i e n hi
  · by_cases hik : i = k
    · subst hik
      simp only [Function.update_self]
      exact hopen e since todo ws hi
    · simp only [Function.update_of_ne hik]
      exact hI.opened i e since todo ws ((hother i hik).symm.trans hi)

/-- A step of the election that is not the tick's to take. -/
theorem Ticking.election (hI : Ticking dep role s) (hE : Elected dep role s.cluster)
    {b : Redis.Action} {c : Cluster} (hf : free role b = true) (h : s.cluster.step dep b = some c)
    (hlate : ∀ k, role k = .scheduler → s.cluster.late? b ≠ some k)
    (htok : Function.Injective dep.token) :
    Ticking dep role { s with cluster := c, ticks := s.noted b } := by
  have hfree {k : Nat} (hk : role k = .scheduler) (j : Nat) : b ≠ .tryAcquire k j := by
    rintro rfl
    simp [free, hk] at hf
  refine ⟨fun k hk => ?_, fun k e hk => ?_, fun k e n hk => ?_, fun k e since todo ws hk => ?_⟩
  · refine hI.scheduler k fun hidle => hk ?_
    rcases s.noted_cases b k with h | ⟨e, o, ht, -⟩
    · exact h.trans hidle
    · cases hidle.symm.trans ht
  · rw [noted_epoch?] at hk
    obtain ⟨rfl, ht⟩ := hI.epoch k e hk
    have hk' := hI.scheduler k fun hidle => by rw [hidle] at hk; cases hk
    obtain ⟨he, ht', -⟩ := (hE.led k hk').rest hE.carried h ht (hfree hk')
    exact ⟨he.symm, ht'⟩
  · dsimp only at hk
    have hke : (s.ticks k).epoch? = some e := by
      rw [← noted_epoch? b]
      rcases hk with ⟨hk, -⟩ | hk <;> rw [hk] <;> rfl
    obtain ⟨he, ht⟩ := hI.epoch k e hke
    have hk' := hI.scheduler k fun hidle => by rw [hidle] at hke; cases hke
    obtain ⟨-, -, hkeep⟩ := (hE.led k hk').rest hE.carried h ht (hfree hk')
    have hold (hc : s.ticks k = .rechecking e (some n) ∧ s.Answered dep k ∨
        s.ticks k = .writing e n) :
        ∃ m, m + 1 = n ∧ Owns c.store.terms k (c.instances k) m (some e) := by
      obtain ⟨m, hm, ho⟩ := hI.checked k e n hc
      exact ⟨m, hm, hkeep (hlate k hk') m _ ho⟩
    rcases hk with ⟨hk, hans⟩ | hk
    · rcases (hE.led k hk').checked h ht (hfree hk') hans with ⟨hb, hc⟩ | ⟨rfl, hc, hh⟩
      · rw [noted_of_ne hb] at hk
        exact hold (.inl ⟨hk, hc⟩)
      · -- Redis runs the `GET` of the second check, and the instance has the key.
        have hn : n = s.cluster.store.terms.length := by
          rcases s.noted_cases (.exec k (.call 0)) k with hs | ⟨e, o, ht, hs⟩
          · rw [noted_self (hs.symm.trans hk)] at hk
            cases hk
            rfl
          · rw [hs] at hk
            cases hk
            rfl
        obtain ⟨m, hm, ho⟩ := (hE.led k hk').last_of_get htok hE.keyed (by rw [hc]; rfl) hh
        rw [← he] at ho
        exact ⟨m, hm.trans hn.symm, hkeep (hlate k hk') m _ ho⟩
    · rcases s.noted_cases b k with hs | ⟨e, o, ht, hs⟩
      · exact hold (.inr (hs.symm.trans hk))
      · cases hk.symm.trans hs
  · rw [show (Fenced.mk s.sys c (s.noted b)).ticks k = s.noted b k from rfl, noted_epoch?]
    exact hI.opened k e since todo ws hk

theorem Move.ticking (hI : Ticking dep role s) (hE : Elected dep role s.cluster)
    (htok : Function.Injective dep.token) (h : Move env dep role s a s')
    (hlate : InTime role s a s') : Ticking dep role s' := by
  cases h with
  | @system a sys hs hp h =>
    obtain ⟨hsched, -⟩ := Sys.step_locks (fun k b hab => by subst hab; cases hs) h
    refine ⟨hI.scheduler, hI.epoch, hI.checked, fun k e since todo ws hk => ?_⟩
    exact hI.opened k e since todo ws (by rwa [hsched] at hk)
  | @election b c hf h => exact hI.election hE hf h (fun k hk hb => hlate k hb hk) htok
  | @acquire k c hr ht h =>
    refine hI.call h hr nofun (fun _ _ => ⟨nofun, nofun⟩) (fun _ _ => rfl)
      fun e since todo ws hp => ?_
    obtain ⟨he, -⟩ := hI.opened k e since todo ws hp
    rw [ht] at he
    cases he
  | @verify k sys c ht hp hs hc =>
    have hr := hI.scheduler k (by rw [ht]; nofun)
    obtain ⟨hother, hopen⟩ := schedule_opened hs
    obtain ⟨he, ht', -⟩ := (hE.led k hr).rest hE.carried hc (by rw [hp]; rfl) nofun
    refine hI.call hc hr (fun e hepoch => ?_) (fun _ _ => ⟨nofun, nofun⟩) hother
      fun e since todo ws hq => ?_
    · cases hepoch
      exact ⟨he.symm, ht'⟩
    · rcases hopen e since todo ws hq with ⟨_, _, hb, -⟩ | ⟨_, _, _, _, _, hb, -⟩ <;> cases hb
  | @select k e order skip sys ht hs =>
    obtain ⟨hother, hopen⟩ := schedule_opened hs
    refine hI.advance (by simp [ht]) (by simp [ht, Tick.epoch?]) nofun nofun hother
      fun e' since todo ws hq => ?_
    rcases hopen e' since todo ws hq with ⟨_, _, hb, rfl⟩ | ⟨_, _, _, _, _, hb, -⟩ <;> cases hb
    exact ⟨rfl, nofun⟩
  | @recheck k e c ht hc =>
    have hr := hI.scheduler k (by rw [ht]; nofun)
    obtain ⟨rfl, hnt⟩ := hI.epoch k e (by rw [ht]; rfl)
    obtain ⟨he, ht', -⟩ := (hE.led k hr).rest hE.carried hc hnt nofun
    refine hI.call hc hr (fun e hepoch => ?_) (fun _ _ => ⟨nofun, nofun⟩) (fun _ _ => rfl)
      fun e since todo ws hq => ?_
    · cases hepoch
      exact ⟨he.symm, ht'⟩
    · have ho := hI.opened k e since todo ws hq
      rwa [ht] at ho
  | @process k e n jobId runId sys ht hs =>
    obtain ⟨hother, hopen⟩ := schedule_opened hs
    have hepoch : (s.ticks k).epoch? = some e := by
      rcases ht with ht | ⟨ht, -⟩ <;> rw [ht] <;> rfl
    refine hI.advance (fun _ hidle => ?_) (fun e' he => he ▸ hepoch) nofun (fun e' n' hw => ?_)
      hother fun e' since todo ws hq => ?_
    · rw [hidle] at hepoch
      cases hepoch
    · cases hw
      exact ht.symm.imp_left fun h => ⟨h.1, .inr h.2⟩
    · rcases hopen e' since todo ws hq with ⟨_, _, hb, -⟩ | ⟨_, _, since', todo', ws', hb, hp, hw⟩
      · cases hb
      · obtain ⟨he, hws⟩ := hI.opened k e' since' todo' ws' hp
        refine ⟨hepoch.symm.trans he, fun w hmem => ?_⟩
        exact (hw w hmem).elim (hws w) id
  | @commit k e n sys ht hs | @abort k sys hs =>
    obtain ⟨hother, hopen⟩ := schedule_opened hs
    refine hI.advance (fun h => absurd rfl h) nofun nofun nofun hother fun e since todo ws hq => ?_
    rcases hopen e since todo ws hq with ⟨_, _, hb, -⟩ | ⟨_, _, _, _, _, hb, -⟩ <;> cases hb

/-! ## The jobs -/

/-- The epochs of the jobs are in order, and none is above that of the last term. -/
structure Sorted (s : Fenced) : Prop where
  sorted : s.epochs.Pairwise (· ≤ ·)
  below : ∀ e ∈ s.epochs, e ≤ s.cluster.store.leaderEpoch
  last : ∀ e ∈ s.epochs, ∀ n t d, n + 1 = s.cluster.store.terms.length →
    s.cluster.store.terms[n]? = some t → t.epoch = some d → e ≤ d

theorem Sorted.init : Sorted init where
  sorted := List.Pairwise.nil
  below := nofun
  last := nofun

/-- A step of the election: a new term has no epoch, and a new epoch is above all others. -/
theorem Sorted.election (hI : Sorted s) {b : Redis.Action} {c : Cluster} {ticks : Nat → Tick}
    (h : s.cluster.step dep b = some c) : Sorted { s with cluster := c, ticks := ticks } := by
  have hN := Cluster.step_epochs h
  have hG := Cluster.step_terms h
  have hle : s.cluster.store.leaderEpoch ≤ c.store.leaderEpoch := by
    generalize c.store.leaderEpoch = m, c.store.epochs = es at hN
    cases hN <;> omega
  refine ⟨hI.sorted, fun e he => (hI.below e he).trans hle, fun e he n t d hn ht hd => ?_⟩
  dsimp only at hn ht
  generalize c.store.terms = ts at hG hn ht
  cases hG with
  | keep => exact hI.last e he n t d hn ht hd
  | win =>
    rw [List.length_append, List.length_singleton] at hn
    rw [show n = s.cluster.store.terms.length by omega, List.getElem?_concat_length] at ht
    cases ht
    cases hd
  | @incr i m =>
    rw [List.length_modify] at hn
    rw [List.getElem?_modify] at ht
    obtain ⟨u, hu, rfl⟩ := Option.map_eq_some_iff.mp ht
    split at hd
    · cases hd
      exact (hI.below e he).trans (Nat.le_succ _)
    · exact hI.last e he n u d hn hu hd

/-- The jobs after a step of the system that inserts none. -/
theorem epochs_keep {sys sys' : Sys} {a : PaymentScheduler.Action}
    (h : sys.step env a = some sys') (hn : ∀ t, sys.txn? env a = some t → t.newJobs = []) :
    sys'.db.scheduledJobs.map (·.createdByEpoch) = sys.db.scheduledJobs.map (·.createdByEpoch) := by
  have hc := Sys.step_commits h
  cases ht : sys.txn? env a with
  | none =>
    rw [ht] at hc
    rw [show sys'.db = sys.db from hc]
  | some t =>
    rw [ht] at hc
    exact Db.column_keep (fun _ _ => rfl) hc (hn t ht)

/-- A scheduler commits in the last step of its tick only. -/
theorem schedule_txn {sys sys' : Sys} {k : Nat} {b : Scheduler.Action}
    (h : sys.step env (.schedule k b) = some sys') (hb : b ≠ .commit) :
    ∀ t, sys.txn? env (.schedule k b) = some t → t.newJobs = [] := by
  intro t ht
  obtain ⟨st, t', db', hst, ht', -⟩ := Sys.step_schedule h
  rw [ht'] at ht
  generalize sys.schedulers k = q at hst
  cases Scheduler.step_move hst with
  | commit => exact absurd rfl hb
  | _ => cases ht

/-- The commit of a tick: its jobs have the epoch of the tick, and this is that of the last term. -/
theorem Sorted.commit (hI : Sorted s) (hT : Ticking dep role s) (hE : Elected dep role s.cluster)
    {k e n : Nat} {sys : Sys} {ticks : Nat → Tick} (ht : s.ticks k = .writing e n)
    (hn : s.cluster.store.terms.length = n)
    (h : s.sys.step env (.schedule k .commit) = some sys) :
    Sorted { s with sys := sys, ticks := ticks } := by
  obtain ⟨m, hm, ho⟩ := hT.checked k e n (.inr ht)
  have hlast {d : Nat} (hd : d ∈ s.epochs) : d ≤ e :=
    hI.last d hd m _ e (by omega) ho.last.1 rfl
  have hbelow : e ≤ s.cluster.store.leaderEpoch := by
    refine Nat.le_of_lt_succ (hE.numbered.below (some e) ?_ e rfl)
    exact List.mem_map.mpr ⟨_, List.mem_of_getElem? ho.last.1, rfl⟩
  obtain ⟨st, t, db', hst, -, hc, -, rfl⟩ := Sys.step_schedule h
  have hmv := Scheduler.step_move hst
  generalize hq : s.sys.schedulers k = q at hmv
  cases hmv with
  | @commit e' since ws =>
    obtain ⟨he, hws⟩ := hT.opened k e' since [] ws hq
    rw [ht] at he
    cases he
    obtain ⟨l, hl, hmem⟩ := Db.schedule_column (g := fun j => j.createdByEpoch) hc
    have hnew {d : Nat} (hd : d ∈ l) : d = e := by
      obtain ⟨w, hw, rfl⟩ := hmem d hd
      exact hws w hw
    have hall {d : Nat} (hd : d ∈ db'.scheduledJobs.map (·.createdByEpoch)) : d ≤ e := by
      rw [hl] at hd
      rcases List.mem_append.mp hd with hd | hd
      · exact hlast hd
      · exact (hnew hd).le
    refine ⟨?_, fun d hd => (hall hd).trans hbelow, fun d hd n' t d' hn' ht' hd' => ?_⟩
    · rw [epochs, hl]
      refine List.pairwise_append.mpr ⟨hI.sorted, ?_, fun d hd d' hd' => ?_⟩
      · refine List.pairwise_of_forall_mem_list fun d hd d' hd' => ?_
        rw [hnew hd, hnew hd']
      · rw [hnew hd']
        exact hlast hd
    · obtain rfl : n' = m := by
        dsimp only at hn'
        omega
      rw [ho.last.1] at ht'
      cases ht'
      cases hd'
      exact hall hd

theorem Move.sorted (hI : Sorted s) (hT : Ticking dep role s) (hE : Elected dep role s.cluster)
    (h : Move env dep role s a s') (hu : Undisturbed s a s') : Sorted s' := by
  have hkeep {sys : Sys} {ticks : Nat → Tick} (he : sys.db.scheduledJobs.map (·.createdByEpoch) =
      s.sys.db.scheduledJobs.map (·.createdByEpoch)) :
      Sorted { s with sys := sys, ticks := ticks } := by
    refine ⟨?_, ?_, ?_⟩ <;> rw [epochs, he]
    · exact hI.sorted
    · exact hI.below
    · exact hI.last
  cases h with
  | @system a sys hs hp h =>
    refine hkeep (epochs_keep h fun t ht => ?_)
    exact Sys.newJobs_nil h (fun k b hab => by subst hab; cases hs) hp ht
  | election hf h => exact hI.election h
  | acquire hr ht h => exact hI.election h
  | @verify k sys c ht hp hs hc =>
    have hS : Sorted { s with sys := sys } := hkeep (epochs_keep hs (schedule_txn hs nofun))
    exact hS.election hc
  | recheck ht hc => exact hI.election hc
  | select ht hs => exact hkeep (epochs_keep hs (schedule_txn hs nofun))
  | process ht hs => exact hkeep (epochs_keep hs (schedule_txn hs nofun))
  | abort hs => exact hkeep (epochs_keep hs (schedule_txn hs nofun))
  | @commit k e n sys ht hs => exact hI.commit hT hE ht (hu n (by simp [seen?, ht])) hs

/-- In every run of any number of schedulers, with pauses and expiries at any point, where nobody
wins the key between the `GET` of a tick's second check and its commit, and no `SET` of a
`try_acquire` that has raised reaches Redis later: the epochs of the jobs do not decrease in the
order of their commits. -/
theorem epochs_sorted (env : Env) (role : Nat → Role) (htok : Function.Injective dep.token)
    {as : List Action} (hu : Lts.Along (step env dep role) Undisturbed init as)
    (hlate : Lts.Along (step env dep role) (InTime role) init as) :
    Lts.Always (step env dep role) (fun s => s.epochs.Pairwise (· ≤ ·)) init as := by
  refine Lts.always_of_along
    (I := fun s => Elected dep role s.cluster ∧ Ticking dep role s ∧ Sorted s)
    (P := fun s a s' => Undisturbed s a s' ∧ InTime role s a s') ?_ (fun hI => hI.2.2.sorted)
    ⟨Elected.init, Ticking.init, Sorted.init⟩ (hu.and hlate)
  rintro s a s' ⟨hE, hT, hS⟩ ⟨hu, hlate⟩ h
  have hm := step_move h
  exact ⟨hm.elected hE hlate, hm.ticking hT hE htok hlate, hm.sorted hS hT hE hu⟩

end Fenced

/-! ## A deposed leader -/

namespace Demo

open Fenced

/-- Every instance is that of a scheduler. -/
def schedulers : Nat → Role := fun _ => .scheduler

def otherSubId : UUID := 0x00000000000040008000000000000006
def otherJobId : UUID := 0x00000000000040008000000000000007
def otherRunId : UUID := 0x00000000000040008000000000000008

/-- A command of the call 0 of a scheduler, and its reply. -/
def reply (k : Nat) : List Fenced.Action :=
  [.election (.exec k (.call 0)), .election (.resume k 0)]

/-- A tick that becomes the leader, until its second check has answered. -/
def lead (k : Nat) (order skip : List UUID) : List Fenced.Action :=
  [.acquire k] ++ reply k ++ reply k ++ [.verify k] ++ reply k ++
    [.select k order skip, .recheck k] ++ reply k

def create (r : Nat) (id : UUID) : Fenced.Action :=
  .system (.request r (.begin (.create (body policy) id)))

/-- Scheduler 0 pauses before its commit. The key expires, and scheduler 1 becomes the leader and
writes a job of another subscription. -/
def paused : List Fenced.Action :=
  [.system (.advance start), create 0 subId] ++ lead 0 [subId] [] ++
    [.process 0 jobId runId, .election (.advance 15001), create 1 otherSubId] ++
    lead 1 [otherSubId] [subId] ++ [.process 1 otherJobId otherRunId, .commit 1, .commit 0]

/-- The job of the deposed leader is committed last. -/
theorem paused_epochs : ∃ s,
    Lts.run (Fenced.step env Redis.Demo.dep schedulers) Fenced.init paused = some s ∧
      s.epochs = [2, 1] ∧ ¬ s.epochs.Pairwise (· ≤ ·) := by
  obtain ⟨s, hs, hp⟩ := Lts.exists_run (p := fun s : Fenced => decide (s.epochs = [2, 1]))
    (show (Lts.run (Fenced.step env Redis.Demo.dep schedulers) Fenced.init paused).any _ = true by
      decide +kernel)
  have he : s.epochs = [2, 1] := of_decide_eq_true hp
  exact ⟨s, hs, he, by rw [he]; decide⟩

/-- Scheduler 0 commits before the key expires; scheduler 1 finds the job of this window, and writes
that of another subscription. -/
def relieved : List Fenced.Action :=
  [.system (.advance start), create 0 subId] ++ lead 0 [subId] [] ++
    [.process 0 jobId runId, .commit 0, .election (.advance 15001), create 1 otherSubId] ++
    lead 1 [subId, otherSubId] [] ++
    [.process 1 entryId nextId, .process 1 otherJobId otherRunId, .commit 1]

theorem relieved_sorted :
    (∃ s, Lts.run (Fenced.step env Redis.Demo.dep schedulers) Fenced.init relieved = some s ∧
      decide (s.epochs = [1, 2]) = true) ∧
    Lts.Always (Fenced.step env Redis.Demo.dep schedulers) (fun s => s.epochs.Pairwise (· ≤ ·))
      Fenced.init relieved := by
  refine ⟨Lts.exists_run (show (Lts.run (Fenced.step env Redis.Demo.dep schedulers) Fenced.init
    relieved).any _ = true by decide +kernel), ?_⟩
  exact epochs_sorted env schedulers Redis.Demo.token_injective (by decide +kernel)
    (by decide +kernel)

end Demo

end PaymentScheduler
