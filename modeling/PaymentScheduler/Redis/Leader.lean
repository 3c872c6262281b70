import PaymentScheduler.Redis.Store
import PaymentScheduler.Lib.Lts

/-!
# `app/infrastructure/redis/leader.py`

Any number of instances of `LeaderElection` on one Redis. An instance has its flag and epoch, the
calls of its methods that are in progress, and its heartbeat tasks. A call waits for a command in
two steps: Redis runs the command (`exec`), and later the reply reaches the call (`resume`); in
between anything can happen. An exception ends a call at either point (`error`), and a command
whose call or task has ended can still reach Redis (`stray`).

`step_store` and `step_acts` say once what a step does to Redis and to an instance.
-/

namespace PaymentScheduler.Redis

/-- A task of `_heartbeat_loop`. -/
inductive Heartbeat where
  | created
  /-- In `asyncio.sleep`. -/
  | sleeping
  /-- In `_renew`: the script is sent. -/
  | sent
  /-- In `_renew`: Redis has run the script. -/
  | replied (r : Reply)
  /-- `cancel` was called, the task has not run since. -/
  | cancelling
  | done
  deriving DecidableEq

/-- A call of `try_acquire`, `verify_still_leader` or `release`. -/
inductive Call where
  | sent (c : Command)
  | replied (c : Command) (r : Reply)
  /-- `release` waits for the heartbeat task that it has cancelled. -/
  | stopping (h : Nat)
  /-- It has returned, `release` without a result. -/
  | ended (result : Option Bool)
  | raised
  deriving DecidableEq

/-- Not in progress. -/
def Call.isOver : Call → Bool
  | ended _ | raised => true
  | _ => false

/-- An instance of `LeaderElection`. `_heartbeat_task` is the last of its heartbeats. -/
structure Instance where
  isLeader : Bool := false
  epoch : Nat := 0
  heartbeats : List Heartbeat := []
  calls : Nat → Call := fun _ => .ended none
  /-- Commands on their way, the call or task of which has ended. -/
  stray : List Command := []

/-- Where an instance waits for Redis. -/
inductive Place where
  | call (k : Nat)
  | beat (h : Nat)
  | stray (n : Nat)
  deriving DecidableEq

/-- The reply to the `GET` is the own token. -/
def stillLeader (token : String) (r : Reply) : Bool := r = .bulk token

/-- The command that a task leaves behind when it ends at once. -/
def Heartbeat.unanswered : Heartbeat → List Command
  | sent => [.renew]
  | _ => []

namespace Instance

/-- `cancel` of `_heartbeat_task`, if there is one that is not done. -/
def cancelHeartbeat (x : Instance) : Instance :=
  match x.heartbeats.getLast? with
  | none | some .done => x
  | some b =>
    { x with
      heartbeats := x.heartbeats.set (x.heartbeats.length - 1) .cancelling
      stray := x.stray ++ b.unanswered }

/-- `try_acquire`, until its first command. -/
def tryAcquire (x : Instance) : Instance × Call :=
  (x, if x.isLeader then .ended (some true) else .sent .set)

/-- `verify_still_leader`, until its first command. -/
def verifyStillLeader (x : Instance) : Instance × Call :=
  (x, if x.isLeader then .sent .get else .ended (some false))

/-- `release`, until its first wait. -/
def release (x : Instance) : Instance × Call :=
  if x.isLeader then
    match x.heartbeats.getLast? with
    | none | some .done => (x, .sent .delete)
    | some _ => (x.cancelHeartbeat, .stopping (x.heartbeats.length - 1))
  else (x, .ended none)

/-- A call goes on with the reply that it waited for. -/
def resume (token : String) (x : Instance) : Call → Option (Instance × Call)
  | .replied .set (.ok n) => some (x, .sent (.incr n))
  | .replied .set _ => some (x, .ended (some false))
  | .replied (.incr _) (.int e) =>
    some ({ x with epoch := e, isLeader := true, heartbeats := x.heartbeats ++ [.created] },
      .ended (some true))
  | .replied .get r =>
    if stillLeader token r then some (x, .ended (some true))
    else some ({ x.cancelHeartbeat with isLeader := false }, .ended (some false))
  | .replied .delete _ => some ({ x with isLeader := false }, .ended none)
  | .stopping h => if x.heartbeats[h]? = some .done then some (x, .sent .delete) else none
  | _ => none

/-- `_heartbeat_loop`: the task `h` goes on until its next wait. -/
def beat (x : Instance) (h : Nat) : Option Instance :=
  match x.heartbeats[h]? with
  | some .created =>
    some { x with heartbeats := x.heartbeats.set h (if x.isLeader then .sleeping else .done) }
  | some .sleeping =>
    some { x with heartbeats := x.heartbeats.set h (if x.isLeader then .sent else .done) }
  | some (.replied r) =>
    if r.truthy then
      some { x with heartbeats := x.heartbeats.set h (if x.isLeader then .sleeping else .done) }
    else some { x with heartbeats := x.heartbeats.set h .done, isLeader := false }
  | some .cancelling => some { x with heartbeats := x.heartbeats.set h .done }
  | _ => none

/-- The command that Redis has not run yet. -/
def pending (x : Instance) : Place → Option Command
  | .call k =>
    match x.calls k with
    | .sent c => some c
    | _ => none
  | .beat h => if x.heartbeats[h]? = some .sent then some .renew else none
  | .stray n => x.stray[n]?

/-- The reply to the command `c`. -/
def answered (x : Instance) (c : Command) (r : Reply) : Place → Instance
  | .call k => { x with calls := Function.update x.calls k (.replied c r) }
  | .beat h => { x with heartbeats := x.heartbeats.set h (.replied r) }
  | .stray n => { x with stray := x.stray.eraseIdx n }

/-- The wait for a reply ends with an exception. -/
def error (x : Instance) : Place → Option Instance
  | .call k =>
    match x.calls k with
    | .sent c =>
      some { x with calls := Function.update x.calls k .raised, stray := x.stray ++ [c] }
    | .replied .. => some { x with calls := Function.update x.calls k .raised }
    | _ => none
  | .beat h =>
    match x.heartbeats[h]? with
    | some .sent =>
      some { x with heartbeats := x.heartbeats.set h .done, stray := x.stray ++ [.renew] }
    | some (.replied _) => some { x with heartbeats := x.heartbeats.set h .done }
    | _ => none
  | .stray _ => none

end Instance

/-- Redis and the instances. -/
structure Cluster where
  store : Store := {}
  instances : Nat → Instance := fun _ => {}

/-- The steps of Redis and of the instance `i`: its calls are numbered by `k`. -/
inductive Action where
  | advance (t : Nat)
  | tryAcquire (i k : Nat)
  | verifyStillLeader (i k : Nat)
  | release (i k : Nat)
  /-- Redis runs the command that waits at `p`. -/
  | exec (i : Nat) (p : Place)
  | resume (i k : Nat)
  | beat (i h : Nat)
  | error (i : Nat) (p : Place)
  deriving DecidableEq

/-- The instance of the action. -/
def Action.instance? : Action → Option Nat
  | advance _ => none
  | tryAcquire i _ | verifyStillLeader i _ | release i _ | exec i _ | resume i _ | beat i _
  | error i _ => some i

namespace Cluster

/-- The instance `i` becomes `x`. -/
def set (s : Cluster) (i : Nat) (x : Instance) : Cluster :=
  { s with instances := Function.update s.instances i x }

/-- The call `k` of the instance `i` goes on with `c`. -/
def setCall (s : Cluster) (i k : Nat) (x : Instance) (c : Call) : Cluster :=
  s.set i { x with calls := Function.update x.calls k c }

/-- A method is called, where the call `k` is not in progress. -/
def start (s : Cluster) (i k : Nat) (method : Instance → Instance × Call) : Option Cluster :=
  if ((s.instances i).calls k).isOver then
    some (s.setCall i k (method (s.instances i)).1 (method (s.instances i)).2)
  else none

variable (dep : Deployment)

def step (s : Cluster) : Action → Option Cluster
  | .advance t => (s.store.advance t).map fun st => { s with store := st }
  | .tryAcquire i k => s.start i k Instance.tryAcquire
  | .verifyStillLeader i k => s.start i k Instance.verifyStillLeader
  | .release i k => s.start i k Instance.release
  | .exec i p =>
    ((s.instances i).pending p).map fun c =>
      { store := (s.store.exec dep i c).1
        instances := Function.update s.instances i
          ((s.instances i).answered c (s.store.exec dep i c).2 p) }
  | .resume i k =>
    ((s.instances i).resume (dep.token i) ((s.instances i).calls k)).map fun (x, c) =>
      s.setCall i k x c
  | .beat i h => ((s.instances i).beat h).map (s.set i)
  | .error i p => ((s.instances i).error p).map (s.set i)

/-- No instance has done anything yet. -/
def init : Cluster := {}

def Reachable (s : Cluster) : Prop := Lts.Reach (step dep) init s

/-- The instance and its command that Redis runs in a step. -/
def executed (s : Cluster) : Action → Option (Nat × Command)
  | .exec i p => ((s.instances i).pending p).map fun c => (i, c)
  | _ => none

/-- In the step `a`, the instance `i` wins the key. -/
def Wins (s : Cluster) (a : Action) (i : Nat) : Prop :=
  s.executed a = some (i, .set) ∧ s.store.leader = none

instance {s : Cluster} {a : Action} {i : Nat} : Decidable (s.Wins a i) :=
  inferInstanceAs (Decidable (_ ∧ _))

variable {dep} {s s' : Cluster}

@[simp] theorem set_store {i : Nat} {x : Instance} : (s.set i x).store = s.store := rfl

@[simp] theorem setCall_store {i k : Nat} {x : Instance} {c : Call} :
    (s.setCall i k x c).store = s.store := rfl

theorem start_eq {i k : Nat} {m : Instance → Instance × Call} (h : s.start i k m = some s') :
    ((s.instances i).calls k).isOver = true ∧
      s' = s.setCall i k (m (s.instances i)).1 (m (s.instances i)).2 := by
  unfold start at h
  split at h
  · rename_i hc
    exact ⟨hc, (Option.some.inj h).symm⟩
  · cases h

/-- What a step does to Redis: the time passes, or one command runs, or nothing. -/
theorem step_store {a : Action} (h : s.step dep a = some s') :
    (∃ t, a = .advance t ∧ s.store.advance t = some s'.store) ∨
    (∃ i c, s.executed a = some (i, c) ∧ s'.store = (s.store.exec dep i c).1) ∨
    s.executed a = none ∧ s'.store = s.store := by
  cases a with
  | advance t =>
    obtain ⟨st, hst, rfl⟩ := Option.map_eq_some_iff.mp h
    exact .inl ⟨t, rfl, hst⟩
  | exec i p =>
    obtain ⟨c, hc, rfl⟩ := Option.map_eq_some_iff.mp h
    exact .inr (.inl ⟨i, c, by simp [executed, hc], rfl⟩)
  | tryAcquire i k | verifyStillLeader i k | release i k =>
    obtain ⟨-, rfl⟩ := start_eq h
    exact .inr (.inr ⟨rfl, rfl⟩)
  | resume i k =>
    obtain ⟨⟨x, c⟩, -, rfl⟩ := Option.map_eq_some_iff.mp h
    exact .inr (.inr ⟨rfl, rfl⟩)
  | beat i n | error i n =>
    obtain ⟨x, -, rfl⟩ := Option.map_eq_some_iff.mp h
    exact .inr (.inr ⟨rfl, rfl⟩)

variable {a : Action}

/-- What a step does to the instance `i`, with its state before and after it. -/
inductive Acts (dep : Deployment) (s : Cluster) (i : Nat) :
    Instance → Action → Instance → Prop where
  | other {x a} (ha : a.instance? ≠ some i) : Acts dep s i x a x
  | tryAcquire {x j} (ho : (x.calls j).isOver = true) :
    Acts dep s i x (.tryAcquire i j) { x with
      calls := Function.update x.calls j (if x.isLeader then .ended (some true) else .sent .set) }
  | verifyStillLeader {x j} (ho : (x.calls j).isOver = true) :
    Acts dep s i x (.verifyStillLeader i j) { x with
      calls := Function.update x.calls j (if x.isLeader then .sent .get else .ended (some false)) }
  | release {x j} (ho : (x.calls j).isOver = true) :
    Acts dep s i x (.release i j)
      { x.release.1 with calls := Function.update x.release.1.calls j x.release.2 }
  | exec {x p c} (hc : x.pending p = some c) :
    Acts dep s i x (.exec i p) (x.answered c (s.store.exec dep i c).2 p)
  | resume {x j y c} (hr : x.resume (dep.token i) (x.calls j) = some (y, c)) :
    Acts dep s i x (.resume i j) { y with calls := Function.update y.calls j c }
  | beat {x h y} (hb : x.beat h = some y) : Acts dep s i x (.beat i h) y
  | error {x p y} (he : x.error p = some y) : Acts dep s i x (.error i p) y

/-- A step of the instance `k` is none of the others. -/
theorem Acts.of_update {k : Nat} {y : Instance} (i : Nat)
    (hs : s'.instances = Function.update s.instances k y) (ha : a.instance? = some k)
    (hy : Acts dep s k (s.instances k) a y) : Acts dep s i (s.instances i) a (s'.instances i) := by
  rw [hs]
  by_cases hk : k = i
  · subst hk
    rwa [Function.update_self]
  · rw [Function.update_of_ne (Ne.symm hk)]
    exact .other (by simpa [ha] using hk)

theorem step_acts (i : Nat) (h : s.step dep a = some s') :
    Acts dep s i (s.instances i) a (s'.instances i) := by
  cases a with
  | advance t =>
    obtain ⟨st, -, rfl⟩ := Option.map_eq_some_iff.mp h
    exact .other nofun
  | tryAcquire k j =>
    obtain ⟨ho, rfl⟩ := start_eq h
    exact .of_update i rfl rfl (.tryAcquire ho)
  | verifyStillLeader k j =>
    obtain ⟨ho, rfl⟩ := start_eq h
    exact .of_update i rfl rfl (.verifyStillLeader ho)
  | release k j =>
    obtain ⟨ho, rfl⟩ := start_eq h
    exact .of_update i rfl rfl (.release ho)
  | exec k p =>
    obtain ⟨c, hc, rfl⟩ := Option.map_eq_some_iff.mp h
    exact .of_update i rfl rfl (.exec hc)
  | resume k j =>
    obtain ⟨⟨y, c⟩, hy, rfl⟩ := Option.map_eq_some_iff.mp h
    exact .of_update i rfl rfl (.resume hy)
  | beat k n =>
    obtain ⟨y, hy, rfl⟩ := Option.map_eq_some_iff.mp h
    exact .of_update i rfl rfl (.beat hy)
  | error k p =>
    obtain ⟨y, hy, rfl⟩ := Option.map_eq_some_iff.mp h
    exact .of_update i rfl rfl (.error hy)

end Cluster

end PaymentScheduler.Redis
