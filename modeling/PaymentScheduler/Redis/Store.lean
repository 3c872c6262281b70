import Mathlib

/-!
# The keys of the leader election

The part of Redis that `app/infrastructure/redis/leader.py` uses: the leader key with its expiry,
and the counter of the epochs. Each command, and each of the two scripts, is atomic. Times are in
milliseconds.

`terms` is the history of the leader key: one entry for each `SET NX` that found it free, with the
epoch that its `INCR` gave.
-/

namespace PaymentScheduler.Redis

/-- `Settings.LEADER_LOCK_TTL_MS`, and the `_token` of each instance of `LeaderElection`. Redis
refuses an expiry of 0. -/
structure Deployment where
  leaderLockTtlMs : Nat := 15000
  token : Nat → String
  ttl_pos : 0 < leaderLockTtlMs := by decide

/-- A term: the instance that won the key, and its epoch from the `INCR` on. -/
structure Term where
  holder : Nat
  epoch : Option Nat := none
  deriving DecidableEq

structure Store where
  /-- `payment_scheduler:leader`: the token, and the last moment at which the key exists. -/
  leader : Option (String × Nat) := none
  /-- `payment_scheduler:leader_epoch`. -/
  leaderEpoch : Nat := 0
  now : Nat := 0
  terms : List Term := []

/-- The commands of an instance. `incr` names the term that it is for. -/
inductive Command where
  /-- `SET leader token NX PX ttl`. -/
  | set
  /-- `INCR leader_epoch`. -/
  | incr (term : Nat)
  /-- `GET leader`. -/
  | get
  /-- The script of `_renew`. -/
  | renew
  /-- The script of `_release_if_owner`. -/
  | delete
  deriving DecidableEq

/-- The replies. `ok` names the term that the `SET` begins. -/
inductive Reply where
  | nil
  | ok (term : Nat)
  | int (n : Nat)
  | bulk (s : String)
  deriving DecidableEq

/-- `bool(result)`. -/
def Reply.truthy : Reply → Bool
  | nil => false
  | ok _ => true
  | int n => n ≠ 0
  | bulk s => s ≠ ""

namespace Store

/-- The time passes, and the key expires. -/
def advance (s : Store) (t : Nat) : Option Store :=
  if s.now ≤ t then some { s with now := t, leader := s.leader.filter fun (_, e) => t ≤ e }
  else none

/-- `redis.call('GET', KEYS[1]) == ARGV[1]`. -/
def heldBy (s : Store) (token : String) : Bool := s.leader.any fun (v, _) => v = token

/-- The command `c` of the instance `i`. -/
def exec (dep : Deployment) (i : Nat) (s : Store) : Command → Store × Reply
  | .set =>
    match s.leader with
    | some _ => (s, .nil)
    | none =>
      ({ s with
        leader := some (dep.token i, s.now + dep.leaderLockTtlMs)
        terms := s.terms ++ [{ holder := i }] }, .ok s.terms.length)
  | .incr n =>
    ({ s with
      leaderEpoch := s.leaderEpoch + 1
      terms := s.terms.modify n fun t => { t with epoch := some (s.leaderEpoch + 1) } },
      .int (s.leaderEpoch + 1))
  | .get =>
    match s.leader with
    | some (v, _) => (s, .bulk v)
    | none => (s, .nil)
  | .renew =>
    if s.heldBy (dep.token i) then
      ({ s with leader := some (dep.token i, s.now + dep.leaderLockTtlMs) }, .int 1)
    else (s, .int 0)
  | .delete =>
    if s.heldBy (dep.token i) then ({ s with leader := none }, .int 1) else (s, .int 0)

variable {dep : Deployment} {i : Nat} {s : Store} {token : String}

theorem heldBy_iff : s.heldBy token = true ↔ ∃ e, s.leader = some (token, e) := by
  unfold heldBy
  rcases s.leader with _ | ⟨v, e⟩ <;> simp

theorem advance_eq {s' : Store} {t : Nat} (h : s.advance t = some s') :
    s' = { s with now := t, leader := s.leader.filter fun (_, e) => t ≤ e } := by
  unfold advance at h
  split at h
  · exact (Option.some.inj h).symm
  · cases h

@[simp] theorem exec_get : (s.exec dep i .get).1 = s := by
  simp only [exec]
  split <;> rfl

/-- The `SET` finds the key free, or it changes nothing. -/
theorem exec_set (dep : Deployment) (i : Nat) (s : Store) :
    (∃ x, s.leader = some x ∧ s.exec dep i .set = (s, .nil)) ∨
    s.leader = none ∧ s.exec dep i .set =
      ({ s with
        leader := some (dep.token i, s.now + dep.leaderLockTtlMs)
        terms := s.terms ++ [{ holder := i }] }, .ok s.terms.length) := by
  simp only [exec]
  cases hl : s.leader with
  | none => exact .inr ⟨rfl, rfl⟩
  | some x => exact .inl ⟨x, rfl, rfl⟩

/-- The reply to the `GET` is the token of an instance if and only if the instance has the key. -/
theorem exec_get_bulk : (s.exec dep i .get).2 = .bulk token ↔ s.heldBy token = true := by
  simp only [exec, heldBy]
  rcases s.leader with _ | ⟨v, e⟩ <;> simp

/-- The renewal succeeds if and only if the instance has the key. -/
theorem exec_renew_truthy : (s.exec dep i .renew).2.truthy = s.heldBy (dep.token i) := by
  simp only [exec]
  cases h : s.heldBy (dep.token i) <;> simp [Reply.truthy]

end Store

end PaymentScheduler.Redis
