import PaymentScheduler.Lib.Lts

/-!
# `app/infrastructure/messaging/workers.py`

`BaseWorker.run` ticks and sleeps until `_stop` is set. The callback of SIGTERM, which the event
loop runs while a tick or the sleep waits, calls `worker.stop()` and drops the result. `stop` of the
base class is a function; the scheduler and the recovery worker override it by a coroutine function,
whose call runs nothing.

- `step_sigterm`: what the callback does.
- `stopsOnSigterm_iff`: the workers that SIGTERM stops.
-/

namespace PaymentScheduler

namespace BaseWorker

/-- A method without arguments, as far as `_stop` goes: a `def`, or an `async def`. -/
structure Method where
  isCoroutineFunction : Bool
  /-- `_stop` after the body. -/
  body : Bool → Bool

/-- `m()` without `await`: the call of a coroutine function makes a coroutine that does not run. -/
def Method.call (m : Method) (stop : Bool) : Bool :=
  if m.isCoroutineFunction then stop else m.body stop

/-- `stop`. -/
def stop : Method where
  isCoroutineFunction := false
  body _ := true

end BaseWorker

/-- The workers that have a `main`. -/
inductive Worker where
  | scheduler
  | executor
  | recovery
  deriving DecidableEq, Repr

namespace Worker

open BaseWorker (Method)

/-- `stop` of the class: `async def stop` starts with `super().stop()`, and then releases the
leadership and closes Redis. -/
def stop : Worker → Method
  | scheduler | recovery =>
    { isCoroutineFunction := true
      body := BaseWorker.stop.body }
  | executor => BaseWorker.stop

/-- The point that `run` has reached. -/
inductive Point where
  /-- Before the loop. -/
  | started
  | ticking
  | sleeping
  | stopped
  deriving DecidableEq, Repr

structure State where
  /-- `_stop`. -/
  stop : Bool := false
  point : Point := .started

inductive Action where
  /-- `run()` begins. -/
  | enter
  | tickReturns
  /-- The tick raises an exception, which is logged. -/
  | tickRaises
  | wake
  /-- `asyncio.CancelledError`. -/
  | cancel
  /-- The callback of SIGTERM. -/
  | sigterm

/-- `while not self._stop`: the next tick begins, or the loop ends. -/
def loopHead (st : State) : State :=
  { st with point := if st.stop then .stopped else .ticking }

/-- The loop after a tick: `if not self._stop`, it sleeps. -/
def afterTick (st : State) : State :=
  if st.stop then loopHead st else { st with point := .sleeping }

def step (w : Worker) (st : State) : Action → Option State
  | .enter => if st.point = .started then some (loopHead st) else none
  | .tickReturns | .tickRaises => if st.point = .ticking then some (afterTick st) else none
  | .wake => if st.point = .sleeping then some (loopHead st) else none
  | .cancel =>
    if st.point = .ticking ∨ st.point = .sleeping then some { st with point := .stopped } else none
  | .sigterm =>
    if st.point = .ticking ∨ st.point = .sleeping then some { st with stop := w.stop.call st.stop }
    else none

/-- A tick begins with the step. -/
def Begins (a : Action) (st' : State) : Prop := (a = .enter ∨ a = .wake) ∧ st'.point = .ticking

/-- SIGTERM stops the worker: wherever the callback runs, a tick in progress goes on; and afterwards
no tick begins, and the next step that is not a callback again ends the loop. -/
def StopsOnSigterm (w : Worker) : Prop :=
  ∀ before after st st', Lts.run (step w) {} before = some st → step w st .sigterm = some st' →
    st'.point = st.point ∧
      Lts.Along (step w) (fun _ a st' => ¬ Begins a st' ∧ (a = .sigterm ∨ st'.point = .stopped))
        st' after

variable {w : Worker} {st st' : State} {a : Action}

theorem loopHead_of_stop (h : st.stop = true) : (loopHead st).point = .stopped := by
  simp [loopHead, h]

theorem afterTick_of_stop (h : st.stop = true) : afterTick st = loopHead st := by
  simp [afterTick, h]

theorem step_sigterm (h : step w st .sigterm = some st') :
    st'.point = st.point ∧ st'.stop = w.stop.call st.stop := by
  simp only [step] at h
  split at h <;> cases h
  exact ⟨rfl, rfl⟩

/-- The call of `stop` keeps a flag that is set. -/
theorem call_stop (w : Worker) : w.stop.call true = true := by cases w <;> rfl

/-- Where the flag is set, it stays, and the next step ends the loop unless it is a callback. -/
theorem step_of_stop (hs : st.stop = true) (h : step w st a = some st') :
    st'.stop = true ∧ (a = .sigterm ∨ st'.point = .stopped) := by
  cases a with
  | sigterm =>
    rw [(step_sigterm h).2, hs, call_stop]
    exact ⟨rfl, .inl rfl⟩
  | cancel =>
    simp only [step] at h
    split at h <;> cases h
    exact ⟨hs, .inr rfl⟩
  | tickReturns | tickRaises =>
    simp only [step, afterTick_of_stop hs] at h
    split at h <;> cases h
    exact ⟨hs, .inr (loopHead_of_stop hs)⟩
  | enter | wake =>
    simp only [step] at h
    split at h <;> cases h
    exact ⟨hs, .inr (loopHead_of_stop hs)⟩

/-- A step that ends the loop, or runs the callback, begins no tick. -/
theorem not_begins (h : a = .sigterm ∨ st'.point = .stopped) : ¬ Begins a st' := by
  rintro ⟨ha, hp⟩
  obtain rfl | hstopped := h
  · obtain ha | ha := ha <;> cases ha
  · rw [hp] at hstopped
    cases hstopped

/-- SIGTERM stops exactly the workers whose `stop` is not a coroutine function. -/
theorem stopsOnSigterm_iff (w : Worker) :
    StopsOnSigterm w ↔ w.stop.isCoroutineFunction = false := by
  constructor
  · intro h
    by_contra hco
    rw [Bool.not_eq_false] at hco
    -- The callback of the first tick has no effect: the worker sleeps and ticks again.
    have hcall : step w { stop := false, point := .ticking } .sigterm =
        some { stop := false, point := .ticking } := by
      simp [step, BaseWorker.Method.call, hco]
    obtain ⟨-, halong⟩ := h [.enter] [.tickReturns, .wake] _ _ rfl hcall
    obtain ⟨-, hwake⟩ := halong _ rfl
    obtain ⟨⟨hbegins, -⟩, -⟩ := hwake _ rfl
    exact hbegins ⟨.inr rfl, rfl⟩
  · intro hco before after st st' _ hst
    obtain ⟨hpoint, hflag⟩ := step_sigterm hst
    have hstop : st'.stop = true := by
      rw [hflag]
      cases w with
      | executor => rfl
      | scheduler | recovery => cases hco
    refine ⟨hpoint, ?_⟩
    exact Lts.Along.of_inv (I := fun st => st.stop = true) (P := fun _ _ _ => True)
      (fun hs _ h => (step_of_stop hs h).1)
      (fun hs _ h => ⟨not_begins (step_of_stop hs h).2, (step_of_stop hs h).2⟩) hstop
      (Lts.along_of_mem (p := fun _ => True) fun _ _ => trivial)

end Worker

namespace Demo

/-- The scheduler and the recovery worker go on. -/
theorem sigterm_ignored : ¬ ∀ w : Worker, w.StopsOnSigterm := by
  intro h
  obtain ⟨-, halong⟩ := h .scheduler [.enter] [.tickReturns, .wake] _ _ rfl rfl
  obtain ⟨-, hwake⟩ := halong _ rfl
  obtain ⟨⟨hbegins, -⟩, -⟩ := hwake _ rfl
  exact hbegins ⟨.inr rfl, rfl⟩

end Demo

end PaymentScheduler
