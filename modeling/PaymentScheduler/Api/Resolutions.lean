import PaymentScheduler.Api.Requests
import PaymentScheduler.Lib.Lts

/-!
# Resolving a dead letter

`resolve_dlq_entry` in its steps, for `n` requests on one entry: it reads the entry without a lock
and checks it, updates it by its id alone, counts the resolution, and commits in `get_db`. Under
READ COMMITTED the update waits for the row lock of another request (`State.locked`) and then writes
the row again: nothing looks at `resolved_at` a second time.

- `Moves.refines`: the requests of `PaymentScheduler/Api/Requests.lean`, in smaller steps.
- `Stage.step`: what one request after the other does.
- `Raced.step`: two requests that have passed the check have passed it forever.
- `resolvedOnce_iff`: the entry is resolved once iff no request reads it while another one is
  between its read and its commit, and none fails.
-/

namespace PaymentScheduler

namespace Db

/-- `dlq_count`. -/
def unresolved (db : Db) : Nat := (db.deadLetterQueue.filter (·.resolvedAt.isNone)).length

theorem entry?_resolve (db : Db) (id : UUID) (now : Time) (resolvedBy : String) :
    Db.entry? (db.resolve id now resolvedBy) id = (db.entry? id).map fun e =>
      { e with resolvedAt := some now, resolvedBy := some resolvedBy } := by
  have hid : ∀ e : DeadLetterEntry,
      { e with resolvedAt := some now, resolvedBy := some resolvedBy }.id = e.id := fun _ => rfl
  exact (Table.get?_updateKey hid).trans (if_pos rfl)

end Db

namespace Resolutions

/-- The point that a request has reached. -/
inductive Handler where
  | idle
  /-- The entry was there and not resolved. -/
  | checked (resolvedBy : String)
  /-- The `UPDATE` is executed and not committed. -/
  | updated (resolvedBy : String) (resolvedAt : Time)
  /-- After `record_dlq_resolved`. -/
  | recorded (resolvedBy : String) (resolvedAt : Time)
  /-- Status 200, with the entry as it has been updated. -/
  | returned (resolvedBy : String) (resolvedAt : Time)
  | refused (status : Nat)

/-- Between the read and the commit. -/
def Handler.isOpen : Handler → Bool
  | checked _ | updated .. | recorded .. => true
  | idle | returned .. | refused _ => false

/-- The request has responded. -/
def Handler.isDone : Handler → Bool
  | returned .. | refused _ => true
  | idle | checked _ | updated .. | recorded .. => false

theorem Handler.isOpen_of_isDone {p : Handler} (h : p.isDone = true) : p.isOpen = false := by
  cases p <;> first | rfl | cases h

/-- What the request has added to `dlq_resolved_total`. -/
def Handler.counted : Handler → Nat
  | recorded .. | returned .. => 1
  | _ => 0

structure State (n : Nat) where
  db : Db
  clock : Time
  /-- The request whose transaction has locked the row. -/
  locked : Option (Fin n) := none
  handlers : Fin n → Handler := fun _ => .idle
  dlqEntriesTotal : Nat
  dlqResolvedTotal : Nat

inductive Action (n : Nat) where
  | advance (t : Time)
  /-- `db.get` and the checks. -/
  | get (r : Fin n) (resolvedBy : String)
  | update (r : Fin n)
  | record (r : Fin n)
  | commit (r : Fin n)
  /-- An exception, and the rollback in `get_db_session`. -/
  | rollback (r : Fin n)

variable {n : Nat}

/-- The request that takes an action. -/
def Action.request? : Action n → Option (Fin n)
  | advance _ => none
  | get r _ | update r | record r | commit r | rollback r => some r

/-- The checks on the entry that was read. -/
def check (db : Db) (id : UUID) (resolvedBy : String) : Handler :=
  match db.entry? id with
  | none => .refused 404
  | some e => if e.resolvedAt.isSome then .refused 409 else .checked resolvedBy

def State.goto (s : State n) (r : Fin n) (p : Handler) : State n :=
  { s with handlers := Function.update s.handlers r p }

theorem State.goto_self (s : State n) (r : Fin n) (p : Handler) :
    (s.goto r p).handlers r = p := by simp [State.goto]

theorem State.goto_other (s : State n) {q r : Fin n} (p : Handler) (h : q ≠ r) :
    (s.goto r p).handlers q = s.handlers q := by simp [State.goto, h]

/-- A step of the requests on the entry `id`. -/
def step (id : UUID) (s : State n) : Action n → Option (State n)
  | .advance t => if s.clock ≤ t then some { s with clock := t } else none
  | .get r resolvedBy =>
    match s.handlers r with
    | .idle => some (s.goto r (check s.db id resolvedBy))
    | _ => none
  | .update r =>
    match s.handlers r with
    | .checked resolvedBy =>
      if s.locked = none ∧ isVarchar resolvedBy then
        some { s.goto r (.updated resolvedBy s.clock) with locked := some r }
      else none
    | _ => none
  | .record r =>
    match s.handlers r with
    | .updated resolvedBy resolvedAt =>
      some { s.goto r (.recorded resolvedBy resolvedAt) with
        dlqResolvedTotal := s.dlqResolvedTotal + 1 }
    | _ => none
  | .commit r =>
    match s.handlers r with
    | .recorded resolvedBy resolvedAt =>
      some { s.goto r (.returned resolvedBy resolvedAt) with
        db := s.db.resolve id resolvedAt resolvedBy
        locked := none }
    | _ => none
  | .rollback r =>
    if (s.handlers r).isOpen then
      some { s.goto r (.refused 500) with
        locked := if s.locked = some r then none else s.locked }
    else none

/-- The steps, one constructor for each. -/
inductive Moves (id : UUID) (s : State n) : Action n → State n → Prop where
  | advance {t} : Moves id s (.advance t) { s with clock := t }
  | get {r resolvedBy} (hr : s.handlers r = .idle) :
    Moves id s (.get r resolvedBy) (s.goto r (check s.db id resolvedBy))
  | update {r resolvedBy} (hr : s.handlers r = .checked resolvedBy) (hl : s.locked = none) :
    Moves id s (.update r)
      { s.goto r (.updated resolvedBy s.clock) with locked := some r }
  | record {r resolvedBy resolvedAt} (hr : s.handlers r = .updated resolvedBy resolvedAt) :
    Moves id s (.record r)
      { s.goto r (.recorded resolvedBy resolvedAt) with
        dlqResolvedTotal := s.dlqResolvedTotal + 1 }
  | commit {r resolvedBy resolvedAt} (hr : s.handlers r = .recorded resolvedBy resolvedAt) :
    Moves id s (.commit r)
      { s.goto r (.returned resolvedBy resolvedAt) with
        db := s.db.resolve id resolvedAt resolvedBy
        locked := none }
  | rollback {r} (hr : (s.handlers r).isOpen = true) :
    Moves id s (.rollback r)
      { s.goto r (.refused 500) with
        locked := if s.locked = some r then none else s.locked }

variable {id : UUID} {s s' s₀ : State n} {a : Action n}

theorem step_moves (h : step id s a = some s') : Moves id s a s' := by
  cases a with
  | advance t =>
    simp only [step] at h
    split at h <;> cases h
    exact .advance
  | get r resolvedBy =>
    simp only [step] at h
    split at h <;> cases h
    rename_i hr
    exact .get hr
  | update r =>
    simp only [step] at h
    split at h
    · rename_i resolvedBy hr
      split at h <;> cases h
      rename_i hl
      exact .update hr hl.1
    · cases h
  | record r =>
    simp only [step] at h
    split at h <;> cases h
    rename_i hr
    exact .record hr
  | commit r =>
    simp only [step] at h
    split at h <;> cases h
    rename_i hr
    exact .commit hr
  | rollback r =>
    simp only [step] at h
    split at h <;> cases h
    rename_i hr
    exact .rollback hr

/-- A step keeps the other requests. -/
theorem Moves.other (h : Moves id s a s') {q : Fin n} (hq : a.request? ≠ some q) :
    s'.handlers q = s.handlers q := by
  cases h with
  | advance => rfl
  | _ =>
    refine State.goto_other s _ fun hqr => hq ?_
    rw [hqr]
    rfl

/-- The request as the system has it, where the update and the commit are one step. -/
def Handler.request (id : UUID) : Handler → Api.State
  | idle => .idle
  | checked resolvedBy | updated resolvedBy _ | recorded resolvedBy _ => .resolving id resolvedBy
  | returned .. => .responded 200
  | refused status => .responded status

theorem begin_eq (env : Env) (db : Db) (now : Time) (resolvedBy : String) :
    Api.begin env db now (.resolve id resolvedBy) =
      ((check db id resolvedBy).request id, none) := by
  cases he : db.entry? id with
  | none => simp only [Api.begin, check, he, Handler.request]
  | some e =>
    simp only [Api.begin, check, he]
    split <;> rfl

/-- A step is one of the request as the system has it, with its transaction, or changes neither the
request nor the rows. -/
theorem Moves.refines (env : Env) (h : Moves id s a s') (r : Fin n) :
    ((s'.handlers r).request id = (s.handlers r).request id) ∨
    ∃ now b t, Api.step env s.db now ((s.handlers r).request id) b =
        some ((s'.handlers r).request id, t) ∧
      (t = none → s'.db = s.db) ∧ ∀ t', t = some t' → t'.apply s.db = some s'.db := by
  by_cases ha : a.request? = some r
  · cases h with
    | advance => cases ha
    | @get q resolvedBy hr =>
      cases ha
      refine .inr ⟨0, .begin (.resolve id resolvedBy), none, ?_, fun _ => rfl,
        fun t ht => by cases ht⟩
      simp only [State.goto_self, hr, Handler.request, Api.step, begin_eq]
    | update hr hl =>
      cases ha
      exact .inl (by simp only [State.goto_self, hr, Handler.request])
    | record hr =>
      cases ha
      exact .inl (by simp only [State.goto_self, hr, Handler.request])
    | @commit q resolvedBy resolvedAt hr =>
      cases ha
      refine .inr ⟨resolvedAt, .commit, some (.resolve id resolvedAt resolvedBy), ?_, ?_, ?_⟩
      · simp only [State.goto_self, hr, Handler.request, Api.step]
      · intro ht
        cases ht
      · intro t ht
        cases ht
        rfl
    | rollback hr =>
      cases ha
      refine .inr ⟨0, .abort, none, ?_, fun _ => rfl, fun t ht => by cases ht⟩
      simp only [State.goto_self, Handler.request]
      cases hp : s.handlers r <;> first | rfl | (rw [hp] at hr; cases hr)
  · exact .inl (by rw [h.other ha])

/-! ## The property -/

/-- An unresolved entry, no request, and metrics that agree with the table. -/
structure Start (id : UUID) (s : State n) : Prop where
  ids : Table.Unique (·.id) s.db.deadLetterQueue
  entry : ∃ e, s.db.entry? id = some e ∧ e.resolvedAt = none
  idle : ∀ r, s.handlers r = .idle
  free : s.locked = none
  difference : (s.dlqEntriesTotal : Int) - s.dlqResolvedTotal = s.db.unresolved

/-- The step does not overwrite a resolution. -/
def Keeps (id : UUID) (s : State n) (_ : Action n) (s' : State n) : Prop :=
  ∀ e, s.db.entry? id = some e → e.resolvedAt.isSome = true → s'.db.entry? id = some e

/-- What the requests do to the entry in a run from `s₀` to `s`. -/
structure ResolvedOnce (id : UUID) (s₀ : State n) (as : List (Action n)) (s : State n) :
    Prop where
  /-- One request succeeds and all others get 409; the stored fields are those of the former. -/
  once : ∃ r resolvedBy resolvedAt e, s.handlers r = .returned resolvedBy resolvedAt ∧
    (∀ q, q ≠ r → s.handlers q = .refused 409) ∧ s.db.entry? id = some e ∧
    e.resolvedBy = some resolvedBy ∧ e.resolvedAt = some resolvedAt
  kept : Lts.Along (step id) (Keeps id) s₀ as
  counted : s.dlqResolvedTotal = s₀.dlqResolvedTotal + 1
  difference : (s.dlqEntriesTotal : Int) - s.dlqResolvedTotal = s.db.unresolved

/-- A request reads the entry while no request is between its read and its commit, and none
fails. -/
def Serial (s : State n) (a : Action n) (_ : State n) : Prop :=
  match a with
  | .get .. => ∀ q, (s.handlers q).isOpen = false
  | .rollback _ => False
  | _ => True

instance (s : State n) (a : Action n) (s' : State n) : Decidable (Serial s a s') := by
  unfold Serial
  cases a <;> infer_instance

/-! ## One request after the other -/

/-- The stages of the entry, from an unresolved one in `s₀`. -/
inductive Stage (id : UUID) (s₀ s : State n) : Prop where
  | waiting (idle : ∀ q, s.handlers q = .idle) (db : s.db = s₀.db) (free : s.locked = none)
    (entries : s.dlqEntriesTotal = s₀.dlqEntriesTotal)
    (total : s.dlqResolvedTotal = s₀.dlqResolvedTotal)
  | working (r : Fin n) (hopen : (s.handlers r).isOpen = true)
    (others : ∀ q, q ≠ r → s.handlers q = .idle) (db : s.db = s₀.db)
    (entries : s.dlqEntriesTotal = s₀.dlqEntriesTotal)
    (total : s.dlqResolvedTotal = s₀.dlqResolvedTotal + (s.handlers r).counted)
  | resolved (r : Fin n) (resolvedBy : String) (resolvedAt : Time)
    (done : s.handlers r = .returned resolvedBy resolvedAt)
    (others : ∀ q, q ≠ r → s.handlers q = .idle ∨ s.handlers q = .refused 409)
    (db : s.db = s₀.db.resolve id resolvedAt resolvedBy)
    (entries : s.dlqEntriesTotal = s₀.dlqEntriesTotal)
    (total : s.dlqResolvedTotal = s₀.dlqResolvedTotal + 1)

theorem Start.stage (h : Start id s₀) : Stage id s₀ s₀ :=
  .waiting h.idle rfl h.free rfl rfl

theorem Start.check_unresolved (h : Start id s₀) (resolvedBy : String) :
    check s₀.db id resolvedBy = .checked resolvedBy := by
  obtain ⟨e, he, hn⟩ := h.entry
  simp [check, he, hn]

theorem Start.check_resolved (h : Start id s₀) (b c : String) (t : Time) :
    check (s₀.db.resolve id t b) id c = .refused 409 := by
  obtain ⟨e, he, -⟩ := h.entry
  simp [check, Db.entry?_resolve, he]

/-- Where a request is open, the entry is as in the beginning, and no other request has come. -/
theorem Stage.open_cases (h : Stage id s₀ s) {r : Fin n} (hr : (s.handlers r).isOpen = true) :
    (∀ q, q ≠ r → s.handlers q = .idle) ∧ s.db = s₀.db ∧
      s.dlqEntriesTotal = s₀.dlqEntriesTotal ∧
      s.dlqResolvedTotal = s₀.dlqResolvedTotal + (s.handlers r).counted := by
  cases h with
  | waiting idle db free entries total =>
    rw [idle r] at hr
    cases hr
  | working q hopen others db entries total =>
    obtain rfl | hrq := eq_or_ne r q
    · exact ⟨others, db, entries, total⟩
    · rw [others r hrq] at hr
      cases hr
  | resolved q b t done others db entries total =>
    obtain rfl | hrq := eq_or_ne r q
    · rw [done] at hr
      cases hr
    · obtain he | he := others r hrq <;> (rw [he] at hr; cases hr)

/-- One unresolved entry less. -/
theorem Start.unresolved (h : Start id s₀) (resolvedBy : String) (t : Time) :
    (s₀.db.resolve id t resolvedBy).unresolved + 1 = s₀.db.unresolved := by
  obtain ⟨e, he, hn⟩ := h.entry
  exact Table.length_filter_updateKey h.ids he (by simp [hn]) rfl

theorem Stage.step (h₀ : Start id s₀) (h : Stage id s₀ s) (hs : Serial s a s')
    (hm : Moves id s a s') : Stage id s₀ s' := by
  cases hm with
  | advance =>
    cases h with
    | waiting idle db free entries total => exact .waiting idle db free entries total
    | working r hopen others db entries total =>
      exact .working r hopen others db entries total
    | resolved r b t done others db entries total =>
      exact .resolved r b t done others db entries total
  | @get r c hr =>
    cases h with
    | waiting idle db free entries total =>
      refine .working r ?_ (fun q hq => ?_) db entries ?_
      · rw [State.goto_self, db, h₀.check_unresolved]
        rfl
      · rw [State.goto_other s _ hq]
        exact idle q
      · rw [State.goto_self, db, h₀.check_unresolved]
        exact total
    | working q hopen others db entries total =>
      -- The request would have read the entry before the commit of `q`.
      rw [hs q] at hopen
      cases hopen
    | resolved q b t done others db entries total =>
      have hqr : q ≠ r := by
        rintro rfl
        rw [hr] at done
        cases done
      refine .resolved q b t ?_ (fun p hp => ?_) db entries total
      · rw [State.goto_other s _ hqr]
        exact done
      · by_cases hpr : p = r
        · subst hpr
          rw [State.goto_self, db, h₀.check_resolved]
          exact .inr rfl
        · rw [State.goto_other s _ hpr]
          exact others p hp
  | @update r b hr hl =>
    obtain ⟨hothers, db, entries, total⟩ := h.open_cases (r := r) (by rw [hr]; rfl)
    refine .working r ?_ (fun q hq => ?_) db entries ?_
    · rw [State.goto_self]
      rfl
    · rw [State.goto_other s _ hq]
      exact hothers q hq
    · rw [State.goto_self]
      rw [hr] at total
      exact total
  | @record r b t hr =>
    obtain ⟨hothers, db, entries, total⟩ := h.open_cases (r := r) (by rw [hr]; rfl)
    refine .working r ?_ (fun q hq => ?_) db entries ?_
    · rw [State.goto_self]
      rfl
    · rw [State.goto_other s _ hq]
      exact hothers q hq
    · rw [State.goto_self]
      rw [hr] at total
      exact congrArg (· + 1) total
  | @commit r b t hr =>
    obtain ⟨hothers, db, entries, total⟩ := h.open_cases (r := r) (by rw [hr]; rfl)
    refine .resolved r b t ?_ (fun q hq => .inl ?_) ?_ entries ?_
    · rw [State.goto_self]
    · rw [State.goto_other s _ hq]
      exact hothers q hq
    · rw [← db]
    · rw [hr] at total
      exact total
  | rollback hr => cases hs

/-- A resolved entry is not written again: no request is open any more. -/
theorem Stage.keeps (h₀ : Start id s₀) (h : Stage id s₀ s) (hm : Moves id s a s') :
    Keeps id s a s' := by
  intro e he hres
  cases hm with
  | commit hr =>
    obtain ⟨-, db, -, -⟩ := h.open_cases (by rw [hr]; rfl)
    obtain ⟨e₀, he₀, hn⟩ := h₀.entry
    rw [db, he₀] at he
    cases he
    rw [hn] at hres
    cases hres
  | _ => exact he

/-- The last stage is the one where all requests have responded. -/
theorem Stage.done (h : Stage id s₀ s) (hn : 0 < n) (hend : ∀ r, (s.handlers r).isDone = true) :
    ∃ r resolvedBy resolvedAt, s.handlers r = .returned resolvedBy resolvedAt ∧
      (∀ q, q ≠ r → s.handlers q = .refused 409) ∧
      s.db = s₀.db.resolve id resolvedAt resolvedBy ∧
      s.dlqEntriesTotal = s₀.dlqEntriesTotal ∧
      s.dlqResolvedTotal = s₀.dlqResolvedTotal + 1 := by
  have hidle {q : Fin n} (hq : s.handlers q = .idle) : False := by
    have := hend q
    rw [hq] at this
    cases this
  cases h with
  | waiting idle => exact (hidle (idle ⟨0, hn⟩)).elim
  | working r hopen =>
    rw [Handler.isOpen_of_isDone (hend r)] at hopen
    cases hopen
  | resolved r b t done others db entries total =>
    exact ⟨r, b, t, done, fun q hq => (others q hq).resolve_left hidle, db, entries, total⟩

/-! ## Races -/

/-- The request has passed the check. -/
def Handler.passed : Handler → Bool
  | checked _ | updated .. | recorded .. | returned .. => true
  | idle => false
  | refused status => status = 500

/-- Two requests have passed the check, or one has failed. -/
def Raced (s : State n) : Prop :=
  (∃ q r, q ≠ r ∧ (s.handlers q).passed = true ∧ (s.handlers r).passed = true) ∨
    ∃ r, s.handlers r = .refused 500

theorem Handler.passed_of_isOpen {p : Handler} (h : p.isOpen = true) : p.passed = true := by
  cases p <;> first | rfl | cases h

theorem Moves.passed (h : Moves id s a s') {q : Fin n} (hq : (s.handlers q).passed = true) :
    (s'.handlers q).passed = true := by
  by_cases ha : a.request? = some q
  · cases h with
    | advance => cases ha
    | get hr =>
      cases ha
      rw [hr] at hq
      cases hq
    | update | record | commit | rollback =>
      cases ha
      rw [State.goto_self]
      rfl
  · rwa [h.other ha]

theorem Moves.failed (h : Moves id s a s') {q : Fin n} (hq : s.handlers q = .refused 500) :
    s'.handlers q = .refused 500 := by
  by_cases ha : a.request? = some q
  · cases h with
    | advance => cases ha
    | get hr | update hr | record hr | commit hr | rollback hr =>
      cases ha
      rw [hq] at hr
      cases hr
  · rwa [h.other ha]

theorem Raced.step (h : Raced s) (hm : Moves id s a s') : Raced s' := by
  obtain ⟨q, r, hqr, hq, hr⟩ | ⟨r, hr⟩ := h
  · exact .inl ⟨q, r, hqr, hm.passed hq, hm.passed hr⟩
  · exact .inr ⟨r, hm.failed hr⟩

/-- A read between the read and the commit of another request passes the check. -/
theorem Stage.raced (h₀ : Start id s₀) (h : Stage id s₀ s) (hm : Moves id s a s')
    (hs : ¬ Serial s a s') : Raced s' := by
  cases hm with
  | @get r c hr =>
    simp only [Serial, not_forall, Bool.not_eq_false] at hs
    obtain ⟨q, hq⟩ := hs
    obtain ⟨-, db, -, -⟩ := h.open_cases hq
    have hqr : q ≠ r := by
      rintro rfl
      rw [hr] at hq
      cases hq
    refine .inl ⟨q, r, hqr, ?_, ?_⟩
    · rw [State.goto_other s _ hqr]
      exact Handler.passed_of_isOpen hq
    · rw [State.goto_self, db, h₀.check_unresolved]
      rfl
  | @rollback r hr => exact .inr ⟨r, State.goto_self s r _⟩
  | _ => exact absurd trivial hs

theorem ResolvedOnce.not_raced {as : List (Action n)} (h : ResolvedOnce id s₀ as s) :
    ¬ Raced s := by
  obtain ⟨r, b, t, e, hr, hothers, -⟩ := h.once
  have hpassed {q : Fin n} (hq : (s.handlers q).passed = true) : q = r := by
    by_contra hne
    rw [hothers q hne] at hq
    cases hq
  rintro (⟨q, q', hne, hq, hq'⟩ | ⟨q, hq⟩)
  · exact hne ((hpassed hq).trans (hpassed hq').symm)
  · have hqr := hpassed (q := q) (by rw [hq]; rfl)
    rw [hqr, hr] at hq
    cases hq

/-- For every number of requests and every run in which all have responded: the entry is resolved
once iff each request reads it while no other one is between its read and its commit, and none
fails. -/
theorem resolvedOnce_iff {as : List (Action n)} (hn : 0 < n) (h₀ : Start id s₀)
    (hr : Lts.run (step id) s₀ as = some s) (hend : ∀ r, (s.handlers r).isDone = true) :
    ResolvedOnce id s₀ as s ↔ Lts.Along (step id) Serial s₀ as := by
  constructor
  · intro h
    refine Lts.along_of_not_run (I := fun s => Stage id s₀ s ∨ Raced s) (B := Raced)
      (P := fun _ _ _ => True) ?_ ?_ ?_ (.inl h₀.stage) (Lts.along_of_mem fun _ _ => trivial) hr
      h.not_raced
    · rintro s a s' (hst | hra) - hs
      · by_cases hser : Serial s a s'
        · exact .inl (hst.step h₀ hser (step_moves hs))
        · exact .inr (hst.raced h₀ (step_moves hs) hser)
      · exact .inr (hra.step (step_moves hs))
    · exact fun hra _ hs => hra.step (step_moves hs)
    · rintro s a s' (hst | hra) - hs hser
      · exact hst.raced h₀ (step_moves hs) hser
      · exact hra.step (step_moves hs)
  · intro hser
    have hstage : Stage id s₀ s := Lts.run_inv_along
      (fun hst hser hs => hst.step h₀ hser (step_moves hs)) h₀.stage hser hr
    obtain ⟨r, b, t, hret, hothers, db, entries, total⟩ := hstage.done hn hend
    obtain ⟨e, he, -⟩ := h₀.entry
    refine ⟨⟨r, b, t, { e with resolvedAt := some t, resolvedBy := some b }, hret, hothers, ?_,
      rfl, rfl⟩, ?_, total, ?_⟩
    · rw [db, Db.entry?_resolve, he]
      rfl
    · exact Lts.Along.of_inv (fun hst hser hs => hst.step h₀ hser (step_moves hs))
        (fun hst _ hs => hst.keeps h₀ (step_moves hs)) h₀.stage hser
    · have hdiff := h₀.difference
      have hcount := h₀.unresolved b t
      rw [← db] at hcount
      rw [entries, total]
      omega

end Resolutions

namespace Demo

open Resolutions (Action)

/-- An unresolved entry, and two requests. -/
def unresolvedEntry : Resolutions.State 2 where
  db :=
    { deadLetterQueue :=
        [{ id := 0x00000000000040008000000000000005
           jobRunId := 0x00000000000040008000000000000003
           jobId := 0x00000000000040008000000000000002
           subscriptionId := 0x00000000000040008000000000000001
           failureReason := "bunq unreachable"
           payloadSnapshot := { paymentConfig := [], attempt := 5, workerId := some "worker-0" }
           createdAt := seconds 1717225200 }] }
  clock := seconds 1717228800
  dlqEntriesTotal := 1
  dlqResolvedTotal := 0

theorem unresolvedEntry_start :
    Resolutions.Start 0x00000000000040008000000000000005 unresolvedEntry where
  ids := List.nodup_singleton _
  entry := ⟨_, rfl, rfl⟩
  idle _ := rfl
  free := rfl
  difference := rfl

/-- Request 1 comes after the commit of request 0. -/
def oneAfterTheOther : List (Action 2) :=
  [.get 0 "alice", .update 0, .record 0, .commit 0, .get 1 "bob"]

/-- Both requests read the entry first. -/
def bothAtOnce : List (Action 2) :=
  [.get 0 "alice", .get 1 "bob", .update 0, .record 0, .commit 0, .update 1, .record 1, .commit 1]

theorem oneAfterTheOther_once : ∃ s,
    Lts.run (Resolutions.step 0x00000000000040008000000000000005) unresolvedEntry
      oneAfterTheOther = some s ∧
    Resolutions.ResolvedOnce 0x00000000000040008000000000000005 unresolvedEntry oneAfterTheOther
      s := by
  have heval : ((Lts.run (Resolutions.step 0x00000000000040008000000000000005) unresolvedEntry
      oneAfterTheOther).any fun s => ∀ r, (s.handlers r).isDone = true) = true := by
    decide +kernel
  obtain ⟨s, hr, hend⟩ := Lts.exists_run heval
  refine ⟨s, hr, (Resolutions.resolvedOnce_iff (by decide) unresolvedEntry_start hr
    (of_decide_eq_true hend)).mpr ?_⟩
  decide +kernel

/-- Both get 200, the second one overwrites the first, and the metric counts two. -/
theorem bothAtOnce_twice : ¬ ∀ (n : Nat) (id : UUID) (s₀ s : Resolutions.State n)
    (as : List (Action n)), 0 < n → Resolutions.Start id s₀ →
    Lts.run (Resolutions.step id) s₀ as = some s → (∀ r, (s.handlers r).isDone = true) →
    Resolutions.ResolvedOnce id s₀ as s := by
  intro h
  have heval : ((Lts.run (Resolutions.step 0x00000000000040008000000000000005) unresolvedEntry
      bothAtOnce).any fun s => decide (∀ r, (s.handlers r).isDone = true) &&
        decide (s.dlqResolvedTotal = 2)) = true := by
    decide +kernel
  obtain ⟨s, hr, hs⟩ := Lts.exists_run heval
  obtain ⟨hend, htotal⟩ := Bool.and_eq_true_iff.mp hs
  have honce := h 2 _ _ s _ (by decide) unresolvedEntry_start hr (of_decide_eq_true hend)
  have hcounted := honce.counted
  rw [of_decide_eq_true htotal] at hcounted
  cases hcounted

end Demo

end PaymentScheduler
